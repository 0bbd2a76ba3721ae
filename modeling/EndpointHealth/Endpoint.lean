import EndpointHealth.Provider
set_option autoImplicit false

/-!
Model endpoints: what is known of each, and their JSON form, which never shows the key.

Main statement: an endpoint read back from its JSON form differs in the key only
(`ofRecord_toRecord`).
-/

namespace EndpointHealth

abbrev EndpointId := String

structure Endpoint where
  id : EndpointId
  name : String
  provider : Provider
  /-- What the provider calls the model; empty if it uses `name`. -/
  model : String
  /-- Where the provider is, if not at its usual place. -/
  apiBase : Option String
  apiKey : String
  isDefault : Bool
  deriving DecidableEq, Repr

namespace Endpoint

def targetModel (e : Endpoint) : String := if e.model = "" then e.name else e.model

def fields : Json.Fields :=
  .field .required "model_id" .text
  (.field .required "model_name" .text
  (.field .required "model_type" Provider.shape
  (.field .defaulted "provider_model" .text
  (.field .defaulted "api_base" (.optional .text)
  (.field .defaulted "api_key" .text
  (.field .defaulted "is_studio_default" .flag .done))))))

def shape : Json.Shape := .record "ModelEndpoint" fields

def ofRecord : shape.Carrier → Endpoint
  | (id, name, provider, model, apiBase, apiKey, isDefault, ()) =>
    { id, name, provider := .ofIndex provider, model := model.getD "", apiBase := apiBase.getD none
      apiKey := apiKey.getD "", isDefault := isDefault.getD false }

/-- All fields but the key, which is never written. -/
def toRecord (e : Endpoint) : shape.Carrier :=
  (e.id, e.name, e.provider.index, some e.model, some e.apiBase, none, some e.isDefault, ())

theorem ofRecord_toRecord (e : Endpoint) : ofRecord e.toRecord = { e with apiKey := "" } := by
  simp [ofRecord, toRecord]

def toValue (e : Endpoint) : Json.Value := shape.toValue e.toRecord

def toText (e : Endpoint) : String := e.toValue.toText

def ofDocument (doc : Bytes) : Json.Reading Endpoint := (shape.ofDocument doc).map ofRecord

def ofValue? (v : Json.Value) : Option Endpoint := (shape.ofValue? v).map ofRecord

end Endpoint
end EndpointHealth
