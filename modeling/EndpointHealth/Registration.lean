import EndpointHealth.Endpoint
import EndpointHealth.Text.Blank
set_option autoImplicit false

/-!
Requests to register and to edit endpoints, and the rules that a record must meet before it is
stored.

Main statements: an edit that is accepted gives a record that meets the rules
(`refusal_of_apply`) and keeps its id, its provider and its default flag (`apply_fixed`).
-/

namespace EndpointHealth

inductive Refusal where
  /-- A field that this provider needs is blank. -/
  | missing (field : String) (provider : Provider)
  | providerChange
  deriving DecidableEq, Repr

def Refusal.message : Refusal → String
  | .missing field provider =>
    "Please fill in all required fields: " ++ field ++ " is required for " ++ provider.name
      ++ " models."
  | .providerChange => "Cannot change type when editing models."

/-- The first rule that a record breaks, if there is one. -/
def Endpoint.refusal? (e : Endpoint) : Option Refusal :=
  if Text.isBlank e.name then some (.missing "model_name" e.provider)
  else if Text.isBlank e.apiKey then some (.missing "api_key" e.provider)
  else if e.provider.needsApiBase && (e.apiBase.bind Text.nonBlank?).isNone then
    some (.missing "api_base" e.provider)
  else if e.provider.needsModel && Text.isBlank e.model then
    some (.missing "provider_model" e.provider)
  else none

structure Registration where
  name : String
  provider : Provider
  model : String
  apiBase : Option String
  apiKey : String
  makeDefault : Bool
  deriving DecidableEq, Repr

namespace Registration

def shape : Json.Shape :=
  .record "AddModelRequest"
    (.field .required "model_name" .text
    (.field .required "model_type" Provider.shape
    (.field .defaulted "provider_model" .text
    (.field .defaulted "api_base" (.optional .text)
    (.field .defaulted "api_key" .text
    (.field .defaulted "set_as_default" .flag .done))))))

def ofRecord : shape.Carrier → Registration
  | (name, provider, model, apiBase, apiKey, makeDefault, ()) =>
    { name, provider := .ofIndex provider, model := model.getD "", apiBase := apiBase.getD none
      apiKey := apiKey.getD "", makeDefault := makeDefault.getD false }

/-- The record to be stored: names without blanks at their ends, and no blank place. -/
def endpoint (r : Registration) (id : EndpointId) : Endpoint where
  id := id
  name := Text.trim r.name
  provider := r.provider
  model := Text.trim r.model
  apiBase := r.apiBase.bind Text.nonBlank?
  apiKey := r.apiKey
  isDefault := false

end Registration

/-- A request to edit an endpoint. What is missing or blank stays as it is. -/
structure Edit where
  provider : Option Provider
  name : Option String
  model : Option String
  apiBase : Option String
  apiKey : Option String
  deriving DecidableEq, Repr

namespace Edit

def shape : Json.Shape :=
  .record "UpdateModelRequest"
    (.field .defaulted "model_type" (.optional Provider.shape)
    (.field .defaulted "model_name" (.optional .text)
    (.field .defaulted "provider_model" (.optional .text)
    (.field .defaulted "api_base" (.optional .text)
    (.field .defaulted "api_key" (.optional .text) .done)))))

def ofRecord : shape.Carrier → Edit
  | (provider, name, model, apiBase, apiKey, ()) =>
    { provider := (provider.getD none).map .ofIndex, name := name.getD none
      model := model.getD none, apiBase := apiBase.getD none, apiKey := apiKey.getD none }

def given (new : Option String) (old : String) : String := (new.bind Text.nonBlank?).getD old

def merge (r : Edit) (e : Endpoint) : Endpoint :=
  { e with
    name := given r.name e.name
    model := given r.model e.model
    apiBase := (r.apiBase.bind Text.nonBlank?).or e.apiBase
    apiKey := given r.apiKey e.apiKey }

def changesProvider (r : Edit) (e : Endpoint) : Bool :=
  match r.provider with
  | some p => p ≠ e.provider
  | none => false

def apply (r : Edit) (e : Endpoint) : Except Refusal Endpoint :=
  if r.changesProvider e then .error .providerChange
  else match (r.merge e).refusal? with
    | some why => .error why
    | none => .ok (r.merge e)

theorem eq_merge_of_apply {r : Edit} {e e' : Endpoint} (h : r.apply e = .ok e') :
    e' = r.merge e ∧ (r.merge e).refusal? = none := by
  unfold apply at h
  split at h
  · cases h
  split at h
  · cases h
  · rename_i hv
    cases h
    exact ⟨rfl, hv⟩

theorem refusal_of_apply {r : Edit} {e e' : Endpoint} (h : r.apply e = .ok e') :
    e'.refusal? = none := by
  obtain ⟨rfl, hv⟩ := eq_merge_of_apply h
  exact hv

theorem apply_fixed {r : Edit} {e e' : Endpoint} (h : r.apply e = .ok e') :
    e'.id = e.id ∧ e'.provider = e.provider ∧ e'.isDefault = e.isDefault := by
  obtain ⟨rfl, -⟩ := eq_merge_of_apply h
  exact ⟨rfl, rfl, rfl⟩

end Edit

structure TestMessage where
  message : Option String
  deriving DecidableEq, Repr

namespace TestMessage

def shape : Json.Shape :=
  .record "TestModelBody" (.field .defaulted "message" (.optional .text) .done)

def ofRecord : shape.Carrier → TestMessage
  | (message, ()) => ⟨message.getD none⟩

end TestMessage
end EndpointHealth
