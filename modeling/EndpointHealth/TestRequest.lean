import EndpointHealth.Endpoint
set_option autoImplicit false

/-!
One test of an endpoint: the request for a completion, and the ways in which asking can go wrong.
-/

namespace EndpointHealth

inductive Role where
  | user | assistant
  deriving DecidableEq, Repr

namespace Role

def name : Role → String
  | user => "user"
  | assistant => "assistant"

def shape : Json.Shape := .choice ["user", "assistant"]

def ofIndex (i : Fin 2) : Role :=
  match i with
  | 0 => user
  | 1 => assistant

def index : Role → Fin 2
  | user => 0
  | assistant => 1

@[simp] theorem ofIndex_index (r : Role) : ofIndex r.index = r := by cases r <;> rfl

end Role

structure TestRequest where
  endpoint : EndpointId
  role : Role
  content : String
  temperature : Number.Floating
  maxTokens : UInt32
  /-- In seconds. -/
  timeout : UInt64
  deriving DecidableEq, Repr

namespace TestRequest

def shape : Json.Shape :=
  .record "TestModelRequest"
    (.field .required "model_id" .text
    (.field .required "completion_role" Role.shape
    (.field .required "completion_content" .text
    (.field .required "temperature" .single
    (.field .required "max_tokens" .word32
    (.field .required "timeout" .word64 .done))))))

def ofRecord : shape.Carrier → TestRequest
  | (endpoint, role, content, temperature, maxTokens, timeout, ()) =>
    { endpoint, role := .ofIndex role, content, temperature, maxTokens, timeout }

def toRecord (r : TestRequest) : shape.Carrier :=
  (r.endpoint, r.role.index, r.content, r.temperature, r.maxTokens, r.timeout, ())

theorem ofRecord_toRecord (r : TestRequest) : ofRecord r.toRecord = r := by
  simp [ofRecord, toRecord]

def toText (r : TestRequest) : String := (shape.toValue r.toRecord).toText

def ofDocument (doc : Bytes) : Json.Reading TestRequest := (shape.ofDocument doc).map ofRecord

def ofValue? (v : Json.Value) : Option TestRequest := (shape.ofValue? v).map ofRecord

end TestRequest

inductive TestError where
  /-- The provider could not be asked, or refused. -/
  | provider (why : String)
  /-- No answer within so many seconds. -/
  | timeout (seconds : UInt64)
  | unknownEndpoint (id : EndpointId)
  | invalidEndpoint (why : String)
  | unreadable (why : String)
  | registry (why : String)
  deriving DecidableEq, Repr

def TestError.message : TestError → String
  | .provider why => "LLM request failed: " ++ why
  | .timeout s => "Request timed out after " ++ toString s.toNat ++ "s"
  | .unknownEndpoint id => "Model not found: " ++ id
  | .invalidEndpoint why => "Invalid model: " ++ why
  | .unreadable why => "Failed to parse response: " ++ why
  | .registry why => "Registry error: " ++ why

def Provider.unknownName (s : String) : TestError :=
  .invalidEndpoint ("unknown model type '" ++ s ++ "'")

end EndpointHealth
