import EndpointHealth.Json.Shape
set_option autoImplicit false

/-!
The health of an endpoint, as the last probe of it or a manual test found it.
-/

namespace EndpointHealth

inductive Status where
  | pending
  | success
  /-- Every attempt of the last probe failed. -/
  | failure
  deriving DecidableEq, Repr

namespace Status

def name : Status → String
  | pending => "pending"
  | success => "success"
  | failure => "failure"

def shape : Json.Shape := .choice ["pending", "success", "failure"]

def ofIndex (i : Fin 3) : Status :=
  match i with
  | 0 => pending
  | 1 => success
  | 2 => failure

def index : Status → Fin 3
  | pending => 0
  | success => 1
  | failure => 2

@[simp] theorem ofIndex_index (s : Status) : ofIndex s.index = s := by cases s <;> rfl

def toValue (s : Status) : Json.Value := .text s.name

end Status
end EndpointHealth
