import EndpointHealth.Json.Shape
set_option autoImplicit false

/-!
The kinds of provider that can stand behind an endpoint.

Main statement: the name of a provider says which it is (`ofName_name`, `name_of_ofName`).
-/

namespace EndpointHealth

inductive Provider where
  | openai
  | openaiCompatible
  | azureOpenai
  /-- A hosted inference endpoint that answers like `openaiCompatible`. -/
  | caii
  | anthropic
  deriving DecidableEq, Repr

namespace Provider

def name : Provider → String
  | openai => "OPENAI"
  | openaiCompatible => "OPENAI_COMPATIBLE"
  | azureOpenai => "AZURE_OPENAI"
  | caii => "CAII"
  | anthropic => "ANTHROPIC"

def ofName? (s : String) : Option Provider :=
  [openai, openaiCompatible, azureOpenai, caii, anthropic].find? (·.name = s)

/-- Whether an endpoint must say where its provider is. -/
def needsApiBase : Provider → Bool
  | openaiCompatible | azureOpenai | caii => true
  | openai | anthropic => false

/-- Whether an endpoint must say what its provider calls the model. -/
def needsModel : Provider → Bool
  | azureOpenai | caii => true
  | openai | openaiCompatible | anthropic => false

theorem ofName_name (p : Provider) : ofName? p.name = some p := by cases p <;> decide

theorem name_of_ofName {s : String} {p : Provider} (h : ofName? s = some p) : p.name = s := by
  simpa using List.find?_some h

def shape : Json.Shape :=
  .choice ["OPENAI", "OPENAI_COMPATIBLE", "AZURE_OPENAI", "CAII", "ANTHROPIC"]

def ofIndex (i : Fin 5) : Provider :=
  match i with
  | 0 => openai
  | 1 => openaiCompatible
  | 2 => azureOpenai
  | 3 => caii
  | 4 => anthropic

def index : Provider → Fin 5
  | openai => 0
  | openaiCompatible => 1
  | azureOpenai => 2
  | caii => 3
  | anthropic => 4

@[simp] theorem ofIndex_index (p : Provider) : ofIndex p.index = p := by cases p <;> rfl

end Provider
end EndpointHealth
