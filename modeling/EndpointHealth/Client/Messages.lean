import EndpointHealth.Client.Completion
import EndpointHealth.Endpoint
import EndpointHealth.Http.Reason
set_option autoImplicit false

/-!
The messages interface, which endpoints of the kind `anthropic` offer.
-/

namespace EndpointHealth.Client

/-- Takes a text away from the front of another as often as it stands there. -/
def dropRepeated (p cs : List Char) : List Char :=
  if _h : p ≠ [] ∧ p.isPrefixOf cs then dropRepeated p (cs.drop p.length) else cs
termination_by cs.length
decreasing_by
  have hp := List.length_pos_iff.2 _h.1
  have := (List.isPrefixOf_iff_prefix.1 _h.2).length_le
  simp only [List.length_drop]
  omega

def dropRepeatedEnd (p cs : List Char) : List Char :=
  (dropRepeated p.reverse cs.reverse).reverse

namespace Messages

def usualAddress : String := "https://api.anthropic.com/v1/messages"

/-- The address below a base. The slashes at its end are dropped, and then the version. -/
def addressBelow (base : String) : String :=
  String.ofList (dropRepeatedEnd "/v1".toList (dropRepeatedEnd ['/'] base.toList)) ++ "/v1/messages"

def address (e : Endpoint) : String :=
  match e.apiBase.filter (· ≠ "") with
  | some base => addressBelow base
  | none => usualAddress

def headers (e : Endpoint) : List (String × String) :=
  [("x-api-key", e.apiKey), ("anthropic-version", "2023-06-01")]

def body (e : Endpoint) (r : TestRequest) : Json.Value :=
  .record [("model", .text e.targetModel), ("max_tokens", .ofNat r.maxTokens.toNat),
    ("temperature", .single r.temperature), ("messages", messages r)]

def call (e : Endpoint) (r : TestRequest) : Except CallFault Call := do
  let (credentials, u) ← locate (address e)
  if isHeaderText e.apiKey then prepare credentials u (headers e) (body e r)
  else .error (.notBuilt none)

inductive Fault where
  | call (why : CallFault)
  | timedOut (seconds : UInt64)
  | refused (status : Nat) (text : String)
  | unreadable
  deriving DecidableEq, Repr

def Fault.error : Fault → TestError
  | .call why => .provider why.message
  | .timedOut seconds => .timeout seconds
  | .refused status text =>
    .provider ("Anthropic API error " ++ Http.statusText status ++ ": " ++ text)
  | .unreadable => .unreadable (CallFault.message .cutOff)

def shape : Json.Shape :=
  .record "MessagesResponse"
    (.field .required "content"
      (.list (.record "ContentBlock" (.field .defaulted "text" .text .done)))
    (.field .required "usage"
      (.record "Usage"
        (.field .nullable "input_tokens" .word32
        (.field .nullable "output_tokens" .word32 .done)))
    .done))

def ofRecord : shape.Carrier → Completion
  | (blocks, (input, output, ()), ()) =>
    { content := String.join (blocks.map fun (text, ()) => text.getD "")
      inputTokens := input.getD 0
      outputTokens := output.getD 0 }

def read (status : Nat) (body : Option Bytes) : Except Fault Completion :=
  if Http.isSuccess status then
    match body with
    | none => .error .unreadable
    | some doc =>
      match shape.ofDocument doc with
      | .ok x => .ok (ofRecord x)
      | .error _ => .error .unreadable
  else .error (.refused status (String.ofList (Text.Utf8.decodeLossy (body.getD []))))

abbrev outcome : Except Fault Completion → Outcome := .ofResult Fault.error

variable {ν : Type}

/-- Asks an endpoint for a completion. What comes later than the timeout does not count. -/
def ask (n : Network ν) (e : Endpoint) (r : TestRequest) (start : Nat) (s : ν) : Asking × ν :=
  match call e r with
  | .error why => (⟨0, outcome (.error (.call why))⟩, s)
  | .ok c =>
    let (d, s) := n.send s start c
    match d.after with
    | none => (⟨limit r, outcome (.error (.timedOut r.timeout))⟩, s)
    | some t =>
      if limit r < t then (⟨limit r, outcome (.error (.timedOut r.timeout))⟩, s)
      else
        match d.arrival with
        | .nothing => (⟨t, outcome (.error (.call (.notAnswered c.url)))⟩, s)
        | .answer status body => (⟨t, outcome (read status body)⟩, s)

end Messages
end EndpointHealth.Client
