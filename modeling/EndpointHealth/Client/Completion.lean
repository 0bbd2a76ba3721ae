import EndpointHealth.Client.Network
import EndpointHealth.TestRequest
set_option autoImplicit false

/-!
Completions, and what asking a provider for one comes to.
-/

namespace EndpointHealth.Client

structure Completion where
  content : String
  inputTokens : UInt32
  outputTokens : UInt32
  deriving DecidableEq, Repr

inductive Outcome where
  | completed (c : Completion)
  | failed (why : TestError)
  | crashed
  deriving DecidableEq, Repr

/-- The outcome of a client with faults of its own. -/
def Outcome.ofResult {φ : Type} (error : φ → TestError) : Except φ Completion → Outcome
  | .ok c => .completed c
  | .error why => .failed (error why)

/-- What asking came to, and after how many milliseconds. -/
structure Asking where
  lasts : Nat
  outcome : Outcome
  deriving DecidableEq, Repr

def limit (r : TestRequest) : Nat := r.timeout.toNat * 1000

def messages (r : TestRequest) : Json.Value :=
  .list [.record [("role", .text r.role.name), ("content", .text r.content)]]

end EndpointHealth.Client
