import EndpointHealth.ServiceError
import EndpointHealth.Status
set_option autoImplicit false

/-!
What the service puts on record while it runs, and how each notice reads.
-/

namespace EndpointHealth

inductive Level where
  | debug | info | warning | error
  deriving DecidableEq, Repr

def Level.name : Level → String
  | debug => "DEBUG"
  | info => "INFO"
  | warning => "WARN"
  | error => "ERROR"

inductive AttemptFailure where
  | failed (why : TestError)
  /-- No answer came in time, which is a second longer than the request's timeout. -/
  | timedOut (timeout : UInt64)
  /-- The answer carries the failure marker. -/
  | rejected (text : String)
  deriving DecidableEq, Repr

/-- A second more than a timeout; the longest timeout can only be made a second less a nanosecond
longer. -/
def boundText (timeout : UInt64) : String :=
  if timeout.toNat + 1 < UInt64.size then toString (timeout.toNat + 1) ++ "s"
  else toString timeout.toNat ++ ".999999999s"

def AttemptFailure.message : AttemptFailure → String
  | .failed why => why.message
  | .timedOut timeout => "no answer within " ++ boundText timeout
  | .rejected text => text

inductive Notice where
  | loadingSettings (path : String)
  | registryReady (path : String)
  | seedsFailed (why : String)
  | seedSkipped (id : EndpointId) (why : Refusal)
  | seedingSkipped (count : Nat)
  | seeded (count : Nat)
  | loaded (count : Nat)
  | listed (name : String) (id : EndpointId) (provider : Provider)
  | registering (name : String) (provider : Provider)
  | registered (name : String) (id : EndpointId)
  | updated (name : String) (id : EndpointId)
  | deleted (id : EndpointId)
  | madeDefault (id : EndpointId)
  | registryFailed (why : String)
  | lockBroken
  | probeRequested (id : EndpointId)
  | probesStarted (count : Nat)
  | attemptPassed (id : EndpointId) (attempt total : Nat)
  | attemptFailed (id : EndpointId) (attempt total : Nat) (why : AttemptFailure)
  | sequenceFailed (id : EndpointId) (attempts : Nat)
  | staleDiscarded (id : EndpointId) (status : Status) (sequence : Nat)
  | testPassed (id : EndpointId)
  | testFailed (id : EndpointId) (text : String)
  | testDiscarded (id : EndpointId)
  | requestFailed (id : EndpointId) (why : TestError)
  deriving DecidableEq, Repr

namespace Notice

def level : Notice → Level
  | staleDiscarded .. | testDiscarded .. => .debug
  | seedsFailed .. | seedSkipped .. | attemptFailed .. | sequenceFailed .. | testFailed ..
  | requestFailed .. => .warning
  | registryFailed .. | lockBroken => .error
  | _ => .info

def message : Notice → String
  | loadingSettings path => "Loading config from " ++ path
  | registryReady path => "Database initialized at " ++ path
  | seedsFailed why => "Failed to load model seeds: " ++ why
  | seedSkipped id why =>
    "Skipping invalid seed " ++ id ++ ": " ++ (ServiceError.refused why).logged
  | seedingSkipped n => "Registry already has " ++ toString n ++ " models, skipping seed"
  | seeded n => "Seeded " ++ toString n ++ " models"
  | loaded n => "Loaded " ++ toString n ++ " registered models"
  | listed name id p => "  - " ++ name ++ " (" ++ id ++ ", " ++ p.name ++ ")"
  | registering name p => "Registering model: " ++ name ++ " (" ++ p.name ++ ")"
  | registered name id => "Registered model: " ++ name ++ " (" ++ id ++ ")"
  | updated name id => "Updated model: " ++ name ++ " (" ++ id ++ ")"
  | deleted id => "Deleted model: " ++ id
  | madeDefault id => "Default model set to " ++ id
  | registryFailed why => "Registry error: " ++ why
  | lockBroken => "DB lock poisoned: poisoned lock: another task failed inside"
  | probeRequested id => "Probe requested for " ++ id
  | probesStarted n => "Started " ++ toString n ++ " probe(s) for newly observed models"
  | attemptPassed id k n =>
    "Model " ++ id ++ " passed probe on attempt " ++ toString k ++ "/" ++ toString n
  | attemptFailed id k n why =>
    "Attempt " ++ toString k ++ "/" ++ toString n ++ ": model " ++ id ++ " test failed: "
      ++ why.message
  | sequenceFailed id n => "Model " ++ id ++ " failed all " ++ toString n ++ " probe attempts"
  | staleDiscarded id s n =>
    "Discarding stale " ++ s.name ++ " result for " ++ id ++ " (sequence " ++ toString n ++ ")"
  | testPassed id => "Manual test of " ++ id ++ " passed"
  | testFailed id text => "Manual test of " ++ id ++ " failed: " ++ text
  | testDiscarded id => "Discarding manual test result for forgotten model " ++ id
  | requestFailed id why => "Model test for " ++ id ++ " failed: " ++ why.message

end Notice
end EndpointHealth
