import EndpointHealth.Prober.Attempt
import EndpointHealth.Prober.Ledger
set_option autoImplicit false

/-!
Everything that a prober deals with: the requests it has made, what is still to be done and when,
and what has come of its sequences and manual tests.
-/

namespace EndpointHealth.Prober

/-- Answers requests, each at the time it is made, with the help of an environment. -/
abbrev Tester (ε : Type) := ε → Nat → TestRequest → Reply × ε

structure Sequence where
  endpoint : EndpointId
  number : Nat
  deriving DecidableEq, Repr

structure ManualTest where
  endpoint : EndpointId
  number : Nat
  deriving DecidableEq, Repr

inductive Task where
  /-- A sequence makes its next attempt, after which `left` more may follow. -/
  | attempt (s : Sequence) (left : Nat)
  | close (s : Sequence) (left : Nat) (course : Course)
  | conclude (t : ManualTest) (course : Course)
  deriving DecidableEq, Repr

structure Entry where
  due : Nat
  task : Task
  deriving DecidableEq, Repr

structure Call where
  start : Nat
  request : TestRequest
  deriving DecidableEq, Repr

inductive Result where
  | sequence (s : Status)
  | test (answer : Except TestError String)
  | crashed
  deriving Repr

structure Ended where
  number : Nat
  time : Nat
  result : Result
  deriving Repr

structure World (ε : Type) where
  env : ε
  /-- In milliseconds. -/
  now : Nat
  ledger : Ledger
  /-- What is to be done, in the order in which it will be. -/
  agenda : List Entry
  calls : List Call
  ended : List Ended
  notices : List Notice

/-- Puts an entry behind all that are due no later. -/
def schedule (e : Entry) : List Entry → List Entry
  | [] => [e]
  | f :: r => if f.due ≤ e.due then f :: schedule e r else e :: f :: r

namespace World

variable {ε : Type}

def start (env : ε) : World ε where
  env := env
  now := 0
  ledger := .empty
  agenda := []
  calls := []
  ended := []
  notices := []

def note (w : World ε) (ns : List Notice) : World ε := { w with notices := w.notices ++ ns }

def wait (w : World ε) (delay : Nat) (t : Task) : World ε :=
  { w with agenda := schedule ⟨w.now + delay, t⟩ w.agenda }

def conclude (w : World ε) (number : Nat) (r : Result) : World ε :=
  { w with ended := w.ended ++ [⟨number, w.now, r⟩] }

def status? (w : World ε) (id : EndpointId) : Option Status := w.ledger.status? id

def result? (w : World ε) (number : Nat) : Option Ended := w.ended.find? (·.number = number)

end World

end EndpointHealth.Prober
