import EndpointHealth.Notice
import EndpointHealth.Marker
import EndpointHealth.Policy
set_option autoImplicit false

/-!
One attempt to get an answer from an endpoint: what a tester replies, how long the attempt takes,
and how it ends.

Main statement: an attempt passes exactly if a text without the marker comes in time
(`outcome_passed_iff`).
-/

namespace EndpointHealth.Prober

inductive Answer where
  | text (s : String)
  | error (why : TestError)
  /-- The tester breaks, and with it whoever waits for it. -/
  | crash
  deriving DecidableEq, Repr

structure Reply where
  /-- After how many milliseconds the answer is given; none if never. -/
  after : Option Nat
  answer : Answer
  notices : List Notice
  deriving DecidableEq, Repr

inductive Outcome where
  | passed (text : String)
  | failed (why : AttemptFailure)
  | crashed
  deriving DecidableEq, Repr

structure Course where
  lasts : Nat
  outcome : Outcome
  notices : List Notice
  deriving DecidableEq, Repr

/-- The time after which nobody waits for an answer any more, in milliseconds: a second more than
the timeout, of which there are no more than fit in sixty-four bits of seconds. -/
def bound (timeout : UInt64) : Nat :=
  if timeout.toNat + 1 < UInt64.size then (timeout.toNat + 1) * 1000 else timeout.toNat * 1000 + 999

def Answer.outcome : Answer → Outcome
  | .text s => if isFailure s then .failed (.rejected s) else .passed s
  | .error why => .failed (.failed why)
  | .crash => .crashed

/-- The course of an attempt with a timeout. A reply that comes at the bound still counts. -/
def Reply.course (r : Reply) (timeout : UInt64) : Course :=
  match r.after with
  | some d =>
    if d ≤ bound timeout then ⟨d, r.answer.outcome, r.notices⟩
    else ⟨bound timeout, .failed (.timedOut timeout), []⟩
  | none => ⟨bound timeout, .failed (.timedOut timeout), []⟩

theorem outcome_eq_passed_iff (a : Answer) (s : String) :
    a.outcome = .passed s ↔ a = .text s ∧ isFailure s = false := by
  cases a with
  | text t =>
    by_cases h : isFailure t
    · simp only [Answer.outcome, h, if_true]
      constructor
      · intro h'; cases h'
      · rintro ⟨ht, h'⟩
        cases ht
        simp [h] at h'
    · simp only [Answer.outcome, h]
      constructor
      · intro ht
        cases ht
        exact ⟨rfl, by simpa using h⟩
      · rintro ⟨ht, -⟩
        cases ht
        rfl
  | error why => simp [Answer.outcome]
  | crash => simp [Answer.outcome]

theorem outcome_passed_iff (r : Reply) (timeout : UInt64) (s : String) :
    (r.course timeout).outcome = .passed s ↔
      (∃ d, r.after = some d ∧ d ≤ bound timeout) ∧ r.answer = .text s ∧ isFailure s = false := by
  unfold Reply.course
  cases h : r.after with
  | none => simp
  | some d => by_cases hd : d ≤ bound timeout <;> simp [hd, outcome_eq_passed_iff]

end EndpointHealth.Prober
