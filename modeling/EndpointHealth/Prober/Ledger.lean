import EndpointHealth.Status
import EndpointHealth.Endpoint
import EndpointHealth.Table
set_option autoImplicit false

/-!
What a prober remembers of endpoints: their status, the newest probe sequence of each, and when
each was last forgotten. "When" is a number, and every sequence, manual test and forgetting takes
the next one. Numbers have no bound here. A counter of 64 bits gives the same ones as long as fewer
than 2 ^ 64 of them have been taken.

Main statements: the newest sequence of an endpoint writes its outcome, and any other leaves the
ledger as it is (`finish_of_current`, `finish_of_stale`); a manual test that passes writes a success
unless the endpoint is marked as forgotten after its start (`passTest_of_kept`,
`passTest_of_forgotten`).
-/

namespace EndpointHealth.Prober

structure Ledger where
  claimed : Nat
  /-- The newest sequence of each endpoint since it was forgotten. -/
  current : Table Nat
  /-- When each endpoint was forgotten, until its next sequence. -/
  forgotten : Table Nat
  statuses : Table Status
  deriving DecidableEq, Repr

namespace Ledger

def empty : Ledger := ⟨0, .empty, .empty, .empty⟩

def next (l : Ledger) : Nat := l.claimed + 1

def status? (l : Ledger) (id : EndpointId) : Option Status := l.statuses.get? id

def claim (l : Ledger) : Ledger := { l with claimed := l.next }

def start (l : Ledger) (id : EndpointId) : Ledger where
  claimed := l.next
  current := l.current.set id l.next
  forgotten := l.forgotten.erase id
  statuses := l.statuses.set id .pending

def forget (l : Ledger) (id : EndpointId) : Ledger where
  claimed := l.next
  current := l.current.erase id
  forgotten := l.forgotten.set id l.next
  statuses := l.statuses.erase id

def write (l : Ledger) (id : EndpointId) (s : Status) : Ledger :=
  { l with statuses := l.statuses.set id s }

def isCurrent (l : Ledger) (id : EndpointId) (sequence : Nat) : Bool :=
  l.current.get? id = some sequence

/-- Ends a sequence; its outcome is written if it is the newest of its endpoint. -/
def finish (l : Ledger) (id : EndpointId) (sequence : Nat) (s : Status) : Ledger :=
  if l.isCurrent id sequence then l.write id s else l

def forgottenSince (l : Ledger) (id : EndpointId) (started : Nat) : Bool :=
  match l.forgotten.get? id with
  | some mark => started < mark
  | none => false

/-- Ends a manual test that passed; it is written unless the endpoint is marked as forgotten since
the test started. -/
def passTest (l : Ledger) (id : EndpointId) (started : Nat) : Ledger :=
  if l.forgottenSince id started then l else l.write id .success

section
variable {l : Ledger} {id : EndpointId} {n : Nat}

theorem finish_of_current (current : l.isCurrent id n = true) (s : Status) :
    l.finish id n s = l.write id s := if_pos current

theorem finish_of_stale (stale : ¬ l.isCurrent id n = true) (s : Status) :
    l.finish id n s = l := if_neg stale

theorem passTest_of_kept (kept : ¬ l.forgottenSince id n = true) :
    l.passTest id n = l.write id .success := if_neg kept

theorem passTest_of_forgotten (marked : l.forgottenSince id n = true) : l.passTest id n = l :=
  if_pos marked

theorem finish_cases (l : Ledger) (id : EndpointId) (n : Nat) (s : Status) :
    l.finish id n s = l.write id s ∨ l.finish id n s = l := by
  by_cases current : l.isCurrent id n = true
  · exact .inl (finish_of_current current s)
  · exact .inr (finish_of_stale current s)

theorem passTest_cases (l : Ledger) (id : EndpointId) (n : Nat) :
    l.passTest id n = l.write id .success ∨ l.passTest id n = l := by
  by_cases marked : l.forgottenSince id n = true
  · exact .inr (passTest_of_forgotten marked)
  · exact .inl (passTest_of_kept marked)

end

@[simp] theorem status_start (l : Ledger) (id j : EndpointId) :
    (l.start id).status? j = if j = id then some .pending else l.status? j := Table.get_set ..

@[simp] theorem status_forget (l : Ledger) (id j : EndpointId) :
    (l.forget id).status? j = if j = id then none else l.status? j := Table.get_erase ..

@[simp] theorem status_write (l : Ledger) (id j : EndpointId) (s : Status) :
    (l.write id s).status? j = if j = id then some s else l.status? j := Table.get_set ..

/-! Ends of sequences and tests change nothing but statuses. -/

@[simp] theorem claimed_finish (l : Ledger) (id : EndpointId) (n : Nat) (s : Status) :
    (l.finish id n s).claimed = l.claimed := by
  rcases finish_cases l id n s with same | same <;> simp only [same, write]

@[simp] theorem current_finish (l : Ledger) (id : EndpointId) (n : Nat) (s : Status) :
    (l.finish id n s).current = l.current := by
  rcases finish_cases l id n s with same | same <;> simp only [same, write]

@[simp] theorem forgotten_finish (l : Ledger) (id : EndpointId) (n : Nat) (s : Status) :
    (l.finish id n s).forgotten = l.forgotten := by
  rcases finish_cases l id n s with same | same <;> simp only [same, write]

@[simp] theorem claimed_passTest (l : Ledger) (id : EndpointId) (n : Nat) :
    (l.passTest id n).claimed = l.claimed := by
  rcases passTest_cases l id n with same | same <;> simp only [same, write]

@[simp] theorem current_passTest (l : Ledger) (id : EndpointId) (n : Nat) :
    (l.passTest id n).current = l.current := by
  rcases passTest_cases l id n with same | same <;> simp only [same, write]

@[simp] theorem forgotten_passTest (l : Ledger) (id : EndpointId) (n : Nat) :
    (l.passTest id n).forgotten = l.forgotten := by
  rcases passTest_cases l id n with same | same <;> simp only [same, write]

end Ledger
end EndpointHealth.Prober
