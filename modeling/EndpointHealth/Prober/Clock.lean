import EndpointHealth.Prober
set_option autoImplicit false

/-!
The clock of a prober. It stands still until it is moved, and does everything on its way that is
due.

Main statement: every task that is taken from the agenda leaves lighter ones behind
(`weight_perform`), so a run up to any time ends.
-/

namespace EndpointHealth.Prober

variable {ε : Type}

def perform (p : Prober ε) (e : Entry) (w : World ε) : World ε :=
  let w := { w with now := max w.now e.due }
  match e.task with
  | .attempt s left => p.attempt s left w
  | .close s left c => p.close s left c w
  | .conclude t c => p.closeTest t c w

/-- How many waits may still follow from a task, itself counted. -/
def Task.weight : Task → Nat
  | .attempt _ left => 2 * left + 2
  | .close _ left _ => 2 * left + 1
  | .conclude _ _ => 1

def weight : List Entry → Nat
  | [] => 0
  | e :: es => e.task.weight + weight es

theorem weight_schedule (e : Entry) (es : List Entry) :
    weight (schedule e es) = e.task.weight + weight es := by
  induction es with
  | nil => rfl
  | cons f r ih =>
    unfold schedule
    split
    · have : weight (f :: schedule e r) = Task.weight f.task + weight (schedule e r) := rfl
      rw [this, ih]
      show _ = e.task.weight + (Task.weight f.task + weight r)
      omega
    · rfl

theorem weight_wait (w : World ε) (d : Nat) (t : Task) :
    weight (w.wait d t).agenda = Task.weight t + weight w.agenda := weight_schedule _ _

theorem agenda_finish (p : Prober ε) (s : Sequence) (status : Status) (w : World ε) :
    (p.finish s status w).agenda = w.agenda := rfl

theorem weight_closeWith (p : Prober ε) (retry : World ε → World ε) (s : Sequence) (left : Nat)
    (c : Course) (w : World ε)
    (h : 0 < left → ∀ v : World ε, weight (retry v).agenda ≤ 2 * left + weight v.agenda) :
    weight (p.closeWith retry s left c w).agenda ≤ 2 * left + weight w.agenda := by
  unfold closeWith
  dsimp only
  split
  · rw [agenda_finish]
    exact Nat.le_add_left _ _
  · exact Nat.le_add_left _ _
  · split
    · rw [agenda_finish]
      exact Nat.le_add_left _ _
    split
    · exact h (by omega) _
    · rw [weight_wait]
      show 2 * (left - 1) + 2 + weight w.agenda ≤ _
      omega

theorem weight_attemptWith (p : Prober ε) (retry : World ε → World ε) (s : Sequence) (left : Nat)
    (w : World ε)
    (h : 0 < left → ∀ v : World ε, weight (retry v).agenda ≤ 2 * left + weight v.agenda) :
    weight (p.attemptWith retry s left w).agenda ≤ 2 * left + 1 + weight w.agenda := by
  unfold attemptWith
  dsimp only
  split
  · have := p.weight_closeWith retry s left (p.call (p.policy.probeRequest s.endpoint) w).1
      (p.call (p.policy.probeRequest s.endpoint) w).2 h
    have hc : (p.call (p.policy.probeRequest s.endpoint) w).2.agenda = w.agenda := rfl
    rw [hc] at this
    omega
  · rw [weight_wait]
    exact Nat.le_refl _

theorem weight_attempt (p : Prober ε) (s : Sequence) (left : Nat) (w : World ε) :
    weight (p.attempt s left w).agenda ≤ 2 * left + 1 + weight w.agenda := by
  induction left generalizing w with
  | zero => exact p.weight_attemptWith id s 0 w (by omega)
  | succ left ih =>
    refine p.weight_attemptWith _ s (left + 1) w fun _ v => ?_
    have := ih v
    omega

theorem weight_closeTest (p : Prober ε) (t : ManualTest) (c : Course) (w : World ε) :
    weight (p.closeTest t c w).agenda = weight w.agenda := by
  unfold closeTest
  dsimp only
  split <;> rfl

theorem weight_perform (p : Prober ε) (e : Entry) (w : World ε) :
    weight (p.perform e w).agenda < e.task.weight + weight w.agenda := by
  unfold perform
  dsimp only
  cases e.task with
  | attempt s left =>
    have := p.weight_attempt s left { w with now := max w.now e.due }
    simp only [Task.weight]
    exact Nat.lt_of_le_of_lt this (by show 2 * left + 1 + weight w.agenda < _; omega)
  | close s left c =>
    have := p.weight_closeWith (p.attempt s (left - 1)) s left c
      { w with now := max w.now e.due } (fun _ v => by
        have := p.weight_attempt s (left - 1) v
        omega)
    simp only [Task.weight, close]
    exact Nat.lt_of_le_of_lt this (by show 2 * left + weight w.agenda < _; omega)
  | conclude t c =>
    simp only [Task.weight, weight_closeTest]
    show weight w.agenda < _
    omega

def runUntil (p : Prober ε) (time : Nat) (w : World ε) : World ε :=
  match _h : w.agenda with
  | [] => w
  | e :: rest =>
    if e.due ≤ time then p.runUntil time (p.perform e { w with agenda := rest }) else w
termination_by weight w.agenda
decreasing_by
  rw [_h]
  exact p.weight_perform e { w with agenda := rest }

def advance (p : Prober ε) (ms : Nat) (w : World ε) : World ε :=
  let time := w.now + ms
  { p.runUntil time w with now := time }

theorem weight_runUntil_le (p : Prober ε) (time : Nat) (w : World ε) :
    weight (p.runUntil time w).agenda ≤ weight w.agenda := by
  fun_induction runUntil p time w with
  | case1 => exact Nat.le_refl _
  | case2 w e rest h due ih =>
    have := p.weight_perform e { w with agenda := rest }
    rw [h]
    exact Nat.le_trans ih (Nat.le_of_lt this)
  | case3 => exact Nat.le_refl _

theorem weight_runUntil_lt (p : Prober ε) {w : World ε} {e : Entry} {rest : List Entry}
    (h : w.agenda = e :: rest) : weight (p.runUntil e.due w).agenda < weight w.agenda := by
  rw [runUntil.eq_def]
  split
  · rename_i h'
    rw [h] at h'
    cases h'
  · rename_i e' rest' h'
    rw [h] at h'
    cases h'
    rw [if_pos (Nat.le_refl _)]
    have := p.weight_perform e { w with agenda := rest }
    rw [h]
    exact Nat.lt_of_le_of_lt (p.weight_runUntil_le _ _) this

/-- Moves the clock, from one time at which something is due to the next, until a sequence or a
manual test has ended or nothing is left to be done. -/
def await (p : Prober ε) (number : Nat) (w : World ε) : World ε :=
  if (w.result? number).isSome then w
  else match _h : w.agenda with
    | [] => w
    | e :: _ => p.await number (p.runUntil e.due w)
termination_by weight w.agenda
decreasing_by exact p.weight_runUntil_lt _h

end EndpointHealth.Prober
