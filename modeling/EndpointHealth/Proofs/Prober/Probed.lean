import EndpointHealth.Proofs.Prober.Mirroring
set_option autoImplicit false

/-!
What sequences alone make of the statuses. The newest sequence of an endpoint, and what it came to,
say which status there is, if no manual test has set it (`World.probed?`).

Main statement: in every run each status either is the one that sequences alone give, or the last
event with an effect on it is a manual test that passed (`probed_or_tested`).
-/

namespace EndpointHealth.Prober

open History

variable {ε : Type}

namespace History

def lastEffect? (id : EndpointId) : History → Option Event
  | [] => none
  | e :: h => if (effect? id h e).isSome then some e else lastEffect? id h

theorem mem_of_lastEffect {id : EndpointId} {h : History} {e : Event}
    (last : lastEffect? id h = some e) : e ∈ h := by
  induction h with
  | nil => cases last
  | cons f h ih =>
    unfold lastEffect? at last
    split at last
    · cases last
      exact List.mem_cons_self ..
    · exact List.mem_cons_of_mem _ (ih last)

/-- A manual test that is the last to have an effect on an endpoint is one of it, and has passed. -/
theorem status_of_lastEffect {id : EndpointId} {h : History} {t : ManualTest}
    (last : lastEffect? id h = some (.testPassed t)) :
    t.endpoint = id ∧ status? id h = some .success := by
  induction h with
  | nil => cases last
  | cons e h ih =>
    unfold lastEffect? at last
    rw [status_cons]
    split at last
    · cases last
      rename_i effect
      simp only [effect?] at effect ⊢
      split at effect
      · rename_i passes
        rw [if_pos passes]
        exact ⟨passes.1, rfl⟩
      · cases effect
    · rename_i effect
      rw [Option.not_isSome_iff_eq_none.mp effect]
      exact ih last

theorem begun_of_passed {h : History} {t : ManualTest} (possible : Possible h)
    (passed : .testPassed t ∈ h) : .testBegun t ∈ h := by
  obtain ⟨a, b, rfl⟩ := List.append_of_mem passed
  have begun := testBegun_of_mem_tests (possible_of_append possible).1
  exact List.mem_append_right _ (List.mem_cons_of_mem _ begun)

theorem eq_of_number {h : History} (possible : Possible h) {e f : Event} {n : Nat} (he : e ∈ h)
    (hf : f ∈ h) (hn : e.number? = some n) (hm : f.number? = some n) : e = f := by
  induction h with
  | nil => cases he
  | cons g h ih =>
    obtain ⟨fits, possible⟩ := possible
    have fresh : ∀ {f : Event}, f ∈ h → f.number? = some n → g.number? ≠ some n :=
      fun {f} hf hm hn => by
        have given := number_le possible hf hm
        rw [number_eq_next fits hn] at given
        exact Nat.not_succ_le_self _ given
    rcases List.mem_cons.mp he with rfl | he'
    · rcases List.mem_cons.mp hf with rfl | hf'
      · rfl
      · exact absurd hn (fresh hf' hm)
    · rcases List.mem_cons.mp hf with rfl | hf'
      · exact absurd hm (fresh he' hn)
      · exact ih possible he' hf'

end History

/-! ### Outcomes -/

def Result.status? : Result → Option Status
  | .sequence s => some s
  | .test _ | .crashed => none

/-- The outcome of the sequence of a number, if it ends with an event. -/
def Event.outcome? (number : Nat) : Event → Option Status
  | .ended s outcome => if s.number = number then some outcome else none
  | _ => none

/-- What the sequence of a number came to, if it has ended and was not broken off. -/
def Docket.outcome? (d : Docket) (number : Nat) : Option Status :=
  (d.came? number).bind (·.2.status?)

/-- The status of an endpoint, as far as sequences go. -/
def World.probed? (w : World ε) (id : EndpointId) : Option Status :=
  (w.ledger.current.get? id).map fun n => (w.docket.outcome? n).getD .pending

namespace Docket

variable {d : Docket} {number n : Nat}

theorem outcome_conclude (new : d.came? number = none) (outcome : Status) :
    (d.conclude number (.sequence outcome)).outcome? n =
      (if number = n then some outcome else none).or (d.outcome? n) := by
  unfold outcome?
  rw [came_conclude]
  by_cases h : number = n
  · subst h
    simp [new, Result.status?]
  · simp [h]

theorem outcome_conclude_none {r : Result} (none : r.status? = none) :
    (d.conclude number r).outcome? n = d.outcome? n := by
  unfold outcome?
  rw [came_conclude]
  cases d.came? n with
  | none => by_cases h : number = n <;> simp [h, none]
  | some x => rfl

theorem came_agenda (numbered : d.Numbered) {e : Entry} (he : e ∈ d.agenda) :
    d.came? e.task.number = none := by
  unfold came?
  rw [Option.map_eq_none_iff, List.find?_eq_none]
  intro x hx same
  exact numbered.ne he hx (of_decide_eq_true same).symm

end Docket

theorem status_result (c : Course) : c.result.status? = none := by
  unfold Course.result
  split <;> rfl

/-- Of the steps of a prober only the end of a sequence gives an outcome. -/
theorem outcome_step {p : Prober ε} {w v : World ε} {e : Option Event}
    (numbered : w.docket.Numbered) (step : p.Step w e v) (n : Nat) :
    v.docket.outcome? n = (e.bind (Event.outcome? n)).or (w.docket.outcome? n) := by
  cases step with
  | work work =>
    cases work with
    | tick time => rfl
    | attempt h => rfl
    | close h =>
      rename_i a b due s left c
      have new : w.docket.came? s.number = none :=
        Docket.came_agenda numbered (e := ⟨due, .close s left c⟩) (by simp [World.docket, h])
      unfold Event.ofClose? settle closeWith
      cases c.outcome with
      | passed text => exact Docket.outcome_conclude (d := w.docket) new .success
      | crashed => exact Docket.outcome_conclude_none (d := w.docket) rfl
      | failed why =>
        by_cases hleft : left = 0
        · simp only [if_pos hleft]
          exact Docket.outcome_conclude (d := w.docket) new .failure
        · simp only [if_neg hleft]
          split <;> rfl
    | conclude h =>
      rename_i a b due t c
      have quiet : (some (Event.ofTest t c)).bind (Event.outcome? n) = none := by
        unfold Event.ofTest
        cases c.outcome <;> rfl
      rw [(p.closeTest_docket t c { w with agenda := a ++ b }).1, quiet]
      exact Docket.outcome_conclude_none (d := w.docket) (status_result c)
  | aside env notices => rfl
  | begin id => rfl
  | forget id => rfl
  | beginTest id message => rfl

/-! ### Statuses -/

section
variable {p : Prober ε} {h : History} {w v : World ε} {id : EndpointId}

theorem probed_step {e : Option Event} (run : p.Run h w) (step : p.Step w e v) (id : EndpointId) :
    v.probed? id = ((e.elim w.ledger w.ledger.after).current.get? id).map fun n =>
      ((e.bind (Event.outcome? n)).or (w.docket.outcome? n)).getD .pending := by
  unfold World.probed?
  simp only [ledger_of_step step, outcome_step (numbered_of_run run) step]

theorem number_ne_current {s : Sequence} {n : Nat} (run : p.Run h w) (under : s ∈ sequences h)
    (current : w.ledger.current.get? id = some n)
    (stale : ¬ (s.endpoint = id ∧ newest? id h = some (.begun s))) : s.number ≠ n := by
  have tracks := tracks_of_run run
  rintro rfl
  rw [tracks.ledger, current_iff tracks.possible] at current
  have begun : .begun ⟨id, s.number⟩ ∈ h := List.mem_of_find?_eq_some current
  have same := eq_of_number tracks.possible (begun_of_mem_sequences under) begun rfl rfl
  exact stale ⟨congrArg Sequence.endpoint (Event.begun.inj same), by rw [current, same]⟩

theorem probed_kept {e : Event} (run : p.Run h w) (step : p.Step w (some e) v)
    (quiet : effect? id h e = none) : v.probed? id = w.probed? id := by
  rw [probed_step run step]
  unfold World.probed?
  cases e with
  | begun s =>
    have other : id ≠ s.endpoint := by
      rintro rfl
      simp [effect?] at quiet
    simp [Ledger.after, Ledger.start, Event.outcome?, other]
  | forgotten i =>
    have other : id ≠ i := by
      rintro rfl
      simp [effect?] at quiet
    simp [Ledger.after, Ledger.forget, Event.outcome?, other]
  | ended s outcome =>
    have under := (tracks_step (tracks_of_run run) step).possible.1.1
    have stale : ¬ (s.endpoint = id ∧ newest? id h = some (.begun s)) := by
      simpa [effect?] using quiet
    -- It is not the newest one that has ended.
    cases current : w.ledger.current.get? id with
    | none => simp [Ledger.after, current]
    | some n =>
      have other := number_ne_current run under current stale
      simp [Ledger.after, Event.outcome?, current, other]
  | _ => simp [Ledger.after, Ledger.claim, Event.outcome?]

/-- What has an effect on an endpoint gives it the status that sequences alone give it, unless it is
a manual test. -/
theorem probed_set {e : Event} {status : Option Status} (run : p.Run h w)
    (step : p.Step w (some e) v) (effect : effect? id h e = some status) :
    (∃ t, e = .testPassed t) ∨ v.probed? id = status := by
  rw [probed_step run step]
  have tracks := tracks_of_run run
  have fits := (tracks_step tracks step).possible.1
  cases e with
  | begun s =>
    simp only [effect?, Option.ite_none_right_eq_some, Option.some.injEq] at effect
    obtain ⟨rfl, rfl⟩ := effect
    have came : w.docket.came? w.ledger.next = none := Docket.came_next (numbered_of_run run)
    have next : w.docket.outcome? w.ledger.next = none := by
      unfold Docket.outcome?
      rw [came]
      rfl
    right
    simp [Ledger.after, Ledger.start, Event.outcome?, next]
  | ended s outcome =>
    simp only [effect?, Option.ite_none_right_eq_some, Option.some.injEq] at effect
    obtain ⟨⟨rfl, newest⟩, rfl⟩ := effect
    have current : w.ledger.current.get? s.endpoint = some s.number := by
      rw [tracks.ledger]
      exact (current_iff tracks.possible).mpr newest
    right
    simp [Ledger.after, Event.outcome?, current]
  | forgotten i =>
    simp only [effect?, Option.ite_none_right_eq_some, Option.some.injEq] at effect
    obtain ⟨rfl, rfl⟩ := effect
    right
    simp [Ledger.after, Ledger.forget]
  | testPassed t => exact .inl ⟨t, rfl⟩
  | _ => cases effect

theorem probed_or_tested (run : p.Run h w) (id : EndpointId) :
    (∃ t, lastEffect? id h = some (.testPassed t)) ∨ w.status? id = w.probed? id := by
  obtain ⟨env, steps⟩ := run
  induction steps with
  | refl => exact .inr rfl
  | step before next ih =>
    rename_i h w v e
    have run : p.Run h w := ⟨env, before⟩
    have status := status_of_run (run.step next) id
    cases e with
    | none =>
      have kept : v.probed? id = w.probed? id := probed_step run next id
      rw [kept, status]
      rw [status_of_run run id] at ih
      exact ih
    | some e =>
      have status : v.status? id = (effect? id h e).getD (w.status? id) := by
        rw [status, status_of_run run]
        rfl
      cases effect : effect? id h e with
      | none =>
        have last : lastEffect? id (e :: h) = lastEffect? id h := if_neg (by simp [effect])
        rw [effect] at status
        rw [probed_kept run next effect, status]
        exact ih.imp_left fun ⟨t, ht⟩ => ⟨t, last.trans ht⟩
      | some s =>
        have last : lastEffect? id (e :: h) = some e := if_pos (by simp [effect])
        rw [effect] at status
        rcases probed_set run next effect with ⟨t, rfl⟩ | probed
        · exact .inl ⟨t, last⟩
        · exact .inr (status.trans probed.symm)

end

end EndpointHealth.Prober
