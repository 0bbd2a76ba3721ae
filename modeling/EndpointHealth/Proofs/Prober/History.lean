import EndpointHealth.Prober.World
set_option autoImplicit false

/-!
What has happened to the endpoints of a prober, and what the ledger makes of it.

A history says by itself which sequence of an endpoint is its newest (`newest?`), whether the
endpoint of a manual test has been taken back from it (`withdrawn`), and which status an endpoint
has (`status?`). Main statements: in every possible history the numbers in the ledger say the same
(`current_iff`, `forgottenSince_iff`, `status_ledger`), and a pending status always has a sequence
under way behind it (`pending_underWay`).
-/

namespace EndpointHealth.Prober

inductive Event where
  | begun (s : Sequence)
  | ended (s : Sequence) (outcome : Status)
  /-- The tester breaks, and the sequence with it. -/
  | broken (s : Sequence)
  | forgotten (id : EndpointId)
  | testBegun (t : ManualTest)
  | testPassed (t : ManualTest)
  | testFailed (t : ManualTest)
  deriving DecidableEq, Repr

def Event.number? : Event → Option Nat
  | .begun s => some s.number
  | .testBegun t => some t.number
  | _ => none

/-- Whether an endpoint starts afresh with an event: a sequence of it is begun, or it is
forgotten. -/
def Event.renews (id : EndpointId) : Event → Bool
  | .begun s => s.endpoint = id
  | .forgotten i => i = id
  | _ => false

/-- What is left of a ledger after an event. -/
def Ledger.after (l : Ledger) : Event → Ledger
  | .begun s => l.start s.endpoint
  | .ended s outcome => l.finish s.endpoint s.number outcome
  | .forgotten id => l.forget id
  | .testBegun _ => l.claim
  | .testPassed t => l.passTest t.endpoint t.number
  | .broken _ | .testFailed _ => l

/-- Events, the newest first. -/
abbrev History := List Event

namespace History

def ledger : History → Ledger
  | [] => .empty
  | e :: h => (ledger h).after e

def sequences : History → List Sequence
  | [] => []
  | .begun s :: h => s :: sequences h
  | .ended s _ :: h | .broken s :: h => (sequences h).erase s
  | .forgotten _ :: h | .testBegun _ :: h | .testPassed _ :: h | .testFailed _ :: h => sequences h

def tests : History → List ManualTest
  | [] => []
  | .testBegun t :: h => t :: tests h
  | .testPassed t :: h | .testFailed t :: h => (tests h).erase t
  | .begun _ :: h | .ended _ _ :: h | .broken _ :: h | .forgotten _ :: h => tests h

/-- Whether an event can come next: who begins takes the next number, and who ends has begun. -/
def Fits (h : History) : Event → Prop
  | .begun s => s.number = (ledger h).next
  | .ended s outcome => s ∈ sequences h ∧ outcome ≠ .pending
  | .broken s => s ∈ sequences h
  | .forgotten _ => True
  | .testBegun t => t.number = (ledger h).next
  | .testPassed t | .testFailed t => t ∈ tests h

def Possible : History → Prop
  | [] => True
  | e :: h => Fits h e ∧ Possible h

/-! ### What a history says by itself -/

def newest? (id : EndpointId) (h : History) : Option Event := h.find? (·.renews id)

/-- Whether the endpoint of a manual test was forgotten after the test had begun, and has not been
probed since. -/
def withdrawn (t : ManualTest) : History → Bool
  | [] => false
  | .forgotten id :: h => if id = t.endpoint then decide (.testBegun t ∈ h) else withdrawn t h
  | .begun s :: h => if s.endpoint = t.endpoint then false else withdrawn t h
  | .ended _ _ :: h | .broken _ :: h | .testBegun _ :: h | .testPassed _ :: h
  | .testFailed _ :: h => withdrawn t h

/-- The status that an event sets for an endpoint after a history, if it has an effect on it. -/
def effect? (id : EndpointId) (h : History) : Event → Option (Option Status)
  | .begun s => if s.endpoint = id then some (some .pending) else none
  | .ended s outcome =>
    if s.endpoint = id ∧ newest? id h = some (.begun s) then some (some outcome) else none
  | .forgotten i => if i = id then some none else none
  | .testPassed t =>
    if t.endpoint = id ∧ withdrawn t h = false then some (some .success) else none
  | .broken _ | .testBegun _ | .testFailed _ => none

/-- The status that the last event with an effect on an endpoint has set. -/
def status? (id : EndpointId) : History → Option Status
  | [] => none
  | e :: h => (effect? id h e).getD (status? id h)

/-! ### Numbers -/

theorem claimed_le_after (l : Ledger) (e : Event) : l.claimed ≤ (l.after e).claimed := by
  cases e <;> simp [Ledger.after, Ledger.start, Ledger.forget, Ledger.claim, Ledger.next]

theorem number_eq_next {h : History} {e : Event} {n : Nat} (fits : Fits h e)
    (hn : e.number? = some n) : n = (ledger h).next := by
  cases e with
  | begun s =>
    cases hn
    exact fits
  | testBegun t =>
    cases hn
    exact fits
  | _ => cases hn

theorem number_le {h : History} (possible : Possible h) {e : Event} {n : Nat} (he : e ∈ h)
    (hn : e.number? = some n) : n ≤ (ledger h).claimed := by
  induction h with
  | nil => cases he
  | cons f h ih =>
    obtain ⟨fits, possible⟩ := possible
    cases he with
    | tail _ he => exact Nat.le_trans (ih possible he) (claimed_le_after _ _)
    | head =>
      rw [number_eq_next fits hn]
      cases e with
      | begun s => exact Nat.le_refl _
      | testBegun t => exact Nat.le_refl _
      | _ => cases hn

theorem not_mem_of_fits {h : History} (possible : Possible h) {e : Event} {n : Nat}
    (fits : Fits h e) (hn : e.number? = some n) : e ∉ h := fun he => by
  have hle := number_le possible he hn
  rw [number_eq_next fits hn] at hle
  exact Nat.not_succ_le_self _ hle

theorem possible_of_append {later earlier : History} (possible : Possible (later ++ earlier)) :
    Possible earlier := by
  induction later with
  | nil => exact possible
  | cons e later ih => exact ih possible.2

theorem once {later earlier : History} {e : Event} {n : Nat}
    (possible : Possible (later ++ e :: earlier)) (hn : e.number? = some n) :
    e ∉ later ∧ e ∉ earlier := by
  constructor
  · induction later with
    | nil => simp
    | cons f later ih =>
      intro he
      cases he with
      | tail _ he => exact ih possible.2 he
      | head =>
        refine not_mem_of_fits possible.2 possible.1 hn ?_
        exact List.mem_append_right later (List.mem_cons_self ..)
  · have before := possible_of_append possible
    exact not_mem_of_fits before.2 before.1 hn

theorem not_mem_earlier {later earlier : History} {e : Event} {n : Nat}
    (possible : Possible (later ++ earlier)) (hn : e.number? = some n) (he : e ∈ later) :
    e ∉ earlier := by
  obtain ⟨a, b, rfl⟩ := List.append_of_mem he
  rw [List.append_assoc, List.cons_append] at possible
  exact fun h => (once possible hn).2 (List.mem_append_right b h)

theorem begun_of_mem_sequences {h : History} {s : Sequence} (hs : s ∈ sequences h) :
    .begun s ∈ h := by
  induction h with
  | nil => cases hs
  | cons e h ih =>
    refine List.mem_cons.mpr ?_
    cases e with
    | begun s' =>
      rcases List.mem_cons.mp hs with rfl | hs
      · exact .inl rfl
      · exact .inr (ih hs)
    | ended s' outcome => exact .inr (ih (List.mem_of_mem_erase hs))
    | broken s' => exact .inr (ih (List.mem_of_mem_erase hs))
    | _ => exact .inr (ih hs)

theorem testBegun_of_mem_tests {h : History} {t : ManualTest} (ht : t ∈ tests h) :
    .testBegun t ∈ h := by
  induction h with
  | nil => cases ht
  | cons e h ih =>
    refine List.mem_cons.mpr ?_
    cases e with
    | testBegun t' =>
      rcases List.mem_cons.mp ht with rfl | ht
      · exact .inl rfl
      · exact .inr (ih ht)
    | testPassed t' => exact .inr (ih (List.mem_of_mem_erase ht))
    | testFailed t' => exact .inr (ih (List.mem_of_mem_erase ht))
    | _ => exact .inr (ih ht)

/-! ### The newest sequence -/

theorem newest_cons (id : EndpointId) (e : Event) (h : History) :
    newest? id (e :: h) = if e.renews id then some e else newest? id h := by
  by_cases he : e.renews id <;> simp [newest?, he]

theorem newest_eq_some_iff {id : EndpointId} {h : History} {e : Event} :
    newest? id h = some e ↔ e.renews id = true ∧
      ∃ later earlier, h = later ++ e :: earlier ∧ ∀ f ∈ later, f.renews id = false := by
  simp [newest?, List.find?_eq_some_iff_append]

theorem current_iff {h : History} (possible : Possible h) {id : EndpointId} {n : Nat} :
    (ledger h).current.get? id = some n ↔ newest? id h = some (.begun ⟨id, n⟩) := by
  induction h with
  | nil => simp [ledger, Ledger.empty, newest?]
  | cons e h ih =>
    obtain ⟨fits, possible⟩ := possible
    have ih := ih possible
    cases e with
    | begun s =>
      obtain ⟨i, m⟩ := s
      have hm : m = (ledger h).next := fits
      by_cases hi : i = id
      · subst hi
        simp [ledger, Ledger.after, Ledger.start, newest_cons, Event.renews, hm]
      · simp [ledger, Ledger.after, Ledger.start, newest_cons, Event.renews, hi, Ne.symm hi, ih]
    | forgotten i =>
      by_cases hi : i = id
      · simp [ledger, Ledger.after, Ledger.forget, newest_cons, Event.renews, hi]
      · simp [ledger, Ledger.after, Ledger.forget, newest_cons, Event.renews, hi, Ne.symm hi, ih]
    | _ => simpa [ledger, Ledger.after, Ledger.claim, newest_cons, Event.renews] using ih

theorem isCurrent_iff {h : History} (possible : Possible h) (s : Sequence) :
    (ledger h).isCurrent s.endpoint s.number = true ↔
      newest? s.endpoint h = some (.begun s) := by
  simp [Ledger.isCurrent, current_iff possible]

/-! ### Manual tests of forgotten endpoints -/

theorem withdrawn_cons (t : ManualTest) (e : Event) (h : History) :
    withdrawn t (e :: h) = if e.renews t.endpoint
      then decide (e = .forgotten t.endpoint ∧ .testBegun t ∈ h) else withdrawn t h := by
  cases e with
  | begun s => by_cases hs : s.endpoint = t.endpoint <;> simp [withdrawn, Event.renews, hs]
  | forgotten i => by_cases hi : i = t.endpoint <;> simp [withdrawn, Event.renews, hi]
  | _ => simp [withdrawn, Event.renews]

theorem withdrawn_iff {t : ManualTest} {h : History} :
    withdrawn t h = true ↔ ∃ later earlier, h = later ++ .forgotten t.endpoint :: earlier ∧
      .testBegun t ∈ earlier ∧ ∀ e ∈ later, e.renews t.endpoint = false := by
  induction h with
  | nil => simp [withdrawn]
  | cons e h ih =>
    rw [withdrawn_cons]
    by_cases he : e.renews t.endpoint = true
    · simp only [he, if_true, decide_eq_true_eq]
      constructor
      · rintro ⟨rfl, ht⟩
        exact ⟨[], h, rfl, ht, by simp⟩
      · rintro ⟨later, earlier, hsplit, ht, hlater⟩
        cases later with
        | nil =>
          cases hsplit
          exact ⟨rfl, ht⟩
        | cons f later =>
          cases hsplit
          simp [he] at hlater
    · simp only [he]
      rw [if_neg (by simp), ih]
      constructor
      · rintro ⟨later, earlier, rfl, ht, hlater⟩
        refine ⟨e :: later, earlier, rfl, ht, ?_⟩
        simpa [he] using hlater
      · rintro ⟨later, earlier, hsplit, ht, hlater⟩
        cases later with
        | nil =>
          cases hsplit
          simp [Event.renews] at he
        | cons f later =>
          cases hsplit
          exact ⟨later, earlier, rfl, ht, fun f hf => hlater f (List.mem_cons_of_mem _ hf)⟩

theorem testBegun_of_withdrawn {t : ManualTest} {h : History} (hw : withdrawn t h = true) :
    .testBegun t ∈ h := by
  obtain ⟨later, earlier, rfl, ht, -⟩ := withdrawn_iff.mp hw
  exact List.mem_append_right _ (List.mem_cons_of_mem _ ht)

theorem mark_le {h : History} {id : EndpointId} {m : Nat}
    (hm : (ledger h).forgotten.get? id = some m) : m ≤ (ledger h).claimed := by
  induction h with
  | nil => simp [ledger, Ledger.empty] at hm
  | cons e h ih =>
    have grown := claimed_le_after (ledger h) e
    cases e with
    | begun s =>
      by_cases hs : id = s.endpoint
      · simp [ledger, Ledger.after, Ledger.start, hs] at hm
      · simp only [ledger, Ledger.after, Ledger.start, Table.get_erase, hs, if_false] at hm
        exact Nat.le_trans (ih hm) grown
    | forgotten i =>
      by_cases hi : id = i
      · simp only [ledger, Ledger.after, Ledger.forget, Table.get_set, hi, if_true] at hm
        cases hm
        exact Nat.le_refl _
      · simp only [ledger, Ledger.after, Ledger.forget, Table.get_set, hi, if_false] at hm
        exact Nat.le_trans (ih hm) grown
    | _ => exact Nat.le_trans (ih (by simpa [ledger, Ledger.after, Ledger.claim] using hm)) grown

theorem forgottenSince_eq (l : Ledger) (id : EndpointId) (n : Nat) :
    l.forgottenSince id n = (l.forgotten.get? id).any (n < ·) := by
  unfold Ledger.forgottenSince
  cases l.forgotten.get? id <;> rfl

/-- The mark of an endpoint exceeds the number of a manual test exactly if the test is withdrawn. -/
theorem forgottenSince_iff {h : History} (possible : Possible h) {t : ManualTest}
    (ht : t ∈ tests h) :
    (ledger h).forgottenSince t.endpoint t.number = withdrawn t h := by
  induction h with
  | nil => cases ht
  | cons e h ih =>
    obtain ⟨fits, possible⟩ := possible
    have ih := ih possible
    rw [withdrawn_cons, forgottenSince_eq]
    rw [forgottenSince_eq] at ih
    cases e with
    | begun s =>
      by_cases hs : s.endpoint = t.endpoint
      · simp [ledger, Ledger.after, Ledger.start, Event.renews, hs]
      · simpa [ledger, Ledger.after, Ledger.start, Event.renews, hs, Ne.symm hs] using ih ht
    | forgotten i =>
      by_cases hi : i = t.endpoint
      · have hbegun := testBegun_of_mem_tests (h := h) ht
        have hle := number_le possible hbegun rfl
        simp [ledger, Ledger.after, Ledger.forget, Event.renews, hi, hbegun, Ledger.next]
        omega
      · simpa [ledger, Ledger.after, Ledger.forget, Event.renews, hi, Ne.symm hi] using ih ht
    | testBegun t' =>
      rcases List.mem_cons.mp ht with rfl | ht
      -- The test has just taken its number, which exceeds any mark.
      · have fresh : .testBegun t ∉ h := not_mem_of_fits possible fits rfl
        have hw : withdrawn t h = false := by
          cases hw : withdrawn t h with
          | false => rfl
          | true => exact absurd (testBegun_of_withdrawn hw) fresh
        simp only [ledger, Ledger.after, Ledger.claim, Event.renews, hw]
        cases hm : (ledger h).forgotten.get? t.endpoint with
        | none => simp
        | some m =>
          have hle := mark_le hm
          have hnext : t.number = (ledger h).claimed + 1 := fits
          simp [hnext]
          omega
      · simpa [ledger, Ledger.after, Ledger.claim, Event.renews] using ih ht
    | testPassed t' =>
      simpa [ledger, Ledger.after, Event.renews] using ih (List.mem_of_mem_erase ht)
    | testFailed t' =>
      simpa [ledger, Ledger.after, Event.renews] using ih (List.mem_of_mem_erase ht)
    | _ => simpa [ledger, Ledger.after, Event.renews] using ih ht

/-! ### Statuses -/

theorem status_cons (id : EndpointId) (e : Event) (h : History) :
    status? id (e :: h) = (effect? id h e).getD (status? id h) := rfl

theorem status_ledger {h : History} (possible : Possible h) (id : EndpointId) :
    (ledger h).status? id = status? id h := by
  induction h with
  | nil => rfl
  | cons e h ih =>
    obtain ⟨fits, possible⟩ := possible
    have ih := ih possible
    rw [status_cons]
    cases e with
    | begun s =>
      by_cases hs : s.endpoint = id
      · simp [ledger, Ledger.after, effect?, hs]
      · simp [ledger, Ledger.after, effect?, hs, Ne.symm hs, ih]
    | ended s outcome =>
      have current := isCurrent_iff possible s
      -- The ledger goes by the newest sequence that it holds, the history by the newest renewal.
      by_cases hn : newest? s.endpoint h = some (.begun s)
      · by_cases hs : s.endpoint = id
        · subst hs
          simp [ledger, Ledger.after, Ledger.finish_of_current (current.mpr hn), effect?, hn]
        · simp [ledger, Ledger.after, Ledger.finish_of_current (current.mpr hn), effect?, hs,
            Ne.symm hs, ih]
      · have stale := mt current.mp hn
        by_cases hs : s.endpoint = id
        · subst hs
          simp [ledger, Ledger.after, Ledger.finish_of_stale stale, effect?, hn, ih]
        · simp [ledger, Ledger.after, Ledger.finish_of_stale stale, effect?, hs, ih]
    | forgotten i =>
      by_cases hi : i = id
      · simp [ledger, Ledger.after, effect?, hi]
      · simp [ledger, Ledger.after, effect?, hi, Ne.symm hi, ih]
    | testPassed t =>
      have mark := forgottenSince_iff possible fits
      cases hw : withdrawn t h with
      | true =>
        simp [ledger, Ledger.after, Ledger.passTest_of_forgotten (mark.trans hw), effect?, hw, ih]
      | false =>
        have kept : ¬ (ledger h).forgottenSince t.endpoint t.number = true := by simp [mark, hw]
        by_cases ht : t.endpoint = id
        · subst ht
          simp [ledger, Ledger.after, Ledger.passTest_of_kept kept, effect?, hw]
        · simp [ledger, Ledger.after, Ledger.passTest_of_kept kept, effect?, ht, Ne.symm ht, ih]
    | _ => exact ih

theorem renews_of_effect_none {id : EndpointId} {h : History} {e : Event}
    (he : effect? id h e = none) : e.renews id = false := by
  cases e with
  | begun s => by_cases hs : s.endpoint = id <;> simp_all [effect?, Event.renews]
  | forgotten i => by_cases hi : i = id <;> simp_all [effect?, Event.renews]
  | _ => rfl

/-- A failure is the outcome of the sequence that was begun last, with nothing forgotten since. -/
theorem failure_newest {h : History} {id : EndpointId} (failed : status? id h = some .failure) :
    ∃ s later earlier, s.endpoint = id ∧ h = later ++ .begun s :: earlier ∧
      .ended s .failure ∈ later ∧ ∀ e ∈ later, e.renews id = false := by
  induction h with
  | nil => cases failed
  | cons e h ih =>
    rw [status_cons] at failed
    cases he : effect? id h e with
    | none =>
      rw [he] at failed
      obtain ⟨s, later, earlier, hs, rfl, ended, quiet⟩ := ih failed
      refine ⟨s, e :: later, earlier, hs, rfl, List.mem_cons_of_mem _ ended, ?_⟩
      rintro f (_ | ⟨_, hf⟩)
      · exact renews_of_effect_none he
      · exact quiet f hf
    | some status =>
      rw [he] at failed
      cases failed
      cases e with
      | ended s outcome =>
        simp only [effect?, Option.ite_none_right_eq_some, Option.some.injEq] at he
        obtain ⟨⟨rfl, newest⟩, rfl⟩ := he
        obtain ⟨-, later, earlier, rfl, quiet⟩ := newest_eq_some_iff.mp newest
        refine ⟨s, .ended s .failure :: later, earlier, rfl, rfl, List.mem_cons_self .., ?_⟩
        rintro f (_ | ⟨_, hf⟩)
        · rfl
        · exact quiet f hf
      | _ => simp [effect?] at he

/-- As long as no tester breaks, a pending status has the newest sequence of its endpoint still
under way. -/
theorem pending_underWay {h : History} (possible : Possible h) (whole : ∀ s, .broken s ∉ h)
    {id : EndpointId} (pending : status? id h = some .pending) :
    ∃ s ∈ sequences h, newest? id h = some (.begun s) := by
  induction h with
  | nil => cases pending
  | cons e h ih =>
    obtain ⟨fits, possible⟩ := possible
    have ih := ih possible fun s hs => whole s (List.mem_cons_of_mem _ hs)
    rw [status_cons] at pending
    rw [newest_cons]
    cases he : effect? id h e with
    | none =>
      rw [he] at pending
      obtain ⟨s, hs, newest⟩ := ih pending
      rw [if_neg (by simp [renews_of_effect_none he])]
      refine ⟨s, ?_, newest⟩
      cases e with
      | begun s' => exact List.mem_cons_of_mem _ hs
      | ended s' outcome =>
        -- Were it this sequence that ended, its outcome would have been written.
        refine (List.mem_erase_of_ne ?_).mpr hs
        rintro rfl
        have hid : s.endpoint = id := by
          simpa [Event.renews] using (newest_eq_some_iff.mp newest).1
        simp [effect?, hid, newest] at he
      | broken s' => exact absurd (List.mem_cons_self ..) (whole s')
      | _ => exact hs
    | some status =>
      rw [he] at pending
      cases pending
      cases e with
      | begun s =>
        simp only [effect?, Option.ite_none_right_eq_some] at he
        exact ⟨s, List.mem_cons_self .., by simp [Event.renews, he.1]⟩
      | ended s outcome =>
        simp only [effect?, Option.ite_none_right_eq_some, Option.some.injEq] at he
        exact absurd he.2 fits.2
      | _ => simp [effect?] at he

end History
end EndpointHealth.Prober
