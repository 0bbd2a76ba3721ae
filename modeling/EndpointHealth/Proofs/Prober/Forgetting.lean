import EndpointHealth.Proofs.Prober.Steps
set_option autoImplicit false

/-!
What a prober writes for an endpoint that has been forgotten.

Main statements: a forgotten endpoint has no status until a sequence of it is begun, or a manual
test of it passes that was begun later (`status_none_iff`), and it stays so however often it is
forgotten again (`stays_cleared`). A manual test that was under way when its endpoint was forgotten
is written when it passes exactly if a sequence of the endpoint has been begun since
(`passed_since_forgotten`); so a test can outlive the forgetting of its endpoint
(`not_always_discarded`).
-/

namespace EndpointHealth.Prober

open History

variable {ε : Type}

namespace History

theorem forgotten_of_effect {id : EndpointId} {h : History} {e : Event}
    (he : effect? id h e = some none) : e = .forgotten id := by
  cases e with
  | forgotten i =>
    simp only [effect?, Option.ite_none_right_eq_some] at he
    rw [he.1]
  | _ => simp [effect?] at he

/-- Only forgetting takes a status away. -/
theorem status_kept {id : EndpointId} {later h : History} (present : status? id h ≠ none)
    (kept : .forgotten id ∉ later) : status? id (later ++ h) ≠ none := by
  induction later with
  | nil => exact present
  | cons e later ih =>
    have ih := ih fun he => kept (List.mem_cons_of_mem _ he)
    rw [List.cons_append, status_cons]
    cases he : effect? id (later ++ h) e with
    | none => exact ih
    | some status =>
      cases status with
      | none => exact absurd (forgotten_of_effect he ▸ List.mem_cons_self ..) kept
      | some status => simp

theorem newest_forgotten {id : EndpointId} {later earlier : History}
    (unprobed : ∀ s, .begun s ∈ later → s.endpoint ≠ id) :
    newest? id (later ++ .forgotten id :: earlier) = some (.forgotten id) := by
  induction later with
  | nil => simp [newest_cons, Event.renews]
  | cons e later ih =>
    have ih := ih fun s hs => unprobed s (List.mem_cons_of_mem _ hs)
    rw [List.cons_append, newest_cons]
    cases e with
    | begun s => simpa [Event.renews, unprobed s (List.mem_cons_self ..)] using ih
    | forgotten i => by_cases hi : i = id <;> simp [Event.renews, hi, ih]
    | _ => simpa [Event.renews] using ih

/-- A manual test is withdrawn by the last forgetting of its endpoint, if it had begun before, and
until the endpoint is probed. -/
theorem withdrawn_of_split {t : ManualTest} {later earlier : History}
    (last : .forgotten t.endpoint ∉ later) :
    withdrawn t (later ++ .forgotten t.endpoint :: earlier) = true ↔
      .testBegun t ∈ earlier ∧ ∀ s, .begun s ∈ later → s.endpoint ≠ t.endpoint := by
  induction later with
  | nil => simp [withdrawn]
  | cons e later ih =>
    have ih := ih fun he => last (List.mem_cons_of_mem _ he)
    rw [List.cons_append, withdrawn_cons]
    cases e with
    | begun s =>
      by_cases hs : s.endpoint = t.endpoint
      · simp only [Event.renews, hs, decide_true, if_true, reduceCtorEq, false_and, decide_false]
        refine iff_of_false (by simp) fun discarded => ?_
        exact discarded.2 s (List.mem_cons_self ..) hs
      · simp [Event.renews, hs, ih]
    | forgotten i =>
      have hi : i ≠ t.endpoint := fun hi => last (hi ▸ List.mem_cons_self ..)
      simp [Event.renews, hi, ih]
    | _ => simp [Event.renews, ih]

theorem status_none_of_forgotten {id : EndpointId} {later earlier : History}
    (possible : Possible (later ++ .forgotten id :: earlier)) (last : .forgotten id ∉ later)
    (unprobed : ∀ s, .begun s ∈ later → s.endpoint ≠ id)
    (untested : ∀ t, t.endpoint = id → .testBegun t ∈ later → .testPassed t ∉ later) :
    status? id (later ++ .forgotten id :: earlier) = none := by
  induction later with
  | nil => simp [status_cons, effect?]
  | cons e later ih =>
    have hlast : .forgotten id ∉ later := fun he => last (List.mem_cons_of_mem _ he)
    have hunprobed := fun s hs => unprobed s (List.mem_cons_of_mem _ hs)
    have ih := ih possible.2 hlast hunprobed fun t ht begun passed =>
      untested t ht (List.mem_cons_of_mem _ begun) (List.mem_cons_of_mem _ passed)
    rw [List.cons_append, status_cons]
    cases e with
    | begun s => simpa [effect?, unprobed s (List.mem_cons_self ..)] using ih
    | ended s outcome => simpa [effect?, newest_forgotten hunprobed] using ih
    | forgotten i => by_cases hi : i = id <;> simp [effect?, hi, ih]
    | testPassed t =>
      by_cases ht : t.endpoint = id
      · subst ht
        have hw : withdrawn t (later ++ .forgotten t.endpoint :: earlier) = true := by
          refine (withdrawn_of_split hlast).mpr ⟨?_, hunprobed⟩
          rcases List.mem_append.mp (testBegun_of_mem_tests possible.1) with begun | begun
          · have passed := untested t rfl (List.mem_cons_of_mem _ begun)
            exact absurd (List.mem_cons_self ..) passed
          · simpa using begun
        simp [effect?, hw, ih]
      · simp [effect?, ht, ih]
    | _ => simpa [effect?] using ih

theorem status_none_iff {id : EndpointId} {later earlier : History}
    (possible : Possible (later ++ .forgotten id :: earlier)) (last : .forgotten id ∉ later) :
    status? id (later ++ .forgotten id :: earlier) = none ↔
      (∀ s, .begun s ∈ later → s.endpoint ≠ id) ∧
      ∀ t, t.endpoint = id → .testBegun t ∈ later → .testPassed t ∉ later := by
  constructor
  · intro absent
    constructor
    · rintro s hs rfl
      obtain ⟨a, b, rfl⟩ := List.append_of_mem hs
      have kept : .forgotten s.endpoint ∉ a := fun he => last (List.mem_append_left _ he)
      rw [List.append_assoc, List.cons_append] at absent
      exact status_kept (by simp [status_cons, effect?]) kept absent
    · rintro t rfl begun passed
      obtain ⟨a, b, rfl⟩ := List.append_of_mem passed
      have kept : .forgotten t.endpoint ∉ a := fun he => last (List.mem_append_left _ he)
      have hlast : .forgotten t.endpoint ∉ b := fun he =>
        last (List.mem_append_right a (List.mem_cons_of_mem _ he))
      have hw : withdrawn t (b ++ .forgotten t.endpoint :: earlier) = false := by
        refine Bool.eq_false_iff.mpr fun hw => ?_
        have before := ((withdrawn_of_split hlast).mp hw).1
        exact not_mem_earlier possible rfl begun (List.mem_cons_of_mem _ before)
      rw [List.append_assoc, List.cons_append] at absent
      exact status_kept (by simp [status_cons, effect?, hw]) kept absent
  · rintro ⟨unprobed, untested⟩
    exact status_none_of_forgotten possible last unprobed untested

/-! ### Endpoints that may be forgotten again -/

theorem forgotten_split (id : EndpointId) (later earlier : History) :
    ∃ a b c, later = a ++ b ∧ b ++ .forgotten id :: earlier = .forgotten id :: c ∧
      .forgotten id ∉ a := by
  by_cases again : .forgotten id ∈ later
  · obtain ⟨a, b, rfl, last⟩ := List.eq_append_cons_of_mem again
    exact ⟨a, .forgotten id :: b, b ++ .forgotten id :: earlier, rfl, rfl, last⟩
  · exact ⟨later, [], earlier, by simp, rfl, again⟩

theorem status_none_since_forgotten {id : EndpointId} {later earlier : History}
    (possible : Possible (later ++ .forgotten id :: earlier))
    (unprobed : ∀ s, .begun s ∈ later → s.endpoint ≠ id)
    (untested : ∀ t, t.endpoint = id → .testBegun t ∈ later → .testPassed t ∉ later) :
    status? id (later ++ .forgotten id :: earlier) = none := by
  obtain ⟨a, b, c, rfl, hc, last⟩ := forgotten_split id later earlier
  rw [List.append_assoc, hc] at possible ⊢
  refine status_none_of_forgotten possible last (fun s hs => ?_) fun t ht begun passed => ?_
  · exact unprobed s (List.mem_append_left b hs)
  · exact untested t ht (List.mem_append_left b begun) (List.mem_append_left b passed)

theorem withdrawn_false_iff {t : ManualTest} {later earlier : History}
    (possible : Possible (later ++ .forgotten t.endpoint :: earlier))
    (unprobed : ∀ s, .begun s ∈ later → s.endpoint ≠ t.endpoint)
    (begun : .testBegun t ∈ later ++ .forgotten t.endpoint :: earlier) :
    withdrawn t (later ++ .forgotten t.endpoint :: earlier) = false ↔
      ∃ l₁ l₂, later = l₁ ++ .testBegun t :: l₂ ∧ .forgotten t.endpoint ∉ l₁ := by
  obtain ⟨a, b, c, rfl, hc, last⟩ := forgotten_split t.endpoint later earlier
  rw [List.append_assoc, hc] at possible begun ⊢
  have hunprobed : ∀ s, .begun s ∈ a → s.endpoint ≠ t.endpoint := fun s hs =>
    unprobed s (List.mem_append_left b hs)
  rw [← Bool.not_eq_true, withdrawn_of_split last]
  constructor
  · intro kept
    have since : .testBegun t ∈ a := by
      rcases List.mem_append.mp begun with begun | begun
      · exact begun
      · exact absurd ⟨by simpa using begun, hunprobed⟩ kept
    obtain ⟨l₁, l₂, rfl⟩ := List.append_of_mem since
    exact ⟨l₁, l₂ ++ b, by simp, fun hl => last (List.mem_append_left _ hl)⟩
  · rintro ⟨l₁, l₂, hl, hlast⟩ ⟨discarded, -⟩
    -- The test has begun after the newest forgetting, so it cannot have begun before it as well.
    have since : .testBegun t ∈ a := by
      rcases List.append_eq_append_iff.mp hl with ⟨d, rfl, rfl⟩ | ⟨d, rfl, hd⟩
      · cases d with
        | nil => cases hc
        | cons e d =>
          cases hc
          simp at hlast
      · cases d with
        | nil =>
          rw [List.nil_append] at hd
          rw [← hd] at hc
          cases hc
        | cons e d =>
          obtain ⟨rfl, -⟩ := List.cons.inj hd
          simp
    exact not_mem_earlier possible rfl since (List.mem_cons_of_mem _ discarded)

/-- What gives a forgotten endpoint a status again. -/
theorem present_after_iff {id : EndpointId} {later earlier : History} {e : Event}
    (possible : Possible (e :: (later ++ .forgotten id :: earlier)))
    (unprobed : ∀ s, .begun s ∈ later → s.endpoint ≠ id)
    (absent : status? id (later ++ .forgotten id :: earlier) = none) :
    status? id (e :: (later ++ .forgotten id :: earlier)) ≠ none ↔
      (∃ s, e = .begun s ∧ s.endpoint = id) ∨
      ∃ t l₁ l₂, e = .testPassed t ∧ t.endpoint = id ∧ later = l₁ ++ .testBegun t :: l₂ ∧
        .forgotten id ∉ l₁ := by
  obtain ⟨fits, possible⟩ := possible
  rw [status_cons, absent]
  cases e with
  | begun s => by_cases hs : s.endpoint = id <;> simp [effect?, hs]
  | ended s outcome => simp [effect?, newest_forgotten unprobed]
  | forgotten i => by_cases hi : i = id <;> simp [effect?, hi]
  | testPassed t =>
    by_cases ht : t.endpoint = id
    · subst ht
      have kept := withdrawn_false_iff possible unprobed (testBegun_of_mem_tests fits)
      by_cases hw : withdrawn t (later ++ .forgotten t.endpoint :: earlier) = false
      · obtain ⟨l₁, l₂, hl, last⟩ := kept.mp hw
        exact iff_of_true (by simp [effect?, hw]) (.inr ⟨t, l₁, l₂, rfl, rfl, hl, last⟩)
      · refine iff_of_false (by simp [effect?, hw]) ?_
        rintro (⟨s, hs, -⟩ | ⟨t', l₁, l₂, ht, -, hl, last⟩)
        · cases hs
        · cases ht
          exact hw (kept.mpr ⟨l₁, l₂, hl, last⟩)
    · refine iff_of_false (by simp [effect?, ht]) ?_
      rintro (⟨s, hs, -⟩ | ⟨t', -, -, ht', hid, -⟩)
      · cases hs
      · cases ht'
        exact ht hid
  | _ => simp [effect?]

end History

/-! ### Manual tests under way -/

theorem ledger_testPassed {p : Prober ε} {h : History} {w v : World ε} {t : ManualTest}
    (run : p.Run h w) (step : p.Step w (some (.testPassed t)) v) :
    v.ledger = if withdrawn t h = true then w.ledger else w.ledger.write t.endpoint .success := by
  have tracks := tracks_of_run run
  have fits := (tracks_step tracks step).possible.1
  have mark := forgottenSince_iff tracks.possible fits
  rw [← tracks.ledger] at mark
  rw [ledger_of_step step, ← mark]
  rfl

/-- The forgetting is the last one since the test has begun. -/
theorem passed_since_forgotten (p : Prober ε) {later earlier : History} {t : ManualTest}
    {w : World ε} (run : p.Run (later ++ .forgotten t.endpoint :: earlier) w)
    (begun : .testBegun t ∈ earlier) (last : .forgotten t.endpoint ∉ later) :
    (∀ v, p.Step w (some (.testPassed t)) v →
      ((∀ s, .begun s ∈ later → s.endpoint ≠ t.endpoint) → v.ledger = w.ledger) ∧
      ((∃ s, .begun s ∈ later ∧ s.endpoint = t.endpoint) →
        v.ledger = w.ledger.write t.endpoint .success)) ∧
    ∀ v, p.Step w (some (.testFailed t)) v → v.ledger = w.ledger := by
  have discarded : withdrawn t (later ++ .forgotten t.endpoint :: earlier) = true ↔ _ :=
    withdrawn_of_split last
  refine ⟨fun v step => ⟨fun unprobed => ?_, fun ⟨s, hs, hid⟩ => ?_⟩, fun v step => ?_⟩
  · rw [ledger_testPassed run step, if_pos (discarded.mpr ⟨begun, unprobed⟩)]
  · have kept : ¬ withdrawn t (later ++ .forgotten t.endpoint :: earlier) = true := fun hw =>
      (discarded.mp hw).2 s hs hid
    rw [ledger_testPassed run step, if_neg kept]
  · exact ledger_of_step step

/-- A test is discarded whose endpoint has been forgotten and not been probed since, while another
endpoint has. -/
theorem passed_since_forgotten_unprobed :
    ∃ w v, steady.Run ([.begun ⟨"n", 3⟩] ++ .forgotten "m" :: [.testBegun ⟨"m", 1⟩]) w ∧
      steady.Step w (some (.testPassed ⟨"m", 1⟩)) v ∧ v.ledger = w.ledger := by
  have steps := ((Steps.refl.step (.beginTest (p := steady) (w := .start ()) "m" "hi")).step
    (.forget "m")).step (.begin "n")
  have run : steady.Run ([.begun ⟨"n", 3⟩] ++ .forgotten "m" :: [.testBegun ⟨"m", 1⟩]) _ :=
    ⟨(), steps⟩
  have waiting : (steady.probe "n" (steady.forget "m"
      (steady.launchTest "m" "hi" (.start ())))).agenda =
      [⟨0, .attempt ⟨"n", 3⟩ 4⟩] ++
        ⟨1000, .conclude ⟨"m", 1⟩ ⟨1000, .passed "pong", []⟩⟩ :: [] := rfl
  have step := Step.work (Work.conclude (p := steady) waiting)
  have begun : .testBegun ⟨"m", 1⟩ ∈ [Event.testBegun ⟨"m", 1⟩] := List.mem_cons_self ..
  have discarded := (passed_since_forgotten steady (t := ⟨"m", 1⟩) run begun (by simp)).1 _ step
  exact ⟨_, _, run, step, discarded.1 (by simp)⟩

/-- The endpoint is probed between its forgetting and the end of the test. -/
theorem not_always_discarded :
    ¬ ∀ (h later earlier : History) (t : ManualTest) (w v : World Unit), steady.Run h w →
      h = later ++ .forgotten t.endpoint :: earlier → .testBegun t ∈ earlier →
      steady.Step w (some (.testPassed t)) v → v.ledger.statuses = w.ledger.statuses := by
  intro always
  have steps := ((Steps.refl.step (.beginTest (p := steady) (w := .start ()) "m" "hi")).step
    (.forget "m")).step (.begin "m")
  have run : steady.Run [.begun ⟨"m", 3⟩, .forgotten "m", .testBegun ⟨"m", 1⟩] _ := ⟨(), steps⟩
  have waiting : (steady.probe "m" (steady.forget "m"
      (steady.launchTest "m" "hi" (.start ())))).agenda =
      [⟨0, .attempt ⟨"m", 3⟩ 4⟩] ++
        ⟨1000, .conclude ⟨"m", 1⟩ ⟨1000, .passed "pong", []⟩⟩ :: [] := rfl
  have step := Step.work (Work.conclude (p := steady) waiting)
  have same := always _ [.begun ⟨"m", 3⟩] [.testBegun ⟨"m", 1⟩] ⟨"m", 1⟩ _ _ run rfl
    (List.mem_cons_self ..) step
  revert same
  decide

/-! ### Until an endpoint is probed or tested again -/

/-- After a forgetting, with no sequence begun for the endpoint since and no test passed that began
since: there is no status, sequences and tests from before end without a trace in the ledger, and
the last part tells which events give a status again. -/
theorem stays_cleared (p : Prober ε) {id : EndpointId} {later earlier : History} {w : World ε}
    (run : p.Run (later ++ .forgotten id :: earlier) w)
    (unprobed : ∀ s, .begun s ∈ later → s.endpoint ≠ id)
    (untested : ∀ t, t.endpoint = id → .testBegun t ∈ later → .testPassed t ∉ later) :
    w.status? id = none ∧
    (∀ s outcome v, s.endpoint = id → p.Step w (some (.ended s outcome)) v →
      v.ledger = w.ledger) ∧
    (∀ t v, t.endpoint = id → .testBegun t ∈ earlier → p.Step w (some (.testPassed t)) v →
      v.ledger = w.ledger) ∧
    ∀ e v, p.Step w (some e) v →
      (v.status? id ≠ none ↔
        (∃ s, e = .begun s ∧ s.endpoint = id) ∨
        ∃ t l₁ l₂, e = .testPassed t ∧ t.endpoint = id ∧ later = l₁ ++ .testBegun t :: l₂ ∧
          .forgotten id ∉ l₁) := by
  have tracks := tracks_of_run run
  have absent : History.status? id (later ++ .forgotten id :: earlier) = none :=
    status_none_since_forgotten tracks.possible unprobed untested
  refine ⟨(status_of_run run id).trans absent, ?_, ?_, fun e v step => ?_⟩
  · rintro s outcome v rfl step
    have current := isCurrent_iff tracks.possible s
    rw [newest_forgotten unprobed, ← tracks.ledger] at current
    have stale : ¬ w.ledger.isCurrent s.endpoint s.number = true := by simp [current]
    rw [ledger_of_step step]
    exact Ledger.finish_of_stale stale outcome
  · rintro t v rfl begun step
    have before : .testBegun t ∈ later ++ .forgotten t.endpoint :: earlier :=
      List.mem_append_right _ (List.mem_cons_of_mem _ begun)
    have discarded : withdrawn t (later ++ .forgotten t.endpoint :: earlier) = true := by
      rw [← Bool.not_eq_false, withdrawn_false_iff tracks.possible unprobed before]
      -- It has begun before the forgetting, and nothing begins twice.
      rintro ⟨l₁, l₂, rfl, -⟩
      have since : .testBegun t ∈ l₁ ++ .testBegun t :: l₂ := by simp
      exact not_mem_earlier tracks.possible rfl since (List.mem_cons_of_mem _ begun)
    rw [ledger_testPassed run step, if_pos discarded]
  · have after := run.step step
    rw [status_of_run after id]
    exact present_after_iff (tracks_of_run after).possible unprobed absent

/-- A sequence and a manual test of the endpoint are under way when it is forgotten, and both pass
while another endpoint is probed. -/
theorem stays_cleared_passed :
    ∃ w, steady.Run ([.testPassed ⟨"m", 2⟩, .begun ⟨"n", 4⟩] ++
        .forgotten "m" :: [.testBegun ⟨"m", 2⟩, .begun ⟨"m", 1⟩]) w ∧
      w.status? "m" = none ∧ w.status? "n" = some .pending := by
  have steps := (((Steps.refl.step (.begin (p := steady) (w := .start ()) "m")).step
    (.beginTest "m" "hi")).step (.forget "m")).step (.begin "n")
  have waiting : (steady.probe "n" (steady.forget "m" (steady.launchTest "m" "hi"
      (steady.probe "m" (.start ()))))).agenda =
      [⟨0, .attempt ⟨"m", 1⟩ 4⟩, ⟨0, .attempt ⟨"n", 4⟩ 4⟩] ++
        ⟨1000, .conclude ⟨"m", 2⟩ ⟨1000, .passed "pong", []⟩⟩ :: [] := rfl
  have run : steady.Run ([.testPassed ⟨"m", 2⟩, .begun ⟨"n", 4⟩] ++
      .forgotten "m" :: [.testBegun ⟨"m", 2⟩, .begun ⟨"m", 1⟩]) _ :=
    ⟨(), steps.step (.work (.conclude waiting))⟩
  exact ⟨_, run, (stays_cleared steady run (by simp) (by simp)).1, rfl⟩

end EndpointHealth.Prober
