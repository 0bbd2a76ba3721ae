import EndpointHealth.Proofs.Prober.Steps
set_option autoImplicit false

/-!
What comes of probe sequences, in every run of a prober and whatever else goes on beside them.

Main statements: the outcome of a sequence is written exactly if its endpoint has not started afresh
since the sequence was begun, so that a status is always the one that the last event with an effect
has set (`outcome_written_iff`); and a pending status has exactly one sequence under way that will
replace it, as long as no sequence has been broken off (`pending_has_writer`), which never happens
with a tester that does not break (`whole_of_run`).
-/

namespace EndpointHealth.Prober

open History

variable {ε : Type}

theorem newest_of_split {later earlier : History} {s : Sequence}
    (possible : Possible (later ++ .begun s :: earlier)) :
    newest? s.endpoint (later ++ .begun s :: earlier) = some (.begun s) ↔
      ∀ e ∈ later, e.renews s.endpoint = false := by
  have own : (Event.begun s).renews s.endpoint = true := by simp [Event.renews]
  have once := (once possible rfl).1
  constructor
  · intro newest e he
    cases found : later.find? (·.renews s.endpoint) with
    | none => simpa using List.find?_eq_none.mp found e he
    | some f =>
      have hf : f = .begun s := by simpa [newest?, found] using newest
      exact absurd (hf ▸ List.mem_of_find?_eq_some found) once
  · intro quiet
    exact newest_eq_some_iff.mpr ⟨own, later, earlier, rfl, quiet⟩

theorem finish_of_split {w : World ε} {later earlier : History} {s : Sequence}
    (tracks : Tracks (later ++ .begun s :: earlier) w) (outcome : Status) :
    (w.ledger.finish s.endpoint s.number outcome).statuses =
      if ∀ e ∈ later, e.renews s.endpoint = false
      then w.ledger.statuses.set s.endpoint outcome else w.ledger.statuses := by
  have current := isCurrent_iff tracks.possible s
  rw [newest_of_split tracks.possible, ← tracks.ledger] at current
  by_cases quiet : ∀ e ∈ later, e.renews s.endpoint = false
  · rw [if_pos quiet, Ledger.finish_of_current (current.mpr quiet)]
    rfl
  · rw [if_neg quiet, Ledger.finish_of_stale (mt current.mp quiet)]

/-- Whatever is interleaved with it, a sequence that ends writes its outcome exactly if its endpoint
has been neither begun anew nor forgotten since it was begun, and otherwise leaves all statuses as
they are. So a status is the one that the last event with an effect has set, and a failure is that
of the newest sequence. -/
theorem outcome_written_iff (p : Prober ε) {h : History} {w : World ε} (run : p.Run h w) :
    (∀ s outcome v, p.Step w (some (.ended s outcome)) v →
      ∃ later earlier, h = later ++ .begun s :: earlier ∧
        .begun s ∉ later ∧ .begun s ∉ earlier ∧
        v.ledger.statuses = if ∀ e ∈ later, e.renews s.endpoint = false
          then w.ledger.statuses.set s.endpoint outcome else w.ledger.statuses) ∧
    (∀ id, w.status? id = History.status? id h) ∧
    (∀ id, w.status? id = some .failure →
      ∃ s later earlier, s.endpoint = id ∧ h = later ++ .begun s :: earlier ∧
        .ended s .failure ∈ later ∧ ∀ e ∈ later, e.renews id = false) := by
  have tracks := tracks_of_run run
  have statuses : ∀ id, w.status? id = History.status? id h := fun id => by
    rw [World.status?, tracks.ledger, status_ledger tracks.possible]
  refine ⟨fun s outcome v step => ?_, statuses, fun id failed => ?_⟩
  · have fits := (tracks_step tracks step).possible.1
    obtain ⟨later, earlier, rfl⟩ := List.append_of_mem (begun_of_mem_sequences fits.1)
    obtain ⟨hlater, hearlier⟩ := once tracks.possible rfl
    refine ⟨later, earlier, rfl, hlater, hearlier, ?_⟩
    rw [ledger_of_step step]
    exact finish_of_split tracks outcome
  · rw [statuses] at failed
    exact failure_newest failed

/-- The older of two sequences ends first, and nothing is written. -/
theorem outcome_written_iff_older :
    ∃ w v, steady.Run [.begun ⟨"m", 2⟩, .begun ⟨"m", 1⟩] w ∧
      steady.Step w (some (.ended ⟨"m", 1⟩ .success)) v ∧
      v.ledger.statuses = w.ledger.statuses ∧ w.status? "m" = some .pending := by
  have queued : (steady.probe "m" (steady.probe "m" (.start ()))).agenda =
      [] ++ ⟨0, .attempt ⟨"m", 1⟩ 4⟩ :: [⟨0, .attempt ⟨"m", 2⟩ 4⟩] := rfl
  have launched := Work.attempt (p := steady) queued
  have steps := ((Steps.refl.step (.begin "m")).step (.begin "m")).step (.work launched)
  have run : steady.Run [.begun ⟨"m", 2⟩, .begun ⟨"m", 1⟩] _ := ⟨(), steps⟩
  have waiting : (steady.launch ⟨"m", 1⟩ 4 { steady.probe "m" (steady.probe "m" (.start ())) with
      agenda := [⟨0, .attempt ⟨"m", 2⟩ 4⟩] }).agenda =
      [⟨0, .attempt ⟨"m", 2⟩ 4⟩] ++ ⟨1000, .close ⟨"m", 1⟩ 4 ⟨1000, .passed "pong", []⟩⟩ :: [] :=
    rfl
  have step := Step.work (Work.close (p := steady) waiting)
  refine ⟨_, _, run, step, ?_, rfl⟩
  obtain ⟨later, earlier, hsplit, -, -, statuses⟩ :=
    (outcome_written_iff steady run).1 ⟨"m", 1⟩ .success _ step
  rw [statuses, if_neg]
  intro quiet
  rcases later with _ | ⟨e, later⟩
  · cases hsplit
  · obtain ⟨rfl, -⟩ := List.cons.inj hsplit
    simpa [Event.renews] using quiet _ (List.mem_cons_self ..)

/-! ### Pending statuses -/

/-- A tester that always gives an answer or an error, or nothing at all. -/
def Sound (p : Prober ε) : Prop := ∀ env now r, (p.tester env now r).1.answer ≠ .crash

def Task.Sound : Task → Prop
  | .attempt _ _ => True
  | .close _ _ c | .conclude _ c => c.outcome ≠ .crashed

theorem course_sound {r : Reply} (h : r.answer ≠ .crash) (timeout : UInt64) :
    (r.course timeout).outcome ≠ .crashed := by
  have answer : r.answer.outcome ≠ .crashed := by
    cases ha : r.answer with
    | text s => by_cases hs : isFailure s <;> simp [Answer.outcome, hs]
    | error why => simp [Answer.outcome]
    | crash => exact absurd ha h
  unfold Reply.course
  split
  · split
    · exact answer
    · simp
  · simp

theorem sound_schedule {e : Entry} {es : List Entry} (he : e.task.Sound)
    (hes : ∀ f ∈ es, f.task.Sound) : ∀ f ∈ schedule e es, f.task.Sound := by
  obtain ⟨a, b, hsplit, rfl⟩ := schedule_split e es
  rw [hsplit]
  intro f hf
  rcases List.mem_append.mp hf with hf | hf
  · exact hes f (List.mem_append_left b hf)
  · rcases List.mem_cons.mp hf with rfl | hf
    · exact he
    · exact hes f (List.mem_append_right a hf)

theorem sound_step {p : Prober ε} (sound : p.Sound) {w v : World ε} {e : Option Event}
    (step : p.Step w e v) (hw : ∀ f ∈ w.agenda, f.task.Sound) :
    (∀ s, e ≠ some (.broken s)) ∧ ∀ f ∈ v.agenda, f.task.Sound := by
  have rest : ∀ {a b : List Entry} {g : Entry}, w.agenda = a ++ g :: b →
      g.task.Sound ∧ ∀ f ∈ a ++ b, f.task.Sound := by
    intro a b g hsplit
    rw [hsplit] at hw
    refine ⟨hw g (by simp), fun f hf => hw f ?_⟩
    rcases List.mem_append.mp hf with hf | hf <;> simp [hf]
  cases step with
  | work work =>
    cases work with
    | tick time => exact ⟨by simp, hw⟩
    | attempt hsplit =>
      exact ⟨by simp, sound_schedule (course_sound (sound _ _ _) _) (rest hsplit).2⟩
    | close hsplit =>
      rename_i a b due s left c
      obtain ⟨hc, hab⟩ := rest hsplit
      rcases p.settle_cases s left c { w with agenda := a ++ b } with
        ⟨outcome, he, -, -, hv⟩ | ⟨he, -, hv⟩ | ⟨he, -, due', hv⟩
      · rw [he, hv]
        exact ⟨by simp, hab⟩
      -- Only an attempt that crashes breaks a sequence off.
      · exfalso
        apply hc
        unfold Event.ofClose? at he
        split at he
        · cases he
        · assumption
        · split at he <;> cases he
      · rw [he, hv]
        exact ⟨by simp, sound_schedule trivial hab⟩
    | conclude hsplit =>
      rename_i a b due t c
      obtain ⟨hv, he⟩ := p.closeTest_cases t c { w with agenda := a ++ b }
      rw [hv]
      refine ⟨?_, (rest hsplit).2⟩
      rcases he with ⟨he, -⟩ | ⟨he, -⟩ <;> simp [he]
  | aside env notices => exact ⟨by simp, hw⟩
  | begin id => exact ⟨by simp, sound_schedule trivial hw⟩
  | forget id => exact ⟨by simp, hw⟩
  | beginTest id message => exact ⟨by simp, sound_schedule (course_sound (sound _ _ _) _) hw⟩

theorem whole_of_run {p : Prober ε} (sound : p.Sound) {h : History} {w : World ε}
    (run : p.Run h w) : (∀ s, .broken s ∉ h) ∧ ∀ f ∈ w.agenda, f.task.Sound := by
  obtain ⟨env, steps⟩ := run
  induction steps with
  | refl => exact ⟨by simp, by simp [World.start]⟩
  | step _ next ih =>
    obtain ⟨whole, hw⟩ := ih
    obtain ⟨he, hv⟩ := sound_step sound next hw
    refine ⟨fun s hs => ?_, hv⟩
    rcases List.mem_append.mp hs with hs | hs
    · exact he s (by simpa using hs)
    · exact whole s hs

/-- As long as no sequence has broken, a pending endpoint has a sequence under way, the newest one,
and of all that are under way for it this is the one whose outcome will replace the status. -/
theorem pending_has_writer (p : Prober ε) {h : History} {w : World ε} (run : p.Run h w)
    (whole : ∀ s, .broken s ∉ h) :
    (∀ id, w.status? id = some .pending →
      ∃ s ∈ w.sequences, s.endpoint = id ∧
        (∃ later earlier, h = later ++ .begun s :: earlier ∧
          ∀ s', .begun s' ∈ later → s'.endpoint ≠ id) ∧
        ∀ s' ∈ w.sequences, s'.endpoint = id →
          ((∀ outcome, (p.finish s' outcome w).status? id = some outcome) ↔ s' = s)) ∧
    (w.sequences = [] → ∀ id, w.status? id ≠ some .pending) := by
  have tracks := tracks_of_run run
  have pending : ∀ id, w.status? id = some .pending →
      ∃ s ∈ w.sequences, newest? id h = some (.begun s) := by
    intro id hid
    rw [World.status?, tracks.ledger, status_ledger tracks.possible] at hid
    obtain ⟨s, hs, newest⟩ := pending_underWay tracks.possible whole hid
    exact ⟨s, tracks.sequences.mem_iff.mpr hs, newest⟩
  refine ⟨fun id hid => ?_, fun done id hid => ?_⟩
  · obtain ⟨s, hs, newest⟩ := pending id hid
    obtain ⟨own, later, earlier, hsplit, quiet⟩ := newest_eq_some_iff.mp newest
    have hsid : s.endpoint = id := by simpa [Event.renews] using own
    refine ⟨s, hs, hsid, ⟨later, earlier, hsplit, fun s' hs' => ?_⟩, fun s' hs' hid' => ?_⟩
    · simpa [Event.renews] using quiet _ hs'
    · have current := isCurrent_iff tracks.possible s'
      rw [hid', newest, ← tracks.ledger] at current
      have after : ∀ outcome, (p.finish s' outcome w).status? id =
          (w.ledger.finish id s'.number outcome).status? id := fun outcome => by
        rw [← hid']
        rfl
      simp only [after]
      constructor
      · intro written
        by_cases heq : s' = s
        · exact heq
        -- A stale sequence leaves the status pending, which is no outcome of a success.
        have stale : ¬ w.ledger.isCurrent id s'.number = true := by simp [current, Ne.symm heq]
        have kept := written .success
        rw [Ledger.finish_of_stale stale] at kept
        rw [World.status?, kept] at hid
        cases hid
      · rintro rfl outcome
        have now : w.ledger.isCurrent id s'.number = true := current.mpr rfl
        simp [Ledger.finish_of_current now]
  · obtain ⟨s, hs, -⟩ := pending id hid
    rw [done] at hs
    cases hs

/-- Of two sequences under way only the newer one will replace the pending status. -/
theorem pending_has_writer_newer :
    (steady.probe "m" (steady.probe "m" (.start ()))).status? "m" = some .pending ∧
    ∀ s ∈ (steady.probe "m" (steady.probe "m" (.start ()))).sequences, s.endpoint = "m" →
      ((∀ outcome, (steady.finish s outcome
        (steady.probe "m" (steady.probe "m" (.start ())))).status? "m" = some outcome) ↔
        s = ⟨"m", 2⟩) := by
  have run : steady.Run [.begun ⟨"m", 2⟩, .begun ⟨"m", 1⟩]
      (steady.probe "m" (steady.probe "m" (.start ()))) :=
    ⟨(), (Steps.refl.step (.begin "m")).step (.begin "m")⟩
  have sound : steady.Sound := fun _ _ _ => by simp [steady]
  obtain ⟨s, hs, -, -, writes⟩ :=
    (pending_has_writer steady run (whole_of_run sound run).1).1 "m" rfl
  have newer : (⟨"m", 2⟩ : Sequence) = s :=
    (writes ⟨"m", 2⟩ (by decide) rfl).mp fun outcome => by cases outcome <;> rfl
  exact ⟨rfl, newer ▸ writes⟩

end EndpointHealth.Prober
