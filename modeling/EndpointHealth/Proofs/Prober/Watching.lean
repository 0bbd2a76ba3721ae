import EndpointHealth.Proofs.Prober.Coverage
import EndpointHealth.Proofs.Prober.Punctuality
set_option autoImplicit false

/-!
One manual test from its start to its end, whatever else happens meanwhile: other sequences and
tests, of the same endpoint or of others, and endpoints that are forgotten and become known again.

Main statements: the test waits for its end or has come to what the reply gives, and it is going to
be discarded exactly as long as its endpoint is not known (`upholds_watches`); so it ends by writing
a success if it has passed and its endpoint is known, and otherwise by writing nothing
(`Watches.concluded`).
-/

namespace EndpointHealth.Prober

variable {ε : Type} {p : Prober ε} {known : EndpointId → Prop} {w v : World ε}

/-! ### Steps -/

/-- In a step at most one thing is taken off the docket. The end of a manual test is put on it. -/
theorem step_extends {e : Option Event} (step : p.Step w e v) :
    (∃ time, { w.docket with now := time }.Extends v.docket) ∨
    ∃ a f b, w.agenda = a ++ f :: b ∧ { w.docket with agenda := a ++ b }.Extends v.docket ∧
      ∀ t c, f.task = .conclude t c → ⟨t.number, w.now, c.result⟩ ∈ v.ended := by
  cases step with
  | work h =>
    cases h with
    | tick time => exact .inl ⟨time, .refl _⟩
    | attempt h =>
      exact .inr ⟨_, _, _, h, .wait { w.docket with agenda := _ } _ (.close _ _ _), nofun⟩
    | close h =>
      rename_i a b due s left c
      obtain ⟨x, hx⟩ := p.settle_docket s left c { w with agenda := a ++ b }
      exact .inr ⟨a, _, b, h, hx ▸ .turn _ s x, nofun⟩
    | conclude h =>
      rename_i a b due t c
      have docket := (p.closeTest_docket t c { w with agenda := a ++ b }).1
      refine .inr ⟨a, _, b, h, docket ▸ .endTest _ t c, fun t' c' same => ?_⟩
      cases same
      have ended : (p.closeTest t c { w with agenda := a ++ b }).ended =
          w.ended ++ [⟨t.number, w.now, c.result⟩] := congrArg Docket.ended docket
      rw [ended]
      exact List.mem_append_right _ (List.mem_singleton_self _)
  | aside env notices => exact .inl ⟨w.now, .refl _⟩
  | begin id => exact .inl ⟨w.now, p.probe_extends id w⟩
  | forget id => exact .inl ⟨w.now, rfl, fun _ he => he, fun _ hx => hx⟩
  | beginTest id message =>
    exact .inl ⟨w.now, .withLedger (.wait { w.docket with ledger := w.ledger.claim } _
      (.conclude _ _))⟩

theorem forgottenSince_after {l : Ledger} {n : Nat} (given : n ≤ l.claimed) (id : EndpointId)
    (e : Event) : (l.after e).forgottenSince id n =
      if e.renews id then decide (e = .forgotten id) else l.forgottenSince id n := by
  have later : n < l.next := Nat.lt_succ_of_le given
  simp only [History.forgottenSince_eq]
  cases e with
  | begun s =>
    by_cases same : s.endpoint = id
    · simp [Ledger.after, Ledger.start, Event.renews, same]
    · simp [Ledger.after, Ledger.start, Event.renews, same, Ne.symm same]
  | forgotten i =>
    by_cases same : i = id
    · simp [Ledger.after, Ledger.forget, Event.renews, same, later]
    · simp [Ledger.after, Ledger.forget, Event.renews, same, Ne.symm same]
  | _ => simp [Ledger.after, Ledger.claim, Event.renews]

/-! ### The test -/

/-- A manual test has been started, of which this is the end. -/
structure Watches (p : Prober ε) (t : ManualTest) (due : Nat) (c : Course)
    (known : EndpointId → Prop) (w : World ε) : Prop where
  run : ∃ h, p.Run h w
  stands : ⟨due, .conclude t c⟩ ∈ w.agenda ∨ ∃ time, ⟨t.number, time, c.result⟩ ∈ w.ended
  marked : w.ledger.forgottenSince t.endpoint t.number = true ↔ ¬ known t.endpoint

section
variable {t : ManualTest} {due : Nat} {c : Course}

theorem Watches.numbered (watches : p.Watches t due c known w) : w.docket.Numbered := by
  obtain ⟨h, run⟩ := watches.run
  exact numbered_of_run run

theorem Watches.mem_numbers (watches : p.Watches t due c known w) :
    t.number ∈ w.docket.numbers := by
  rcases watches.stands with waiting | ⟨time, ended⟩
  · exact Docket.number_mem_agenda (d := w.docket) waiting
  · exact Docket.number_mem_ended (d := w.docket) ended

theorem upholds_watches (p : Prober ε) (t : ManualTest) (due : Nat) (c : Course) :
    p.Upholds (p.Watches t due c) := by
  intro known w v e watches step _
  have given : t.number ≤ w.ledger.claimed := watches.numbered.le _ watches.mem_numbers
  obtain ⟨h, run⟩ := watches.run
  refine ⟨⟨_, run.step step⟩, ?_, ?_⟩
  · rcases step_extends step with ⟨time, extended⟩ | ⟨a, f, b, split, extended, ends⟩
    · exact watches.stands.imp (extended.agenda _) (Exists.imp fun _ => extended.ended _)
    · rcases watches.stands with waiting | ⟨time, ended⟩
      · rw [split] at waiting
        rcases List.mem_append.mp waiting with waiting | waiting
        · exact .inl (extended.agenda _ (List.mem_append_left b waiting))
        · rcases List.mem_cons.mp waiting with rfl | waiting
          · exact .inr ⟨w.now, ends t c rfl⟩
          · exact .inl (extended.agenda _ (List.mem_append_right a waiting))
      · exact .inr ⟨time, extended.ended _ ended⟩
  · rw [ledger_of_step step]
    cases e with
    | none => exact watches.marked
    | some e =>
      show (w.ledger.after e).forgottenSince _ _ = true ↔ _
      rw [forgottenSince_after given]
      cases e with
      | begun s =>
        by_cases same : s.endpoint = t.endpoint
        · simp [Event.renews, Event.leaves, same]
        · simp [Event.renews, Event.leaves, same, Ne.symm same, watches.marked]
      | forgotten i =>
        by_cases same : i = t.endpoint
        · simp [Event.renews, Event.leaves, same]
        · simp [Event.renews, Event.leaves, same, Ne.symm same, watches.marked]
      | _ => exact watches.marked

/-- A test that begins is not discarded as long as its endpoint is known. -/
theorem watches_launchTest {h : History} (run : p.Run h w) {id : EndpointId} (hid : known id)
    (message : String) :
    p.Watches ⟨id, w.ledger.next⟩ (w.now + (p.call (p.policy.manualRequest id message) w).1.lasts)
      (p.call (p.policy.manualRequest id message) w).1 known (p.launchTest id message w) where
  run := ⟨_, run.step (.beginTest id message)⟩
  stands := .inl (mem_schedule.mpr (.inl rfl))
  marked := by
    refine iff_of_false ?_ (fun unknown => unknown hid)
    show ¬ w.ledger.forgottenSince id w.ledger.next = true
    rw [History.forgottenSince_eq, (tracks_of_run run).ledger]
    intro marked
    obtain ⟨m, hm, later⟩ := Option.any_eq_true .. |>.mp marked
    have le := History.mark_le hm
    exact absurd (of_decide_eq_true later) (Nat.not_lt_of_le (Nat.le_succ_of_le le))

theorem Watches.running (watches : p.Watches t due c known w) :
    (t ∈ w.tests ∧ w.result? t.number = none) ∨
    (t ∉ w.tests ∧ ∃ time, w.result? t.number = some ⟨t.number, time, c.result⟩) := by
  rcases watches.stands with waiting | ⟨time, ended⟩
  · exact .inl ⟨List.mem_filterMap.mpr ⟨_, waiting, rfl⟩, result_none watches.numbered waiting⟩
  · refine .inr ⟨fun running => ?_, time, result_of_ended watches.numbered ended⟩
    obtain ⟨⟨due', task⟩, he, same⟩ := List.mem_filterMap.mp running
    cases task with
    | attempt s left => cases same
    | close s left c => cases same
    | conclude t' c' =>
      cases same
      exact watches.numbered.ne he ended rfl

theorem Watches.await (watches : p.Watches t due c known w) :
    t ∉ (p.await t.number w).tests := by
  have proceeds := p.await_proceeds t.number w
  rcases ((p.upholds_watches t due c).proceeds watches proceeds).running with
    ⟨-, unended⟩ | ⟨passed, -⟩
  · have ended := p.await_ends t.number w watches.mem_numbers
    rw [unended] at ended
    cases ended
  · exact passed

theorem Watches.course (watches : p.Watches t due c known w) {a b : List Entry} {due' : Nat}
    {c' : Course} (split : w.agenda = a ++ ⟨due', .conclude t c'⟩ :: b) :
    c' = c ∧ w.result? t.number = none := by
  have ends : ⟨due', .conclude t c'⟩ ∈ w.agenda := by simp [split]
  refine ⟨?_, result_none watches.numbered ends⟩
  rcases watches.stands with waiting | ⟨time, ended⟩
  · have nodup := (List.nodup_append.mp watches.numbered.nodup).1
    have same := List.inj_on_of_nodup_map nodup ends waiting rfl
    cases same
    rfl
  · exact absurd rfl (watches.numbered.ne ends ended)

/-- The test ends by writing a success if it has passed and its endpoint is known, and otherwise
writes nothing. In either case it gives its result, and makes no call. -/
theorem Watches.concluded (watches : p.Watches t due c known w) {a b : List Entry} {due' : Nat}
    {c' : Course} (split : w.agenda = a ++ ⟨due', .conclude t c'⟩ :: b)
    (hv : v = p.closeTest t c' { w with agenda := a ++ b }) :
    w.result? t.number = none ∧ v.result? t.number = some ⟨t.number, w.now, c.result⟩ ∧
    v.calls = w.calls ∧
    (c.passes = true → known t.endpoint → v.ledger = w.ledger.write t.endpoint .success) ∧
    (¬ (c.passes = true ∧ known t.endpoint) → v.ledger = w.ledger) := by
  obtain ⟨rfl, waiting⟩ := watches.course split
  obtain ⟨docket, asks⟩ := p.closeTest_docket t c' { w with agenda := a ++ b }
  have step : p.Step w (some (Event.ofTest t c')) v := by
    rw [hv]
    exact .work (.conclude split)
  have numbered : v.docket.Numbered := by
    obtain ⟨h, run⟩ := watches.run
    exact numbered_of_run (run.step step)
  rw [← hv] at docket asks
  have ended : v.ended = w.ended ++ [⟨t.number, w.now, c'.result⟩] := congrArg Docket.ended docket
  have ledger : v.ledger =
      if c'.passes = true then w.ledger.passTest t.endpoint t.number else w.ledger :=
    congrArg Docket.ledger docket
  have last : ⟨t.number, w.now, c'.result⟩ ∈ v.ended := by simp [ended]
  refine ⟨waiting, result_of_ended numbered last, by simpa using asks.calls, ?_, fun other => ?_⟩
  · intro passes held
    have kept : ¬ w.ledger.forgottenSince t.endpoint t.number = true := fun marked =>
      watches.marked.mp marked held
    rw [ledger, if_pos passes, Ledger.passTest_of_kept kept]
  · by_cases passes : c'.passes = true
    · have marked := watches.marked.mpr fun held => other ⟨passes, held⟩
      rw [ledger, if_pos passes, Ledger.passTest_of_forgotten marked]
    · rw [ledger, if_neg passes]

end

end EndpointHealth.Prober
