import EndpointHealth.Proofs.Prober.Probed
import EndpointHealth.Proofs.Prober.Reduction
set_option autoImplicit false

/-!
Manual tests beside probe sequences. They take numbers and set statuses, but are no concern of the
sequences.

Main statement: without its manual tests a prober begins and ends the same sequences at the same
times, with the same attempts, and each status is the same unless a manual test that passed is the
last that had an effect on its endpoint (`sequences_untouched`).
-/

namespace EndpointHealth.Prober

open History

variable {ε δ : Type}

/-- All but manual tests. -/
def Scope.untested : Scope where
  sequences := fun _ => true
  tests := fun _ => false
  tests_le := fun _ _ => rfl

/-! ### Runs without manual tests -/

theorem untested_steps (p : Prober ε) {x : Act} (untested : ∀ id message, x ≠ .test id message)
    (w : World ε) : ∃ h : History, (∀ t, .testBegun t ∉ h) ∧ p.Steps w h (p.act x w) := by
  have ends : ∀ {h : History}, (∀ e ∈ h, e.isEnd = true) → ∀ t, .testBegun t ∉ h :=
    fun hends t ht => by cases hends _ ht
  cases x with
  | probe id => exact ⟨_, by simp, p.probe_steps id w⟩
  | probeNow id =>
    obtain ⟨h, hends, steps⟩ := p.probeNow_steps id w
    refine ⟨_, fun t ht => ?_, steps⟩
    rcases List.mem_append.mp ht with ht | ht
    · exact ends hends t ht
    · simp at ht
  | observe ids =>
    obtain ⟨h, begun, steps⟩ := p.observe_steps ids w
    refine ⟨h, fun t ht => ?_, steps⟩
    obtain ⟨s, hs, -⟩ := begun _ ht
    cases hs
  | forget id => exact ⟨_, by simp, .single (.forget id)⟩
  | test id message => exact absurd rfl (untested id message)
  | advance ms =>
    obtain ⟨h, hends, steps⟩ := (p.advance_proceeds ms w).steps
    exact ⟨h, ends hends, steps⟩
  | await number =>
    obtain ⟨h, hends, steps⟩ := (p.await_proceeds number w).steps
    exact ⟨h, ends hends, steps⟩

theorem untested_run (p : Prober ε) {xs : List Act} (untested : ∀ id message, .test id message ∉ xs)
    (env : ε) : ∃ h : History, (∀ t, .testBegun t ∉ h) ∧ p.Run h (p.follow xs (.start env)) := by
  suffices ∀ w : World ε, (∃ h : History, (∀ t, .testBegun t ∉ h) ∧ p.Run h w) →
      ∃ h : History, (∀ t, .testBegun t ∉ h) ∧ p.Run h (p.follow xs w) from
    this _ ⟨[], by simp, env, .refl⟩
  induction xs with
  | nil => exact fun w run => run
  | cons x xs ih =>
    rintro w ⟨h, none, env', steps⟩
    have first : ∀ id message, x ≠ .test id message := fun id message hx =>
      untested id message (hx ▸ List.mem_cons_self ..)
    obtain ⟨h', none', steps'⟩ := p.untested_steps first w
    refine ih (fun id message hx => untested id message (List.mem_cons_of_mem _ hx)) _
      ⟨h' ++ h, fun t ht => ?_, env', steps.trans steps'⟩
    exact (List.mem_append.mp ht).elim (none' t) (none t)

theorem probed_untested {p : Prober ε} {h : History} {w : World ε} (run : p.Run h w)
    (untested : ∀ t, .testBegun t ∉ h) (id : EndpointId) : w.status? id = w.probed? id := by
  refine (probed_or_tested run id).resolve_left ?_
  rintro ⟨t, last⟩
  exact untested t (begun_of_passed (tracks_of_run run).possible (mem_of_lastEffect last))

theorem shares_untested (p : Prober ε) (xs : List Act) (w : World ε) (id : EndpointId)
    (message : String) : .test id message ∉ p.shares .untested xs w := by
  induction xs generalizing w with
  | nil => simp [shares]
  | cons x xs ih =>
    rw [shares, List.mem_append]
    rintro (hx | hx)
    · cases x with
      | await number =>
        simp only [share] at hx
        split at hx <;> simp at hx
      | _ => simp [share, Scope.untested] at hx
    · exact ih _ hx

/-- What sequences alone make of the statuses is the same without manual tests. -/
theorem probed_mirrored {k : Scope} {R : Pairing} {w : World ε} {v : World δ}
    (mirrors : w.docket.Mirrors k R v.docket) (id : EndpointId) (kept : k.sequences id = true) :
    w.probed? id = v.probed? id := by
  have current : Option.Rel R (w.ledger.current.get? id) (v.ledger.current.get? id) :=
    mirrors.ledger.current id kept
  unfold World.probed? Docket.outcome?
  rcases optionRel_cases current with ⟨hw, hv⟩ | ⟨n, m, hw, hv, hn⟩
  · rw [hw, hv]
    rfl
  · rw [hw, hv, Option.map_some, Option.map_some, mirrors.came n m hn]

/-! ### The prober without its manual tests -/

/-- At any moment of a run, with a tester that gives the same replies to the attempts of sequences.
An outcome is written if its sequence is the newest of its endpoint, and discarded otherwise. -/
theorem sequences_untouched {p : Prober ε} {q : Prober δ} (policy : q.policy = p.policy) (env : ε)
    (d : δ) {xs ys : List Act} (moment : ys <+: xs) (unobserved : ∀ ids, .observe ids ∉ xs)
    (same : q.Repeats d (p.heards .untested xs (.start env))) :
    let w := p.follow ys (.start env)
    let v := q.follow (p.shares .untested ys (.start env)) (.start d)
    v.now = w.now ∧ v.calls = (p.heards .untested ys (.start env)).map (·.call) ∧
    (q.started .untested (p.shares .untested ys (.start env)) (.start d)).map v.standing =
      (p.started .untested ys (.start env)).map w.standing ∧
    ∀ id, v.status? id = w.status? id ∨
      w.status? id = some .success ∧ ∀ h, p.Run h w →
        ∃ t, t.endpoint = id ∧ lastEffect? id h = some (.testPassed t) := by
  obtain ⟨R, carried⟩ := carried_start (k := .untested) policy env d moment
    (fun ⟨ids, hids⟩ => absurd hids (unobserved ids)) same
  refine ⟨carried.tied.now, by simpa [World.start] using carried.asks.calls, carried.standings,
    fun id => ?_⟩
  -- No manual test has set a status in the smaller run, and what sequences make of it is mirrored.
  obtain ⟨h', untested, run'⟩ := q.untested_run (p.shares_untested ys (.start env)) d
  have reduced := probed_untested run' untested id
  have mirrored := probed_mirrored carried.tied.mirrors id rfl
  by_cases probed : (p.follow ys (.start env)).status? id = (p.follow ys (.start env)).probed? id
  · exact .inl (reduced.trans (mirrored.symm.trans probed.symm))
  · right
    have tested : ∀ h, p.Run h (p.follow ys (.start env)) →
        ∃ t, lastEffect? id h = some (.testPassed t) := fun h run =>
      (probed_or_tested run id).resolve_right probed
    obtain ⟨h, run⟩ := p.run_of_acts env ys
    obtain ⟨t, last⟩ := tested h run
    refine ⟨(status_of_run run id).trans (status_of_lastEffect last).2, fun h run => ?_⟩
    obtain ⟨t, last⟩ := tested h run
    exact ⟨t, (status_of_lastEffect last).1, last⟩

/-- A prober whose tester answers its second request at once, and all others after a second. -/
def overtaking : Prober Nat where
  policy := .standard
  tester := fun n _ _ => (⟨some (if n = 1 then 0 else 1000), .text "pong", []⟩, n + 1)

/-- A manual test passes while a sequence of its endpoint is under way. -/
theorem sequences_untouched_tested :
    ∃ xs w d v, w = overtaking.follow xs (.start 0) ∧
      v = (replaying .standard).follow [.probeNow "m", .probe "n"] (.start d) ∧
      overtaking.started .untested xs (.start 0) = [("m", 1), ("n", 3)] ∧
      [("m", 1), ("n", 2)].map v.standing = [("m", 1), ("n", 3)].map w.standing ∧
      v.status? "m" = some .pending ∧ w.status? "m" = some .success ∧
      ∀ h, overtaking.Run h w →
        ∃ t, t.endpoint = "m" ∧ lastEffect? "m" h = some (.testPassed t) := by
  let xs : List Act := [.probeNow "m", .test "m" "hi", .probe "n"]
  let d := overtaking.heards .untested xs (.start 0)
  obtain ⟨-, -, standings, statuses⟩ := sequences_untouched (p := overtaking)
    (q := replaying .standard) rfl 0 d (List.prefix_refl xs) (by simp [xs])
    (repeats_replaying _ _)
  have left : overtaking.shares .untested xs (.start 0) = [.probeNow "m", .probe "n"] := rfl
  have begun : overtaking.started .untested xs (.start 0) = [("m", 1), ("n", 3)] := rfl
  have begun' : (replaying .standard).started .untested [.probeNow "m", .probe "n"] (.start d) =
      [("m", 1), ("n", 2)] := by decide +kernel
  rw [left] at standings statuses
  rw [begun, begun'] at standings
  have pending : ((replaying .standard).follow [.probeNow "m", .probe "n"] (.start d)).status? "m" =
      some .pending := by decide +kernel
  have success : (overtaking.follow xs (.start 0)).status? "m" = some .success := rfl
  have differ : some Status.pending ≠ some .success := by decide
  exact ⟨xs, _, d, _, rfl, rfl, begun, standings, pending, success,
    ((statuses "m").resolve_left fun same => differ (pending.symm.trans (same.trans success))).2⟩

end EndpointHealth.Prober
