import EndpointHealth.Proofs.Prober.Reduction
set_option autoImplicit false

/-!
Endpoints beside each other. They share a prober, with its clock, its numbers and its tester.

Main statement: what a prober does for an endpoint, and when, is what it does if it is asked for
nothing else, with the same replies for this endpoint (`isolated`).
-/

namespace EndpointHealth.Prober

variable {ε δ : Type}

/-- All that is about one endpoint. -/
def Scope.only (id : EndpointId) : Scope where
  sequences := (· = id)
  tests := (· = id)
  tests_le := fun _ kept => kept

/-! ### What is heard about an endpoint -/

theorem asks_runUntil (p : Prober ε) (time : Nat) (w : World ε) :
    ∃ cs, p.Asks w cs (p.runUntil time w) := by
  obtain ⟨cs, asks, -⟩ :=
    runUntil_mirrors (p := p) (q := p) (k := .only "") (R := fun _ _ => False) rfl time w
  exact ⟨cs, asks⟩

theorem asks_await (p : Prober ε) (number : Nat) (w : World ε) :
    ∃ cs, p.Asks w cs (p.await number w) := by
  fun_induction await p number w with
  | case1 w => exact ⟨[], .refl p w⟩
  | case2 w => exact ⟨[], .refl p w⟩
  | case3 w ended e rest h ih =>
    obtain ⟨cs, asks⟩ := p.asks_runUntil e.due w
    obtain ⟨ds, rested⟩ := ih
    exact ⟨cs ++ ds, asks.trans rested⟩

theorem asks_act (p : Prober ε) (x : Act) (w : World ε) : ∃ cs, p.Asks w cs (p.act x w) := by
  cases x with
  | probe id => exact ⟨[], by simp [act, probe, World.wait], rfl⟩
  | probeNow id =>
    obtain ⟨cs, x, asks, -⟩ := attempt_turn (p := p) (q := p) (s := ⟨id, w.ledger.next⟩) rfl
      (p.attempts - 1) { w with ledger := w.ledger.start id }
    exact ⟨cs, asks.calls, asks.env⟩
  | observe ids => exact ⟨[], p.asks_observe ids w⟩
  | forget id => exact ⟨[], by simp [act, forget], rfl⟩
  | test id message => exact ⟨_, (p.test_docket id message w).1⟩
  | advance ms =>
    obtain ⟨cs, asks⟩ := p.asks_runUntil (w.now + ms) w
    exact ⟨cs, asks.calls, asks.env⟩
  | await number => exact p.asks_await number w

/-- Whatever a prober is asked to do, what it hears about an endpoint is what its tester replies to
the calls for it. -/
theorem heard_only (p : Prober ε) (id : EndpointId) (x : Act) (w : World ε) {cs : List Call}
    (asks : p.Asks w cs (p.act x w)) :
    p.heard (.only id) w x = p.heardOf (.only id) w.env cs := by
  cases x with
  | test j message =>
    -- Its one call is for its own endpoint.
    have called : cs = [⟨w.now, p.policy.manualRequest j message⟩] := by
      have both := asks.calls.symm.trans (p.test_docket j message w).1.calls
      exact List.append_cancel_left both
    unfold heard
    rw [asks.calls, List.drop_left, called]
    by_cases kept : (Scope.only id).sequences j = true
    · rw [heardOf_kept (by rintro c (_ | ⟨_, ⟨⟩⟩); exact kept)]
      exact if_pos kept
    · have left : (Scope.only id).sequences j = false := by simpa using kept
      rw [heardOf_left (by rintro c (_ | ⟨_, ⟨⟩⟩); exact left)]
      exact if_neg kept
  | _ => exact heard_of_asks asks (by simp)

theorem heards_only (p : Prober ε) (id : EndpointId) (xs : List Act) (w : World ε) :
    ∃ cs, p.Asks w cs (p.follow xs w) ∧
      p.heards (.only id) xs w = p.heardOf (.only id) w.env cs := by
  induction xs generalizing w with
  | nil => exact ⟨[], .refl p w, rfl⟩
  | cons x xs ih =>
    obtain ⟨cs, asks⟩ := p.asks_act x w
    obtain ⟨ds, rested, rest⟩ := ih (p.act x w)
    refine ⟨cs ++ ds, asks.trans rested, ?_⟩
    rw [heards, p.heard_only id x w asks, rest, heardOf_append, asks.env]

theorem heards_start (p : Prober ε) (id : EndpointId) (xs : List Act) (env : ε) :
    p.heards (.only id) xs (.start env) =
      p.heardOf (.only id) env (p.follow xs (.start env)).calls := by
  obtain ⟨cs, asks, hears⟩ := p.heards_only id xs (.start env)
  have calls : (p.follow xs (.start env)).calls = cs := by simpa [World.start] using asks.calls
  rw [calls]
  exact hears

theorem calls_heardOf (p : Prober ε) (id : EndpointId) (env : ε) (cs : List Call) :
    (p.heardOf (.only id) env cs).map (·.call) = cs.filter (·.request.endpoint = id) := by
  have calls := p.calls_exchanges env cs
  rw [← calls, List.filter_map, calls]
  rfl

/-! ### The prober without all other endpoints -/

/-- At any moment of a run, with a tester that gives the same replies for the endpoint. -/
theorem isolated {p : Prober ε} {q : Prober δ} (policy : q.policy = p.policy) (id : EndpointId)
    (env : ε) (d : δ) {xs ys : List Act} (moment : ys <+: xs)
    (same : q.Repeats d ((p.exchanges env (p.follow xs (.start env)).calls).filter
      (·.call.request.endpoint = id))) :
    let w := p.follow ys (.start env)
    let v := q.follow (p.shares (.only id) ys (.start env)) (.start d)
    v.now = w.now ∧ v.status? id = w.status? id ∧
    v.calls = w.calls.filter (·.request.endpoint = id) ∧
    (q.started (.only id) (p.shares (.only id) ys (.start env)) (.start d)).map v.standing =
      (p.started (.only id) ys (.start env)).map w.standing := by
  obtain ⟨R, carried⟩ := carried_start (k := .only id) policy env d moment
    (fun _ _ kept => kept) (p.heards_start id xs env ▸ same)
  refine ⟨carried.tied.now, ?_, ?_, carried.standings⟩
  · exact (carried.tied.mirrors.ledger.status id (by simp [Scope.only])).symm
  · rw [← p.calls_heardOf id env, ← p.heards_start id ys env]
    simpa [World.start] using carried.asks.calls

/-- A prober whose tester answers for one endpoint at once, and for all others after a second. -/
def uneven : Prober Unit where
  policy := .standard
  tester := fun _ _ r => (⟨some (if r.endpoint = "m" then 0 else 1000), .text "pong", []⟩, ())

/-- The endpoint has other numbers by itself. -/
theorem isolated_beside_other :
    ∃ xs w d v, w = uneven.follow xs (.start ()) ∧
      v = (replaying .standard).follow [.probeNow "m", .observe ["m"], .test "m" "hi"] (.start d) ∧
      uneven.started (.only "m") xs (.start ()) = [("m", 2), ("m", 4)] ∧
      v.status? "m" = w.status? "m" ∧ w.status? "m" = some .success ∧
      v.calls = w.calls.filter (·.request.endpoint = "m") ∧
      [("m", 1), ("m", 2)].map v.standing = [("m", 2), ("m", 4)].map w.standing := by
  let xs : List Act := [.probeNow "n", .probeNow "m", .observe ["m", "n", "k"], .test "m" "hi",
    .forget "n"]
  let d := (uneven.exchanges () (uneven.follow xs (.start ())).calls).filter
    (·.call.request.endpoint = "m")
  obtain ⟨-, status, calls, standings⟩ := isolated (p := uneven) (q := replaying .standard) rfl "m"
    () d (List.prefix_refl xs) (repeats_replaying _ _)
  exact ⟨xs, _, d, _, rfl, rfl, rfl, status, rfl, calls, standings⟩

end EndpointHealth.Prober
