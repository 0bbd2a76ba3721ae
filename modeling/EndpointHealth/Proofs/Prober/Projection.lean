import EndpointHealth.Proofs.Prober.Mirroring
set_option autoImplicit false

/-!
What a prober does by itself, beside a smaller one that has only what a scope keeps.

Main statement: while the clock runs, the smaller prober makes those calls that are about kept
endpoints, and stays the mirror of the larger one, if its tester replies to them as the other one
does (`advance_mirrors`).
-/

namespace EndpointHealth.Prober

variable {ε δ : Type}

/-! ### Calls -/

/-- What a tester replies to those of some calls that are about kept endpoints. -/
def heardOf (p : Prober ε) (k : Scope) (env : ε) (cs : List Call) : List Exchange :=
  (p.exchanges env cs).filter fun x => k.sequences x.call.request.endpoint

theorem heardOf_append (p : Prober ε) (k : Scope) (env : ε) (cs ds : List Call) :
    p.heardOf k env (cs ++ ds) = p.heardOf k env cs ++ p.heardOf k (p.after env cs) ds := by
  rw [heardOf, exchanges_append, List.filter_append]
  rfl

theorem call_of_mem_exchanges {p : Prober ε} {env : ε} {cs : List Call} {x : Exchange}
    (hx : x ∈ p.exchanges env cs) : x.call ∈ cs := by
  rw [← p.calls_exchanges env cs]
  exact List.mem_map_of_mem hx

theorem heardOf_kept {k : Scope} {cs : List Call}
    (kept : ∀ c ∈ cs, k.sequences c.request.endpoint = true) (p : Prober ε) (env : ε) :
    p.heardOf k env cs = p.exchanges env cs :=
  List.filter_eq_self.mpr fun _ hx => kept _ (call_of_mem_exchanges hx)

theorem heardOf_left {k : Scope} {cs : List Call}
    (left : ∀ c ∈ cs, k.sequences c.request.endpoint = false) (p : Prober ε) (env : ε) :
    p.heardOf k env cs = [] :=
  List.filter_eq_nil_iff.mpr fun _ hx => by simp [left _ (call_of_mem_exchanges hx)]

/-! ### Tasks -/

section
variable {p : Prober ε} {q : Prober δ} {k : Scope} {R : Pairing}

theorem SameTurn.now {s : Sequence} {f : World ε → World ε} {g : Sequence → World δ → World δ}
    {w : World ε} (same : SameTurn p q s f g w) : (f w).now = w.now := by
  obtain ⟨cs, x, -, -, hx, -⟩ := same
  exact (congrArg Docket.now hx).trans (Docket.now_turn _ s x)

theorem SameTurn.mirrors {s : Sequence} {f : World ε → World ε} {g : Sequence → World δ → World δ}
    {w : World ε} (same : SameTurn p q s f g w) (kept : k.sequences s.endpoint = true) :
    ∃ cs, p.Asks w cs (f w) ∧ (∀ c ∈ cs, k.sequences c.request.endpoint = true) ∧
      ∀ (v : World δ) (m : Nat), w.docket.Mirrors k R v.docket → v.now = w.now →
        R s.number m → q.Repeats v.env (p.exchanges w.env cs) →
        q.Asks v cs (g ⟨s.endpoint, m⟩ v) ∧
          (f w).docket.Mirrors k R (g ⟨s.endpoint, m⟩ v).docket ∧
          (g ⟨s.endpoint, m⟩ v).now = v.now := by
  obtain ⟨cs, x, asks, own, hx, repeated⟩ := same
  refine ⟨cs, asks, fun c hc => own c hc ▸ kept, fun v m mirrors now hm repeats => ?_⟩
  obtain ⟨asks', hx'⟩ := repeated ⟨s.endpoint, m⟩ v rfl now repeats
  refine ⟨asks', ?_, (congrArg Docket.now hx').trans (Docket.now_turn _ _ x)⟩
  rw [hx, hx']
  exact mirrors.turn now kept hm x

theorem SameTurn.mirrors_left {s : Sequence} {f : World ε → World ε}
    {g : Sequence → World δ → World δ} {w : World ε} (same : SameTurn p q s f g w)
    (left : k.sequences s.endpoint = false) :
    ∃ cs, p.Asks w cs (f w) ∧ (∀ c ∈ cs, k.sequences c.request.endpoint = false) ∧
      ∀ d, w.docket.Mirrors k R d → (∀ m, ¬ R s.number m) → (f w).docket.Mirrors k R d := by
  obtain ⟨cs, x, asks, own, hx, -⟩ := same
  refine ⟨cs, asks, fun c hc => own c hc ▸ left, fun d mirrors unpaired => ?_⟩
  rw [hx]
  exact mirrors.turn_left left unpaired x

/-- The head of the agenda is a turn of a kept sequence. -/
theorem SameTurn.performed {e : Entry} {rest : List Entry} {w : World ε} {s : Sequence}
    {f : World ε → World ε} {g : Sequence → World δ → World δ}
    (same : SameTurn p q s f g { w with now := max w.now e.due, agenda := rest })
    (h : w.agenda = e :: rest) (kept : k.keeps e.task = true)
    (own : k.sequences s.endpoint = true) (number : e.task.number = s.number)
    (hg : ∀ (m : Nat) (v : World δ), q.perform ⟨e.due, e.task.withNumber m⟩ v =
      g ⟨s.endpoint, m⟩ { v with now := max v.now e.due }) :
    ∃ cs, p.Asks w cs (f { w with now := max w.now e.due, agenda := rest }) ∧
      (∀ c ∈ cs, k.sequences c.request.endpoint = true) ∧
      ∀ v : World δ, w.docket.Mirrors k R v.docket → q.Repeats v.env (p.exchanges w.env cs) →
        ∃ e' rest', v.agenda = e' :: rest' ∧ e'.due = e.due ∧
          q.Asks v cs (q.perform e' { v with agenda := rest' }) ∧
          (f { w with now := max w.now e.due, agenda := rest }).docket.Mirrors k R
            (q.perform e' { v with agenda := rest' }).docket := by
  obtain ⟨cs, asks, kept', mirrored⟩ := same.mirrors (R := R) own
  refine ⟨cs, ⟨asks.calls, asks.env⟩, kept', fun v mirrors repeats => ?_⟩
  obtain ⟨⟨due', task'⟩, rest', hv, ⟨hdue, m, hm, htask⟩, popped, now⟩ := mirrors.pop h kept
  cases hdue
  cases htask
  obtain ⟨asks', mirrors', -⟩ := mirrored { v with now := max v.now e.due, agenda := rest' } m
    popped now (number ▸ hm) repeats
  have performs := hg m { v with agenda := rest' }
  exact ⟨_, rest', hv, rfl, performs ▸ ⟨asks'.calls, asks'.env⟩, performs ▸ mirrors'⟩

theorem perform_kept (policy : q.policy = p.policy) {e : Entry} {rest : List Entry} {w : World ε}
    (h : w.agenda = e :: rest) (kept : k.keeps e.task = true) :
    ∃ cs, p.Asks w cs (p.perform e { w with agenda := rest }) ∧
      (∀ c ∈ cs, k.sequences c.request.endpoint = true) ∧
      ∀ v : World δ, w.docket.Mirrors k R v.docket → q.Repeats v.env (p.exchanges w.env cs) →
        ∃ e' rest', v.agenda = e' :: rest' ∧ e'.due = e.due ∧
          q.Asks v cs (q.perform e' { v with agenda := rest' }) ∧
          (p.perform e { w with agenda := rest }).docket.Mirrors k R
            (q.perform e' { v with agenda := rest' }).docket := by
  obtain ⟨due, task⟩ := e
  cases task with
  | attempt s left => exact (attempt_turn policy left _).performed h kept kept rfl fun _ _ => rfl
  | close s left c => exact (close_turn policy left c _).performed h kept kept rfl fun _ _ => rfl
  | conclude t c =>
    obtain ⟨hx, asks⟩ := p.closeTest_docket t c { w with now := max w.now due, agenda := rest }
    refine ⟨[], ⟨asks.calls, asks.env⟩, by simp, fun v mirrors _ => ?_⟩
    obtain ⟨⟨due', task'⟩, rest', hv, ⟨hdue, m, hm, htask⟩, popped, now⟩ := mirrors.pop h kept
    cases htask
    obtain ⟨hx', asks'⟩ := q.closeTest_docket ⟨t.endpoint, m⟩ c
      { v with now := max v.now due', agenda := rest' }
    refine ⟨_, rest', hv, hdue, ⟨asks'.calls, asks'.env⟩, ?_⟩
    unfold perform
    dsimp only [Task.withNumber]
    rw [hx, hx']
    exact popped.endTest now kept hm c

/-- The head of the agenda is a turn of a sequence that is left out. -/
theorem SameTurn.performed_left {e : Entry} {rest : List Entry} {w : World ε} {s : Sequence}
    {f : World ε → World ε} {g : Sequence → World δ → World δ}
    (same : SameTurn p q s f g { w with now := max w.now e.due, agenda := rest })
    (h : w.agenda = e :: rest) (left : k.keeps e.task = false)
    (own : k.sequences s.endpoint = false) (number : e.task.number = s.number) :
    ∃ cs, p.Asks w cs (f { w with now := max w.now e.due, agenda := rest }) ∧
      (∀ c ∈ cs, k.sequences c.request.endpoint = false) ∧
      ∀ d, w.docket.Mirrors k R d →
        (f { w with now := max w.now e.due, agenda := rest }).docket.Mirrors k R d := by
  obtain ⟨cs, asks, left', mirrored⟩ := same.mirrors_left (R := R) own
  refine ⟨cs, ⟨asks.calls, asks.env⟩, left', fun d mirrors => ?_⟩
  obtain ⟨popped, unpaired⟩ := mirrors.pop_left h left
  exact mirrored d popped (number ▸ unpaired)

theorem perform_left (p : Prober ε) {e : Entry} {rest : List Entry} {w : World ε}
    (h : w.agenda = e :: rest) (left : k.keeps e.task = false) :
    ∃ cs, p.Asks w cs (p.perform e { w with agenda := rest }) ∧
      (∀ c ∈ cs, k.sequences c.request.endpoint = false) ∧
      ∀ d, w.docket.Mirrors k R d →
        (p.perform e { w with agenda := rest }).docket.Mirrors k R d := by
  obtain ⟨due, task⟩ := e
  cases task with
  | attempt s n => exact (attempt_turn (q := p) rfl n _).performed_left h left left rfl
  | close s n c => exact (close_turn (q := p) rfl n c _).performed_left h left left rfl
  | conclude t c =>
    obtain ⟨hx, asks⟩ := p.closeTest_docket t c { w with now := max w.now due, agenda := rest }
    refine ⟨[], ⟨asks.calls, asks.env⟩, by simp, fun d mirrors => ?_⟩
    obtain ⟨popped, unpaired⟩ := mirrors.pop_left h left
    unfold perform
    dsimp only
    rw [hx]
    exact popped.endTest_left left unpaired c

theorem late_of_mirrors {es fs : List Entry} {time : Nat}
    (h : List.Forall₂ (Entry.Mirrors R) es fs) (late : ∀ e ∈ es, time < e.due) :
    ∀ f ∈ fs, time < f.due := by
  induction h with
  | nil => simp
  | cons first _ ih =>
    obtain ⟨hfirst, hrest⟩ := List.forall_mem_cons.mp late
    exact List.forall_mem_cons.mpr ⟨first.1 ▸ hfirst, ih hrest⟩

theorem runUntil_mirrors (policy : q.policy = p.policy) (time : Nat) (w : World ε) :
    ∃ cs, p.Asks w cs (p.runUntil time w) ∧ ∀ v : World δ, w.docket.Mirrors k R v.docket →
      q.Repeats v.env (p.heardOf k w.env cs) →
      q.Asks v ((p.heardOf k w.env cs).map (·.call)) (q.runUntil time v) ∧
        (p.runUntil time w).docket.Mirrors k R (q.runUntil time v).docket := by
  have stands : ∀ w : World ε, (∀ e ∈ w.agenda, time < e.due) → ∀ v : World δ,
      w.docket.Mirrors k R v.docket → q.runUntil time v = v := fun w late v mirrors =>
    runUntil_late (late_of_mirrors mirrors.agenda fun e he => late e (List.mem_filter.mp he).1)
  -- Along the larger run: what is kept is done in both, and the rest in the larger one only.
  fun_induction runUntil p time w with
  | case1 w h =>
    refine ⟨[], .refl p w, fun v mirrors _ => ?_⟩
    rw [stands w (by simp [h]) v mirrors]
    exact ⟨.refl q v, mirrors⟩
  | case2 w e rest h due ih =>
    obtain ⟨ds, rested, follows⟩ := ih
    by_cases kept : k.keeps e.task = true
    · obtain ⟨cs, asks, own, mirrored⟩ := perform_kept (R := R) policy h kept
      refine ⟨cs ++ ds, asks.trans rested, fun v mirrors repeats => ?_⟩
      rw [heardOf_append, heardOf_kept own, ← asks.env] at repeats ⊢
      obtain ⟨first, second⟩ := repeats_append.mp repeats
      obtain ⟨f, rest', hv, hdue, asks', mirrors'⟩ := mirrored v mirrors first
      rw [calls_exchanges, ← asks'.env] at second
      obtain ⟨rested', mirrors''⟩ := follows _ mirrors' second
      rw [runUntil_due hv (hdue ▸ due), List.map_append, calls_exchanges]
      exact ⟨asks'.trans rested', mirrors''⟩
    · have left : k.keeps e.task = false := by simpa using kept
      obtain ⟨cs, asks, own, mirrored⟩ := perform_left (R := R) p h left
      refine ⟨cs ++ ds, asks.trans rested, fun v mirrors repeats => ?_⟩
      rw [heardOf_append, heardOf_left own, ← asks.env, List.nil_append] at repeats ⊢
      exact follows v (mirrored v.docket mirrors) repeats
  | case3 w e rest h due =>
    refine ⟨[], .refl p w, fun v mirrors _ => ?_⟩
    have inOrder := mirrors.timely.inOrder
    rw [World.docket, h] at inOrder
    have late : ∀ f ∈ w.agenda, time < f.due := h ▸ late_of_inOrder inOrder due
    rw [stands w late v mirrors]
    exact ⟨.refl q v, mirrors⟩

theorem advance_mirrors (policy : q.policy = p.policy) (ms : Nat) (w : World ε) :
    ∃ cs, p.Asks w cs (p.advance ms w) ∧ ∀ v : World δ, w.docket.Mirrors k R v.docket →
      v.now = w.now → q.Repeats v.env (p.heardOf k w.env cs) →
      q.Asks v ((p.heardOf k w.env cs).map (·.call)) (q.advance ms v) ∧
        (p.advance ms w).docket.Mirrors k R (q.advance ms v).docket ∧
        (q.advance ms v).now = (p.advance ms w).now := by
  obtain ⟨cs, asks, mirrored⟩ := runUntil_mirrors (k := k) (R := R) policy (w.now + ms) w
  refine ⟨cs, ⟨asks.calls, asks.env⟩, fun v mirrors now repeats => ?_⟩
  obtain ⟨asks', mirrors'⟩ := mirrored v mirrors repeats
  obtain ⟨-, late, -, -⟩ := p.timely_runUntil (w.now + ms) w mirrors.timely (Nat.le_add_right _ _)
  unfold advance
  dsimp only
  rw [now]
  exact ⟨⟨asks'.calls, asks'.env⟩, mirrors'.clock fun e he => Nat.le_of_lt (late e he), rfl⟩

end

end EndpointHealth.Prober
