import EndpointHealth.Proofs.Prober.Projection
set_option autoImplicit false

/-!
The run that is left when a prober is asked for less. What is asked of it is cut down to a scope
(`shares`), and its tester is to reply to what is kept as it did (`heards`).

Main statement: at every moment the smaller run is what the scope keeps of the larger one
(`carried_start`).
-/

namespace EndpointHealth.Prober

variable {ε δ : Type}

/-! ### What the prober is asked to do -/

def follow (p : Prober ε) (xs : List Act) (w : World ε) : World ε :=
  xs.foldl (fun w x => p.act x w) w

/-- What is left of an act. Waiting for the end of something is letting time pass. -/
def share (p : Prober ε) (k : Scope) (w : World ε) : Act → List Act
  | .probe id => if k.sequences id then [.probe id] else []
  | .probeNow id => if k.sequences id then [.probeNow id] else []
  | .observe ids => [.observe (ids.filter k.sequences)]
  | .forget id => if k.sequences id then [.forget id] else []
  | .test id message => if k.tests id then [.test id message] else []
  | .advance ms => [.advance ms]
  | .await number =>
    if (w.result? number).isSome then [] else [.advance ((p.await number w).now - w.now)]

/-- What the tester replies in an act, as far as it is kept: to the attempts of sequences, by their
endpoints, and to a manual test if it is kept. -/
def heard (p : Prober ε) (k : Scope) (w : World ε) (x : Act) : List Exchange :=
  let calls := (p.act x w).calls.drop w.calls.length
  match x with
  | .test id _ => if k.tests id then p.exchanges w.env calls else []
  | _ => p.heardOf k w.env calls

/-- The sequence or manual test that an act starts, by endpoint and number, if it is kept. -/
def starts (k : Scope) (w : World ε) : Act → List (EndpointId × Nat)
  | .probe id | .probeNow id => if k.sequences id then [(id, w.ledger.next)] else []
  | .test id _ => if k.tests id then [(id, w.ledger.next)] else []
  | .observe _ | .forget _ | .advance _ | .await _ => []

def shares (p : Prober ε) (k : Scope) : List Act → World ε → List Act
  | [], _ => []
  | x :: xs, w => p.share k w x ++ p.shares k xs (p.act x w)

def heards (p : Prober ε) (k : Scope) : List Act → World ε → List Exchange
  | [], _ => []
  | x :: xs, w => p.heard k w x ++ p.heards k xs (p.act x w)

def started (p : Prober ε) (k : Scope) : List Act → World ε → List (EndpointId × Nat)
  | [], _ => []
  | x :: xs, w => starts k w x ++ p.started k xs (p.act x w)

/-- How it stands with a sequence or manual test. -/
structure Standing where
  endpoint : EndpointId
  /-- Whether it is the newest sequence of its endpoint, so that its outcome is the one that is
  written. -/
  newest : Bool
  /-- What it is going to do next, and when. -/
  ahead : List Entry
  /-- When it has ended, and what it came to. -/
  came : Option (Nat × Result)

def World.standing (w : World ε) (s : EndpointId × Nat) : Standing :=
  ⟨s.1, w.ledger.isCurrent s.1 s.2, w.docket.ahead s.2, w.docket.came? s.2⟩

/-- Two probers at work, of which the second one is what the scope keeps of the first one. -/
structure Tied (p : Prober ε) (q : Prober δ) (k : Scope) (R : Pairing) (w : World ε)
    (v : World δ) : Prop where
  mirrors : w.docket.Mirrors k R v.docket
  now : v.now = w.now
  run : ∃ h, p.Run h w
  run' : ∃ h, q.Run h v

/-! ### Two probers -/

section
variable {p : Prober ε} {q : Prober δ} {k : Scope} {R : Pairing} {w : World ε} {v : World δ}

theorem run_act (run : ∃ h, p.Run h w) (x : Act) : ∃ h, p.Run h (p.act x w) := by
  obtain ⟨h, env, steps⟩ := run
  obtain ⟨h', steps'⟩ := p.act_steps x w
  exact ⟨h' ++ h, env, steps.trans steps'⟩

theorem Tied.next {R' : Pairing} (tied : Tied p q k R w v) (x : Act) (ys : List Act)
    (mirrors : (p.act x w).docket.Mirrors k R' (q.follow ys v).docket)
    (now : (q.follow ys v).now = (p.act x w).now) :
    Tied p q k R' (p.act x w) (q.follow ys v) := by
  refine ⟨mirrors, now, run_act tied.run x, ?_⟩
  have run' := tied.run'
  clear tied mirrors now
  induction ys generalizing v with
  | nil => exact run'
  | cons y ys ih => exact ih (run_act run' y)

theorem Tied.numbered (tied : Tied p q k R w v) : w.docket.Numbered ∧ v.docket.Numbered := by
  obtain ⟨-, -, ⟨h, run⟩, ⟨h', run'⟩⟩ := tied
  exact ⟨numbered_of_run run, numbered_of_run run'⟩

theorem Tied.pair {l l' : Ledger} (tied : Tied p q k R w v)
    (hl : l.Mirrors k (R.add w.ledger.next v.ledger.next) l') :
    { w.docket with ledger := l }.Mirrors k (R.add w.ledger.next v.ledger.next)
      { v.docket with ledger := l' } :=
  tied.mirrors.withPair tied.numbered.1 tied.numbered.2 hl

/-- The second prober has gone on too, has heard what was kept, and has started the same. -/
structure Carried (p : Prober ε) (q : Prober δ) (k : Scope) (R R' : Pairing) (w' : World ε)
    (v v' : World δ) (xs : List Exchange) (started started' : List (EndpointId × Nat)) : Prop where
  more : ∀ n m, R n m → R' n m
  tied : Tied p q k R' w' v'
  asks : q.Asks v (xs.map (·.call)) v'
  started : List.Forall₂ (fun a b => k.sequences a.1 = true ∧ a.1 = b.1 ∧ R' a.2 b.2)
    started started'

/-- The probers stay tied when the first one does an act and the second one what is left of it. -/
def Carries (p : Prober ε) (q : Prober δ) (k : Scope) (R : Pairing) (w : World ε) (v : World δ)
    (x : Act) : Prop :=
  ∃ R', Carried p q k R R' (p.act x w) v (q.follow (p.share k w x) v) (p.heard k w x)
    (starts k w x) (q.started k (p.share k w x) v)

theorem Carried.standings {R' : Pairing} {w' : World ε} {v' : World δ} {xs : List Exchange}
    {ss ss' : List (EndpointId × Nat)} (carried : Carried p q k R R' w' v v' xs ss ss') :
    ss'.map v'.standing = ss.map w'.standing := by
  obtain ⟨-, tied, -, begun⟩ := carried
  induction begun with
  | nil => rfl
  | @cons s s' _ _ first _ ih =>
    obtain ⟨kept, endpoint, hn⟩ := first
    have newest : w'.ledger.isCurrent s.1 s.2 = v'.ledger.isCurrent s.1 s'.2 :=
      tied.mirrors.ledger.isCurrent kept hn
    have standing : v'.standing s' = w'.standing s := by
      unfold World.standing
      rw [tied.mirrors.came _ _ hn, tied.mirrors.ahead hn, newest, endpoint]
    rw [List.map_cons, List.map_cons, standing, ih]

theorem carried_left {x : Act} (tied : Tied p q k R w v)
    (mirrors : (p.act x w).docket.Mirrors k R v.docket) (now : (p.act x w).now = w.now) :
    Carried p q k R R (p.act x w) v v [] [] [] where
  more := fun _ _ => id
  tied := tied.next x [] mirrors (tied.now.trans now.symm)
  asks := .refl q v
  started := .nil

theorem heard_silent {x : Act} (h : (p.act x w).calls = w.calls) : p.heard k w x = [] := by
  unfold heard
  rw [h, List.drop_length]
  cases x <;> simp [heardOf, exchanges]

theorem heard_of_asks {x : Act} {cs : List Call} (asks : p.Asks w cs (p.act x w))
    (untested : ∀ id message, x ≠ .test id message) : p.heard k w x = p.heardOf k w.env cs := by
  unfold heard
  rw [asks.calls, List.drop_left]
  cases x with
  | test id message => exact absurd rfl (untested id message)
  | _ => rfl

theorem Tied.unpaired (tied : Tied p q k R w v) : ∀ m, ¬ R w.ledger.next m :=
  tied.mirrors.ledger.ordered.not_next

/-! ### Acts -/

theorem carried_probe (policy : q.policy = p.policy) (tied : Tied p q k R w v) (id : EndpointId) :
    Carries p q k R w v (.probe id) := by
  unfold Carries
  have attempts : q.attempts = p.attempts := by simp [Prober.attempts, policy]
  rw [heard_silent rfl]
  by_cases kept : k.sequences id = true
  · have mirrors := (tied.pair (tied.mirrors.ledger.start id)).wait
      (t := .attempt ⟨id, w.ledger.next⟩ (p.attempts - 1)) tied.now kept (.inr ⟨rfl, rfl⟩) 0
    simp only [share, starts, kept, if_true]
    refine ⟨R.add w.ledger.next v.ledger.next, fun _ _ => .inl,
      tied.next (.probe id) [.probe id] ?_ tied.now,
      ⟨by simp [follow, act, probe, World.wait], rfl⟩, ?_⟩
    · show (p.probe id w).docket.Mirrors _ _ (q.probe id v).docket
      unfold probe
      rw [attempts]
      exact mirrors
    · simp [started, starts, kept, Pairing.add]
  · have left : k.sequences id = false := by simpa using kept
    have mirrors := (tied.mirrors.withLedger (tied.mirrors.ledger.start_left left)).wait_left
      (t := .attempt ⟨id, w.ledger.next⟩ (p.attempts - 1)) left tied.unpaired 0
    simp only [share, starts, left]
    exact ⟨R, carried_left (x := .probe id) tied mirrors rfl⟩

theorem carried_probeNow (policy : q.policy = p.policy) (tied : Tied p q k R w v)
    (id : EndpointId) (repeats : q.Repeats v.env (p.heard k w (.probeNow id))) :
    Carries p q k R w v (.probeNow id) := by
  unfold Carries
  have attempts : q.attempts = p.attempts := by simp [Prober.attempts, policy]
  have turn := attempt_turn (q := q) (s := ⟨id, w.ledger.next⟩) policy (p.attempts - 1)
    { w with ledger := w.ledger.start id }
  have now : (p.probeNow id w).now = w.now := turn.now
  by_cases kept : k.sequences id = true
  · obtain ⟨cs, asks, own, mirrored⟩ := turn.mirrors (R := R.add w.ledger.next v.ledger.next) kept
    rw [heard_of_asks (x := .probeNow id) ⟨asks.calls, asks.env⟩ (by simp), heardOf_kept own]
      at repeats ⊢
    obtain ⟨asks', mirrors, now'⟩ := mirrored { v with ledger := v.ledger.start id } v.ledger.next
      (tied.pair (tied.mirrors.ledger.start id)) tied.now (.inr ⟨rfl, rfl⟩) repeats
    have same : q.attempt ⟨id, v.ledger.next⟩ (p.attempts - 1)
        { v with ledger := v.ledger.start id } = q.probeNow id v := by
      rw [← attempts]
      rfl
    dsimp only at asks' mirrors now'
    rw [same] at asks' mirrors now'
    simp only [share, starts, kept, if_true]
    refine ⟨R.add w.ledger.next v.ledger.next, fun _ _ => .inl,
      tied.next (.probeNow id) [.probeNow id] mirrors
        (now'.trans (tied.now.trans now.symm)), ?_, ?_⟩
    · rw [calls_exchanges]
      exact ⟨asks'.calls, asks'.env⟩
    · simp [started, starts, kept, Pairing.add]
  · have left : k.sequences id = false := by simpa using kept
    obtain ⟨cs, asks, own, mirrored⟩ := turn.mirrors_left (R := R) left
    rw [heard_of_asks (x := .probeNow id) ⟨asks.calls, asks.env⟩ (by simp), heardOf_left own]
    simp only [share, starts, left]
    have mirrors := mirrored v.docket
      (tied.mirrors.withLedger (tied.mirrors.ledger.start_left left)) tied.unpaired
    exact ⟨R, carried_left (x := .probeNow id) tied mirrors now⟩

theorem carried_forget (tied : Tied p q k R w v) (id : EndpointId) :
    Carries p q k R w v (.forget id) := by
  unfold Carries
  rw [heard_silent rfl]
  by_cases kept : k.sequences id = true
  · simp only [share, kept, if_true]
    refine ⟨R.add w.ledger.next v.ledger.next, fun _ _ => .inl,
      tied.next (.forget id) [.forget id]
        (tied.pair (tied.mirrors.ledger.forget id)) tied.now,
      ⟨by simp [follow, act, forget], rfl⟩, ?_⟩
    simp [started, starts]
  · have left : k.sequences id = false := by simpa using kept
    simp only [share, left]
    exact ⟨R, carried_left (x := .forget id) tied
      (tied.mirrors.withLedger (tied.mirrors.ledger.forget_left left)) rfl⟩

theorem carried_test (policy : q.policy = p.policy) (tied : Tied p q k R w v) (id : EndpointId)
    (message : String) (repeats : q.Repeats v.env (p.heard k w (.test id message))) :
    Carries p q k R w v (.test id message) := by
  unfold Carries
  obtain ⟨asks, hx⟩ := p.test_docket id message w
  have now : (p.test id message w).now = w.now :=
    (congrArg Docket.now hx).trans (Docket.now_undertake _ _ _)
  have hears : p.heard k w (.test id message) = if k.tests id = true then
      p.exchanges w.env [⟨w.now, p.policy.manualRequest id message⟩] else [] := by
    unfold heard
    dsimp only [act]
    rw [asks.calls, List.drop_left]
  rw [hears] at repeats ⊢
  by_cases kept : k.tests id = true
  · rw [if_pos kept] at repeats ⊢
    obtain ⟨course, -, asked⟩ := call_repeated tied.now repeats
    obtain ⟨asks', hx'⟩ := q.test_docket id message v
    rw [policy, tied.now] at asks'
    rw [policy, course] at hx'
    have mirrors := (tied.pair tied.mirrors.ledger.claim).undertake (t := ⟨id, w.ledger.next⟩)
      tied.now kept (.inr ⟨rfl, rfl⟩) (p.call (p.policy.manualRequest id message) w).1
    simp only [share, starts, kept, if_true]
    refine ⟨R.add w.ledger.next v.ledger.next, fun _ _ => .inl,
      tied.next (.test id message) [.test id message] ?_ ?_, ?_, ?_⟩
    · show (p.test id message w).docket.Mirrors _ _ (q.test id message v).docket
      rw [hx, hx']
      exact mirrors
    · have now' : (q.test id message v).now = v.now :=
        (congrArg Docket.now hx').trans (Docket.now_undertake _ _ _)
      exact now'.trans (tied.now.trans now.symm)
    · rw [calls_exchanges]
      exact asks'
    · simp [started, starts, kept, Pairing.add, k.tests_le id kept]
  · have left : k.tests id = false := by simpa using kept
    have mirrors := (tied.mirrors.withLedger tied.mirrors.ledger.claim_left).undertake_left
      (t := ⟨id, w.ledger.next⟩) left tied.unpaired
      (p.call (p.policy.manualRequest id message) w).1
    simp only [share, starts, left]
    exact ⟨R, carried_left (x := .test id message) tied (hx ▸ mirrors) now⟩

theorem tied_observeOne (policy : q.policy = p.policy)
    (whole : ∀ id, k.sequences id = true → k.tests id = true) (tied : Tied p q k R w v)
    (id : EndpointId) :
    ∃ R' : Pairing, (∀ n m, R n m → R' n m) ∧
      Tied p q k R' (p.observeOne id w) (if k.sequences id then q.observeOne id v else v) ∧
      q.Asks v [] (if k.sequences id then q.observeOne id v else v) := by
  obtain ⟨R', more, probed, asks, -⟩ := carried_probe policy tied id
  rw [heard_silent rfl] at asks
  unfold observeOne
  by_cases kept : k.sequences id = true
  · have status : w.status? id = v.status? id := tied.mirrors.ledger.status id (whole id kept)
    simp only [share, kept, if_true] at probed asks ⊢
    rw [status]
    split
    · exact ⟨R', more, probed, asks⟩
    · exact ⟨R, fun _ _ hn => hn, tied, .refl q v⟩
  · simp only [share, kept] at probed asks ⊢
    split
    · exact ⟨R', more, probed, asks⟩
    · exact ⟨R, fun _ _ hn => hn, tied, .refl q v⟩

theorem tied_observed (policy : q.policy = p.policy)
    (whole : ∀ id, k.sequences id = true → k.tests id = true) (tied : Tied p q k R w v)
    (ids : List EndpointId) :
    ∃ R' : Pairing, (∀ n m, R n m → R' n m) ∧
      Tied p q k R' (ids.foldl (fun w id => p.observeOne id w) w)
        ((ids.filter k.sequences).foldl (fun v id => q.observeOne id v) v) ∧
      q.Asks v [] ((ids.filter k.sequences).foldl (fun v id => q.observeOne id v) v) := by
  rw [List.foldl_filter]
  induction ids generalizing R w v with
  | nil => exact ⟨R, fun _ _ => id, tied, .refl q v⟩
  | cons id ids ih =>
    obtain ⟨R₁, more₁, tied₁, asks₁⟩ := tied_observeOne policy whole tied id
    obtain ⟨R₂, more₂, tied₂, asks₂⟩ := ih tied₁
    exact ⟨R₂, fun n m hn => more₂ n m (more₁ n m hn), tied₂, asks₁.trans asks₂⟩

theorem observe_docket (p : Prober ε) (ids : List EndpointId) (w : World ε) :
    (p.observe ids w).docket = (ids.foldl (fun w id => p.observeOne id w) w).docket ∧
      (p.observe ids w).calls = (ids.foldl (fun w id => p.observeOne id w) w).calls ∧
      (p.observe ids w).env = (ids.foldl (fun w id => p.observeOne id w) w).env := by
  unfold observe
  dsimp only
  split <;> exact ⟨rfl, rfl, rfl⟩

theorem asks_observe (p : Prober ε) (ids : List EndpointId) (w : World ε) :
    p.Asks w [] (p.observe ids w) := by
  have one : ∀ (id : EndpointId) (w : World ε), p.Asks w [] (p.observeOne id w) := fun id w => by
    unfold observeOne
    split
    · exact ⟨by simp [probe, World.wait], rfl⟩
    · exact .refl p w
  obtain ⟨-, calls, env⟩ := p.observe_docket ids w
  suffices p.Asks w [] (ids.foldl (fun w id => p.observeOne id w) w) from
    ⟨calls.trans this.calls, env.trans this.env⟩
  clear calls env
  induction ids generalizing w with
  | nil => exact .refl p w
  | cons id ids ih => exact (one id w).trans (ih _)

theorem carried_observe (policy : q.policy = p.policy)
    (whole : ∀ id, k.sequences id = true → k.tests id = true) (tied : Tied p q k R w v)
    (ids : List EndpointId) :
    Carries p q k R w v (.observe ids) := by
  unfold Carries
  obtain ⟨R', more, observed, asks⟩ := tied_observed policy whole tied ids
  obtain ⟨docket, -, -⟩ := p.observe_docket ids w
  obtain ⟨docket', calls', env'⟩ := q.observe_docket (ids.filter k.sequences) v
  have mirrors : (p.observe ids w).docket.Mirrors k R'
      (q.observe (ids.filter k.sequences) v).docket := by
    rw [docket, docket']
    exact observed.mirrors
  have now : (q.observe (ids.filter k.sequences) v).now = (p.observe ids w).now :=
    (congrArg Docket.now docket').trans (observed.now.trans (congrArg Docket.now docket).symm)
  have silent := (p.asks_observe ids w).calls
  rw [List.append_nil] at silent
  rw [heard_silent (x := .observe ids) silent]
  exact ⟨R', more, tied.next (.observe ids) [.observe (ids.filter k.sequences)] mirrors now,
    ⟨calls'.trans asks.calls, env'.trans asks.env⟩, .nil⟩

theorem carried_advance (policy : q.policy = p.policy) (tied : Tied p q k R w v) (ms : Nat)
    (repeats : q.Repeats v.env (p.heard k w (.advance ms))) :
    Carries p q k R w v (.advance ms) := by
  unfold Carries
  obtain ⟨cs, asks, mirrored⟩ := advance_mirrors (k := k) (R := R) policy ms w
  rw [heard_of_asks (x := .advance ms) asks (by simp)] at repeats ⊢
  obtain ⟨asks', mirrors, now⟩ := mirrored v tied.mirrors tied.now repeats
  exact ⟨R, fun _ _ => id, tied.next (.advance ms) [.advance ms] mirrors now, asks', .nil⟩

theorem carried_await (policy : q.policy = p.policy) (tied : Tied p q k R w v) (number : Nat)
    (repeats : q.Repeats v.env (p.heard k w (.await number))) :
    Carries p q k R w v (.await number) := by
  unfold Carries
  by_cases ended : (w.result? number).isSome = true
  · have stays : p.await number w = w := by
      rw [await.eq_def, if_pos ended]
    have silent : (p.act (.await number) w).calls = w.calls := congrArg World.calls stays
    rw [heard_silent silent]
    simp only [share, ended, if_true]
    exact ⟨R, carried_left (x := .await number) tied
      (by rw [show p.act (.await number) w = w from stays]; exact tied.mirrors)
      (congrArg World.now stays)⟩
  · have waits : p.await number w = p.advance ((p.await number w).now - w.now) w :=
      p.await_eq_advance number tied.mirrors.timely (by simpa using ended)
    have hears : p.heard k w (.await number) =
        p.heard k w (.advance ((p.await number w).now - w.now)) := by
      unfold heard
      dsimp only [act]
      rw [← waits]
    have carried := carried_advance policy tied ((p.await number w).now - w.now) (hears ▸ repeats)
    simp only [share, ended]
    rw [hears, show p.act (.await number) w = p.act (.advance _) w from waits]
    exact carried

/-- Observing an endpoint looks at its status, which its manual tests may have set: they are to be
kept then. -/
theorem carried_act (policy : q.policy = p.policy) (tied : Tied p q k R w v) (x : Act)
    (whole : (∃ ids, x = .observe ids) → ∀ id, k.sequences id = true → k.tests id = true)
    (repeats : q.Repeats v.env (p.heard k w x)) :
    Carries p q k R w v x := by
  cases x with
  | probe id => exact carried_probe policy tied id
  | probeNow id => exact carried_probeNow policy tied id repeats
  | observe ids => exact carried_observe policy (whole ⟨ids, rfl⟩) tied ids
  | forget id => exact carried_forget tied id
  | test id message => exact carried_test policy tied id message repeats
  | advance ms => exact carried_advance policy tied ms repeats
  | await number => exact carried_await policy tied number repeats

/-! ### Runs -/

theorem tied_start (p : Prober ε) (q : Prober δ) (k : Scope) (env : ε) (d : δ) :
    Tied p q k (fun _ _ => False) (.start env) (.start d) where
  mirrors :=
    ⟨.empty k, .nil, by simp [World.start, World.docket], fun _ _ => False.elim,
      ⟨.nil, by simp [World.start, World.docket]⟩, Nat.le_refl _⟩
  now := rfl
  run := ⟨[], env, .refl⟩
  run' := ⟨[], d, .refl⟩

theorem follow_append (p : Prober ε) (xs ys : List Act) (w : World ε) :
    p.follow (xs ++ ys) w = p.follow ys (p.follow xs w) := List.foldl_append ..

theorem started_append (p : Prober ε) (k : Scope) (xs ys : List Act) (w : World ε) :
    p.started k (xs ++ ys) w = p.started k xs w ++ p.started k ys (p.follow xs w) := by
  induction xs generalizing w with
  | nil => rfl
  | cons x xs ih =>
    simp only [List.cons_append, started, ih, List.append_assoc]
    rfl

theorem carried_follow (policy : q.policy = p.policy) (xs : List Act)
    (whole : (∃ ids, .observe ids ∈ xs) → ∀ id, k.sequences id = true → k.tests id = true)
    (tied : Tied p q k R w v) (repeats : q.Repeats v.env (p.heards k xs w)) :
    ∃ R', Carried p q k R R' (p.follow xs w) v (q.follow (p.shares k xs w) v) (p.heards k xs w)
      (p.started k xs w) (q.started k (p.shares k xs w) v) := by
  -- Each act may pair more numbers, and what was paired before stays so.
  induction xs generalizing R w v with
  | nil => exact ⟨R, fun _ _ => id, tied, .refl q v, .nil⟩
  | cons x xs ih =>
    obtain ⟨first, rest⟩ := repeats_append.mp repeats
    obtain ⟨R₁, more, tied₁, asks, begun⟩ := carried_act policy tied x
      (fun ⟨ids, hx⟩ => whole ⟨ids, hx ▸ List.mem_cons_self ..⟩) first
    rw [← asks.env] at rest
    obtain ⟨R₂, more', tied₂, asks', begun'⟩ := ih
      (fun ⟨ids, hx⟩ => whole ⟨ids, List.mem_cons_of_mem _ hx⟩) tied₁ rest
    refine ⟨R₂, fun n m hn => more' n m (more n m hn), ?_, ?_, ?_⟩
    · rw [shares, follow_append]
      exact tied₂
    · rw [heards, List.map_append, shares, follow_append]
      exact asks.trans asks'
    · rw [shares, started_append]
      exact List.rel_append (begun.imp fun a b ⟨kept, same, hn⟩ => ⟨kept, same, more' _ _ hn⟩)
        begun'

theorem heards_append (p : Prober ε) (k : Scope) (xs ys : List Act) (w : World ε) :
    p.heards k (xs ++ ys) w = p.heards k xs w ++ p.heards k ys (p.follow xs w) := by
  induction xs generalizing w with
  | nil => rfl
  | cons x xs ih =>
    simp only [List.cons_append, heards, ih, List.append_assoc]
    rfl

theorem carried_start (policy : q.policy = p.policy) (env : ε) (d : δ) {xs ys : List Act}
    (moment : ys <+: xs)
    (whole : (∃ ids, .observe ids ∈ xs) → ∀ id, k.sequences id = true → k.tests id = true)
    (repeats : q.Repeats d (p.heards k xs (.start env))) :
    ∃ R, Carried p q k (fun _ _ => False) R (p.follow ys (.start env)) (.start d)
      (q.follow (p.shares k ys (.start env)) (.start d)) (p.heards k ys (.start env))
      (p.started k ys (.start env)) (q.started k (p.shares k ys (.start env)) (.start d)) := by
  obtain ⟨zs, rfl⟩ := moment
  rw [heards_append] at repeats
  exact carried_follow policy ys
    (fun ⟨ids, hids⟩ => whole ⟨ids, List.mem_append_left zs hids⟩) (tied_start p q k env d)
    (repeats_append.mp repeats).1

end

/-! ### Moments -/

theorem timely_follow (p : Prober ε) (xs : List Act) (env : ε) :
    (p.follow xs (.start env)).docket.Timely := by
  let all : Scope := ⟨fun _ => true, fun _ => true, fun _ kept => kept⟩
  obtain ⟨R, carried⟩ := carried_start (p := p) (k := all) (q := replaying p.policy) rfl env
    (p.heards all xs (.start env)) (List.prefix_refl xs) (fun _ _ kept => kept)
    (repeats_replaying _ _)
  exact carried.tied.mirrors.timely

/-- Time can be let pass in parts, so that every moment of a run lies between two acts. -/
theorem follow_advance (p : Prober ε) (env : ε) (xs ys : List Act) (m n : Nat) :
    p.follow (xs ++ .advance m :: .advance n :: ys) (.start env) =
      p.follow (xs ++ .advance (m + n) :: ys) (.start env) := by
  rw [follow_append, follow_append]
  show p.follow ys (p.advance n (p.advance m _)) = p.follow ys (p.advance (m + n) _)
  rw [p.advance_advance (p.timely_follow xs env)]

end EndpointHealth.Prober
