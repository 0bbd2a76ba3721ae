import Mathlib.Data.List.Nodup
import EndpointHealth.Proofs.Prober.Schedules
set_option autoImplicit false

/-!
Sequences keep to their schedules in every run. What else a prober is asked to do, before a sequence
is begun or while it is under way, for the same endpoint or for others, neither holds it up nor
changes what it comes to.

Main statement: at every moment of a run a sequence has made those attempts that are due on its
schedule, and has ended if it is over (`schedule_kept`).
-/

namespace EndpointHealth.Prober

open Journal

variable {ε : Type}

/-! ### What goes on beside a sequence -/

namespace Docket

/-- Things may be put on a docket, but nothing is taken off, and no time passes. -/
structure Extends (d d' : Docket) : Prop where
  now : d'.now = d.now
  agenda : ∀ e ∈ d.agenda, e ∈ d'.agenda
  ended : ∀ x ∈ d.ended, x ∈ d'.ended

variable {d d' d'' : Docket}

theorem Extends.refl (d : Docket) : d.Extends d := ⟨rfl, fun _ he => he, fun _ hx => hx⟩

theorem Extends.trans (first : d.Extends d') (second : d'.Extends d'') : d.Extends d'' :=
  ⟨second.now.trans first.now, fun e he => second.agenda e (first.agenda e he),
    fun x hx => second.ended x (first.ended x hx)⟩

theorem Extends.wait (d : Docket) (delay : Nat) (t : Task) : d.Extends (d.wait delay t) :=
  ⟨rfl, fun _ he => mem_schedule.mpr (.inr he), fun _ hx => hx⟩

theorem Extends.turn (d : Docket) (s : Sequence) (x : Turn) : d.Extends (d.turn s x) := by
  cases x with
  | done outcome => exact ⟨rfl, fun _ he => he, fun _ => List.mem_append_left _⟩
  | broken => exact ⟨rfl, fun _ he => he, fun _ => List.mem_append_left _⟩
  | retries delay left => exact .wait d _ _
  | waits left c => exact .wait d _ _

theorem Extends.endTest (d : Docket) (t : ManualTest) (c : Course) : d.Extends (d.endTest t c) :=
  ⟨rfl, fun _ he => he, fun _ => List.mem_append_left _⟩

theorem Extends.undertake (d : Docket) (t : ManualTest) (c : Course) :
    d.Extends (d.undertake t c) := by
  unfold Docket.undertake
  split
  · exact .endTest d t c
  · exact .wait d _ _

theorem Extends.withLedger {l : Ledger} (h : { d with ledger := l }.Extends d') : d.Extends d' :=
  ⟨h.now, h.agenda, h.ended⟩

theorem Follows.extends {t : Task} (follows : d.Follows t d') : d.Extends d' := by
  cases follows with
  | attempt s left x => exact .turn d s x
  | close s left c x => exact .turn d s x
  | conclude t c => exact .endTest d t c

end Docket

theorem probe_extends (p : Prober ε) (id : EndpointId) (w : World ε) :
    w.docket.Extends (p.probe id w).docket :=
  .withLedger (.wait { w.docket with ledger := w.ledger.start id } 0 _)

theorem observed_extends (p : Prober ε) (ids : List EndpointId) (w : World ε) :
    w.docket.Extends (ids.foldl (fun w id => p.observeOne id w) w).docket := by
  induction ids generalizing w with
  | nil => exact .refl _
  | cons id ids ih =>
    refine Docket.Extends.trans ?_ (ih (p.observeOne id w))
    unfold observeOne
    split
    · exact p.probe_extends id w
    · exact .refl _

theorem observe_extends (p : Prober ε) (ids : List EndpointId) (w : World ε) :
    w.docket.Extends (p.observe ids w).docket := by
  rw [(p.observe_docket ids w).1]
  exact p.observed_extends ids w

theorem probeNow_extends (p : Prober ε) (id : EndpointId) (w : World ε) :
    w.docket.Extends (p.probeNow id w).docket := by
  obtain ⟨_, x, -, -, docket, -⟩ := attempt_turn (p := p) (q := p) (s := ⟨id, w.ledger.next⟩) rfl
    (p.attempts - 1) { w with ledger := w.ledger.start id }
  unfold probeNow
  rw [docket]
  exact .withLedger (.turn _ _ x)

theorem test_extends (p : Prober ε) (id : EndpointId) (message : String) (w : World ε) :
    w.docket.Extends (p.test id message w).docket := by
  rw [(p.test_docket id message w).2]
  exact .withLedger (.undertake _ _ _)

section
variable {p : Prober ε} {s : Sequence} {time dawn : Nat} {xs : List Exchange} {w v : World ε}

theorem Awaits.number {e : Entry} (awaits : p.Awaits s time xs e) :
    e.task.number = s.number := by cases awaits <;> rfl

theorem Reaches.beside (reaches : p.Reaches s time dawn xs w)
    (agenda : ∀ e ∈ w.agenda, e.task.number = s.number → e ∈ v.agenda)
    (ended : ∀ x ∈ w.ended, x ∈ v.ended) (now : w.now ≤ v.now) :
    p.Reaches s time dawn xs v := by
  cases reaches with
  | broken mem crash => exact .broken mem crash
  | waits paced mem due awaits => exact .waits paced (agenda _ mem awaits.number) due awaits
  | done paced last final mem past =>
    exact .done paced last final (ended _ mem) (Nat.le_trans past now)

theorem Reaches.later {dawn' : Nat} (reaches : p.Reaches s time dawn xs w)
    (late : ∀ e ∈ w.agenda, dawn' ≤ e.due) : p.Reaches s time dawn' xs w := by
  cases reaches with
  | broken mem crash => exact .broken mem crash
  | waits paced mem due awaits => exact .waits paced mem (late _ mem) awaits
  | done paced last final mem past => exact .done paced last final mem past

theorem eq_head_of_number {e f : Entry} {rest : List Entry} (numbered : w.docket.Numbered)
    (h : w.agenda = e :: rest) (hf : f ∈ w.agenda) (same : f.task.number = e.task.number) :
    f = e := by
  have nodup := (List.nodup_append.mp numbered.nodup).1
  simp only [World.docket, h, List.map_cons, List.nodup_cons] at nodup
  rw [h] at hf
  rcases List.mem_cons.mp hf with hf | hf
  · exact hf
  · exact absurd (same ▸ List.mem_map_of_mem hf) nodup.1

/-- A step of the clock: a sequence goes on if it is its turn, and otherwise stays where it is. -/
theorem reaches_perform (range : Policy.timeoutInRange p.policy.probeTimeout = true) {e : Entry}
    {rest : List Entry} (timely : w.docket.Timely) (numbered : w.docket.Numbered)
    (h : w.agenda = e :: rest) (reaches : p.Reaches s time 0 xs w) :
    p.Reaches s time 0 (xs ++ own s.number (under e.task.number
      (p.conversation w (p.perform e { w with agenda := rest }))))
      (p.perform e { w with agenda := rest }) := by
  have now := (timely.pop h).2
  have extended := (perform_follows p e rest w).extends
  -- No two tasks have the same number, so the task is that of the sequence or about another one.
  by_cases turn : e.task.number = s.number
  · rw [turn, own_under]
    have goes {f : World ε → World ε}
        (h : p.GoesOn s time xs f { w with now := max w.now e.due, agenda := rest }) :
        p.Reaches s time 0 (xs ++ p.conversation w
          (f { w with now := max w.now e.due, agenda := rest }))
          (f { w with now := max w.now e.due, agenda := rest }) := by
      obtain ⟨cs, asks, reached⟩ := h
      have asks : p.Asks w cs (f { w with now := max w.now e.due, agenda := rest }) :=
        ⟨asks.calls, asks.env⟩
      rw [conversation_of_asks asks]
      exact reached.later fun _ _ => Nat.zero_le _
    cases reaches with
    | broken mem crash => exact .broken (List.mem_append_left _ mem) crash
    | done paced last final mem past =>
      exact absurd turn (numbered.ne (by simp [World.docket, h]) mem)
    | waits paced mem due awaits =>
      obtain rfl := eq_head_of_number numbered h mem (awaits.number.trans turn.symm)
      cases awaits with
      | attempt count failed => exact goes (attempt_goesOn range paced failed count now)
      | close count last => exact goes (close_goesOn range paced last count now)
  · rw [own_under_other turn, List.append_nil]
    refine reaches.beside (fun f hf number => ?_) extended.ended ?_
    · rw [h] at hf
      rcases List.mem_cons.mp hf with rfl | hf
      · exact absurd number turn
      · exact extended.agenda f hf
    · have before := timely.due e (by rw [World.docket, h]; exact List.mem_cons_self ..)
      rw [(timely_perform p timely h).2]
      exact before

theorem reaches_runUntil (range : Policy.timeoutInRange p.policy.probeTimeout = true) (clock : Nat)
    (timely : w.docket.Timely) (run : ∃ h, p.Run h w) (reaches : p.Reaches s time 0 xs w) :
    p.Reaches s time 0 (xs ++ own s.number (p.journalUntil clock w)) (p.runUntil clock w) := by
  fun_induction runUntil p clock w generalizing xs with
  | case1 w h =>
    rw [journalUntil_stands (by simp [h])]
    simpa using reaches
  | case2 w e rest h due ih =>
    have numbered : w.docket.Numbered := by
      obtain ⟨_, run⟩ := run
      exact numbered_of_run run
    rw [journalUntil_due h due, own_append, ← List.append_assoc]
    exact ih (timely_perform p timely h).1 (Run.proceeds run (p.perform_proceeds (a := []) h))
      (reaches_perform range timely numbered h reaches)
  | case3 w e rest h due =>
    rw [journalUntil_stands (by simpa [h] using due)]
    simpa using reaches

/-! ### Between two acts -/

/-- A sequence that was begun at a time is still queued, or has gone on as far as it can. -/
inductive Stands (p : Prober ε) (s : Sequence) (time : Nat) (xs : List Exchange) (w : World ε) :
    Prop
  | queued (none : xs = []) (now : w.now = time)
      (mem : ⟨time, .attempt s (p.attempts - 1)⟩ ∈ w.agenda)
  | gone (since : time ≤ w.now) (reaches : p.Reaches s time (w.now + 1) xs w)

theorem attempts_pos (p : Prober ε) : 0 < p.attempts := Nat.le_max_right _ _

theorem count_first (p : Prober ε) :
    ([] : List Exchange).length + (p.attempts - 1) + 1 = p.attempts := by
  have := p.attempts_pos
  simp only [List.length_nil]
  omega

theorem Stands.reaches (stands : p.Stands s time xs w) : p.Reaches s time 0 xs w := by
  cases stands with
  | queued none now mem =>
    subst none
    exact .waits (.nil p s.endpoint time) mem (Nat.zero_le _) (.attempt p.count_first (by simp))
  | gone since reaches => exact reaches.later fun _ _ => Nat.zero_le _

theorem Stands.since (stands : p.Stands s time xs w) : time ≤ w.now := by
  cases stands with
  | queued none now mem => exact Nat.le_of_eq now.symm
  | gone since reaches => exact since

theorem Reaches.started (reaches : p.Reaches s time (w.now + 1) xs w) (since : time ≤ w.now) :
    xs ≠ [] := by
  rintro rfl
  cases reaches with
  | broken mem crash => cases mem
  | done paced last final mem past => cases last
  | waits paced mem due awaits =>
    cases awaits with
    | attempt count failed =>
      have due : w.now + 1 ≤ time := due
      omega
    | close count last => cases last

theorem Stands.beside (stands : p.Stands s time xs w) (extended : w.docket.Extends v.docket) :
    p.Stands s time xs v := by
  have now : v.now = w.now := extended.now
  cases stands with
  | queued none same mem => exact .queued none (now.trans same) (extended.agenda _ mem)
  | gone since reaches =>
    refine .gone (now ▸ since) ?_
    rw [now]
    exact reaches.beside (fun e he _ => extended.agenda e he) extended.ended (Nat.le_of_eq now.symm)

/-- When time passes, a sequence goes on as far as it can. -/
theorem stands_runUntil (range : Policy.timeoutInRange p.policy.probeTimeout = true) {clock : Nat}
    (timely : w.docket.Timely) (run : ∃ h, p.Run h w) (ahead : w.now ≤ clock)
    (stands : p.Stands s time xs w) :
    let ys := xs ++ own s.number (p.journalUntil clock w)
    p.Stands s time ys { p.runUntil clock w with now := clock } ∧ ys ≠ [] := by
  obtain ⟨-, late, -, within⟩ := p.timely_runUntil clock w timely ahead
  have reached := (reaches_runUntil range clock timely run stands.reaches).later late
  have moved : p.Reaches s time (clock + 1) _ { p.runUntil clock w with now := clock } :=
    reached.beside (fun _ he _ => he) (fun _ hx => hx) within
  have since : time ≤ clock := Nat.le_trans stands.since ahead
  have started := Reaches.started (w := { p.runUntil clock w with now := clock }) moved since
  exact ⟨.gone since moved, started⟩

theorem stands_act (range : Policy.timeoutInRange p.policy.probeTimeout = true) (x : Act)
    (timely : w.docket.Timely) (run : ∃ h, p.Run h w) (given : s.number ≤ w.ledger.claimed)
    (stands : p.Stands s time xs w) :
    p.Stands s time (xs ++ own s.number (p.journalOf w x)) (p.act x w) := by
  -- Whatever is begun gets a number that the sequence does not have.
  have other : w.ledger.next ≠ s.number := by
    show w.ledger.claimed + 1 ≠ s.number
    omega
  have beside {j : Journal} (silent : own s.number j = [])
      (extended : w.docket.Extends (p.act x w).docket) :
      p.Stands s time (xs ++ own s.number j) (p.act x w) := by
    rw [silent, List.append_nil]
    exact stands.beside extended
  cases x with
  | probe id => exact beside rfl (p.probe_extends id w)
  | probeNow id => exact beside (own_under_other other _) (p.probeNow_extends id w)
  | observe ids => exact beside rfl (p.observe_extends ids w)
  | forget id => exact beside rfl ⟨rfl, fun _ he => he, fun _ hx => hx⟩
  | test id message => exact beside (own_under_other other _) (p.test_extends id message w)
  | advance ms => exact (stands_runUntil range timely run (Nat.le_add_right _ _) stands).1
  | await number =>
    unfold act journalOf
    dsimp only
    split
    · rename_i ended
      rw [await_stands (.inl ended)]
      simpa using stands
    · rename_i running
      obtain ⟨ahead, same⟩ := p.await_eq_runUntil number w timely (by simpa using running)
      have stood := (stands_runUntil range timely run ahead stands).1
      rw [← same] at stood
      exact stood

end

/-! ### The beginning of a sequence -/

/-- An act begins a sequence. When endpoints are observed, one is begun for each whose turn comes
while it has no status. -/
inductive Begins (p : Prober ε) (w : World ε) : Act → Sequence → Prop
  | probe (id : EndpointId) : Begins p w (.probe id) ⟨id, w.ledger.next⟩
  | probeNow (id : EndpointId) : Begins p w (.probeNow id) ⟨id, w.ledger.next⟩
  | observe {ids before after : List EndpointId} {id : EndpointId} {v : World ε}
      (split : ids = before ++ id :: after)
      (reached : v = before.foldl (fun w id => p.observeOne id w) w)
      (unseen : v.status? id = none) : Begins p w (.observe ids) ⟨id, v.ledger.next⟩

section
variable {p : Prober ε} {s : Sequence} {time : Nat} {xs : List Exchange} {w : World ε} {x : Act}

theorem claimed_observed (p : Prober ε) (ids : List EndpointId) (w : World ε) :
    w.ledger.claimed ≤ (ids.foldl (fun w id => p.observeOne id w) w).ledger.claimed := by
  induction ids generalizing w with
  | nil => exact Nat.le_refl _
  | cons id ids ih =>
    refine Nat.le_trans ?_ (ih (p.observeOne id w))
    unfold observeOne
    split
    · exact p.claimed_act (.probe id) w
    · exact Nat.le_refl _

theorem observed_split {before : List EndpointId} {id : EndpointId} {v : World ε}
    (reached : v = before.foldl (fun w id => p.observeOne id w) w) (unseen : v.status? id = none)
    (after : List EndpointId) :
    (p.observe (before ++ id :: after) w).docket =
      (after.foldl (fun w id => p.observeOne id w) (p.probe id v)).docket := by
  have probed : p.observeOne id v = p.probe id v := if_pos (by simp [unseen])
  rw [(p.observe_docket _ w).1, List.foldl_append, List.foldl_cons, ← reached, probed]

theorem claimed_begun (begun : p.Begins w x s) :
    w.ledger.claimed < s.number ∧ s.number ≤ (p.act x w).ledger.claimed := by
  cases begun with
  | probe id => exact ⟨Nat.lt_succ_self _, Nat.le_refl _⟩
  | probeNow id => exact ⟨Nat.lt_succ_self _, claimed_of_proceeds (p.probeNow_proceeds id w)⟩
  | @observe _ before after id v split reached unseen =>
    subst split
    have ledger := congrArg Docket.ledger (observed_split reached unseen after)
    refine ⟨Nat.lt_succ_of_le (reached ▸ p.claimed_observed before w), ?_⟩
    show _ ≤ (p.observe _ w).ledger.claimed
    rw [show (p.observe _ w).ledger = _ from ledger]
    exact p.claimed_observed after (p.probe id v)

theorem probeNow_reaches (range : Policy.timeoutInRange p.policy.probeTimeout = true)
    (id : EndpointId) (w : World ε) :
    (p.probeNow id w).now = w.now ∧
      p.Reaches ⟨id, w.ledger.next⟩ w.now ((p.probeNow id w).now + 1)
        (p.conversation w (p.probeNow id w)) (p.probeNow id w) := by
  have now : (p.probeNow id w).now = w.now := (p.probeNow_extends id w).now
  have first : p.GoesOn ⟨id, w.ledger.next⟩ w.now []
      (p.attempt ⟨id, w.ledger.next⟩ (p.attempts - 1)) { w with ledger := w.ledger.start id } :=
    attempt_goesOn range (.nil p id w.now) (by simp) p.count_first rfl
  obtain ⟨cs, asks, reaches⟩ := first
  have asks : p.Asks w cs (p.probeNow id w) := ⟨asks.calls, asks.env⟩
  rw [now, conversation_of_asks asks]
  exact ⟨rfl, reaches⟩

theorem stands_begun (range : Policy.timeoutInRange p.policy.probeTimeout = true)
    (begun : p.Begins w x s) :
    p.Stands s w.now (own s.number (p.journalOf w x)) (p.act x w) := by
  cases begun with
  | probe id => exact .queued rfl rfl (mem_wait { w with ledger := w.ledger.start id } 0 _)
  | probeNow id =>
    obtain ⟨now, reaches⟩ := probeNow_reaches range id w
    show p.Stands _ _ (own w.ledger.next (under _ (p.conversation w (p.probeNow id w)))) _
    rw [own_under]
    exact .gone (Nat.le_of_eq now.symm) reaches
  | @observe _ before after id v split reached unseen =>
    subst split
    have extended := p.observed_extends before w
    rw [← reached] at extended
    have docket := observed_split reached unseen after
    have rest := p.observed_extends after (p.probe id v)
    have queued : p.Stands ⟨id, v.ledger.next⟩ v.now [] (p.probe id v) :=
      .queued rfl rfl (mem_wait { v with ledger := v.ledger.start id } 0 _)
    rw [← docket] at rest
    rw [show v.now = w.now from extended.now] at queued
    exact queued.beside rest

end

/-! ### Runs -/

section
variable {p : Prober ε} {s : Sequence} {time : Nat} {xs : List Exchange} {env : ε}
variable (range : Policy.timeoutInRange p.policy.probeTimeout = true)
include range

theorem stands_follow {before : List Act} (acts : List Act)
    (given : s.number ≤ (p.follow before (.start env)).ledger.claimed)
    (stands : p.Stands s time xs (p.follow before (.start env))) :
    p.Stands s time (xs ++ own s.number (p.journal acts (p.follow before (.start env))))
      (p.follow acts (p.follow before (.start env))) := by
  induction acts generalizing before xs with
  | nil =>
    rw [journal, own_nil, List.append_nil]
    exact stands
  | cons x acts ih =>
    have stood := stands_act range x (p.timely_follow before env) (p.run_of_acts env before) given
      stands
    have claimed := Nat.le_trans given (p.claimed_act x _)
    have next : p.act x (p.follow before (.start env)) = p.follow (before ++ [x]) (.start env) := by
      rw [follow_append]
      rfl
    rw [next] at stood claimed
    rw [journal, own_append, ← List.append_assoc, next]
    show p.Stands s time _ (p.follow acts (p.act x _))
    rw [next]
    exact ih claimed stood

theorem stands_since {before : List Act} {x : Act}
    (begun : p.Begins (p.follow before (.start env)) x s) (acts : List Act) :
    p.Stands s (p.follow before (.start env)).now
      (own s.number (p.journal (before ++ x :: acts) (.start env)))
      (p.follow (before ++ x :: acts) (.start env)) := by
  obtain ⟨new, given⟩ := claimed_begun begun
  have none : own s.number (p.journal before (.start env)) = [] := by
    refine own_eq_nil fun a ha same => ?_
    have le := p.journal_claimed env before a ha
    omega
  have first : p.act x (p.follow before (.start env)) = p.follow (before ++ [x]) (.start env) := by
    rw [follow_append]
    rfl
  have stood := stands_begun range begun
  rw [first] at stood given
  have later := stands_follow range acts given stood
  have split : before ++ x :: acts = before ++ [x] ++ acts := by simp
  rw [split, journal_append, own_append, journal_append, own_append, none, List.nil_append, journal,
    journal, List.append_nil, p.follow_append (before ++ [x]) acts]
  exact later

/-- A sequence is queued only as long as no time passes, and not at all if it begins at once. -/
theorem queued_of_nil {before after : List Act} {x : Act}
    (begun : p.Begins (p.follow before (.start env)) x s)
    (none : own s.number (p.journal (before ++ x :: after) (.start env)) = []) :
    (∀ id, x ≠ .probeNow id) ∧ ∀ ms, .advance ms ∉ after := by
  refine ⟨fun id now => ?_, fun ms passed => ?_⟩
  · subst now
    rw [journal_append, own_append, journal, own_append] at none
    have quiet := (List.append_eq_nil_iff.mp (List.append_eq_nil_iff.mp none).2).1
    cases begun with
    | probeNow =>
      rw [journalOf, own_under] at quiet
      obtain ⟨now, reaches⟩ := probeNow_reaches range id (p.follow before (.start env))
      exact reaches.started (Nat.le_of_eq now.symm) quiet
  · obtain ⟨earlier, later, rfl⟩ := List.append_of_mem passed
    have split : before ++ x :: (earlier ++ .advance ms :: later) =
        before ++ x :: earlier ++ .advance ms :: later := by simp
    rw [split, journal_append, own_append, journal, own_append, ← List.append_assoc] at none
    have later := stands_runUntil range (p.timely_follow _ env) (p.run_of_acts env _)
      (Nat.le_add_right _ ms) (stands_since range begun earlier)
    exact later.2 (List.append_eq_nil_iff.mp none).1

end

/-! ### Moments -/

/-- A sequence that was begun at a time, and has made some attempts until now, is on schedule. -/
structure OnSchedule (p : Prober ε) (s : Sequence) (time : Nat) (xs : List Exchange)
    (w : World ε) : Prop where
  paced : p.Paced s.endpoint time xs
  queued : xs = [] → w.now = time ∧ w.result? s.number = none
  /-- The next attempt is made no later than it is due. -/
  goes_on : ∀ x ∈ xs.getLast?, ¬ p.Final xs x →
    w.now < p.closes x + p.delay ∧ w.result? s.number = none
  /-- After the last attempt there is no wait. -/
  ends : ∀ x ∈ xs.getLast?, p.Final xs x →
    w.result? s.number = if p.closes x ≤ w.now then some (p.cameTo s x) else none

section
variable {p : Prober ε} {s : Sequence} {time : Nat} {xs : List Exchange} {w : World ε}

theorem result_none (numbered : w.docket.Numbered) {e : Entry} (he : e ∈ w.agenda) :
    w.result? e.task.number = none := by
  refine List.find?_eq_none.mpr fun x hx same => ?_
  exact numbered.ne he hx (of_decide_eq_true same).symm

theorem result_of_ended (numbered : w.docket.Numbered) {x : Ended} (hx : x ∈ w.ended) :
    w.result? x.number = some x := by
  have nodup := (List.nodup_append.mp numbered.nodup).2.1
  cases found : w.result? x.number with
  | none => simpa using List.find?_eq_none.mp found x hx
  | some y =>
    have same : y.number = x.number := by simpa using List.find?_some found
    rw [List.inj_on_of_nodup_map nodup (List.mem_of_find?_eq_some found) hx same]

theorem Stands.onSchedule (stands : p.Stands s time xs w) (numbered : w.docket.Numbered)
    (answered : ∀ x ∈ xs, x.reply.answer ≠ .crash) : p.OnSchedule s time xs w := by
  cases stands with
  | queued none now mem =>
    subst none
    exact ⟨.nil p s.endpoint time, fun _ => ⟨now, result_none numbered mem⟩, by simp, by simp⟩
  | gone since reaches =>
    have started := reaches.started since
    cases reaches with
    | broken mem crash => exact absurd crash (answered _ mem)
    | done paced last final mem past =>
      have result := result_of_ended numbered mem
      refine ⟨paced, fun none => absurd none started, fun x hx going => ?_, fun x hx _ => ?_⟩
      · cases last.symm.trans hx
        exact absurd final going
      · cases last.symm.trans hx
        rw [if_pos past]
        exact result
    | waits paced mem due awaits =>
      have result := result_none numbered mem
      rw [awaits.number] at result
      refine ⟨paced, fun none => absurd none started, fun x hx going => ⟨?_, result⟩,
        fun x hx final => ?_⟩
      · cases awaits with
        | attempt count failed =>
          rw [nextStart_of_last hx] at due
          exact due
        | close count last =>
          cases last.symm.trans hx
          have due : w.now + 1 ≤ p.closes x := due
          omega
      -- A sequence that has made its last attempt can only be waiting for the end of it.
      · cases awaits with
        | attempt count failed =>
          rcases final with pass | all
          · rw [failed x hx] at pass
            cases pass
          · omega
        | close count last =>
          cases last.symm.trans hx
          have due : w.now + 1 ≤ p.closes x := due
          rw [result, if_neg (by omega)]

/-- No sequence takes longer than all its attempts and all waits could. -/
theorem OnSchedule.ended (on : p.OnSchedule s time xs w)
    (late : time + p.attempts * (p.limit + p.delay) ≤ w.now) :
    (w.result? s.number).isSome = true := by
  have next := on.paced.nextStart_le
  have most := Nat.mul_le_mul_right (p.limit + p.delay) on.paced.few
  cases last : xs.getLast? with
  | none =>
    have now := (on.queued (List.getLast?_eq_none_iff.mp last)).1
    have pos : 0 < p.attempts * (p.limit + p.delay) :=
      Nat.mul_pos p.attempts_pos (by unfold limit; omega)
    omega
  | some x =>
    rw [nextStart_of_last last] at next
    by_cases final : p.Final xs x
    · rw [on.ends x last final, if_pos (by omega)]
      rfl
    · have going := (on.goes_on x last final).1
      omega

theorem Stands.mem_numbers (stands : p.Stands s time xs w)
    (answered : ∀ x ∈ xs, x.reply.answer ≠ .crash) : s.number ∈ w.docket.numbers := by
  cases stands.reaches with
  | broken mem crash => exact absurd crash (answered _ mem)
  | waits paced mem due awaits => exact awaits.number ▸ Docket.number_mem_agenda mem
  | done paced last final mem past => exact Docket.number_mem_ended (d := w.docket) mem

theorem OnSchedule.came (on : p.OnSchedule s time xs w)
    (ended : (w.result? s.number).isSome = true) :
    ∃ x ∈ xs.getLast?, p.Final xs x ∧ w.result? s.number = some (p.cameTo s x) := by
  cases last : xs.getLast? with
  | none =>
    rw [(on.queued (List.getLast?_eq_none_iff.mp last)).2] at ended
    cases ended
  | some x =>
    by_cases final : p.Final xs x
    · have result := on.ends x last final
      by_cases past : p.closes x ≤ w.now
      · rw [if_pos past] at result
        exact ⟨x, rfl, final, result⟩
      · rw [result, if_neg past] at ended
        cases ended
    · rw [(on.goes_on x last final).2] at ended
      cases ended

end

/-! ### Waiting for the end of a sequence -/

theorem await_ends (p : Prober ε) (number : Nat) (w : World ε)
    (started : number ∈ w.docket.numbers) :
    ((p.await number w).result? number).isSome = true := by
  fun_induction await p number w with
  | case1 w ended => exact ended
  | case2 w running h =>
    obtain ⟨x, hx, rfl⟩ : ∃ x ∈ w.ended, x.number = number := by
      simpa [Docket.numbers, World.docket, h] using started
    refine absurd ?_ running
    rw [World.result?, List.find?_isSome]
    exact ⟨x, hx, by simp⟩
  | case3 w running e rest h ih =>
    exact ih (numbers_of_proceeds (p.runUntil_proceeds _ w) _ started)

/-- Whoever waits for a sequence that is not broken off sees it end. -/
theorem awaited_ends {p : Prober ε} (range : Policy.timeoutInRange p.policy.probeTimeout = true)
    {env : ε} {before after : List Act} {x : Act} {s : Sequence}
    (begun : p.Begins (p.follow before (.start env)) x s)
    (answered : ∀ y ∈ own s.number (p.journal (before ++ x :: after) (.start env)),
      y.reply.answer ≠ .crash) (waits : after.getLast? = some (.await s.number)) :
    ((p.follow (before ++ x :: after) (.start env)).result? s.number).isSome = true := by
  obtain ⟨earlier, rfl⟩ := List.getLast?_eq_some_iff.mp waits
  have split : before ++ x :: (earlier ++ [.await s.number]) =
      before ++ x :: earlier ++ [.await s.number] := by simp
  rw [split] at answered ⊢
  rw [journal_append, own_append] at answered
  have started := (stands_since range begun earlier).mem_numbers fun y hy =>
    answered y (List.mem_append_left _ hy)
  rw [follow_append]
  exact p.await_ends s.number _ started

/-- At any moment of a run, of a sequence that was begun in it and to whose attempts the tester gave
answers or errors, or nothing at all. It is queued only as long as no time passes, it ends at last,
and whoever waits for its end gets what it has come to itself. -/
theorem schedule_kept (p : Prober ε)
    (range : Policy.timeoutInRange p.policy.probeTimeout = true) (env : ε) {before after : List Act}
    {x : Act} {s : Sequence} (begun : p.Begins (p.follow before (.start env)) x s)
    (answered : ∀ y ∈ own s.number (p.journal (before ++ x :: after) (.start env)),
      y.reply.answer ≠ .crash) :
    let time := (p.follow before (.start env)).now
    let w := p.follow (before ++ x :: after) (.start env)
    let attempts := own s.number (p.journal (before ++ x :: after) (.start env))
    p.OnSchedule s time attempts w ∧
    (attempts = [] → (∀ id, x ≠ .probeNow id) ∧ ∀ ms, .advance ms ∉ after) ∧
    (time + p.attempts * (p.limit + p.delay) ≤ w.now → (w.result? s.number).isSome = true) ∧
    (after.getLast? = some (.await s.number) →
      ∃ y ∈ attempts.getLast?, p.Final attempts y ∧
        w.result? s.number = some (p.cameTo s y)) := by
  intro time w attempts
  obtain ⟨h, run⟩ := p.run_of_acts env (before ++ x :: after)
  have on : p.OnSchedule s time attempts w :=
    (stands_since range begun after).onSchedule (numbered_of_run run) answered
  exact ⟨on, queued_of_nil range begun, on.ended, fun waits =>
    on.came (awaited_ends range begun answered waits)⟩

/-- A prober whose tester never answers its first request, and all others after a second. -/
def hesitant : Prober Nat where
  policy := .standard
  tester := fun n _ _ => (⟨if n = 0 then none else some 1000, .text "pong", []⟩, n + 1)

/-- The endpoint is tested by hand, probed again and forgotten while the sequence is under way. -/
theorem schedule_kept_forgotten :
    ∃ acts w attempts,
      acts = [.probeNow "m", .test "m" "hi", .probe "m", .forget "m", .await 1] ∧
      w = hesitant.follow acts (.start 0) ∧ attempts = own 1 (hesitant.journal acts (.start 0)) ∧
      hesitant.OnSchedule ⟨"m", 1⟩ 0 attempts w ∧
      attempts.map (·.call.start) = [0, 6000] ∧ w.status? "m" = none ∧
      w.result? 1 = some ⟨1, 7000, .sequence .success⟩ := by
  let acts : List Act := [.probeNow "m", .test "m" "hi", .probe "m", .forget "m", .await 1]
  let second : Exchange :=
    ⟨⟨6000, hesitant.policy.probeRequest "m"⟩, ⟨some 1000, .text "pong", []⟩⟩
  have begun : hesitant.Begins (hesitant.follow [] (.start 0)) (.probeNow "m") ⟨"m", 1⟩ :=
    .probeNow "m"
  have last : (own 1 (hesitant.journal acts (.start 0))).getLast? = some second := by
    decide +kernel
  have answered : ∀ y ∈ own 1 (hesitant.journal acts (.start 0)), y.reply.answer ≠ .crash := by
    decide +kernel
  obtain ⟨on, -, -, waited⟩ := schedule_kept hesitant rfl 0 begun answered
  obtain ⟨y, hy, -, result⟩ := waited rfl
  obtain rfl : second = y := Option.some.inj (last.symm.trans hy)
  have closes : hesitant.closes second = 7000 := by decide +kernel
  have passed : hesitant.passes second = true := by decide +kernel
  rw [cameTo, closes, passed] at result
  exact ⟨acts, _, _, rfl, rfl, rfl, on, by decide +kernel, by decide +kernel, result⟩

end EndpointHealth.Prober
