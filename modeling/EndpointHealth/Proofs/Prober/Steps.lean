import EndpointHealth.Proofs.Prober.History
import EndpointHealth.Proofs.Prober.Newcomers
import EndpointHealth.Prober.Clock
set_option autoImplicit false

/-!
The steps of a prober, each of them short enough that anything may come between two of them: tasks
are taken from the agenda in any order, whatever their times, and what the tester depends on may
change at any moment.

Main statements: the ledger and the agenda say at any time what follows from the events so far
(`tracks_of_run`), and whatever is asked of a prober in whatever order, and however its clock is
moved, it takes such steps (`run_of_acts`).
-/

namespace EndpointHealth.Prober

variable {ε : Type}

def Task.sequence? : Task → Option Sequence
  | .attempt s _ | .close s _ _ => some s
  | .conclude _ _ => none

def Task.test? : Task → Option ManualTest
  | .attempt _ _ | .close _ _ _ => none
  | .conclude t _ => some t

def World.sequences (w : World ε) : List Sequence := w.agenda.filterMap (·.task.sequence?)

def World.tests (w : World ε) : List ManualTest := w.agenda.filterMap (·.task.test?)

/-! ### Steps -/

def launch (p : Prober ε) (s : Sequence) (left : Nat) (w : World ε) : World ε :=
  let (c, w) := p.call (p.policy.probeRequest s.endpoint) w
  w.wait c.lasts (.close s left c)

def launchTest (p : Prober ε) (id : EndpointId) (message : String) (w : World ε) : World ε :=
  let t : ManualTest := ⟨id, w.ledger.next⟩
  let (c, w) := p.call (p.policy.manualRequest id message) { w with ledger := w.ledger.claim }
  w.wait c.lasts (.conclude t c)

/-- Closes an attempt, with the next one on the agenda if there is to be one. -/
def settle (p : Prober ε) (s : Sequence) (left : Nat) (c : Course) (w : World ε) : World ε :=
  p.closeWith (fun v => v.wait 0 (.attempt s (left - 1))) s left c w

/-- What it means for a sequence that an attempt is closed. -/
def Event.ofClose? (s : Sequence) (left : Nat) (c : Course) : Option Event :=
  match c.outcome with
  | .passed _ => some (.ended s .success)
  | .crashed => some (.broken s)
  | .failed _ => if left = 0 then some (.ended s .failure) else none

def Event.ofTest (t : ManualTest) (c : Course) : Event :=
  match c.outcome with
  | .passed _ => .testPassed t
  | .crashed | .failed _ => .testFailed t

/-- What a prober does by itself, and the event that it is. -/
inductive Work (p : Prober ε) (w : World ε) : Option Event → World ε → Prop
  | tick (time : Nat) : Work p w none { w with now := time }
  | attempt {a b : List Entry} {due : Nat} {s : Sequence} {left : Nat}
      (h : w.agenda = a ++ ⟨due, .attempt s left⟩ :: b) :
      Work p w none (p.launch s left { w with agenda := a ++ b })
  | close {a b : List Entry} {due : Nat} {s : Sequence} {left : Nat} {c : Course}
      (h : w.agenda = a ++ ⟨due, .close s left c⟩ :: b) :
      Work p w (Event.ofClose? s left c) (p.settle s left c { w with agenda := a ++ b })
  | conclude {a b : List Entry} {due : Nat} {t : ManualTest} {c : Course}
      (h : w.agenda = a ++ ⟨due, .conclude t c⟩ :: b) :
      Work p w (some (Event.ofTest t c)) (p.closeTest t c { w with agenda := a ++ b })

/-- What a prober does by itself or is asked to do, and what goes on beside it. -/
inductive Step (p : Prober ε) (w : World ε) : Option Event → World ε → Prop
  | work {e : Option Event} {v : World ε} (h : p.Work w e v) : Step p w e v
  | aside (env : ε) (notices : List Notice) :
      Step p w none { w with env := env, notices := notices }
  | begin (id : EndpointId) : Step p w (some (.begun ⟨id, w.ledger.next⟩)) (p.probe id w)
  | forget (id : EndpointId) : Step p w (some (.forgotten id)) (p.forget id w)
  | beginTest (id : EndpointId) (message : String) :
      Step p w (some (.testBegun ⟨id, w.ledger.next⟩)) (p.launchTest id message w)

/-- Steps one after another, with what happens in them. -/
inductive Steps (p : Prober ε) (w : World ε) : History → World ε → Prop
  | refl : Steps p w [] w
  | step {h : History} {v v' : World ε} {e : Option Event} (before : Steps p w h v)
      (next : p.Step v e v') : Steps p w (e.toList ++ h) v'

/-- A run with its history, from a world in which nothing has happened. -/
def Run (p : Prober ε) (h : History) (w : World ε) : Prop := ∃ env, p.Steps (.start env) h w

theorem Run.step {p : Prober ε} {h : History} {w v : World ε} {e : Option Event} (run : p.Run h w)
    (next : p.Step w e v) : p.Run (e.toList ++ h) v :=
  run.imp fun _ steps => steps.step next

theorem Steps.single {p : Prober ε} {w v : World ε} {e : Option Event} (next : p.Step w e v) :
    p.Steps w e.toList v := by
  simpa using Steps.refl.step next

theorem Steps.trans {p : Prober ε} {w v u : World ε} {h h' : History} (first : p.Steps w h v)
    (second : p.Steps v h' u) : p.Steps w (h' ++ h) u := by
  induction second with
  | refl => exact first
  | step _ next ih => simpa [List.append_assoc] using ih.step next

/-! ### What steps do to the ledger and the agenda -/

theorem schedule_split (e : Entry) (es : List Entry) :
    ∃ a b, schedule e es = a ++ e :: b ∧ a ++ b = es := by
  induction es with
  | nil => exact ⟨[], [], rfl, rfl⟩
  | cons f es ih =>
    unfold schedule
    split
    · obtain ⟨a, b, hsplit, rfl⟩ := ih
      exact ⟨f :: a, b, by simp [hsplit], rfl⟩
    · exact ⟨[], f :: es, rfl, rfl⟩

theorem filterMap_middle {α : Type} (f : Entry → Option α) (a b : List Entry) (e : Entry) :
    ((a ++ e :: b).filterMap f).Perm ((f e).toList ++ (a ++ b).filterMap f) := by
  refine (List.perm_middle.filterMap f).trans (.of_eq ?_)
  cases h : f e <;> simp [h]

theorem filterMap_schedule {α : Type} (f : Entry → Option α) (e : Entry) (es : List Entry) :
    ((schedule e es).filterMap f).Perm ((f e).toList ++ es.filterMap f) := by
  obtain ⟨a, b, hsplit, rfl⟩ := schedule_split e es
  rw [hsplit]
  exact filterMap_middle f a b e

/-- The ledger and the agenda of a world are as its history says. -/
structure Tracks (h : History) (w : World ε) : Prop where
  possible : History.Possible h
  ledger : w.ledger = History.ledger h
  sequences : w.sequences.Perm (History.sequences h)
  tests : w.tests.Perm (History.tests h)

theorem tracks_start (env : ε) : Tracks [] (World.start env) := ⟨trivial, rfl, .refl _, .refl _⟩

theorem perm_wait {α : Type} (f : Entry → Option α) (w : World ε) (d : Nat) (t : Task) :
    ((w.wait d t).agenda.filterMap f).Perm ((f ⟨w.now + d, t⟩).toList ++ w.agenda.filterMap f) :=
  filterMap_schedule f _ _

theorem sequences_wait (w : World ε) (d : Nat) (t : Task) :
    (w.wait d t).sequences.Perm (t.sequence?.toList ++ w.sequences) := perm_wait _ w d t

theorem tests_wait (w : World ε) (d : Nat) (t : Task) :
    (w.wait d t).tests.Perm (t.test?.toList ++ w.tests) := perm_wait _ w d t

/-- Closing an attempt ends its sequence, or breaks it off, or leaves it waiting. -/
theorem settle_cases (p : Prober ε) (s : Sequence) (left : Nat) (c : Course) (w : World ε) :
    (∃ outcome, Event.ofClose? s left c = some (.ended s outcome) ∧ outcome ≠ .pending ∧
      (p.settle s left c w).ledger = w.ledger.finish s.endpoint s.number outcome ∧
      (p.settle s left c w).agenda = w.agenda) ∨
    (Event.ofClose? s left c = some (.broken s) ∧ (p.settle s left c w).ledger = w.ledger ∧
      (p.settle s left c w).agenda = w.agenda) ∨
    (Event.ofClose? s left c = none ∧ (p.settle s left c w).ledger = w.ledger ∧
      ∃ due, (p.settle s left c w).agenda = schedule ⟨due, .attempt s (left - 1)⟩ w.agenda) := by
  unfold settle closeWith Event.ofClose?
  cases c.outcome with
  | passed text => exact .inl ⟨.success, rfl, by decide, rfl, rfl⟩
  | crashed => exact .inr (.inl ⟨rfl, rfl, rfl⟩)
  | failed why =>
    by_cases hleft : left = 0
    · refine .inl ⟨.failure, if_pos hleft, by decide, ?_⟩
      dsimp only
      rw [if_pos hleft]
      exact ⟨rfl, rfl⟩
    · refine .inr (.inr ⟨if_neg hleft, ?_⟩)
      dsimp only
      rw [if_neg hleft]
      split
      · exact ⟨rfl, _, rfl⟩
      · exact ⟨rfl, _, rfl⟩

theorem closeTest_cases (p : Prober ε) (t : ManualTest) (c : Course) (w : World ε) :
    (p.closeTest t c w).agenda = w.agenda ∧
    ((Event.ofTest t c = .testPassed t ∧
      (p.closeTest t c w).ledger = w.ledger.passTest t.endpoint t.number) ∨
    (Event.ofTest t c = .testFailed t ∧ (p.closeTest t c w).ledger = w.ledger)) := by
  unfold closeTest Event.ofTest
  cases c.outcome with
  | passed text => exact ⟨rfl, .inl ⟨rfl, rfl⟩⟩
  | crashed => exact ⟨rfl, .inr ⟨rfl, rfl⟩⟩
  | failed why => cases why <;> exact ⟨rfl, .inr ⟨rfl, rfl⟩⟩

theorem ledger_of_step {p : Prober ε} {w v : World ε} {e : Option Event} (step : p.Step w e v) :
    v.ledger = e.elim w.ledger w.ledger.after := by
  cases step with
  | work h =>
    cases h with
    | tick time => rfl
    | attempt h => rfl
    | close h =>
      rename_i a b due s left c
      rcases p.settle_cases s left c { w with agenda := a ++ b } with
        ⟨outcome, he, -, hl, -⟩ | ⟨he, hl, -⟩ | ⟨he, hl, -⟩
      · rw [hl, he]
        rfl
      · rw [hl, he]
        rfl
      · rw [hl, he]
        rfl
    | conclude h =>
      rename_i a b due t c
      rcases p.closeTest_cases t c { w with agenda := a ++ b } with
        ⟨-, ⟨he, hl⟩ | ⟨he, hl⟩⟩
      · rw [hl, he]
        rfl
      · rw [hl, he]
        rfl
  | aside env notices => rfl
  | begin id => rfl
  | forget id => rfl
  | beginTest id message => rfl

theorem perm_replaced {α : Type} (f : Entry → Option α) (a b : List Entry) {e e' : Entry}
    (h : f e' = f e) :
    ((schedule e' (a ++ b)).filterMap f).Perm ((a ++ e :: b).filterMap f) := by
  have there := filterMap_schedule f e' (a ++ b)
  rw [h] at there
  exact there.trans (filterMap_middle f a b e).symm

/-- A task is taken from the agenda, whose sequence does not end with it. -/
theorem perm_kept {w v : World ε} {a b : List Entry} {due due' : Nat} {t t' : Task}
    (h : w.agenda = a ++ ⟨due, t⟩ :: b) (hv : v.agenda = schedule ⟨due', t'⟩ (a ++ b))
    (hs : t'.sequence? = t.sequence?) (ht : t'.test? = t.test?) :
    v.sequences.Perm w.sequences ∧ v.tests.Perm w.tests := by
  unfold World.sequences World.tests
  rw [h, hv]
  exact ⟨perm_replaced _ a b hs, perm_replaced _ a b ht⟩

/-- A task is taken from the agenda, and with it goes its sequence or its test. -/
theorem perm_taken {w v : World ε} {a b : List Entry} {due : Nat} {t : Task}
    (h : w.agenda = a ++ ⟨due, t⟩ :: b) (hv : v.agenda = a ++ b) :
    w.sequences.Perm (t.sequence?.toList ++ v.sequences) ∧
      w.tests.Perm (t.test?.toList ++ v.tests) := by
  unfold World.sequences World.tests
  rw [h, hv]
  exact ⟨filterMap_middle _ _ _ _, filterMap_middle _ _ _ _⟩

theorem perm_erase {α : Type} [DecidableEq α] {x : α} {xs ys zs : List α} (h : xs.Perm (x :: ys))
    (hz : xs.Perm zs) : x ∈ zs ∧ ys.Perm (zs.erase x) := by
  have hp := hz.symm.trans h
  refine ⟨hp.symm.subset (List.mem_cons_self ..), ?_⟩
  simpa using (hp.erase x).symm

theorem ledger_tracks {p : Prober ε} {h : History} {w v : World ε} {e : Option Event}
    (ledger : w.ledger = History.ledger h) (step : p.Step w e v) :
    v.ledger = History.ledger (e.toList ++ h) := by
  rw [ledger_of_step step, ledger]
  cases e <;> rfl

theorem tracks_work {p : Prober ε} {h : History} {w v : World ε} {e : Option Event}
    (tracks : Tracks h w) (work : p.Work w e v) : Tracks (e.toList ++ h) v := by
  have ledger := ledger_tracks tracks.ledger (.work work)
  obtain ⟨possible, -, sequences, tests⟩ := tracks
  cases work with
  | tick time => exact ⟨possible, ledger, sequences, tests⟩
  | attempt hw =>
    obtain ⟨hs, ht⟩ := perm_kept hw (v := p.launch _ _ { w with agenda := _ }) rfl rfl rfl
    exact ⟨possible, ledger, hs.trans sequences, ht.trans tests⟩
  | close hw =>
    rename_i a b due s left c
    rcases p.settle_cases s left c { w with agenda := a ++ b } with
      ⟨outcome, he, hne, -, hv⟩ | ⟨he, -, hv⟩ | ⟨he, -, due', hv⟩
    · obtain ⟨hs, ht⟩ := perm_taken hw hv
      obtain ⟨mem, perm⟩ := perm_erase hs sequences
      rw [he] at ledger ⊢
      exact ⟨⟨⟨mem, hne⟩, possible⟩, ledger, perm, ht.symm.trans tests⟩
    · obtain ⟨hs, ht⟩ := perm_taken hw hv
      obtain ⟨mem, perm⟩ := perm_erase hs sequences
      rw [he] at ledger ⊢
      exact ⟨⟨mem, possible⟩, ledger, perm, ht.symm.trans tests⟩
    · obtain ⟨hs, ht⟩ := perm_kept hw hv rfl rfl
      rw [he] at ledger ⊢
      exact ⟨possible, ledger, hs.trans sequences, ht.trans tests⟩
  | conclude hw =>
    rename_i a b due t c
    obtain ⟨hv, he⟩ := p.closeTest_cases t c { w with agenda := a ++ b }
    obtain ⟨hs, ht⟩ := perm_taken hw hv
    obtain ⟨mem, perm⟩ := perm_erase ht tests
    rcases he with ⟨he, -⟩ | ⟨he, -⟩
    · rw [he] at ledger ⊢
      exact ⟨⟨mem, possible⟩, ledger, hs.symm.trans sequences, perm⟩
    · rw [he] at ledger ⊢
      exact ⟨⟨mem, possible⟩, ledger, hs.symm.trans sequences, perm⟩

theorem tracks_step {p : Prober ε} {h : History} {w v : World ε} {e : Option Event}
    (tracks : Tracks h w) (step : p.Step w e v) : Tracks (e.toList ++ h) v := by
  have ledger := ledger_tracks tracks.ledger step
  cases step with
  | work work => exact tracks_work tracks work
  | aside env notices => exact ⟨tracks.possible, ledger, tracks.sequences, tracks.tests⟩
  | begin id =>
    have number : w.ledger.next = (History.ledger h).next := congrArg _ tracks.ledger
    refine ⟨⟨number, tracks.possible⟩, ledger, ?_, ?_⟩
    · exact (sequences_wait _ _ _).trans (tracks.sequences.cons _)
    · exact (tests_wait _ _ _).trans tracks.tests
  | forget id => exact ⟨⟨trivial, tracks.possible⟩, ledger, tracks.sequences, tracks.tests⟩
  | beginTest id message =>
    have number : w.ledger.next = (History.ledger h).next := congrArg _ tracks.ledger
    refine ⟨⟨number, tracks.possible⟩, ledger, ?_, ?_⟩
    · exact (sequences_wait _ _ _).trans tracks.sequences
    · exact (tests_wait _ _ _).trans (tracks.tests.cons _)

theorem tracks_steps {p : Prober ε} {h h' : History} {w v : World ε} (tracks : Tracks h w)
    (steps : p.Steps w h' v) : Tracks (h' ++ h) v := by
  induction steps with
  | refl => exact tracks
  | step _ next ih => simpa [List.append_assoc] using tracks_step ih next

theorem tracks_of_run {p : Prober ε} {h : History} {w : World ε} (run : p.Run h w) :
    Tracks h w := by
  obtain ⟨env, steps⟩ := run
  simpa using tracks_steps (tracks_start env) steps

theorem status_of_run {p : Prober ε} {h : History} {w : World ε} (run : p.Run h w)
    (id : EndpointId) : w.status? id = History.status? id h := by
  have tracks := tracks_of_run run
  rw [World.status?, tracks.ledger, History.status_ledger tracks.possible]

/-! ### What is asked of a prober is done in steps -/

def Event.isEnd : Event → Bool
  | .ended _ _ | .broken _ | .testPassed _ | .testFailed _ => true
  | .begun _ | .forgotten _ | .testBegun _ => false

/-- A prober gets from one world to another by itself. -/
inductive Proceeds (p : Prober ε) (w : World ε) : World ε → Prop
  | refl : Proceeds p w w
  | work {v v' : World ε} {e : Option Event} (before : Proceeds p w v) (next : p.Work v e v') :
      Proceeds p w v'

theorem Work.proceeds {p : Prober ε} {w v : World ε} {e : Option Event} (work : p.Work w e v) :
    p.Proceeds w v := .work .refl work

theorem Proceeds.trans {p : Prober ε} {w v u : World ε} (first : p.Proceeds w v)
    (second : p.Proceeds v u) : p.Proceeds w u := by
  induction second with
  | refl => exact first
  | work _ next ih => exact ih.work next

theorem isEnd_of_work {p : Prober ε} {w v : World ε} {e : Event} (work : p.Work w (some e) v) :
    e.isEnd = true := by
  generalize he : some e = e' at work
  cases work with
  | tick time => cases he
  | attempt h => cases he
  | close h =>
    unfold Event.ofClose? at he
    split at he
    · cases he
      rfl
    · cases he
      rfl
    · split at he
      · cases he
        rfl
      · cases he
  | conclude h =>
    unfold Event.ofTest at he
    split at he
    all_goals
      cases he
      rfl

theorem Proceeds.steps {p : Prober ε} {w v : World ε} (proceeds : p.Proceeds w v) :
    ∃ h : History, (∀ e ∈ h, e.isEnd = true) ∧ p.Steps w h v := by
  induction proceeds with
  | refl => exact ⟨[], by simp, .refl⟩
  | work _ next ih =>
    rename_i e _
    obtain ⟨h, ends, steps⟩ := ih
    refine ⟨e.toList ++ h, fun f hf => ?_, steps.step (.work next)⟩
    rcases List.mem_append.mp hf with hf | hf
    · obtain rfl := Option.mem_toList.mp hf
      exact isEnd_of_work next
    · exact ends f hf

theorem wait_split (w : World ε) (d : Nat) (t : Task) :
    ∃ a b, (w.wait d t).agenda = a ++ ⟨w.now + d, t⟩ :: b ∧
      { w.wait d t with agenda := a ++ b } = w := by
  obtain ⟨a, b, hsplit, hab⟩ := schedule_split ⟨w.now + d, t⟩ w.agenda
  exact ⟨a, b, hsplit, by rw [hab]; rfl⟩

theorem closeWith_proceeds (p : Prober ε) {retry : World ε → World ε} {s : Sequence} {left : Nat}
    (hretry : 0 < left → ∀ v : World ε,
      p.Proceeds (v.wait 0 (.attempt s (left - 1))) (retry v))
    {w : World ε} {a b : List Entry} {due : Nat} {c : Course}
    (hw : w.agenda = a ++ ⟨due, .close s left c⟩ :: b) :
    p.Proceeds w (p.closeWith retry s left c { w with agenda := a ++ b }) := by
  have closed := (Work.close (p := p) hw).proceeds
  unfold settle closeWith at closed
  unfold closeWith
  cases hc : c.outcome with
  | passed text => simpa only [hc] using closed
  | crashed => simpa only [hc] using closed
  | failed why =>
    simp only [hc] at closed ⊢
    by_cases hleft : left = 0
    · simpa only [if_pos hleft] using closed
    · rw [if_neg hleft] at closed ⊢
      by_cases hdelay : p.delay = 0
      · rw [if_pos hdelay] at closed ⊢
        exact closed.trans (hretry (Nat.pos_of_ne_zero hleft) _)
      · simpa only [if_neg hdelay] using closed

theorem attemptWith_proceeds (p : Prober ε) {retry : World ε → World ε} {s : Sequence} {left : Nat}
    (hretry : 0 < left → ∀ v : World ε,
      p.Proceeds (v.wait 0 (.attempt s (left - 1))) (retry v))
    {w : World ε} {a b : List Entry} {due : Nat}
    (hw : w.agenda = a ++ ⟨due, .attempt s left⟩ :: b) :
    p.Proceeds w (p.attemptWith retry s left { w with agenda := a ++ b }) := by
  have launched := (Work.attempt (p := p) hw).proceeds
  unfold launch at launched
  unfold attemptWith
  generalize p.call (p.policy.probeRequest s.endpoint) { w with agenda := a ++ b } = called
    at launched ⊢
  obtain ⟨c, v⟩ := called
  dsimp only at launched ⊢
  split
  · obtain ⟨a', b', hsplit, hv⟩ := wait_split v c.lasts (.close s left c)
    have closed := p.closeWith_proceeds hretry hsplit
    rw [hv] at closed
    exact launched.trans closed
  · exact launched

theorem attempt_proceeds (p : Prober ε) (s : Sequence) (left : Nat) {w : World ε}
    {a b : List Entry} {due : Nat} (hw : w.agenda = a ++ ⟨due, .attempt s left⟩ :: b) :
    p.Proceeds w (p.attempt s left { w with agenda := a ++ b }) := by
  induction left generalizing w a b due with
  | zero => exact p.attemptWith_proceeds (fun h => absurd h (by omega)) hw
  | succ left ih =>
    refine p.attemptWith_proceeds (fun _ v => ?_) hw
    obtain ⟨a', b', hsplit, hv⟩ := wait_split v 0 (.attempt s left)
    have attempted := ih hsplit
    rwa [hv] at attempted

theorem attempt_of_wait (p : Prober ε) (s : Sequence) (left : Nat) (w : World ε) (d : Nat) :
    p.Proceeds (w.wait d (.attempt s left)) (p.attempt s left w) := by
  obtain ⟨a, b, hsplit, hw⟩ := wait_split w d (.attempt s left)
  have attempted := p.attempt_proceeds s left hsplit
  rwa [hw] at attempted

theorem perform_proceeds (p : Prober ε) {w : World ε} {a b : List Entry} {e : Entry}
    (hw : w.agenda = a ++ e :: b) : p.Proceeds w (p.perform e { w with agenda := a ++ b }) := by
  obtain ⟨due, task⟩ := e
  refine (Work.tick (p := p) (max w.now due)).proceeds.trans ?_
  have hv : { w with now := max w.now due }.agenda = a ++ ⟨due, task⟩ :: b := hw
  cases task with
  | attempt s left => exact p.attempt_proceeds s left hv
  | close s left c =>
    exact p.closeWith_proceeds (fun _ v => p.attempt_of_wait s (left - 1) v 0) hv
  | conclude t c => exact (Work.conclude (p := p) hv).proceeds

theorem runUntil_proceeds (p : Prober ε) (time : Nat) (w : World ε) :
    p.Proceeds w (p.runUntil time w) := by
  fun_induction runUntil p time w with
  | case1 => exact .refl
  | case2 w e rest h due ih => exact (p.perform_proceeds (a := []) h).trans ih
  | case3 => exact .refl

theorem advance_proceeds (p : Prober ε) (ms : Nat) (w : World ε) :
    p.Proceeds w (p.advance ms w) :=
  (p.runUntil_proceeds _ w).trans (Work.tick _).proceeds

theorem await_proceeds (p : Prober ε) (number : Nat) (w : World ε) :
    p.Proceeds w (p.await number w) := by
  fun_induction await p number w with
  | case1 => exact .refl
  | case2 => exact .refl
  | case3 w e rest hdone h ih => exact (p.runUntil_proceeds _ w).trans ih

theorem probe_steps (p : Prober ε) (id : EndpointId) (w : World ε) :
    p.Steps w [.begun ⟨id, w.ledger.next⟩] (p.probe id w) := .single (.begin id)

theorem probeNow_proceeds (p : Prober ε) (id : EndpointId) (w : World ε) :
    p.Proceeds (p.probe id w) (p.probeNow id w) :=
  p.attempt_of_wait ⟨id, w.ledger.next⟩ (p.attempts - 1)
    { w with ledger := w.ledger.start id } 0

theorem probeNow_steps (p : Prober ε) (id : EndpointId) (w : World ε) :
    ∃ h : History, (∀ e ∈ h, e.isEnd = true) ∧
      p.Steps w (h ++ [.begun ⟨id, w.ledger.next⟩]) (p.probeNow id w) := by
  obtain ⟨h, ends, steps⟩ := (p.probeNow_proceeds id w).steps
  exact ⟨h, ends, (p.probe_steps id w).trans steps⟩

theorem test_proceeds (p : Prober ε) (id : EndpointId) (message : String) (w : World ε) :
    p.Proceeds (p.launchTest id message w) (p.test id message w) := by
  unfold launchTest test
  generalize p.call (p.policy.manualRequest id message) { w with ledger := w.ledger.claim } = called
  obtain ⟨c, v⟩ := called
  dsimp only
  split
  · obtain ⟨a, b, hsplit, hv⟩ := wait_split v c.lasts (.conclude ⟨id, w.ledger.next⟩ c)
    have concluded := (Work.conclude (p := p) hsplit).proceeds
    rwa [hv] at concluded
  · exact .refl

theorem test_steps (p : Prober ε) (id : EndpointId) (message : String) (w : World ε) :
    ∃ h : History, (∀ e ∈ h, e.isEnd = true) ∧
      p.Steps w (h ++ [.testBegun ⟨id, w.ledger.next⟩]) (p.test id message w) := by
  obtain ⟨h, ends, steps⟩ := (p.test_proceeds id message w).steps
  exact ⟨h, ends, (Steps.single (.beginTest id message)).trans steps⟩

theorem steps_foldl_probe (p : Prober ε) (ids : List EndpointId) (w : World ε) :
    p.Steps w ((ids.zipIdx w.ledger.next).map fun (id, n) => .begun ⟨id, n⟩).reverse
      (ids.foldl (fun w id => p.probe id w) w) := by
  induction ids generalizing w with
  | nil => exact .refl
  | cons id ids ih =>
    rw [List.zipIdx_cons, List.map_cons, List.reverse_cons, List.foldl_cons]
    exact (Steps.single (.begin id)).trans (ih (p.probe id w))

theorem steps_observe (p : Prober ε) (ids : List EndpointId) (w : World ε) :
    p.Steps w ((p.newSequences ids w).map .begun).reverse (p.observe ids w) := by
  have begun := p.steps_foldl_probe (p.newcomers ids w) w
  have events : (p.newSequences ids w).map Event.begun =
      ((p.newcomers ids w).zipIdx w.ledger.next).map fun (id, n) => .begun ⟨id, n⟩ := by
    rw [newSequences, List.map_map]
    rfl
  rw [events]
  unfold observe
  rw [observed_eq]
  dsimp only
  split
  · exact begun
  · exact begun.trans (.single (.aside _ _))

theorem observe_steps (p : Prober ε) (ids : List EndpointId) (w : World ε) :
    ∃ h : History, (∀ e ∈ h, ∃ s, e = .begun s ∧ s.endpoint ∈ ids) ∧
      p.Steps w h (p.observe ids w) := by
  refine ⟨_, fun e he => ?_, p.steps_observe ids w⟩
  obtain ⟨s, hs, rfl⟩ := List.mem_map.mp (List.mem_reverse.mp he)
  have newcomer := List.mem_map_of_mem (f := (·.endpoint)) hs
  rw [endpoint_newSequences, mem_newcomers] at newcomer
  exact ⟨s, rfl, newcomer.1⟩

/-- What can be asked of a prober and of its clock. -/
inductive Act where
  | probe (id : EndpointId)
  | probeNow (id : EndpointId)
  | observe (ids : List EndpointId)
  | forget (id : EndpointId)
  | test (id : EndpointId) (message : String)
  | advance (ms : Nat)
  | await (number : Nat)

def act (p : Prober ε) : Act → World ε → World ε
  | .probe id => p.probe id
  | .probeNow id => p.probeNow id
  | .observe ids => p.observe ids
  | .forget id => p.forget id
  | .test id message => p.test id message
  | .advance ms => p.advance ms
  | .await number => p.await number

theorem act_steps (p : Prober ε) (x : Act) (w : World ε) : ∃ h, p.Steps w h (p.act x w) := by
  cases x with
  | probe id => exact ⟨_, p.probe_steps id w⟩
  | probeNow id =>
    obtain ⟨h, -, steps⟩ := p.probeNow_steps id w
    exact ⟨_, steps⟩
  | observe ids =>
    obtain ⟨h, -, steps⟩ := p.observe_steps ids w
    exact ⟨h, steps⟩
  | forget id => exact ⟨_, .single (.forget id)⟩
  | test id message =>
    obtain ⟨h, -, steps⟩ := p.test_steps id message w
    exact ⟨_, steps⟩
  | advance ms =>
    obtain ⟨h, -, steps⟩ := (p.advance_proceeds ms w).steps
    exact ⟨h, steps⟩
  | await number =>
    obtain ⟨h, -, steps⟩ := (p.await_proceeds number w).steps
    exact ⟨h, steps⟩

theorem run_of_acts (p : Prober ε) (env : ε) (xs : List Act) :
    ∃ h, p.Run h (xs.foldl (fun w x => p.act x w) (.start env)) := by
  suffices ∀ w h, p.Run h w → ∃ h', p.Run h' (xs.foldl (fun w x => p.act x w) w) from
    this _ [] ⟨env, .refl⟩
  induction xs with
  | nil => exact fun w h run => ⟨h, run⟩
  | cons x xs ih =>
    rintro w h ⟨env', steps⟩
    obtain ⟨h', steps'⟩ := p.act_steps x w
    exact ih _ _ ⟨env', steps.trans steps'⟩

/-- A prober whose tester answers every request after a second. -/
def steady : Prober Unit where
  policy := .standard
  tester := fun _ _ _ => (⟨some 1000, .text "pong", []⟩, ())

end EndpointHealth.Prober
