import Mathlib.Data.List.Forall2
import EndpointHealth.Proofs.Prober.Numbering
import EndpointHealth.Proofs.Prober.Timing
set_option autoImplicit false

/-!
A prober beside another one that is asked for less: only for the sequences of some endpoints and the
manual tests of some of these. All endpoints draw their numbers from one counter, so what is kept
has other numbers there, but in the same order.

Main statements: what is kept does the same to both dockets (`Docket.Mirrors.turn`,
`Docket.Mirrors.endTest`), and what is left out does nothing that could be seen in the smaller one
(`Docket.Mirrors.turn_left`, `Docket.Mirrors.endTest_left`).
-/

namespace EndpointHealth.Prober

/-- The endpoints whose sequences are kept, and those whose manual tests are. -/
structure Scope where
  sequences : EndpointId → Bool
  tests : EndpointId → Bool
  tests_le : ∀ id, tests id = true → sequences id = true

/-! ### Numbers -/

/-- Which number of one prober stands for which number of another. -/
abbrev Pairing := Nat → Nat → Prop

namespace Pairing

def add (R : Pairing) (n m : Nat) : Pairing := fun i j => R i j ∨ (i = n ∧ j = m)

/-- Numbers are paired in their order, and have been given out. -/
structure Ordered (R : Pairing) (claimed claimed' : Nat) : Prop where
  lt_iff : ∀ {n m n' m' : Nat}, R n m → R n' m' → (n < n' ↔ m < m')
  le : ∀ {n m : Nat}, R n m → n ≤ claimed ∧ m ≤ claimed'

variable {R : Pairing} {c c' n m n' m' : Nat}

theorem Ordered.eq_iff (h : R.Ordered c c') (hn : R n m) (hn' : R n' m') : n = n' ↔ m = m' := by
  have less := h.lt_iff hn hn'
  have more := h.lt_iff hn' hn
  omega

theorem Ordered.add (h : R.Ordered c c') : (R.add (c + 1) (c' + 1)).Ordered (c + 1) (c' + 1) := by
  constructor
  · rintro n m n' m' (hn | ⟨rfl, rfl⟩) (hn' | ⟨rfl, rfl⟩)
    · exact h.lt_iff hn hn'
    · have := h.le hn
      omega
    · have := h.le hn'
      omega
    · simp
  · rintro n m (hn | ⟨rfl, rfl⟩)
    · have := h.le hn
      omega
    · simp

theorem Ordered.succ (h : R.Ordered c c') : R.Ordered (c + 1) c' :=
  ⟨h.lt_iff, fun hn => ⟨Nat.le_succ_of_le (h.le hn).1, (h.le hn).2⟩⟩

theorem Ordered.not_next (h : R.Ordered c c') (m : Nat) : ¬ R (c + 1) m := fun hn => by
  have := h.le hn
  omega

end Pairing

theorem optionRel_add {R : Pairing} {n m : Nat} {x y : Option Nat} (h : Option.Rel R x y) :
    Option.Rel (R.add n m) x y := by
  cases h with
  | none => exact .none
  | some hi => exact .some (.inl hi)

theorem optionRel_cases {R : Pairing} {x y : Option Nat} (h : Option.Rel R x y) :
    (x = none ∧ y = none) ∨ ∃ i j, x = some i ∧ y = some j ∧ R i j := by
  cases h with
  | none => exact .inl ⟨rfl, rfl⟩
  | some hi => exact .inr ⟨_, _, rfl, rfl, hi⟩

/-! ### Ledgers -/

/-- Two ledgers agree on what is kept. -/
structure Ledger.Mirrors (k : Scope) (R : Pairing) (l l' : Ledger) : Prop where
  ordered : R.Ordered l.claimed l'.claimed
  current : ∀ id, k.sequences id = true → Option.Rel R (l.current.get? id) (l'.current.get? id)
  forgotten : ∀ id, k.tests id = true →
    Option.Rel R (l.forgotten.get? id) (l'.forgotten.get? id)
  status : ∀ id, k.tests id = true → l.status? id = l'.status? id

namespace Ledger.Mirrors

variable {k : Scope} {R : Pairing} {l l' : Ledger} {id : EndpointId} {n m : Nat}

theorem empty (k : Scope) : Ledger.Mirrors k (fun _ _ => False) .empty .empty where
  ordered := ⟨False.elim, False.elim⟩
  current := fun _ _ => .none
  forgotten := fun _ _ => .none
  status := fun _ _ => rfl

theorem isCurrent (h : Ledger.Mirrors k R l l') (kept : k.sequences id = true) (hn : R n m) :
    l.isCurrent id n = l'.isCurrent id m := by
  unfold Ledger.isCurrent
  rcases optionRel_cases (h.current id kept) with ⟨hl, hl'⟩ | ⟨i, j, hl, hl', hi⟩
  · simp [hl, hl']
  · simp [hl, hl', h.ordered.eq_iff hi hn]

theorem forgottenSince (h : Ledger.Mirrors k R l l') (kept : k.tests id = true) (hn : R n m) :
    l.forgottenSince id n = l'.forgottenSince id m := by
  rw [History.forgottenSince_eq, History.forgottenSince_eq]
  rcases optionRel_cases (h.forgotten id kept) with ⟨hl, hl'⟩ | ⟨i, j, hl, hl', hi⟩
  · simp [hl, hl']
  · simp [hl, hl', h.ordered.lt_iff hn hi]

theorem write (h : Ledger.Mirrors k R l l') (id : EndpointId) (s : Status) :
    Ledger.Mirrors k R (l.write id s) (l'.write id s) where
  ordered := h.ordered
  current := h.current
  forgotten := h.forgotten
  status := fun j kept => by
    rw [status_write, status_write, h.status j kept]

theorem write_left (h : Ledger.Mirrors k R l l') (left : k.tests id = false) (s : Status) :
    Ledger.Mirrors k R (l.write id s) l' where
  ordered := h.ordered
  current := h.current
  forgotten := h.forgotten
  status := fun j kept => by
    have other : j ≠ id := by
      rintro rfl
      simp [left] at kept
    rw [status_write, if_neg other, h.status j kept]

theorem finish (h : Ledger.Mirrors k R l l') (kept : k.sequences id = true) (hn : R n m)
    (s : Status) : Ledger.Mirrors k R (l.finish id n s) (l'.finish id m s) := by
  have alike := h.isCurrent kept hn
  by_cases current : l.isCurrent id n = true
  · rw [Ledger.finish_of_current current, Ledger.finish_of_current (alike ▸ current)]
    exact h.write id s
  · rw [Ledger.finish_of_stale current, Ledger.finish_of_stale (alike ▸ current)]
    exact h

theorem finish_left (h : Ledger.Mirrors k R l l') (left : k.tests id = false) (n : Nat)
    (s : Status) : Ledger.Mirrors k R (l.finish id n s) l' := by
  rcases l.finish_cases id n s with same | same
  · rw [same]
    exact h.write_left left s
  · rwa [same]

theorem passTest (h : Ledger.Mirrors k R l l') (kept : k.tests id = true) (hn : R n m) :
    Ledger.Mirrors k R (l.passTest id n) (l'.passTest id m) := by
  have alike := h.forgottenSince kept hn
  by_cases marked : l.forgottenSince id n = true
  · rw [Ledger.passTest_of_forgotten marked, Ledger.passTest_of_forgotten (alike ▸ marked)]
    exact h
  · rw [Ledger.passTest_of_kept marked, Ledger.passTest_of_kept (alike ▸ marked)]
    exact h.write id .success

theorem passTest_left (h : Ledger.Mirrors k R l l') (left : k.tests id = false) (n : Nat) :
    Ledger.Mirrors k R (l.passTest id n) l' := by
  rcases l.passTest_cases id n with same | same
  · rw [same]
    exact h.write_left left .success
  · rwa [same]

theorem claim (h : Ledger.Mirrors k R l l') :
    Ledger.Mirrors k (R.add l.next l'.next) l.claim l'.claim where
  ordered := h.ordered.add
  current := fun j kept => optionRel_add (h.current j kept)
  forgotten := fun j kept => optionRel_add (h.forgotten j kept)
  status := h.status

theorem start (h : Ledger.Mirrors k R l l') (id : EndpointId) :
    Ledger.Mirrors k (R.add l.next l'.next) (l.start id) (l'.start id) where
  ordered := h.ordered.add
  current := fun j kept => by
    simp only [Ledger.start, Table.get_set]
    split
    · exact .some (.inr ⟨rfl, rfl⟩)
    · exact optionRel_add (h.current j kept)
  forgotten := fun j kept => by
    simp only [Ledger.start, Table.get_erase]
    split
    · exact .none
    · exact optionRel_add (h.forgotten j kept)
  status := fun j kept => by rw [status_start, status_start, h.status j kept]

theorem forget (h : Ledger.Mirrors k R l l') (id : EndpointId) :
    Ledger.Mirrors k (R.add l.next l'.next) (l.forget id) (l'.forget id) where
  ordered := h.ordered.add
  current := fun j kept => by
    simp only [Ledger.forget, Table.get_erase]
    split
    · exact .none
    · exact optionRel_add (h.current j kept)
  forgotten := fun j kept => by
    simp only [Ledger.forget, Table.get_set]
    split
    · exact .some (.inr ⟨rfl, rfl⟩)
    · exact optionRel_add (h.forgotten j kept)
  status := fun j kept => by rw [status_forget, status_forget, h.status j kept]

theorem take_left {l₂ : Ledger} (h : Ledger.Mirrors k R l l') (claimed : l₂.claimed = l.next)
    (same : ∀ j, k.sequences j = true → l₂.current.get? j = l.current.get? j ∧
      l₂.forgotten.get? j = l.forgotten.get? j ∧ l₂.status? j = l.status? j) :
    Ledger.Mirrors k R l₂ l' where
  ordered := claimed ▸ h.ordered.succ
  current := fun j kept => by
    rw [(same j kept).1]
    exact h.current j kept
  forgotten := fun j kept => by
    rw [(same j (k.tests_le j kept)).2.1]
    exact h.forgotten j kept
  status := fun j kept => by
    rw [(same j (k.tests_le j kept)).2.2]
    exact h.status j kept

theorem claim_left (h : Ledger.Mirrors k R l l') : Ledger.Mirrors k R l.claim l' :=
  h.take_left rfl fun _ _ => ⟨rfl, rfl, rfl⟩

theorem ne_of_left {j : EndpointId} (left : k.sequences id = false)
    (kept : k.sequences j = true) : j ≠ id := by
  rintro rfl
  simp [left] at kept

theorem start_left (h : Ledger.Mirrors k R l l') (left : k.sequences id = false) :
    Ledger.Mirrors k R (l.start id) l' :=
  h.take_left rfl fun j kept => by
    have other := ne_of_left left kept
    simp [Ledger.start, Ledger.status?, other]

theorem forget_left (h : Ledger.Mirrors k R l l') (left : k.sequences id = false) :
    Ledger.Mirrors k R (l.forget id) l' :=
  h.take_left rfl fun j kept => by
    have other := ne_of_left left kept
    simp [Ledger.forget, Ledger.status?, other]

end Ledger.Mirrors

/-! ### Tasks -/

/-- The task of another sequence or manual test of the endpoint. -/
def Task.withNumber (m : Nat) : Task → Task
  | .attempt s left => .attempt ⟨s.endpoint, m⟩ left
  | .close s left c => .close ⟨s.endpoint, m⟩ left c
  | .conclude t c => .conclude ⟨t.endpoint, m⟩ c

@[simp] theorem number_withNumber (t : Task) (m : Nat) : (t.withNumber m).number = m := by
  cases t <;> rfl

@[simp] theorem withNumber_withNumber (t : Task) (n m : Nat) :
    (t.withNumber n).withNumber m = t.withNumber m := by cases t <;> rfl

def Scope.keeps (k : Scope) : Task → Bool
  | .attempt s _ | .close s _ _ => k.sequences s.endpoint
  | .conclude t _ => k.tests t.endpoint

/-- Two entries differ in their numbers only, which are paired. -/
def Entry.Mirrors (R : Pairing) (e f : Entry) : Prop :=
  f.due = e.due ∧ ∃ m, R e.task.number m ∧ f.task = e.task.withNumber m

theorem filter_schedule {keeps : Entry → Bool} {e : Entry} (kept : keeps e = true)
    {es : List Entry} (inOrder : InOrder es) :
    (schedule e es).filter keeps = schedule e (es.filter keeps) := by
  induction es with
  | nil => simp [schedule, kept]
  | cons f es ih =>
    obtain ⟨first, rest⟩ := List.pairwise_cons.mp inOrder
    have ih := ih rest
    by_cases before : f.due ≤ e.due
    · by_cases hf : keeps f = true
      · simp [schedule, before, hf, ih]
      · simp [schedule, before, hf, ih]
    · rw [schedule, if_neg before]
      -- Nothing that follows is due before the new entry.
      have last : schedule e ((f :: es).filter keeps) = e :: (f :: es).filter keeps := by
        cases hes : (f :: es).filter keeps with
        | nil => rfl
        | cons g gs =>
          have hg : g ∈ f :: es := List.mem_of_mem_filter (hes ▸ List.mem_cons_self ..)
          rw [schedule, if_neg]
          rcases List.mem_cons.mp hg with rfl | hg
          · exact before
          · have := first g hg
            omega
      rw [List.filter_cons_of_pos kept, last]

theorem filter_schedule_left {keeps : Entry → Bool} {e : Entry} (left : keeps e = false)
    (es : List Entry) : (schedule e es).filter keeps = es.filter keeps := by
  obtain ⟨a, b, hsplit, rfl⟩ := schedule_split e es
  simp [hsplit, left]

theorem forall₂_schedule {R : Pairing} {e f : Entry} {es fs : List Entry} (h : e.Mirrors R f)
    (hs : List.Forall₂ (Entry.Mirrors R) es fs) :
    List.Forall₂ (Entry.Mirrors R) (schedule e es) (schedule f fs) := by
  induction hs with
  | nil => exact .cons h .nil
  | cons hfirst hrest ih =>
    unfold schedule
    rw [h.1, hfirst.1]
    split
    · exact .cons hfirst ih
    · exact .cons h (.cons hfirst hrest)

/-! ### Dockets -/

namespace Docket

/-- When the sequence or manual test of a number ended, and what it came to. -/
def came? (d : Docket) (number : Nat) : Option (Nat × Result) :=
  (d.ended.find? (·.number = number)).map fun x => (x.time, x.result)

/-- What the sequence or manual test of a number is going to do next, whatever the number. -/
def ahead (d : Docket) (number : Nat) : List Entry :=
  (d.agenda.filter (·.task.number = number)).map fun e => ⟨e.due, e.task.withNumber 0⟩

/-- The second docket is what the first one is without that which is left out. Its clock may be
behind. -/
structure Mirrors (k : Scope) (R : Pairing) (d d' : Docket) : Prop where
  ledger : d.ledger.Mirrors k R d'.ledger
  agenda : List.Forall₂ (Entry.Mirrors R) (d.agenda.filter (k.keeps ·.task)) d'.agenda
  left : ∀ e ∈ d.agenda, k.keeps e.task = false → ∀ m, ¬ R e.task.number m
  came : ∀ n m, R n m → d.came? n = d'.came? m
  timely : d.Timely
  behind : d'.now ≤ d.now

variable {k : Scope} {R : Pairing} {d d' : Docket} {n m : Nat}

theorem came_conclude (d : Docket) (number n : Nat) (r : Result) :
    (d.conclude number r).came? n =
      (d.came? n).or (if number = n then some (d.now, r) else none) := by
  unfold came? conclude
  rw [List.find?_append]
  by_cases h : number = n
  · cases d.ended.find? (·.number = n) <;> simp [h]
  · cases d.ended.find? (·.number = n) <;> simp [h]

theorem came_next (numbered : d.Numbered) : d.came? d.ledger.next = none := by
  unfold came?
  rw [Option.map_eq_none_iff, List.find?_eq_none]
  intro x hx same
  have given := numbered.le _ (number_mem_ended hx)
  have next : x.number = d.ledger.claimed + 1 := of_decide_eq_true same
  omega

namespace Mirrors

theorem withLedger {l l' : Ledger} (h : Mirrors k R d d') (hl : l.Mirrors k R l') :
    Mirrors k R { d with ledger := l } { d' with ledger := l' } :=
  ⟨hl, h.agenda, h.left, h.came, ⟨h.timely.inOrder, h.timely.due⟩, h.behind⟩

theorem withPair {l l' : Ledger} (h : Mirrors k R d d') (numbered : d.Numbered)
    (numbered' : d'.Numbered)
    (hl : l.Mirrors k (R.add d.ledger.next d'.ledger.next) l') :
    Mirrors k (R.add d.ledger.next d'.ledger.next) { d with ledger := l }
      { d' with ledger := l' } where
  ledger := hl
  agenda := h.agenda.imp fun e f ⟨due, i, hi, task⟩ => ⟨due, i, .inl hi, task⟩
  left := fun e he left m hm => by
    have given := numbered.le _ (number_mem_agenda he)
    rcases hm with hm | ⟨hnext, -⟩
    · exact h.left e he left m hm
    · rw [hnext, Ledger.next] at given
      omega
  came := fun n m hn => by
    rcases hn with hn | ⟨rfl, rfl⟩
    · exact h.came n m hn
    · show d.came? _ = d'.came? _
      rw [came_next numbered, came_next numbered']
  timely := ⟨h.timely.inOrder, h.timely.due⟩
  behind := h.behind

theorem wait {t : Task} (h : Mirrors k R d d') (now : d'.now = d.now) (kept : k.keeps t = true)
    (hn : R t.number m) (delay : Nat) :
    Mirrors k R (d.wait delay t) (d'.wait delay (t.withNumber m)) where
  ledger := h.ledger
  agenda := by
    unfold Docket.wait
    dsimp only
    rw [filter_schedule kept h.timely.inOrder, now]
    exact forall₂_schedule ⟨rfl, m, hn, rfl⟩ h.agenda
  left := fun e he left => by
    rcases mem_schedule.mp he with rfl | he
    · simp [kept] at left
    · exact h.left e he left
  came := h.came
  timely := h.timely.wait delay t
  behind := h.behind

theorem wait_left {t : Task} (h : Mirrors k R d d') (left : k.keeps t = false)
    (unpaired : ∀ m, ¬ R t.number m) (delay : Nat) : Mirrors k R (d.wait delay t) d' where
  ledger := h.ledger
  agenda := by
    unfold Docket.wait
    dsimp only
    rw [filter_schedule_left left]
    exact h.agenda
  left := fun e he left => by
    rcases mem_schedule.mp he with rfl | he
    · exact unpaired
    · exact h.left e he left
  came := h.came
  timely := h.timely.wait delay t
  behind := h.behind

theorem conclude (h : Mirrors k R d d') (now : d'.now = d.now) (hn : R n m) (r : Result) :
    Mirrors k R (d.conclude n r) (d'.conclude m r) where
  ledger := h.ledger
  agenda := h.agenda
  left := h.left
  came := fun i j hi => by
    rw [came_conclude, came_conclude, h.came i j hi, now]
    simp only [h.ledger.ordered.eq_iff hn hi]
  timely := ⟨h.timely.inOrder, h.timely.due⟩
  behind := h.behind

theorem conclude_left (h : Mirrors k R d d') (unpaired : ∀ m, ¬ R n m) (r : Result) :
    Mirrors k R (d.conclude n r) d' where
  ledger := h.ledger
  agenda := h.agenda
  left := h.left
  came := fun i j hi => by
    have other : n ≠ i := by
      rintro rfl
      exact unpaired j hi
    rw [came_conclude, if_neg other, Option.or_none]
    exact h.came i j hi
  timely := ⟨h.timely.inOrder, h.timely.due⟩
  behind := h.behind

theorem clock {time : Nat} (h : Mirrors k R d d') (due : ∀ e ∈ d.agenda, time ≤ e.due) :
    Mirrors k R { d with now := time } { d' with now := time } :=
  ⟨h.ledger, h.agenda, h.left, h.came, ⟨h.timely.inOrder, due⟩, Nat.le_refl _⟩

theorem ahead (h : Mirrors k R d d') (hn : R n m) : d.ahead n = d'.ahead m := by
  -- What is left out has no paired number, so the number alone says that an entry is kept.
  have own : d.agenda.filter (·.task.number = n) =
      (d.agenda.filter (k.keeps ·.task)).filter (·.task.number = n) := by
    rw [List.filter_filter]
    refine List.filter_congr fun e he => ?_
    cases left : k.keeps e.task with
    | true => simp
    | false =>
      have other : e.task.number ≠ n := fun same => h.left e he left m (same ▸ hn)
      simp [other]
  unfold Docket.ahead
  rw [own]
  have ordered := h.ledger.ordered
  have agenda := h.agenda
  generalize d.agenda.filter (k.keeps ·.task) = es at agenda ⊢
  generalize d'.agenda = fs at agenda ⊢
  clear own h
  induction agenda with
  | nil => rfl
  | cons first _ ih =>
    rename_i e f _ _ _
    obtain ⟨due, i, hi, task⟩ := first
    have same : decide (e.task.number = n) = decide (f.task.number = m) := by
      rw [task, number_withNumber, decide_eq_decide]
      exact ordered.eq_iff hi hn
    rw [List.filter_cons, List.filter_cons, same]
    split
    · simp [due, task, ih]
    · exact ih

/-! ### What comes of tasks -/

theorem turn {s : Sequence} (h : Mirrors k R d d') (now : d'.now = d.now)
    (kept : k.sequences s.endpoint = true) (hn : R s.number m) (x : Turn) :
    Mirrors k R (d.turn s x) (d'.turn ⟨s.endpoint, m⟩ x) := by
  cases x with
  | done outcome => exact (h.withLedger (h.ledger.finish kept hn outcome)).conclude now hn _
  | broken => exact h.conclude now hn _
  | retries delay left => exact h.wait (t := .attempt s left) now kept hn delay
  | waits left c => exact h.wait (t := .close s left c) now kept hn c.lasts

theorem turn_left {s : Sequence} (h : Mirrors k R d d') (left : k.sequences s.endpoint = false)
    (unpaired : ∀ m, ¬ R s.number m) (x : Turn) : Mirrors k R (d.turn s x) d' := by
  have untested : k.tests s.endpoint = false := by
    cases htests : k.tests s.endpoint with
    | false => rfl
    | true => simp [k.tests_le _ htests] at left
  cases x with
  | done outcome =>
    exact (h.withLedger (h.ledger.finish_left untested _ outcome)).conclude_left unpaired _
  | broken => exact h.conclude_left unpaired _
  | retries delay n => exact h.wait_left (t := .attempt s n) left unpaired delay
  | waits n c => exact h.wait_left (t := .close s n c) left unpaired c.lasts

theorem endTest {t : ManualTest} (h : Mirrors k R d d') (now : d'.now = d.now)
    (kept : k.tests t.endpoint = true) (hn : R t.number m) (c : Course) :
    Mirrors k R (d.endTest t c) (d'.endTest ⟨t.endpoint, m⟩ c) := by
  unfold Docket.endTest
  split
  · exact (h.withLedger (h.ledger.passTest kept hn)).conclude now hn _
  · exact h.conclude now hn _

theorem endTest_left {t : ManualTest} (h : Mirrors k R d d') (left : k.tests t.endpoint = false)
    (unpaired : ∀ m, ¬ R t.number m) (c : Course) : Mirrors k R (d.endTest t c) d' := by
  unfold Docket.endTest
  split
  · exact (h.withLedger (h.ledger.passTest_left left _)).conclude_left unpaired _
  · exact h.conclude_left unpaired _

theorem undertake {t : ManualTest} (h : Mirrors k R d d') (now : d'.now = d.now)
    (kept : k.tests t.endpoint = true) (hn : R t.number m) (c : Course) :
    Mirrors k R (d.undertake t c) (d'.undertake ⟨t.endpoint, m⟩ c) := by
  unfold Docket.undertake
  split
  · exact h.endTest now kept hn c
  · exact h.wait (t := .conclude t c) now kept hn c.lasts

theorem undertake_left {t : ManualTest} (h : Mirrors k R d d') (left : k.tests t.endpoint = false)
    (unpaired : ∀ m, ¬ R t.number m) (c : Course) : Mirrors k R (d.undertake t c) d' := by
  unfold Docket.undertake
  split
  · exact h.endTest_left left unpaired c
  · exact h.wait_left (t := .conclude t c) left unpaired c.lasts

/-! ### Taking tasks from the agenda -/

theorem pop {e : Entry} {rest : List Entry} (h : Mirrors k R d d') (hd : d.agenda = e :: rest)
    (kept : k.keeps e.task = true) :
    ∃ f rest', d'.agenda = f :: rest' ∧ e.Mirrors R f ∧
      Mirrors k R (d.pop e rest) (d'.pop f rest') ∧ (d'.pop f rest').now = (d.pop e rest).now := by
  have agenda := h.agenda
  rw [hd, List.filter_cons, if_pos kept] at agenda
  cases hd' : d'.agenda with
  | nil =>
    rw [hd'] at agenda
    cases agenda
  | cons f rest' =>
    rw [hd'] at agenda
    obtain ⟨hf, hrest⟩ := List.forall₂_cons.mp agenda
    obtain ⟨timely, now⟩ := h.timely.pop hd
    have now' : (d'.pop f rest').now = (d.pop e rest).now := by
      have before := h.timely.due e (by simp [hd])
      have behind := h.behind
      show max d'.now f.due = max d.now e.due
      rw [hf.1]
      omega
    refine ⟨f, rest', rfl, hf, ⟨h.ledger, hrest, fun g hg => ?_, h.came, timely, ?_⟩, now'⟩
    · exact h.left g (by simp only [hd]; exact List.mem_cons_of_mem _ hg)
    · exact Nat.le_of_eq now'

theorem pop_left {e : Entry} {rest : List Entry} (h : Mirrors k R d d')
    (hd : d.agenda = e :: rest) (left : k.keeps e.task = false) :
    Mirrors k R (d.pop e rest) d' ∧ ∀ m, ¬ R e.task.number m := by
  have agenda := h.agenda
  rw [hd, List.filter_cons, if_neg (by simp [left])] at agenda
  refine ⟨⟨h.ledger, agenda, fun g hg => ?_, h.came, (h.timely.pop hd).1, ?_⟩, ?_⟩
  · exact h.left g (by simp only [hd]; exact List.mem_cons_of_mem _ hg)
  · exact Nat.le_trans h.behind (Nat.le_max_left _ _)
  · exact h.left e (by simp [hd]) left

end Mirrors
end Docket
end EndpointHealth.Prober
