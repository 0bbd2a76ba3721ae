import EndpointHealth.Proofs.Prober.Numbering
set_option autoImplicit false

/-!
Who holds which number. A number is held by the endpoint whose newest sequence has it, by the
endpoint that is marked with it, and by the sequence or manual test under way that has taken it.

Each of them holds the number that was taken at one event of the history (`taken_of_holds`), and no
number is taken at two events (`split_unique`). Main statement: at any time of any run, no endpoint
is both marked and with a newest sequence, no two hold the same number but an endpoint and the
newest sequence of it, an endpoint with a pending status has a newest sequence, and the mark of
an endpoint exceeds the number of a manual test under way exactly if the endpoint was forgotten
after the test had begun (`sound_of_run`).
-/

namespace EndpointHealth.Prober

open History

variable {ε : Type}

def Event.takes : Event → Bool
  | .begun _ | .forgotten _ | .testBegun _ => true
  | .ended _ _ | .broken _ | .testPassed _ | .testFailed _ => false

namespace History

theorem possible_split {h later earlier : History} {e : Event} (possible : Possible h)
    (split : h = later ++ e :: earlier) : Fits earlier e ∧ Possible earlier := by
  rw [split] at possible
  exact possible_of_append possible

theorem claimed_le_append (later earlier : History) :
    (ledger earlier).claimed ≤ (ledger (later ++ earlier)).claimed := by
  induction later with
  | nil => exact Nat.le_refl _
  | cons e later ih => exact Nat.le_trans ih (claimed_le_after _ e)

theorem claimed_of_takes {e : Event} (takes : e.takes = true) (h : History) :
    (ledger (e :: h)).claimed = (ledger h).next := by
  cases e with
  | begun s => rfl
  | forgotten id => rfl
  | testBegun t => rfl
  | _ => cases takes

theorem next_le_of_split {h later earlier : History} {e : Event} (takes : e.takes = true)
    (split : h = later ++ e :: earlier) : (ledger earlier).next ≤ (ledger h).claimed := by
  rw [split, ← claimed_of_takes takes]
  exact claimed_le_append later (e :: earlier)

theorem split_unique {later later' earlier earlier' : History} {e e' : Event}
    (split : later ++ e :: earlier = later' ++ e' :: earlier') (takes : e.takes = true)
    (takes' : e'.takes = true) (same : (ledger earlier).next = (ledger earlier').next) :
    e = e' ∧ earlier = earlier' := by
  -- Of two events the later one takes a greater number.
  have older : ∀ {a b c : History} {f g : Event}, g.takes = true →
      (ledger b).next = (ledger c).next → f :: b = a ++ g :: c → a = [] := by
    intro a b c f g takes same split
    cases a with
    | nil => rfl
    | cons f' a =>
      have later := next_le_of_split takes (List.cons.inj split).2
      exact absurd (same ▸ later) (Nat.not_succ_le_self _)
  rcases List.append_eq_append_iff.mp split with ⟨a, -, behind⟩ | ⟨a, -, behind⟩
  · cases older takes' same behind
    exact List.cons.inj behind
  · cases older takes same.symm behind
    exact (List.cons.inj behind).imp Eq.symm Eq.symm

/-! ### Marks -/

theorem mark_cons (id : EndpointId) (e : Event) (h : History) :
    (ledger (e :: h)).forgotten.get? id = if e.renews id
      then (if e = .forgotten id then some (ledger h).next else none)
      else (ledger h).forgotten.get? id := by
  cases e with
  | begun s =>
    by_cases hs : s.endpoint = id
    · simp [ledger, Ledger.after, Ledger.start, Event.renews, hs]
    · simp [ledger, Ledger.after, Ledger.start, Event.renews, hs, Ne.symm hs]
  | forgotten i =>
    by_cases hi : i = id
    · simp [ledger, Ledger.after, Ledger.forget, Event.renews, hi]
    · simp [ledger, Ledger.after, Ledger.forget, Event.renews, hi, Ne.symm hi]
  | _ => simp [ledger, Ledger.after, Ledger.claim, Event.renews]

/-- The mark of an endpoint is the number that was taken when it was forgotten last, if no sequence
of it has been begun since. -/
theorem mark_iff (h : History) {id : EndpointId} {m : Nat} :
    (ledger h).forgotten.get? id = some m ↔ ∃ later earlier, h = later ++ .forgotten id :: earlier ∧
      (∀ e ∈ later, e.renews id = false) ∧ m = (ledger earlier).next := by
  induction h with
  | nil => simp [ledger, Ledger.empty]
  | cons e h ih =>
    rw [mark_cons]
    by_cases renews : e.renews id = true
    · rw [if_pos renews]
      constructor
      · intro mark
        obtain ⟨rfl, taken⟩ := Option.ite_none_right_eq_some.mp mark
        exact ⟨[], h, rfl, by simp, (Option.some.inj taken).symm⟩
      · rintro ⟨later, earlier, split, quiet, rfl⟩
        cases later with
        | nil =>
          cases split
          exact if_pos rfl
        | cons f later =>
          cases split
          exact absurd renews (by simp [quiet])
    · rw [if_neg renews, ih]
      constructor
      · rintro ⟨later, earlier, rfl, quiet, taken⟩
        exact ⟨e :: later, earlier, rfl, by simpa [renews] using quiet, taken⟩
      · rintro ⟨later, earlier, split, quiet, taken⟩
        cases later with
        | nil =>
          cases split
          simp [Event.renews] at renews
        | cons f later =>
          cases split
          exact ⟨later, earlier, rfl, fun g hg => quiet g (List.mem_cons_of_mem _ hg), taken⟩

theorem newest_of_mark {h : History} {id : EndpointId} {m : Nat}
    (mark : (ledger h).forgotten.get? id = some m) : newest? id h = some (.forgotten id) := by
  obtain ⟨later, earlier, split, quiet, -⟩ := (mark_iff h).mp mark
  exact newest_eq_some_iff.mpr ⟨by simp [Event.renews], later, earlier, split, quiet⟩

/-- A test of a marked endpoint is withdrawn exactly if the endpoint has been forgotten at all since
the test began: whenever that was, the mark is from then or from later. -/
theorem withdrawn_marked_iff {h : History} {t : ManualTest} {m : Nat}
    (mark : (ledger h).forgotten.get? t.endpoint = some m) :
    withdrawn t h = true ↔ ∃ later earlier, h = later ++ .forgotten t.endpoint :: earlier ∧
      .testBegun t ∈ earlier := by
  constructor
  · intro gone
    obtain ⟨later, earlier, split, begun, -⟩ := withdrawn_iff.mp gone
    exact ⟨later, earlier, split, begun⟩
  · rintro ⟨later, earlier, split, begun⟩
    induction h generalizing later with
    | nil => simp at split
    | cons e h ih =>
      rw [mark_cons] at mark
      rw [withdrawn_cons]
      by_cases renews : e.renews t.endpoint = true
      · rw [if_pos renews] at mark ⊢
        -- The mark is from this event, so the test need only have begun before it.
        have last := (Option.ite_none_right_eq_some.mp mark).1
        refine decide_eq_true ⟨last, ?_⟩
        cases later with
        | nil =>
          cases split
          exact begun
        | cons f later =>
          cases split
          exact List.mem_append_right _ (List.mem_cons_of_mem _ begun)
      · rw [if_neg renews] at mark ⊢
        cases later with
        | nil =>
          cases split
          simp [Event.renews] at renews
        | cons f later =>
          cases split
          exact ih mark later rfl

theorem newest_of_pending {h : History} (possible : Possible h) {id : EndpointId}
    (pending : status? id h = some .pending) : ∃ s, newest? id h = some (.begun s) := by
  induction h with
  | nil => cases pending
  | cons e h ih =>
    obtain ⟨fits, possible⟩ := possible
    rw [status_cons] at pending
    cases he : effect? id h e with
    | none =>
      rw [he] at pending
      rw [newest_cons, if_neg (by simp [renews_of_effect_none he])]
      exact ih possible pending
    | some status =>
      rw [he] at pending
      cases pending
      cases e with
      | begun s =>
        simp only [effect?, Option.ite_none_right_eq_some] at he
        exact ⟨s, by simp [newest_cons, Event.renews, he.1]⟩
      | ended s outcome =>
        simp only [effect?, Option.ite_none_right_eq_some, Option.some.injEq] at he
        exact absurd he.2 fits.2
      | _ => simp [effect?] at he

end History

/-! ### Holders -/

/-- Who can hold a number. -/
inductive Holder where
  /-- An endpoint, of its newest sequence. -/
  | current (id : EndpointId)
  /-- An endpoint, as its mark. -/
  | mark (id : EndpointId)
  | sequence (s : Sequence)
  | test (t : ManualTest)
  deriving DecidableEq, Repr

/-- Who holds a number at a time. -/
inductive World.Holds (w : World ε) : Holder → Nat → Prop
  | current {id : EndpointId} {n : Nat} (h : w.ledger.current.get? id = some n) :
      w.Holds (.current id) n
  | mark {id : EndpointId} {n : Nat} (h : w.ledger.forgotten.get? id = some n) :
      w.Holds (.mark id) n
  | sequence {s : Sequence} (h : s ∈ w.sequences) : w.Holds (.sequence s) s.number
  | test {t : ManualTest} (h : t ∈ w.tests) : w.Holds (.test t) t.number

/-- The event at which a holder's number was taken. -/
def Holder.event (n : Nat) : Holder → Event
  | .current id => .begun ⟨id, n⟩
  | .mark id => .forgotten id
  | .sequence s => .begun s
  | .test t => .testBegun t

theorem Holder.takes_event (x : Holder) (n : Nat) : (x.event n).takes = true := by
  cases x <;> rfl

/-- What a prober keeps of its sequences and tests is sound, at the end of a history. -/
structure World.Sound (w : World ε) (h : History) : Prop where
  /-- No endpoint has a newest sequence and a mark. -/
  disjoint : ∀ id, (w.ledger.current.get? id).isSome = true → w.ledger.forgotten.get? id = none
  given : ∀ x n, w.Holds x n → n ≤ w.ledger.claimed
  /-- A number has one holder, but for an endpoint and the newest sequence of it. -/
  apart : ∀ x y n, w.Holds x n → w.Holds y n → x ≠ y → ∃ s : Sequence, s.number = n ∧
    (x = .current s.endpoint ∧ y = .sequence s ∨ x = .sequence s ∧ y = .current s.endpoint) ∧
    newest? s.endpoint h = some (.begun s)
  /-- Nothing is under way twice. -/
  once : (w.agenda.map (·.task.number)).Nodup
  pending : ∀ id, w.status? id = some .pending → (w.ledger.current.get? id).isSome = true
  marks : ∀ t ∈ w.tests, ∀ m, w.ledger.forgotten.get? t.endpoint = some m →
    (t.number < m ↔ ∃ later earlier, h = later ++ .forgotten t.endpoint :: earlier ∧
      .testBegun t ∈ earlier)

section
variable {p : Prober ε} {h : History} {w : World ε} (run : p.Run h w)
include run

theorem taken_of_holds {x : Holder} {n : Nat} (holds : w.Holds x n) :
    ∃ later earlier, h = later ++ x.event n :: earlier ∧ n = (History.ledger earlier).next := by
  have tracks := tracks_of_run run
  have begun : ∀ {e : Event}, e ∈ h → e.number? = some n →
      ∃ later earlier, h = later ++ e :: earlier ∧ n = (History.ledger earlier).next := by
    intro e he number
    obtain ⟨later, earlier, split⟩ := List.append_of_mem he
    have fits := (History.possible_split tracks.possible split).1
    exact ⟨later, earlier, split, number_eq_next fits number⟩
  cases holds with
  | current current =>
    rw [tracks.ledger, current_iff tracks.possible] at current
    exact begun (List.mem_of_find?_eq_some current) rfl
  | mark mark =>
    rw [tracks.ledger] at mark
    obtain ⟨later, earlier, split, -, taken⟩ := (mark_iff h).mp mark
    exact ⟨later, earlier, split, taken⟩
  | sequence hs => exact begun (begun_of_mem_sequences (tracks.sequences.mem_iff.mp hs)) rfl
  | test ht => exact begun (testBegun_of_mem_tests (tracks.tests.mem_iff.mp ht)) rfl

theorem same_event_of_holds {x y : Holder} {n : Nat} (hx : w.Holds x n) (hy : w.Holds y n) :
    x.event n = y.event n := by
  obtain ⟨later, earlier, split, taken⟩ := taken_of_holds run hx
  obtain ⟨later', earlier', split', taken'⟩ := taken_of_holds run hy
  exact (split_unique (split.symm.trans split') (x.takes_event n) (y.takes_event n)
    (taken.symm.trans taken')).1

theorem newest_of_current {s : Sequence}
    (current : w.Holds (.current s.endpoint) s.number) :
    newest? s.endpoint h = some (.begun s) := by
  have tracks := tracks_of_run run
  cases current with
  | current current =>
    rw [tracks.ledger] at current
    exact (current_iff tracks.possible).mp current

theorem apart_of_holds {x y : Holder} {n : Nat} (hx : w.Holds x n) (hy : w.Holds y n)
    (ne : x ≠ y) : ∃ s : Sequence, s.number = n ∧
      (x = .current s.endpoint ∧ y = .sequence s ∨ x = .sequence s ∧ y = .current s.endpoint) ∧
      newest? s.endpoint h = some (.begun s) := by
  have same := same_event_of_holds run hx hy
  cases x <;> cases y <;> cases same
  case current.sequence => exact ⟨_, rfl, .inl ⟨rfl, rfl⟩, newest_of_current run hx⟩
  case sequence.current => exact ⟨_, rfl, .inr ⟨rfl, rfl⟩, newest_of_current run hy⟩
  all_goals exact absurd rfl ne

/-- What is kept of sequences and tests is sound at any time. -/
theorem sound_of_run : w.Sound h := by
  have tracks := tracks_of_run run
  have newest : ∀ {id : EndpointId}, (w.ledger.current.get? id).isSome = true ↔
      ∃ n, newest? id h = some (.begun ⟨id, n⟩) := fun {id} => by
    rw [tracks.ledger, Option.isSome_iff_exists]
    exact exists_congr fun n => current_iff tracks.possible
  constructor
  case disjoint =>
    intro id current
    obtain ⟨n, begun⟩ := newest.mp current
    -- A mark is from a forgetting, but the newest renewal is the beginning of a sequence.
    refine Option.eq_none_iff_forall_not_mem.mpr fun m mark => ?_
    rw [tracks.ledger] at mark
    rw [newest_of_mark mark] at begun
    cases begun
  case given =>
    intro x n holds
    obtain ⟨later, earlier, split, taken⟩ := taken_of_holds run holds
    rw [taken, tracks.ledger]
    exact next_le_of_split (x.takes_event n) split
  case apart => exact fun x y n hx hy ne => apart_of_holds run hx hy ne
  case once => exact (List.nodup_append.mp (numbered_of_run run).nodup).1
  case pending =>
    intro id pending
    rw [status_of_run run] at pending
    obtain ⟨s, begun⟩ := newest_of_pending tracks.possible pending
    have same : s.endpoint = id := by simpa [Event.renews] using (newest_eq_some_iff.mp begun).1
    subst same
    exact newest.mpr ⟨s.number, begun⟩
  case marks =>
    intro t ht m mark
    rw [tracks.ledger] at mark
    have since := forgottenSince_iff tracks.possible (tracks.tests.mem_iff.mp ht)
    rw [forgottenSince_eq, mark] at since
    rw [← withdrawn_marked_iff mark, ← since]
    simp

end

/-- A test is under way whose endpoint has been forgotten, and a sequence of another one. -/
theorem sound_of_run_forgotten :
    let w := steady.probe "b" (steady.forget "a" (steady.launchTest "a" "hi" (.start ())))
    w.Sound [.begun ⟨"b", 3⟩, .forgotten "a", .testBegun ⟨"a", 1⟩] ∧
    w.Holds (.test ⟨"a", 1⟩) 1 ∧ w.Holds (.mark "a") 2 ∧
    w.Holds (.current "b") 3 ∧ w.Holds (.sequence ⟨"b", 3⟩) 3 := by
  have run : steady.Run [.begun ⟨"b", 3⟩, .forgotten "a", .testBegun ⟨"a", 1⟩]
      (steady.probe "b" (steady.forget "a" (steady.launchTest "a" "hi" (.start ())))) :=
    ⟨(), ((Steps.single (.beginTest "a" "hi")).step (.forget "a")).step (.begin "b")⟩
  exact ⟨sound_of_run run, .test (t := ⟨"a", 1⟩) (by decide), .mark (by decide),
    .current (by decide), .sequence (s := ⟨"b", 3⟩) (by decide)⟩

end EndpointHealth.Prober
