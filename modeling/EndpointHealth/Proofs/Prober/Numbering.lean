import EndpointHealth.Proofs.Prober.Turns
set_option autoImplicit false

/-!
The numbers of sequences and manual tests. Each is either on the agenda or has ended, and only once.

Main statement: the numbers in a docket are those that have been taken so far (`numbers_of_run`), so
no two of them are the same and the next one is new (`numbered_of_run`).
-/

namespace EndpointHealth.Prober

open History

variable {ε : Type}

def Task.number : Task → Nat
  | .attempt s _ | .close s _ _ => s.number
  | .conclude t _ => t.number

namespace Docket

/-- The numbers of what is under way, and of what has ended. -/
def numbers (d : Docket) : List Nat :=
  d.agenda.map (·.task.number) ++ d.ended.map (·.number)

theorem numbers_wait (d : Docket) (delay : Nat) (t : Task) :
    (d.wait delay t).numbers.Perm (t.number :: d.numbers) := by
  obtain ⟨a, b, hsplit, hab⟩ := schedule_split ⟨d.now + delay, t⟩ d.agenda
  have perm : (d.wait delay t).agenda.Perm (⟨d.now + delay, t⟩ :: d.agenda) := by
    show (schedule _ _).Perm _
    rw [hsplit, ← hab]
    exact List.perm_middle
  exact (perm.map _).append_right _

theorem numbers_conclude (d : Docket) (number : Nat) (r : Result) :
    (d.conclude number r).numbers.Perm (number :: d.numbers) := by
  unfold numbers conclude
  simp only [List.map_append, List.map_cons, List.map_nil, ← List.append_assoc]
  exact List.perm_append_singleton number _

theorem numbers_turn (d : Docket) (s : Sequence) (x : Turn) :
    (d.turn s x).numbers.Perm (s.number :: d.numbers) := by
  cases x with
  | done outcome => exact numbers_conclude _ _ _
  | broken => exact numbers_conclude d _ _
  | retries delay left => exact numbers_wait d _ (.attempt s left)
  | waits left c => exact numbers_wait d _ (.close s left c)

theorem numbers_endTest (d : Docket) (t : ManualTest) (c : Course) :
    (d.endTest t c).numbers.Perm (t.number :: d.numbers) := numbers_conclude _ _ _

theorem number_mem_agenda {d : Docket} {e : Entry} (he : e ∈ d.agenda) :
    e.task.number ∈ d.numbers := List.mem_append_left _ (List.mem_map_of_mem he)

theorem number_mem_ended {d : Docket} {x : Ended} (hx : x ∈ d.ended) : x.number ∈ d.numbers :=
  List.mem_append_right _ (List.mem_map_of_mem hx)

theorem numbers_taken {d : Docket} {a b : List Entry} {e : Entry} (h : d.agenda = a ++ e :: b) :
    d.numbers.Perm (e.task.number :: { d with agenda := a ++ b }.numbers) := by
  unfold numbers
  simp only [h, List.map_append, List.map_cons, List.append_assoc, List.cons_append]
  exact List.perm_middle

/-- No number is in two places, and all have been given out. -/
structure Numbered (d : Docket) : Prop where
  nodup : d.numbers.Nodup
  le : ∀ n ∈ d.numbers, n ≤ d.ledger.claimed

theorem Numbered.ne {d : Docket} (numbered : d.Numbered) {e : Entry} {x : Ended}
    (he : e ∈ d.agenda) (hx : x ∈ d.ended) : e.task.number ≠ x.number := by
  obtain ⟨-, -, disjoint⟩ := List.nodup_append.mp numbered.nodup
  exact disjoint _ (List.mem_map_of_mem he) _ (List.mem_map_of_mem hx)

end Docket

theorem settle_docket (p : Prober ε) (s : Sequence) (left : Nat) (c : Course) (w : World ε) :
    ∃ x, (p.settle s left c w).docket = w.docket.turn s x := by
  have again : ∀ v : World ε, SameTurn p p s (fun v => v.wait 0 (.attempt s (left - 1)))
      (fun s' v => v.wait 0 (.attempt s' (left - 1))) v := fun v =>
    sameTurn_silent (.retries 0 (left - 1)) ⟨by simp [World.wait], rfl⟩ rfl fun s' v =>
      ⟨⟨by simp [World.wait], rfl⟩, rfl⟩
  obtain ⟨cs, x, -, -, hx, -⟩ := closeWith_turn (q := p) rfl left (fun _ => again) c w
  exact ⟨x, hx⟩

theorem numbers_step {p : Prober ε} {w v : World ε} {e : Option Event} (step : p.Step w e v) :
    v.docket.numbers.Perm ((e.bind Event.number?).toList ++ w.docket.numbers) := by
  have silent : ∀ {e : Event}, e.isEnd = true → e.number? = none := fun {e} ends => by
    cases e <;> first | rfl | cases ends
  cases step with
  | work work =>
    have quiet : (e.bind Event.number?).toList = [] := by
      cases e with
      | none => rfl
      | some e => simp [silent (isEnd_of_work work)]
    rw [quiet, List.nil_append]
    cases work with
    | tick time => exact .refl _
    | attempt h =>
      rename_i a b due s left
      refine .trans ?_ (Docket.numbers_taken (d := w.docket) h).symm
      exact Docket.numbers_wait { w.docket with agenda := a ++ b } _ (.close s left _)
    | close h =>
      rename_i a b due s left c
      refine .trans ?_ (Docket.numbers_taken (d := w.docket) h).symm
      obtain ⟨x, hx⟩ := settle_docket p s left c { w with agenda := a ++ b }
      rw [hx]
      exact Docket.numbers_turn _ s x
    | conclude h =>
      rename_i a b due t c
      refine .trans ?_ (Docket.numbers_taken (d := w.docket) h).symm
      rw [(p.closeTest_docket t c { w with agenda := a ++ b }).1]
      exact Docket.numbers_endTest _ t c
  | aside env notices => exact .refl _
  | begin id => exact Docket.numbers_wait { w.docket with ledger := w.ledger.start id } _ _
  | forget id => exact .refl _
  | beginTest id message =>
    exact Docket.numbers_wait { w.docket with ledger := w.ledger.claim } _ (.conclude _ _)

theorem numbers_of_proceeds {p : Prober ε} {w v : World ε} (proceeds : p.Proceeds w v) :
    ∀ n ∈ w.docket.numbers, n ∈ v.docket.numbers := by
  induction proceeds with
  | refl => exact fun _ hn => hn
  | work _ next ih =>
    exact fun n hn => (numbers_step (.work next)).mem_iff.mpr (List.mem_append_right _ (ih n hn))

theorem numbers_of_run {p : Prober ε} {h : History} {w : World ε} (run : p.Run h w) :
    w.docket.numbers.Perm (h.filterMap Event.number?) := by
  obtain ⟨env, steps⟩ := run
  induction steps with
  | refl => exact .refl _
  | step _ next ih =>
    rename_i e _
    refine (numbers_step next).trans ?_
    cases e with
    | none => exact ih
    | some e =>
      cases hn : e.number? with
      | none => simpa [hn] using ih
      | some n => simpa [hn] using ih

theorem taken_le {h : History} (possible : Possible h) {n : Nat}
    (hn : n ∈ h.filterMap Event.number?) : n ≤ (ledger h).claimed := by
  obtain ⟨e, he, hn⟩ := List.mem_filterMap.mp hn
  exact number_le possible he hn

theorem nodup_taken {h : History} (possible : Possible h) :
    (h.filterMap Event.number?).Nodup := by
  induction h with
  | nil => exact List.nodup_nil
  | cons e h ih =>
    obtain ⟨fits, possible⟩ := possible
    have ih := ih possible
    cases hn : e.number? with
    | none => rwa [List.filterMap_cons_none hn]
    | some n =>
      rw [List.filterMap_cons_some hn]
      refine List.nodup_cons.mpr ⟨fun taken => ?_, ih⟩
      have hle := taken_le possible taken
      rw [number_eq_next fits hn] at hle
      exact Nat.not_succ_le_self _ hle

theorem numbered_of_run {p : Prober ε} {h : History} {w : World ε} (run : p.Run h w) :
    w.docket.Numbered := by
  have tracks := tracks_of_run run
  have perm := numbers_of_run run
  refine ⟨perm.nodup_iff.mpr (nodup_taken tracks.possible), fun n hn => ?_⟩
  show n ≤ w.ledger.claimed
  rw [tracks.ledger]
  exact taken_le tracks.possible (perm.mem_iff.mp hn)

end EndpointHealth.Prober
