import EndpointHealth.Proofs.Prober.Turns
set_option autoImplicit false

/-!
The order of time. Tasks are on the agenda in the order in which they are due, and none is late, so
that each is done at the very time at which it is due (`timely_perform`).

Main statements: time can be let pass in parts (`advance_advance`), and waiting for the end of a
sequence or a manual test is nothing else (`await_eq_advance`).
-/

namespace EndpointHealth.Prober

variable {ε : Type}

theorem mem_schedule {e f : Entry} {es : List Entry} : f ∈ schedule e es ↔ f = e ∨ f ∈ es := by
  obtain ⟨a, b, hsplit, rfl⟩ := schedule_split e es
  rw [hsplit]
  simp only [List.mem_append, List.mem_cons]
  constructor
  · rintro (h | h | h) <;> simp [h]
  · rintro (h | h | h) <;> simp [h]

abbrev InOrder (es : List Entry) : Prop := es.Pairwise fun e f => e.due ≤ f.due

theorem inOrder_schedule {e : Entry} {es : List Entry} (h : InOrder es) :
    InOrder (schedule e es) := by
  induction es with
  | nil => simp [schedule, InOrder]
  | cons f es ih =>
    obtain ⟨first, rest⟩ := List.pairwise_cons.mp h
    unfold schedule
    split
    · refine List.pairwise_cons.mpr ⟨fun g hg => ?_, ih rest⟩
      rcases mem_schedule.mp hg with rfl | hg
      · assumption
      · exact first g hg
    · refine List.pairwise_cons.mpr ⟨fun g hg => ?_, h⟩
      rcases List.mem_cons.mp hg with rfl | hg
      · omega
      · have := first g hg
        omega

theorem late_of_inOrder {e : Entry} {es : List Entry} {time : Nat} (inOrder : InOrder (e :: es))
    (late : ¬ e.due ≤ time) : ∀ f ∈ e :: es, time < f.due := by
  obtain ⟨first, -⟩ := List.pairwise_cons.mp inOrder
  refine List.forall_mem_cons.mpr ⟨by omega, fun f hf => ?_⟩
  have := first f hf
  omega

namespace Docket

/-- The agenda is in order, and nothing on it is late. -/
structure Timely (d : Docket) : Prop where
  inOrder : InOrder d.agenda
  due : ∀ e ∈ d.agenda, d.now ≤ e.due

/-- What may come of a task. -/
inductive Follows (d : Docket) : Task → Docket → Prop
  | attempt (s : Sequence) (left : Nat) (x : Turn) : Follows d (.attempt s left) (d.turn s x)
  | close (s : Sequence) (left : Nat) (c : Course) (x : Turn) :
      Follows d (.close s left c) (d.turn s x)
  | conclude (t : ManualTest) (c : Course) : Follows d (.conclude t c) (d.endTest t c)

variable {d d' : Docket}

theorem Timely.wait (timely : d.Timely) (delay : Nat) (t : Task) : (d.wait delay t).Timely := by
  refine ⟨inOrder_schedule timely.inOrder, fun e he => ?_⟩
  rcases mem_schedule.mp he with rfl | he
  · exact Nat.le_add_right _ _
  · exact timely.due e he

theorem Timely.turn (timely : d.Timely) (s : Sequence) (x : Turn) : (d.turn s x).Timely := by
  cases x with
  | done outcome => exact ⟨timely.inOrder, timely.due⟩
  | broken => exact ⟨timely.inOrder, timely.due⟩
  | retries delay left => exact timely.wait _ _
  | waits left c => exact timely.wait _ _

theorem now_turn (d : Docket) (s : Sequence) (x : Turn) : (d.turn s x).now = d.now := by
  cases x <;> rfl

theorem now_undertake (d : Docket) (t : ManualTest) (c : Course) :
    (d.undertake t c).now = d.now := by
  unfold undertake
  split <;> rfl

theorem Timely.follows {t : Task} (timely : d.Timely) (follows : d.Follows t d') :
    d'.Timely ∧ d'.now = d.now := by
  cases follows with
  | attempt s left x => exact ⟨timely.turn s x, now_turn d s x⟩
  | close s left c x => exact ⟨timely.turn s x, now_turn d s x⟩
  | conclude t c => exact ⟨⟨timely.inOrder, timely.due⟩, rfl⟩

theorem Timely.pop {e : Entry} {rest : List Entry} (timely : d.Timely)
    (h : d.agenda = e :: rest) : (d.pop e rest).Timely ∧ (d.pop e rest).now = e.due := by
  obtain ⟨inOrder, due⟩ := timely
  rw [h] at inOrder due
  have now : max d.now e.due = e.due := Nat.max_eq_right (due e (List.mem_cons_self ..))
  obtain ⟨first, rest⟩ := List.pairwise_cons.mp inOrder
  refine ⟨⟨rest, fun f hf => ?_⟩, now⟩
  show max d.now e.due ≤ f.due
  rw [now]
  exact first f hf

end Docket

/-! ### Performing tasks -/

variable {p : Prober ε} {w : World ε}

theorem perform_follows (p : Prober ε) (e : Entry) (rest : List Entry) (w : World ε) :
    (w.docket.pop e rest).Follows e.task (p.perform e { w with agenda := rest }).docket := by
  obtain ⟨due, task⟩ := e
  cases task with
  | attempt s left =>
    obtain ⟨cs, x, -, -, hx, -⟩ := attempt_turn (p := p) (q := p) (s := s) rfl left
      { w with now := max w.now due, agenda := rest }
    exact hx ▸ .attempt s left x
  | close s left c =>
    obtain ⟨cs, x, -, -, hx, -⟩ := close_turn (p := p) (q := p) (s := s) rfl left c
      { w with now := max w.now due, agenda := rest }
    exact hx ▸ .close s left c x
  | conclude t c =>
    have hx := (p.closeTest_docket t c { w with now := max w.now due, agenda := rest }).1
    exact hx ▸ .conclude t c

theorem timely_perform (p : Prober ε) {e : Entry} {rest : List Entry} (timely : w.docket.Timely)
    (h : w.agenda = e :: rest) :
    (p.perform e { w with agenda := rest }).docket.Timely ∧
      (p.perform e { w with agenda := rest }).now = e.due := by
  obtain ⟨popped, now⟩ := timely.pop h
  obtain ⟨performed, same⟩ := popped.follows (perform_follows p e rest w)
  exact ⟨performed, same.trans now⟩

theorem runUntil_due {e : Entry} {rest : List Entry} {time : Nat} (h : w.agenda = e :: rest)
    (due : e.due ≤ time) :
    p.runUntil time w = p.runUntil time (p.perform e { w with agenda := rest }) := by
  rw [runUntil.eq_def p time w]
  split
  · simp_all
  · rename_i h'
    rw [h] at h'
    cases h'
    rw [if_pos due]

theorem runUntil_stands {time : Nat} (late : ∀ e ∈ w.agenda.head?, time < e.due) :
    p.runUntil time w = w := by
  rw [runUntil.eq_def]
  split
  · rfl
  · rename_i e rest h
    rw [if_neg (Nat.not_le_of_lt (late e (by simp [h])))]

theorem runUntil_late {time : Nat} (late : ∀ e ∈ w.agenda, time < e.due) :
    p.runUntil time w = w :=
  runUntil_stands fun e he => late e (List.mem_of_mem_head? he)

/-- A run up to a time leaves nothing that is due then, and the clock between the two times. -/
theorem timely_runUntil (p : Prober ε) (time : Nat) (w : World ε) (timely : w.docket.Timely)
    (ahead : w.now ≤ time) :
    (p.runUntil time w).docket.Timely ∧ (∀ e ∈ (p.runUntil time w).agenda, time < e.due) ∧
      w.now ≤ (p.runUntil time w).now ∧ (p.runUntil time w).now ≤ time := by
  fun_induction runUntil p time w with
  | case1 w h => exact ⟨timely, by simp [h], Nat.le_refl _, ahead⟩
  | case2 w e rest h due ih =>
    obtain ⟨performed, now⟩ := timely_perform p timely h
    have before := timely.due e (by rw [World.docket, h]; exact List.mem_cons_self ..)
    obtain ⟨timely', late, after, within⟩ := ih performed (now ▸ due)
    refine ⟨timely', late, Nat.le_trans ?_ after, within⟩
    rw [now]
    exact before
  | case3 w e rest h due =>
    have inOrder := timely.inOrder
    rw [World.docket, h] at inOrder
    exact ⟨timely, h ▸ late_of_inOrder inOrder due, Nat.le_refl _, ahead⟩

/-! ### Letting time pass -/

theorem runUntil_runUntil (p : Prober ε) {time time' : Nat} (h : time ≤ time') (w : World ε) :
    p.runUntil time' (p.runUntil time w) = p.runUntil time' w := by
  fun_induction runUntil p time w with
  | case1 => rfl
  | case2 w e rest hagenda due ih =>
    rw [ih, runUntil_due hagenda (Nat.le_trans due h)]
  | case3 => rfl

/-- The time at which a run starts does not matter, as long as nothing is late. -/
theorem runUntil_clock (p : Prober ε) {now : Nat} (time clock : Nat) (timely : w.docket.Timely)
    (ahead : w.now ≤ now) (due : ∀ e ∈ w.agenda, now ≤ e.due) :
    { p.runUntil time { w with now := now } with now := clock } =
      { p.runUntil time w with now := clock } := by
  by_cases late : ∀ e ∈ w.agenda, time < e.due
  · rw [runUntil_late late, runUntil_late (w := { w with now := now }) late]
  · obtain ⟨e, rest, h⟩ : ∃ e rest, w.agenda = e :: rest :=
      List.exists_cons_of_ne_nil fun none => late (by simp [none])
    have first := due e (by simp [h])
    have ends : e.due ≤ time := by
      have inOrder := timely.inOrder
      rw [World.docket, h] at inOrder
      rw [h] at late
      exact Decidable.not_not.mp fun ends => late (late_of_inOrder inOrder ends)
    have same : p.perform e { w with now := now, agenda := rest } =
        p.perform e { w with agenda := rest } := by
      unfold perform
      dsimp only
      rw [Nat.max_eq_right first, Nat.max_eq_right (Nat.le_trans ahead first)]
    rw [runUntil_due (w := { w with now := now }) h ends, runUntil_due h ends, same]

theorem advance_advance (p : Prober ε) (timely : w.docket.Timely) (m n : Nat) :
    p.advance n (p.advance m w) = p.advance (m + n) w := by
  obtain ⟨timely', late, -, within⟩ :=
    p.timely_runUntil (w.now + m) w timely (Nat.le_add_right _ _)
  have moved := p.runUntil_clock (w.now + m + n) (w.now + m + n) timely' within fun e he =>
    Nat.le_of_lt (late e he)
  rw [runUntil_runUntil p (Nat.le_add_right _ _)] at moved
  unfold advance
  dsimp only
  rw [moved, Nat.add_assoc]

/-! ### Waiting for an end -/

theorem runUntil_head (p : Prober ε) {e : Entry} {rest : List Entry} (timely : w.docket.Timely)
    (h : w.agenda = e :: rest) :
    (p.runUntil e.due w).docket.Timely ∧ (p.runUntil e.due w).now = e.due := by
  obtain ⟨performed, now⟩ := timely_perform p timely h
  rw [runUntil_due h (Nat.le_refl _)]
  obtain ⟨timely', -, after, within⟩ := p.timely_runUntil e.due _ performed (Nat.le_of_eq now)
  rw [now] at after
  exact ⟨timely', Nat.le_antisymm within after⟩

theorem advance_of_now {time : Nat} (ahead : w.now ≤ time) (h : (p.runUntil time w).now = time) :
    p.advance (time - w.now) w = p.runUntil time w := by
  have reached : w.now + (time - w.now) = time := by omega
  unfold advance
  dsimp only
  rw [reached]
  generalize p.runUntil time w = v at h
  rw [← h]

theorem await_eq_runUntil (p : Prober ε) (number : Nat) (w : World ε) (timely : w.docket.Timely)
    (unended : w.result? number = none) :
    w.now ≤ (p.await number w).now ∧
      p.await number w = p.runUntil (p.await number w).now w := by
  -- Every round ends at a time at which something is due, and the next one only adds to it.
  fun_induction await p number w with
  | case1 w ended => simp [unended] at ended
  | case2 w ended h => exact ⟨Nat.le_refl _, (runUntil_late (by simp [h])).symm⟩
  | case3 w ended e rest h ih =>
    obtain ⟨timely', now⟩ := runUntil_head p timely h
    have before := timely.due e (by rw [World.docket, h]; exact List.mem_cons_self ..)
    have before : w.now ≤ e.due := before
    cases hresult : (p.runUntil e.due w).result? number with
    | some r =>
      have stays : p.await number (p.runUntil e.due w) = p.runUntil e.due w := by
        rw [await.eq_def]
        simp [hresult]
      rw [stays, now]
      exact ⟨before, rfl⟩
    | none =>
      obtain ⟨later, same⟩ := ih timely' hresult
      rw [now] at later
      refine ⟨Nat.le_trans before later, ?_⟩
      rw [runUntil_runUntil p later] at same
      exact same

theorem await_eq_advance (p : Prober ε) (number : Nat) (timely : w.docket.Timely)
    (unended : w.result? number = none) :
    p.await number w = p.advance ((p.await number w).now - w.now) w := by
  obtain ⟨ahead, same⟩ := p.await_eq_runUntil number w timely unended
  rw [advance_of_now ahead (congrArg World.now same.symm)]
  exact same

end EndpointHealth.Prober
