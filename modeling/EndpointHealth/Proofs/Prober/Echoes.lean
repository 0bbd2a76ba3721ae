import EndpointHealth.Proofs.Prober.Reduction
set_option autoImplicit false

/-!
Probers that hear the same. What a prober does is decided by its docket and by what its tester
replies, whatever else the tester goes by and whatever it puts on record.

Main statement: from the same docket another prober with the same policy goes on to the same docket
when its clock is moved, if its tester repeats the replies (`advance_echoes`, `await_echoes`), and
so it does when a manual test is started (`test_echoes`).
-/

namespace EndpointHealth.Prober

variable {ε δ : Type}

/-! ### Nothing on record -/

def Reply.plain (r : Reply) : Reply := { r with notices := [] }

def Course.plain (c : Course) : Course := { c with notices := [] }

theorem course_plain (r : Reply) (timeout : UInt64) :
    r.plain.course timeout = (r.course timeout).plain := by
  obtain ⟨replied, answer, notices⟩ := r
  unfold Reply.course Reply.plain
  cases replied with
  | none => rfl
  | some d =>
    dsimp only
    split <;> rfl

def Task.plain : Task → Task
  | .attempt s left => .attempt s left
  | .close s left c => .close s left c.plain
  | .conclude t c => .conclude t c.plain

def Entry.plain (e : Entry) : Entry := { e with task := e.task.plain }

theorem schedule_plain (e : Entry) (es : List Entry) :
    (schedule e es).map Entry.plain = schedule e.plain (es.map Entry.plain) := by
  induction es with
  | nil => rfl
  | cons f es ih =>
    show (if f.due ≤ e.due then f :: schedule e es else e :: f :: es).map Entry.plain =
      if f.due ≤ e.due then f.plain :: schedule e.plain (es.map Entry.plain)
      else e.plain :: f.plain :: es.map Entry.plain
    split
    · rw [List.map_cons, ih]
    · rfl

def Turn.plain : Turn → Turn
  | .waits left c => .waits left c.plain
  | x => x

namespace Docket

def plain (d : Docket) : Docket := { d with agenda := d.agenda.map Entry.plain }

theorem wait_plain (d : Docket) (delay : Nat) (t : Task) :
    (d.wait delay t).plain = d.plain.wait delay t.plain :=
  congrArg (fun agenda => { d with agenda := agenda }) (schedule_plain ⟨d.now + delay, t⟩ d.agenda)

theorem turn_plain (d : Docket) (s : Sequence) (x : Turn) :
    (d.turn s x).plain = d.plain.turn s x.plain := by
  cases x with
  | done outcome => rfl
  | broken => rfl
  | retries delay left => exact d.wait_plain delay (.attempt s left)
  | waits left c => exact d.wait_plain c.lasts (.close s left c)

theorem endTest_plain (d : Docket) (t : ManualTest) (c : Course) :
    (d.endTest t c).plain = d.plain.endTest t c.plain := rfl

theorem undertake_plain (d : Docket) (t : ManualTest) (c : Course) :
    (d.undertake t c).plain = d.plain.undertake t c.plain := by
  unfold undertake
  show _ = if c.lasts = 0 then _ else _
  split
  · exact d.endTest_plain t c
  · exact d.wait_plain c.lasts (.conclude t c)

end Docket

def plain (p : Prober ε) : Prober ε where
  policy := p.policy
  tester env now r := ((p.tester env now r).1.plain, (p.tester env now r).2)

theorem after_plain (p : Prober ε) (env : ε) (cs : List Call) :
    p.plain.after env cs = p.after env cs := by
  induction cs generalizing env with
  | nil => rfl
  | cons c cs ih => exact ih _

theorem call_plain (p : Prober ε) (r : TestRequest) (w : World ε) :
    (p.plain.call r w).1 = (p.call r w).1.plain ∧ (p.plain.call r w).2 = (p.call r w).2 :=
  ⟨course_plain (p.tester w.env w.now r).1 r.timeout, rfl⟩

/-! ### Echoes -/

variable {p : Prober ε} {q : Prober δ}

/-- In a world some calls are made on the way to what comes next; and so they are by another prober
from the same docket, if its tester replies the same, and the docket is the same afterwards. -/
def Echoes (p : Prober ε) (q : Prober δ) (f : World ε → World ε) (g : World δ → World δ)
    (w : World ε) : Prop :=
  ∃ cs, p.Asks w cs (f w) ∧ ∀ v : World δ, v.docket = w.docket.plain →
    q.Repeats v.env (p.plain.exchanges w.env cs) →
      q.Asks v cs (g v) ∧ (g v).docket = (f w).docket.plain

theorem echoes_silent {f : World ε → World ε} {g : World δ → World δ} {w : World ε}
    (hf : p.Asks w [] (f w))
    (hg : ∀ v, v.docket = w.docket.plain →
      q.Asks v [] (g v) ∧ (g v).docket = (f w).docket.plain) :
    Echoes p q f g w :=
  ⟨[], hf, fun v same _ => hg v same⟩

theorem echoes_turn {s : Sequence} {f : World ε → World ε} {g : World δ → World δ} {w : World ε}
    (x : Turn) (hf : p.Asks w [] (f w)) (hx : (f w).docket = w.docket.turn s x)
    (hg : ∀ v, q.Asks v [] (g v) ∧ (g v).docket = v.docket.turn s x.plain) : Echoes p q f g w :=
  echoes_silent hf fun v same => by
    obtain ⟨asks, hx'⟩ := hg v
    exact ⟨asks, by rw [hx', hx, same, Docket.turn_plain]⟩

theorem echoes_comp {f f' : World ε → World ε} {g g' : World δ → World δ} {w : World ε}
    (first : Echoes p q f g w) (second : Echoes p q f' g' (f w)) :
    Echoes p q (f' ∘ f) (g' ∘ g) w := by
  obtain ⟨cs, asks, follows⟩ := first
  obtain ⟨ds, asks', follows'⟩ := second
  refine ⟨cs ++ ds, asks.trans asks', fun v same repeats => ?_⟩
  rw [exchanges_append, after_plain] at repeats
  obtain ⟨now, later⟩ := repeats_append.mp repeats
  obtain ⟨asked, docket⟩ := follows v same now
  rw [calls_exchanges, ← asked.env, ← asks.env] at later
  obtain ⟨asked', docket'⟩ := follows' (g v) docket later
  exact ⟨asked.trans asked', docket'⟩

/-- A call is repeated, and what comes after it. -/
theorem echoes_call {r : TestRequest} {f : Course → World ε → World ε}
    {g : Course → World δ → World δ} {w : World ε}
    (next : ∀ c u, Echoes p q (f c) (g c.plain) u) :
    Echoes p q (fun w => f (p.call r w).1 (p.call r w).2)
      (fun v => g (q.call r v).1 (q.call r v).2) w := by
  obtain ⟨cs, asks, follows⟩ := next (p.call r w).1 (p.call r w).2
  refine ⟨_ :: cs, (Asks.call p r w).trans asks, fun v same repeats => ?_⟩
  have now : v.now = w.now := congrArg Docket.now same
  obtain ⟨course, rest, asked⟩ := call_repeated (p := p.plain) now repeats
  obtain ⟨asked', docket⟩ := follows (q.call r v).2 same rest
  dsimp only
  rw [course, (p.call_plain r w).1]
  exact ⟨asked.trans asked', docket⟩

theorem closeWith_echoes (policy : q.policy = p.policy) {retry : World ε → World ε}
    {retry' : World δ → World δ} {s : Sequence} (left : Nat)
    (hretry : 0 < left → ∀ w, Echoes p q retry retry' w) (c : Course) (w : World ε) :
    Echoes p q (p.closeWith retry s left c) (q.closeWith retry' s left c.plain) w := by
  have delay : q.delay = p.delay := by simp [Prober.delay, policy]
  obtain ⟨lasts, outcome, notices⟩ := c
  unfold closeWith Course.plain
  cases outcome with
  | passed text =>
    exact echoes_turn (.done .success) ⟨by simp [finish, World.note, World.conclude], rfl⟩ rfl
      fun v => ⟨⟨by simp [finish, World.note, World.conclude], rfl⟩, rfl⟩
  | crashed =>
    exact echoes_turn .broken ⟨by simp [World.note, World.conclude], rfl⟩ rfl
      fun v => ⟨⟨by simp [World.note, World.conclude], rfl⟩, rfl⟩
  | failed why =>
    dsimp only
    by_cases hleft : left = 0
    · simp only [if_pos hleft]
      exact echoes_turn (.done .failure) ⟨by simp [finish, World.note, World.conclude], rfl⟩ rfl
        fun v => ⟨⟨by simp [finish, World.note, World.conclude], rfl⟩, rfl⟩
    · simp only [if_neg hleft]
      by_cases hdelay : p.delay = 0
      · simp only [delay, if_pos hdelay]
        obtain ⟨cs, asks, follows⟩ := hretry (Nat.pos_of_ne_zero hleft)
          ((w.note notices).note [.attemptFailed s.endpoint (p.attempts - left) p.attempts why])
        refine ⟨cs, ⟨asks.calls, asks.env⟩, fun v same repeats => ?_⟩
        obtain ⟨asked, docket⟩ := follows
          ((v.note []).note [.attemptFailed s.endpoint (q.attempts - left) q.attempts why])
          same repeats
        exact ⟨⟨asked.calls, asked.env⟩, docket⟩
      · simp only [delay, if_neg hdelay]
        exact echoes_turn (.retries p.delay (left - 1)) ⟨by simp [World.note, World.wait], rfl⟩
          rfl fun v => ⟨⟨by simp [World.note, World.wait], rfl⟩, rfl⟩

theorem attemptWith_echoes (policy : q.policy = p.policy) {retry : World ε → World ε}
    {retry' : World δ → World δ} {s : Sequence} (left : Nat)
    (hretry : 0 < left → ∀ w, Echoes p q retry retry' w) (w : World ε) :
    Echoes p q (p.attemptWith retry s left) (q.attemptWith retry' s left) w := by
  unfold attemptWith
  rw [policy]
  refine echoes_call
    (f := fun c u => if c.lasts = 0 then p.closeWith retry s left c u
      else u.wait c.lasts (.close s left c))
    (g := fun c v => if c.lasts = 0 then q.closeWith retry' s left c v
      else v.wait c.lasts (.close s left c)) fun c u => ?_
  have lasts : c.plain.lasts = c.lasts := rfl
  by_cases atOnce : c.lasts = 0
  · simp only [lasts, if_pos atOnce]
    exact closeWith_echoes policy left hretry c u
  · simp only [lasts, if_neg atOnce]
    exact echoes_turn (.waits left c) ⟨by simp [World.wait], rfl⟩ rfl
      fun v => ⟨⟨by simp [World.wait], rfl⟩, rfl⟩

theorem attempt_echoes (policy : q.policy = p.policy) (s : Sequence) (left : Nat) (w : World ε) :
    Echoes p q (p.attempt s left) (q.attempt s left) w := by
  induction left generalizing w with
  | zero => exact attemptWith_echoes policy 0 (fun h => absurd h (by omega)) w
  | succ left ih => exact attemptWith_echoes policy (left + 1) (fun _ => ih) w

theorem closeTest_echoes (t : ManualTest) (c : Course) (w : World ε) :
    Echoes p q (p.closeTest t c) (q.closeTest t c.plain) w := by
  obtain ⟨docket, asks⟩ := p.closeTest_docket t c w
  refine echoes_silent asks fun v same => ?_
  obtain ⟨docket', asks'⟩ := q.closeTest_docket t c.plain v
  exact ⟨asks', by rw [docket', docket, same, Docket.endTest_plain]⟩

theorem test_echoes (policy : q.policy = p.policy) (id : EndpointId) (message : String)
    (w : World ε) : Echoes p q (p.test id message) (q.test id message) w := by
  obtain ⟨asks, docket⟩ := p.test_docket id message w
  refine ⟨_, asks, fun v same repeats => ?_⟩
  have now : v.now = w.now := congrArg Docket.now same
  have ledger : v.ledger = w.ledger := congrArg Docket.ledger same
  obtain ⟨asks', docket'⟩ := q.test_docket id message v
  obtain ⟨course, -, -⟩ := call_repeated (p := p.plain) now repeats
  rw [now, policy] at asks'
  refine ⟨asks', ?_⟩
  rw [docket', docket, Docket.undertake_plain, same, ledger, policy, course, (p.call_plain _ w).1]
  rfl

theorem perform_echoes (policy : q.policy = p.policy) (e : Entry) (w : World ε) :
    Echoes p q (p.perform e) (q.perform e.plain) w := by
  have moved {f : World ε → World ε} {g : World δ → World δ}
      (h : Echoes p q f g { w with now := max w.now e.due }) :
      Echoes p q (fun w => f { w with now := max w.now e.due })
        (fun v => g { v with now := max v.now e.due }) w := by
    obtain ⟨cs, asks, follows⟩ := h
    refine ⟨cs, ⟨asks.calls, asks.env⟩, fun v same repeats => ?_⟩
    have same : ({ v with now := max v.now e.due } : World δ).docket =
        ({ w with now := max w.now e.due } : World ε).docket.plain :=
      congrArg (fun d => { d with now := max d.now e.due }) same
    obtain ⟨asked, docket⟩ := follows _ same repeats
    exact ⟨⟨asked.calls, asked.env⟩, docket⟩
  obtain ⟨due, task⟩ := e
  cases task with
  | attempt s left => exact moved (attempt_echoes policy s left _)
  | close s left c =>
    exact moved (closeWith_echoes policy left (fun _ => attempt_echoes policy s (left - 1)) c _)
  | conclude t c => exact moved (closeTest_echoes t c _)

theorem pop_echoes (policy : q.policy = p.policy) (e : Entry) (rest : List Entry) (w : World ε) :
    Echoes p q (fun w => p.perform e { w with agenda := rest })
      (fun v => q.perform e.plain { v with agenda := rest.map Entry.plain }) w := by
  obtain ⟨cs, asks, follows⟩ := perform_echoes policy e { w with agenda := rest }
  refine ⟨cs, ⟨asks.calls, asks.env⟩, fun v same repeats => ?_⟩
  have same : ({ v with agenda := rest.map Entry.plain } : World δ).docket =
      ({ w with agenda := rest } : World ε).docket.plain :=
    congrArg (fun d => { d with agenda := rest.map Entry.plain }) same
  obtain ⟨asked, docket⟩ := follows _ same repeats
  exact ⟨⟨asked.calls, asked.env⟩, docket⟩

theorem runUntil_echoes (policy : q.policy = p.policy) (time : Nat) (w : World ε) :
    Echoes p q (p.runUntil time) (q.runUntil time) w := by
  have stays {w : World ε} (late : ∀ e ∈ w.agenda.head?, time < e.due) :
      Echoes p q (p.runUntil time) (q.runUntil time) w := by
    refine echoes_silent ?_ fun v same => ?_
    · rw [runUntil_stands late]
      exact .refl p w
    · have agenda : v.agenda = w.agenda.map Entry.plain := congrArg Docket.agenda same
      have late' : ∀ e ∈ v.agenda.head?, time < e.due := by
        rw [agenda, List.head?_map]
        intro e he
        obtain ⟨f, hf, rfl⟩ := Option.map_eq_some_iff.mp he
        exact late f hf
      rw [runUntil_stands late, runUntil_stands late']
      exact ⟨.refl q v, same⟩
  fun_induction runUntil p time w with
  | case1 w h => exact stays (by simp [h])
  | case2 w e rest h due ih =>
    obtain ⟨cs, asks, follows⟩ := echoes_comp (pop_echoes policy e rest w) ih
    unfold Function.comp at asks follows
    rw [← runUntil_due h due] at asks follows
    refine ⟨cs, asks, fun v same repeats => ?_⟩
    have agenda : v.agenda = w.agenda.map Entry.plain := congrArg Docket.agenda same
    rw [h, List.map_cons] at agenda
    rw [runUntil_due agenda due]
    exact follows v same repeats
  | case3 w e rest h due => exact stays (by simpa [h] using due)

theorem advance_echoes (policy : q.policy = p.policy) (ms : Nat) (w : World ε) :
    Echoes p q (p.advance ms) (q.advance ms) w := by
  obtain ⟨cs, asks, follows⟩ := runUntil_echoes policy (w.now + ms) w
  refine ⟨cs, ⟨asks.calls, asks.env⟩, fun v same repeats => ?_⟩
  have now : v.now = w.now := congrArg Docket.now same
  obtain ⟨asked, docket⟩ := follows v same repeats
  unfold advance
  dsimp only
  rw [now]
  exact ⟨⟨asked.calls, asked.env⟩, congrArg (fun d => { d with now := w.now + ms }) docket⟩

theorem await_stands {number : Nat} {w : World ε}
    (h : (w.result? number).isSome = true ∨ w.agenda = []) : p.await number w = w := by
  rw [await.eq_def]
  split
  · rfl
  · rename_i running
    split
    · rfl
    · rename_i e rest agenda
      rcases h with ended | idle
      · exact absurd ended running
      · rw [agenda] at idle
        cases idle

theorem await_head {number : Nat} {w : World ε} {e : Entry} {rest : List Entry}
    (running : (w.result? number).isSome = false) (h : w.agenda = e :: rest) :
    p.await number w = p.await number (p.runUntil e.due w) := by
  rw [await.eq_def, if_neg (by simp [running])]
  split
  · rename_i idle
    rw [h] at idle
    cases idle
  · rename_i agenda
    rw [h] at agenda
    cases agenda
    rfl

theorem await_echoes (policy : q.policy = p.policy) (number : Nat) (w : World ε) :
    Echoes p q (p.await number) (q.await number) w := by
  have result {w : World ε} {v : World δ} (same : v.docket = w.docket.plain) :
      v.result? number = w.result? number :=
    congrArg (fun d => d.ended.find? (·.number = number)) same
  have stays {w : World ε} (h : (w.result? number).isSome = true ∨ w.agenda = []) :
      Echoes p q (p.await number) (q.await number) w := by
    refine echoes_silent ?_ fun v same => ?_
    · rw [await_stands h]
      exact .refl p w
    · have agenda : v.agenda = w.agenda.map Entry.plain := congrArg Docket.agenda same
      have h' : (v.result? number).isSome = true ∨ v.agenda = [] := by
        rw [result same, agenda, List.map_eq_nil_iff]
        exact h
      rw [await_stands h, await_stands h']
      exact ⟨.refl q v, same⟩
  fun_induction await p number w with
  | case1 w ended => exact stays (.inl ended)
  | case2 w running idle => exact stays (.inr idle)
  | case3 w running e rest h ih =>
    have running : (w.result? number).isSome = false := by simpa using running
    obtain ⟨cs, asks, follows⟩ := echoes_comp (runUntil_echoes policy e.due w) ih
    unfold Function.comp at asks follows
    rw [← await_head running h] at asks follows
    refine ⟨cs, asks, fun v same repeats => ?_⟩
    have agenda : v.agenda = w.agenda.map Entry.plain := congrArg Docket.agenda same
    rw [h, List.map_cons] at agenda
    rw [await_head (result same ▸ running) agenda]
    exact follows v same repeats

/-! ### What is asked of a prober without a call -/

theorem docket_probe (policy : q.policy = p.policy) (id : EndpointId) {w : World ε} {v : World δ}
    (same : v.docket = w.docket.plain) :
    (q.probe id v).docket = (p.probe id w).docket.plain := by
  have attempts : q.attempts = p.attempts := by simp [Prober.attempts, policy]
  have probed {ε : Type} (p : Prober ε) (w : World ε) : (p.probe id w).docket =
      { w.docket with ledger := w.docket.ledger.start id }.wait 0
        (.attempt ⟨id, w.docket.ledger.next⟩ (p.attempts - 1)) := rfl
  rw [probed, probed, attempts, Docket.wait_plain, same]
  rfl

theorem docket_forget (id : EndpointId) {w : World ε} {v : World δ}
    (same : v.docket = w.docket.plain) : (q.forget id v).docket = (p.forget id w).docket.plain :=
  congrArg (fun d => { d with ledger := d.ledger.forget id }) same

theorem docket_observe (policy : q.policy = p.policy) (ids : List EndpointId) {w : World ε}
    {v : World δ} (same : v.docket = w.docket.plain) :
    (q.observe ids v).docket = (p.observe ids w).docket.plain := by
  rw [(q.observe_docket ids v).1, (p.observe_docket ids w).1]
  induction ids generalizing w v with
  | nil => exact same
  | cons id ids ih =>
    refine ih ?_
    have status : v.status? id = w.status? id := congrArg (fun d => d.ledger.status? id) same
    show (q.observeOne id v).docket = (p.observeOne id w).docket.plain
    unfold observeOne
    rw [status]
    split
    · exact docket_probe policy id same
    · exact same

end EndpointHealth.Prober
