import EndpointHealth.Client.RegistryTester
import EndpointHealth.Proofs.Prober.Timing
set_option autoImplicit false

/-!
What becomes of tests. A client asks an endpoint for no longer than the timeout, whatever the
network does, and comes back with an outcome unless it breaks.

Main statement: a test answers with a text unless its client cannot send the endpoint's key, and
then the client breaks, and with it the attempt of whoever tests the endpoint (`test_answers_iff`).
The rules for endpoints do not ask for a key that can be sent, so that an endpoint may be registered
which stays pending for ever (`test_not_answered`).
-/

namespace EndpointHealth

/-- Whether the client of an endpoint breaks: there is a control character in the key, other than a
tab, and the endpoint is asked through the chat interface. -/
def Endpoint.BreaksClient (e : Endpoint) : Prop :=
  e.provider ≠ .anthropic ∧ ∃ c ∈ e.apiKey.toList, c ≠ '\t' ∧ (c.toNat < 0x20 ∨ c.toNat = 0x7F)

namespace Client

variable {ν : Type}

/-- The client has come back within the timeout, and has not broken. -/
structure Asking.Sound (r : TestRequest) (a : Asking) : Prop where
  lasts_le : a.lasts ≤ limit r
  whole : a.outcome ≠ .crashed

theorem sound_of_le {φ : Type} {error : φ → TestError} {r : TestRequest} {d : Nat}
    (inTime : d ≤ limit r) (result : Except φ Completion) :
    Asking.Sound r ⟨d, .ofResult error result⟩ := by
  refine ⟨inTime, fun crashed => ?_⟩
  cases result with
  | error why => cases crashed
  | ok c => cases crashed

/-! ### The messages interface -/

theorem Messages.ask_sound (n : Network ν) (e : Endpoint) (r : TestRequest) (start : Nat) (s : ν) :
    (Messages.ask n e r start s).1.Sound r := by
  unfold Messages.ask
  split
  · exact sound_of_le (Nat.zero_le _) _
  · dsimp only
    split
    · exact sound_of_le (Nat.le_refl _) _
    · split
      · exact sound_of_le (Nat.le_refl _) _
      · rename_i inTime
        have inTime := Nat.le_of_not_lt inTime
        split
        · exact sound_of_le inTime _
        · exact sound_of_le inTime _

/-! ### The chat interface -/

theorem Chat.converse_sound (n : Network ν) (r : TestRequest) (c : Call)
    (start sent passed : Nat) (s : ν) : (Chat.converse n r c start sent passed s).1.Sound r := by
  fun_induction Chat.converse n r c start sent passed s with
  | case1 => exact sound_of_le (Nat.le_refl _) _
  | case2 => exact sound_of_le (Nat.le_refl _) _
  | case3 _ _ _ _ _ _ _ _ _ inTime => exact sound_of_le (Nat.le_of_not_lt inTime) _
  | case4 _ _ _ _ _ _ _ _ _ inTime => exact sound_of_le (Nat.le_of_not_lt inTime) _
  | case5 _ _ _ _ _ _ _ _ _ inTime => exact sound_of_le (Nat.le_of_not_lt inTime) _
  | case6 => exact sound_of_le (Nat.le_refl _) _
  | case7 _ _ _ _ _ _ _ _ _ _ _ _ _ _ _ _ _ _ ih => exact ih

theorem Chat.ask_sound (n : Network ν) {e : Endpoint} (sendable : isHeaderText e.apiKey = true)
    (r : TestRequest) (start : Nat) (s : ν) : (Chat.ask n e r start s).1.Sound r := by
  unfold Chat.ask
  rw [if_neg (by simp [sendable])]
  split
  · exact sound_of_le (Nat.zero_le _) _
  · exact Chat.converse_sound n r _ start 1 0 s

theorem Chat.ask_broken (n : Network ν) {e : Endpoint} (unsendable : isHeaderText e.apiKey = false)
    (r : TestRequest) (start : Nat) (s : ν) : Chat.ask n e r start s = (⟨0, .crashed⟩, s) := by
  simp [Chat.ask, unsendable]

/-! ### Tests -/

theorem isHeaderText_eq_false_iff (s : String) : isHeaderText s = false ↔
    ∃ c ∈ s.toList, c ≠ '\t' ∧ (c.toNat < 0x20 ∨ c.toNat = 0x7F) := by
  simp only [isHeaderText, List.all_eq_false, Bool.or_eq_true, Bool.and_eq_true, not_or,
    decide_eq_true_eq, bne_iff_ne, ne_eq]
  refine exists_congr fun c => and_congr_right fun _ => and_congr_right fun _ => ?_
  omega

theorem complete_sound (n : Network ν) {e : Endpoint} (works : ¬ e.BreaksClient) (r : TestRequest)
    (start : Nat) (s : ν) : (complete n e r start s).1.Sound r := by
  unfold complete
  split
  · exact Messages.ask_sound n e r start s
  · rename_i chat
    refine Chat.ask_sound n ?_ r start s
    cases sendable : isHeaderText e.apiKey with
    | true => rfl
    | false => exact absurd ⟨chat, (isHeaderText_eq_false_iff _).mp sendable⟩ works

theorem complete_broken (n : Network ν) {e : Endpoint} (breaks : e.BreaksClient) (r : TestRequest)
    (start : Nat) (s : ν) : complete n e r start s = (⟨0, .crashed⟩, s) := by
  unfold complete
  rw [if_neg breaks.1]
  exact Chat.ask_broken n ((isHeaderText_eq_false_iff _).mpr breaks.2) r start s

theorem answer_eq_text_or_crash (id : EndpointId) (o : Outcome) :
    (∃ text, (o.answer id).1 = .text text) ∧ o ≠ .crashed ∨
      (o.answer id).1 = .crash ∧ o = .crashed := by
  cases o with
  | completed c => exact .inl ⟨⟨_, rfl⟩, fun h => by cases h⟩
  | failed why => exact .inl ⟨⟨_, rfl⟩, fun h => by cases h⟩
  | crashed => exact .inr ⟨rfl, rfl⟩

theorem test_sound (n : Network ν) {e : Endpoint} (works : ¬ e.BreaksClient) (r : TestRequest)
    (start : Nat) (s : ν) : (∃ d ≤ limit r, (test n e r start s).1.after = some d) ∧
      ∃ text, (test n e r start s).1.answer = .text text := by
  have sound := complete_sound n works r start s
  refine ⟨⟨_, sound.lasts_le, rfl⟩, ?_⟩
  rcases answer_eq_text_or_crash e.id (complete n e r start s).1.outcome with
    ⟨text, -⟩ | ⟨-, crashed⟩
  · exact text
  · exact absurd crashed sound.whole

def broken : Prober.Reply := { after := some 0, answer := .crash, notices := [] }

theorem test_broken (n : Network ν) {e : Endpoint} (breaks : e.BreaksClient) (r : TestRequest)
    (start : Nat) (s : ν) : test n e r start s = (broken, s) := by
  unfold test
  rw [complete_broken n breaks r start s]
  rfl

theorem limit_le_bound (r : TestRequest) : limit r ≤ Prober.bound r.timeout := by
  unfold limit Prober.bound
  split <;> omega

/-- An answer that is given in time ends the attempt when it comes. -/
theorem course_of_le {reply : Prober.Reply} {r : TestRequest} {d : Nat} (inTime : d ≤ limit r)
    (answered : reply.after = some d) :
    reply.course r.timeout = ⟨d, reply.answer.outcome, reply.notices⟩ := by
  unfold Prober.Reply.course
  rw [answered]
  exact if_pos (Nat.le_trans inTime (limit_le_bound r))

theorem outcome_eq_crashed_iff (a : Prober.Answer) : a.outcome = .crashed ↔ a = .crash := by
  cases a with
  | text s => simp only [Prober.Answer.outcome]; split <;> simp
  | error why => simp [Prober.Answer.outcome]
  | crash => simp [Prober.Answer.outcome]

theorem test_course (n : Network ν) (e : Endpoint) (r : TestRequest) (start : Nat) (s : ν) :
    ((∃ d ≤ limit r, (test n e r start s).1.after = some d) ∧
      ((∃ text, (test n e r start s).1.answer = .text text) ↔ ¬ e.BreaksClient) ∧
      ((test n e r start s).1.answer = .crash ↔ e.BreaksClient)) := by
  by_cases breaks : e.BreaksClient
  · rw [test_broken n breaks r start s]
    exact ⟨⟨0, Nat.zero_le _, rfl⟩, by simp [broken, breaks], by simp [broken, breaks]⟩
  · obtain ⟨inTime, text, htext⟩ := test_sound n breaks r start s
    exact ⟨inTime, by simp [htext, breaks], by simp [htext, breaks]⟩

theorem attempt_of_reply {reply : Prober.Reply} {r : TestRequest} {d : Nat} (inTime : d ≤ limit r)
    (answered : reply.after = some d) :
    (reply.course r.timeout).lasts ≤ limit r ∧
      ((reply.course r.timeout).outcome = .crashed ↔ reply.answer = .crash) := by
  rw [course_of_le inTime answered]
  exact ⟨inTime, outcome_eq_crashed_iff _⟩

theorem attempt_atOnce (why : TestError) (r : TestRequest) :
    ((atOnce why).course r.timeout).lasts ≤ limit r ∧
      ((atOnce why).course r.timeout).outcome ≠ .crashed := by
  have answered : (atOnce why).after = some 0 := rfl
  obtain ⟨lasts, crashed⟩ := attempt_of_reply (Nat.zero_le (limit r)) answered
  exact ⟨lasts, fun h => by cases crashed.mp h⟩

/-! ### What becomes of a sequence -/

theorem registryTester_broken (n : Network ν) {b : Backend ν} {r : TestRequest} {e : Endpoint}
    (whole : b.broken = false) (held : b.registry.get r.endpoint = .ok (some e))
    (breaks : e.BreaksClient) (now : Nat) : registryTester n b now r = (broken, b) := by
  unfold registryTester
  rw [if_neg (by simp [whole]), held]
  dsimp only
  rw [test_broken n breaks]

end Client

namespace Prober

variable {ε : Type}

theorem attempt_broken {p : Prober ε} {s : Sequence} {w : World ε}
    (reply : p.tester w.env w.now (p.policy.probeRequest s.endpoint) = (Client.broken, w.env))
    (left : Nat) : (p.attempt s left w).agenda = w.agenda ∧
      (p.attempt s left w).ledger = w.ledger := by
  have course : Client.broken.course (p.policy.probeRequest s.endpoint).timeout =
      ⟨0, .crashed, []⟩ := by simp [Client.broken, Reply.course, Answer.outcome]
  have closed (retry : World ε → World ε) : (p.attemptWith retry s left w).agenda = w.agenda ∧
      (p.attemptWith retry s left w).ledger = w.ledger := by
    unfold attemptWith call
    rw [reply]
    dsimp only
    rw [course]
    exact ⟨rfl, rfl⟩
  cases left with
  | zero => exact closed id
  | succ left => exact closed (p.attempt s left)

end Prober

namespace Client

variable {ν : Type}

/-- A sequence whose client breaks makes one attempt and is never heard of again. -/
theorem pending_of_breaks (policy : Policy) (n : Network ν) {w : Service.State ν}
    {id : EndpointId} {e : Endpoint} (idle : w.agenda = []) (whole : w.env.broken = false)
    (held : w.env.registry.get id = .ok (some e)) (breaks : e.BreaksClient) (ms : Nat) :
    let p : Service.Prober ν := ⟨policy, registryTester n⟩
    (p.advance ms (p.probe id w)).agenda = [] ∧
      (p.advance ms (p.probe id w)).status? id = some .pending := by
  intro p
  let s : Prober.Sequence := ⟨id, w.ledger.next⟩
  have agenda : (p.probe id w).agenda = [⟨w.now, .attempt s (p.attempts - 1)⟩] := by
    simp [EndpointHealth.Prober.probe, Prober.World.wait, idle, Prober.schedule, s]
  let v : Service.State ν := { p.probe id w with agenda := [] }
  have made := EndpointHealth.Prober.attempt_broken (p := p) (s := s)
    (w := { v with now := max v.now w.now })
    (registryTester_broken n whole held breaks _) (p.attempts - 1)
  have ran : p.runUntil (w.now + ms) (p.probe id w) =
      p.perform ⟨w.now, .attempt s (p.attempts - 1)⟩ v := by
    rw [EndpointHealth.Prober.runUntil_due agenda (Nat.le_add_right _ _),
      EndpointHealth.Prober.runUntil_late]
    intro entry hmem
    rw [show (p.perform ⟨w.now, .attempt s (p.attempts - 1)⟩ v).agenda = [] from made.1] at hmem
    cases hmem
  show (p.runUntil (w.now + ms) (p.probe id w)).agenda = [] ∧
    (p.runUntil (w.now + ms) (p.probe id w)).status? id = some .pending
  rw [ran]
  refine ⟨made.1, ?_⟩
  unfold Prober.World.status?
  rw [show (p.perform ⟨w.now, .attempt s (p.attempts - 1)⟩ v).ledger = _ from made.2]
  show (w.ledger.start id).status? id = some .pending
  simp

/-- For every network: a test replies within the timeout, with a text or by breaking, and it breaks
exactly if the endpoint breaks its client. Through the registry too every attempt ends in time, and
it crashes exactly if such an endpoint could be read. -/
theorem test_answers_iff (n : Network ν) (r : TestRequest) :
    (∀ (e : Endpoint) (start : Nat) (s : ν),
      (∃ d ≤ limit r, (test n e r start s).1.after = some d) ∧
      ((∃ text, (test n e r start s).1.answer = .text text) ↔ ¬ e.BreaksClient) ∧
      ((test n e r start s).1.answer = .crash ↔ e.BreaksClient)) ∧
    ∀ (b : Backend ν) (now : Nat),
      let attempt := (registryTester n b now r).1.course r.timeout
      attempt.lasts ≤ limit r ∧
        (attempt.outcome = .crashed ↔ b.broken = false ∧
          ∃ e, b.registry.get r.endpoint = .ok (some e) ∧ e.BreaksClient) := by
  refine ⟨fun e start s => test_course n e r start s, fun b now => ?_⟩
  unfold registryTester
  dsimp only
  split
  · rename_i locked
    obtain ⟨lasts, whole⟩ := attempt_atOnce
      (.registry "database lock error: poisoned lock: another task failed inside") r
    exact ⟨lasts, iff_of_false whole fun h => by simp [h.1] at locked⟩
  · rename_i unlocked
    split
    · rename_i f hf
      obtain ⟨lasts, whole⟩ := attempt_atOnce (.registry f.message) r
      exact ⟨lasts, iff_of_false whole fun ⟨_, e, he, _⟩ => by simp [he] at hf⟩
    · rename_i hnone
      obtain ⟨lasts, whole⟩ := attempt_atOnce (.unknownEndpoint r.endpoint) r
      exact ⟨lasts, iff_of_false whole fun ⟨_, e, he, _⟩ => by simp [he] at hnone⟩
    · rename_i e he
      obtain ⟨⟨d, inTime, answered⟩, -, crash⟩ := test_course n e r now b.provider
      obtain ⟨lasts, crashed⟩ := attempt_of_reply inTime answered
      refine ⟨lasts, crashed.trans (crash.trans ?_)⟩
      simp [he, unlocked]

def untidy : Registration where
  name := "alias"
  provider := .openai
  model := "gpt-4o"
  apiBase := none
  apiKey := "k\n"
  makeDefault := false

/-- The rules do not look at what a key is made of. -/
theorem test_not_answered :
    (untidy.endpoint "m").refusal? = none ∧
    (∀ (n : Network Unit) r start s text,
      (test n (untidy.endpoint "m") r start s).1.answer ≠ .text text) ∧
    let p : Service.Prober Unit := ⟨.standard, registryTester .silent⟩
    let w := (Service.register p "m" untidy (.start ⟨.empty, false, ()⟩)).2
    ∀ ms, (p.advance ms w).agenda = [] ∧ (p.advance ms w).status? "m" = some .pending := by
  have allowed : (untidy.endpoint "m").refusal? = none := by decide +kernel
  have breaks : (untidy.endpoint "m").BreaksClient :=
    ⟨by decide, '\n', by decide +kernel, by decide, .inl (by decide)⟩
  refine ⟨allowed, fun n r start s text answered => ?_, fun ms => ?_⟩
  · rw [test_broken n breaks] at answered
    cases answered
  · let p : Service.Prober Unit := ⟨.standard, registryTester .silent⟩
    let w : Service.State Unit := (Service.inRegistry
      (Service.store (untidy.endpoint "m") false) (.start ⟨.empty, false, ()⟩)).2
    have registered : (Service.register p "m" untidy (.start ⟨.empty, false, ()⟩)).2 =
        p.probe "m" w := by
      unfold Service.register
      dsimp only
      rw [allowed]
      rfl
    have held : w.env.registry.get "m" =
      .ok (some { untidy.endpoint "m" with isDefault := true }) := rfl
    show (p.advance ms _).agenda = [] ∧ (p.advance ms _).status? "m" = some .pending
    rw [registered]
    exact pending_of_breaks .standard .silent (w := w) rfl rfl held breaks ms

end Client
end EndpointHealth
