import EndpointHealth.Proofs.Prober.Exchanges
set_option autoImplicit false

/-!
Turns of sequences. When its time has come, a sequence goes on until it has to wait or has ended,
and all that other sequences and manual tests see of this is in the docket: the time, the ledger,
the agenda, and what has ended.

Main statement: what a sequence does in its turn is decided by its endpoint and by what the tester
replies, in whatever world it is and whatever its number is (`attempt_turn`, `close_turn`).
-/

namespace EndpointHealth.Prober

variable {ε δ : Type}

structure Docket where
  now : Nat
  ledger : Ledger
  agenda : List Entry
  ended : List Ended

def World.docket (w : World ε) : Docket := ⟨w.now, w.ledger, w.agenda, w.ended⟩

/-- How a sequence leaves its turn. -/
inductive Turn where
  | done (outcome : Status)
  | broken
  /-- It waits before its next attempt, after which `left` more may follow. -/
  | retries (delay left : Nat)
  /-- It waits for the end of an attempt, after which `left` more may follow. -/
  | waits (left : Nat) (c : Course)

def Course.result (c : Course) : Result :=
  match c.outcome with
  | .passed text | .failed (.rejected text) => .test (.ok text)
  | .failed (.failed why) => .test (.error why)
  | .failed (.timedOut timeout) => .test (.error (.timeout timeout))
  | .crashed => .crashed

def Course.passes (c : Course) : Bool :=
  match c.outcome with
  | .passed _ => true
  | .failed _ | .crashed => false

namespace Docket

def wait (d : Docket) (delay : Nat) (t : Task) : Docket :=
  { d with agenda := schedule ⟨d.now + delay, t⟩ d.agenda }

def conclude (d : Docket) (number : Nat) (r : Result) : Docket :=
  { d with ended := d.ended ++ [⟨number, d.now, r⟩] }

def turn (d : Docket) (s : Sequence) : Turn → Docket
  | .done outcome =>
    { d with ledger := d.ledger.finish s.endpoint s.number outcome }.conclude s.number
      (.sequence outcome)
  | .broken => d.conclude s.number .crashed
  | .retries delay left => d.wait delay (.attempt s left)
  | .waits left c => d.wait c.lasts (.close s left c)

def endTest (d : Docket) (t : ManualTest) (c : Course) : Docket :=
  { d with ledger := if c.passes then d.ledger.passTest t.endpoint t.number else d.ledger }.conclude
    t.number c.result

/-- A manual test that has been started, and ends at once if its attempt takes no time. -/
def undertake (d : Docket) (t : ManualTest) (c : Course) : Docket :=
  if c.lasts = 0 then d.endTest t c else d.wait c.lasts (.conclude t c)

/-- The docket when the head of the agenda is taken from it. -/
def pop (d : Docket) (e : Entry) (rest : List Entry) : Docket :=
  { d with now := max d.now e.due, agenda := rest }

end Docket

/-- In a world a sequence makes some calls in its turn and leaves it somehow; and so does a sequence
of the same endpoint with another prober, in any world of the same time, if its tester replies the
same. -/
def SameTurn (p : Prober ε) (q : Prober δ) (s : Sequence) (f : World ε → World ε)
    (g : Sequence → World δ → World δ) (w : World ε) : Prop :=
  ∃ cs x, p.Asks w cs (f w) ∧ (∀ c ∈ cs, c.request.endpoint = s.endpoint) ∧
    (f w).docket = w.docket.turn s x ∧
    ∀ (s' : Sequence) (v : World δ), s'.endpoint = s.endpoint → v.now = w.now →
      q.Repeats v.env (p.exchanges w.env cs) →
      q.Asks v cs (g s' v) ∧ (g s' v).docket = v.docket.turn s' x

section
variable {p : Prober ε} {q : Prober δ} {s : Sequence}

theorem sameTurn_silent {f : World ε → World ε} {g : Sequence → World δ → World δ} {w : World ε}
    (x : Turn) (hf : p.Asks w [] (f w)) (hx : (f w).docket = w.docket.turn s x)
    (hg : ∀ s' v, q.Asks v [] (g s' v) ∧ (g s' v).docket = v.docket.turn s' x) :
    SameTurn p q s f g w :=
  ⟨[], x, hf, by simp, hx, fun s' v _ _ _ => hg s' v⟩

theorem closeWith_turn (policy : q.policy = p.policy) {retry : World ε → World ε}
    {retry' : Sequence → World δ → World δ} (left : Nat)
    (hretry : 0 < left → ∀ w, SameTurn p q s retry retry' w) (c : Course) (w : World ε) :
    SameTurn p q s (p.closeWith retry s left c)
      (fun s' => q.closeWith (retry' s') s' left c) w := by
  have delay : q.delay = p.delay := by simp [Prober.delay, policy]
  -- Calls are made only if there is nothing to wait for before the next attempt.
  unfold closeWith
  cases c.outcome with
  | passed text =>
    exact sameTurn_silent (.done .success) ⟨by simp [finish, World.note, World.conclude], rfl⟩ rfl
      fun s' v => ⟨⟨by simp [finish, World.note, World.conclude], rfl⟩, rfl⟩
  | crashed =>
    exact sameTurn_silent .broken ⟨by simp [World.note, World.conclude], rfl⟩ rfl
      fun s' v => ⟨⟨by simp [World.note, World.conclude], rfl⟩, rfl⟩
  | failed why =>
    dsimp only
    by_cases hleft : left = 0
    · simp only [if_pos hleft]
      exact sameTurn_silent (.done .failure) ⟨by simp [finish, World.note, World.conclude], rfl⟩ rfl
        fun s' v => ⟨⟨by simp [finish, World.note, World.conclude], rfl⟩, rfl⟩
    · simp only [if_neg hleft]
      by_cases hdelay : p.delay = 0
      · simp only [delay, if_pos hdelay]
        obtain ⟨cs, x, asks, own, hx, repeated⟩ := hretry (Nat.pos_of_ne_zero hleft)
          ((w.note c.notices).note [.attemptFailed s.endpoint (p.attempts - left) p.attempts why])
        refine ⟨cs, x, ⟨asks.calls, asks.env⟩, own, hx, fun s' v endpoint now repeats => ?_⟩
        obtain ⟨asks', hx'⟩ := repeated s'
          ((v.note c.notices).note [.attemptFailed s'.endpoint (q.attempts - left) q.attempts why])
          endpoint now repeats
        exact ⟨⟨asks'.calls, asks'.env⟩, hx'⟩
      · simp only [delay, if_neg hdelay]
        exact sameTurn_silent (.retries p.delay (left - 1)) ⟨by simp [World.note, World.wait], rfl⟩
          rfl fun s' v => ⟨⟨by simp [World.note, World.wait], rfl⟩, rfl⟩

theorem attemptWith_atOnce {retry : World ε → World ε} {left : Nat} {w : World ε}
    (h : (p.call (p.policy.probeRequest s.endpoint) w).1.lasts = 0) :
    p.attemptWith retry s left w =
      p.closeWith retry s left (p.call (p.policy.probeRequest s.endpoint) w).1
        (p.call (p.policy.probeRequest s.endpoint) w).2 := if_pos h

theorem attemptWith_waits {retry : World ε → World ε} {left : Nat} {w : World ε}
    (h : (p.call (p.policy.probeRequest s.endpoint) w).1.lasts ≠ 0) :
    p.attemptWith retry s left w = p.launch s left w := if_neg h

theorem attemptWith_turn (policy : q.policy = p.policy) {retry : World ε → World ε}
    {retry' : Sequence → World δ → World δ} (left : Nat)
    (hretry : 0 < left → ∀ w, SameTurn p q s retry retry' w) (w : World ε) :
    SameTurn p q s (p.attemptWith retry s left)
      (fun s' => q.attemptWith (retry' s') s' left) w := by
  have request : ∀ s' : Sequence, s'.endpoint = s.endpoint →
      p.policy.probeRequest s.endpoint = q.policy.probeRequest s'.endpoint := fun s' endpoint => by
    rw [policy, endpoint]
  have asked := Asks.call p (p.policy.probeRequest s.endpoint) w
  by_cases atOnce : (p.call (p.policy.probeRequest s.endpoint) w).1.lasts = 0
  · obtain ⟨cs, x, asks, own, hx, repeated⟩ := closeWith_turn policy left hretry
      (p.call (p.policy.probeRequest s.endpoint) w).1
      (p.call (p.policy.probeRequest s.endpoint) w).2
    rw [← attemptWith_atOnce atOnce] at asks hx
    refine ⟨_ :: cs, x, asked.trans asks, ?_, hx, fun s' v endpoint now repeats => ?_⟩
    · rintro c (_ | ⟨_, hc⟩)
      · rfl
      · exact own c hc
    · obtain ⟨course, rest, asked'⟩ := call_repeated now repeats
      obtain ⟨asks', hx'⟩ := repeated s' (q.call _ v).2 endpoint now rest
      dsimp only at asks' hx' ⊢
      rw [← course, request s' endpoint] at atOnce
      rw [attemptWith_atOnce atOnce, ← request s' endpoint, course]
      exact ⟨asked'.trans asks', hx'⟩
  · have waits : p.Asks w [⟨w.now, p.policy.probeRequest s.endpoint⟩]
        (p.attemptWith retry s left w) := by
      rw [attemptWith_waits atOnce]
      exact ⟨asked.calls, asked.env⟩
    refine ⟨_, .waits left (p.call (p.policy.probeRequest s.endpoint) w).1, waits, ?_, ?_,
      fun s' v endpoint now repeats => ?_⟩
    · rintro c (_ | ⟨_, ⟨⟩⟩)
      rfl
    · rw [attemptWith_waits atOnce]
      rfl
    · obtain ⟨course, -, asked'⟩ := call_repeated now repeats
      rw [← course, request s' endpoint] at atOnce
      dsimp only
      rw [attemptWith_waits atOnce, ← course, request s' endpoint]
      rw [request s' endpoint] at asked'
      exact ⟨⟨asked'.calls, asked'.env⟩, rfl⟩

theorem attempt_turn (policy : q.policy = p.policy) (left : Nat) (w : World ε) :
    SameTurn p q s (p.attempt s left) (fun s' => q.attempt s' left) w := by
  induction left generalizing w with
  | zero => exact attemptWith_turn policy 0 (fun h => absurd h (by omega)) w
  | succ left ih => exact attemptWith_turn policy (left + 1) (fun _ => ih) w

theorem close_turn (policy : q.policy = p.policy) (left : Nat) (c : Course) (w : World ε) :
    SameTurn p q s (p.close s left c) (fun s' => q.close s' left c) w :=
  closeWith_turn policy left (fun _ => attempt_turn policy (left - 1)) c w

end

theorem closeTest_docket (p : Prober ε) (t : ManualTest) (c : Course) (w : World ε) :
    (p.closeTest t c w).docket = w.docket.endTest t c ∧ p.Asks w [] (p.closeTest t c w) := by
  obtain ⟨lasts, outcome, notices⟩ := c
  unfold closeTest
  cases outcome with
  | passed text => exact ⟨rfl, ⟨by simp [World.note, World.conclude], rfl⟩⟩
  | crashed => exact ⟨rfl, ⟨by simp [World.note, World.conclude], rfl⟩⟩
  | failed why =>
    cases why <;> exact ⟨rfl, ⟨by simp [World.note, World.conclude], rfl⟩⟩

theorem test_docket (p : Prober ε) (id : EndpointId) (message : String) (w : World ε) :
    p.Asks w [⟨w.now, p.policy.manualRequest id message⟩] (p.test id message w) ∧
      (p.test id message w).docket =
        { w.docket with ledger := w.ledger.claim }.undertake ⟨id, w.ledger.next⟩
          (p.call (p.policy.manualRequest id message) w).1 := by
  have asked := Asks.call p (p.policy.manualRequest id message) { w with ledger := w.ledger.claim }
  have course : (p.call (p.policy.manualRequest id message)
      { w with ledger := w.ledger.claim }).1 =
        (p.call (p.policy.manualRequest id message) w).1 := rfl
  unfold test Docket.undertake
  dsimp only
  rw [course]
  split
  · obtain ⟨hx, asks⟩ := p.closeTest_docket ⟨id, w.ledger.next⟩
      (p.call (p.policy.manualRequest id message) w).1
      (p.call (p.policy.manualRequest id message) { w with ledger := w.ledger.claim }).2
    have asks := asked.trans asks
    exact ⟨⟨asks.calls, asks.env⟩, hx⟩
  · exact ⟨⟨asked.calls, asked.env⟩, rfl⟩

end EndpointHealth.Prober
