import EndpointHealth.Prober.World
set_option autoImplicit false

/-!
A prober at work: sequences of attempts and manual tests run beside each other, each going on from
one wait to the next.

A sequence makes attempts until one passes or their number is used up, with a fixed wait after each
failed attempt but the last. Where there is nothing to wait for it goes on at once.
-/

namespace EndpointHealth

structure Prober (ε : Type) where
  policy : Policy
  tester : Prober.Tester ε

namespace Prober

variable {ε : Type}

def attempts (p : Prober ε) : Nat := max p.policy.maxAttempts.toNat 1

def delay (p : Prober ε) : Nat := p.policy.retryDelay.toNat

def call (p : Prober ε) (r : TestRequest) (w : World ε) : Course × World ε :=
  let (reply, env) := p.tester w.env w.now r
  (reply.course r.timeout, { w with env := env, calls := w.calls ++ [⟨w.now, r⟩] })

def finish (p : Prober ε) (s : Sequence) (status : Status) (w : World ε) : World ε :=
  let notices :=
    if w.ledger.isCurrent s.endpoint s.number then
      if status = .failure then [.sequenceFailed s.endpoint p.policy.maxAttempts.toNat] else []
    else [.staleDiscarded s.endpoint status s.number]
  let w := { w with ledger := w.ledger.finish s.endpoint s.number status }
  (w.note notices).conclude s.number (.sequence status)

/-- Closes an attempt: the sequence ends, or waits for its next attempt, or makes it at once by
`retry`. -/
def closeWith (p : Prober ε) (retry : World ε → World ε) (s : Sequence) (left : Nat) (c : Course)
    (w : World ε) : World ε :=
  let w := w.note c.notices
  let number := p.attempts - left
  match c.outcome with
  | .passed _ =>
    p.finish s .success (w.note [.attemptPassed s.endpoint number p.attempts])
  | .crashed => w.conclude s.number .crashed
  | .failed why =>
    let w := w.note [.attemptFailed s.endpoint number p.attempts why]
    if left = 0 then p.finish s .failure w
    else if p.delay = 0 then retry w
    else w.wait p.delay (.attempt s (left - 1))

def attemptWith (p : Prober ε) (retry : World ε → World ε) (s : Sequence) (left : Nat)
    (w : World ε) : World ε :=
  let (c, w) := p.call (p.policy.probeRequest s.endpoint) w
  if c.lasts = 0 then p.closeWith retry s left c w else w.wait c.lasts (.close s left c)

/-- Makes the next attempt of a sequence, after which `left` more may follow, and goes on as long
as there is nothing to wait for. -/
def attempt (p : Prober ε) (s : Sequence) : Nat → World ε → World ε
  | 0, w => p.attemptWith id s 0 w
  | left + 1, w => p.attemptWith (p.attempt s left) s (left + 1) w

def close (p : Prober ε) (s : Sequence) (left : Nat) (c : Course) (w : World ε) : World ε :=
  p.closeWith (p.attempt s (left - 1)) s left c w

/-- Ends a manual test. An answer that carries the marker is an answer all the same. -/
def closeTest (_ : Prober ε) (t : ManualTest) (c : Course) (w : World ε) : World ε :=
  let w := w.note c.notices
  match c.outcome with
  | .passed text =>
    let notice :=
      if w.ledger.forgottenSince t.endpoint t.number then .testDiscarded t.endpoint
      else .testPassed t.endpoint
    let w := { w with ledger := w.ledger.passTest t.endpoint t.number }
    (w.note [notice]).conclude t.number (.test (.ok text))
  | .failed (.rejected text) =>
    (w.note [.testFailed t.endpoint text]).conclude t.number (.test (.ok text))
  | .failed (.failed why) => w.conclude t.number (.test (.error why))
  | .failed (.timedOut timeout) => w.conclude t.number (.test (.error (.timeout timeout)))
  | .crashed => w.conclude t.number .crashed

/-! ### What a prober is asked to do -/

/-- Begins a sequence that makes its first attempt when the clock next runs. -/
def probe (p : Prober ε) (id : EndpointId) (w : World ε) : World ε :=
  let s : Sequence := ⟨id, w.ledger.next⟩
  { w with ledger := w.ledger.start id }.wait 0 (.attempt s (p.attempts - 1))

/-- Begins a sequence that makes its first attempt at once. Its number is the next one. -/
def probeNow (p : Prober ε) (id : EndpointId) (w : World ε) : World ε :=
  let s : Sequence := ⟨id, w.ledger.next⟩
  p.attempt s (p.attempts - 1) { w with ledger := w.ledger.start id }

def test (p : Prober ε) (id : EndpointId) (message : String) (w : World ε) : World ε :=
  let t : ManualTest := ⟨id, w.ledger.next⟩
  let (c, w) := p.call (p.policy.manualRequest id message) { w with ledger := w.ledger.claim }
  if c.lasts = 0 then p.closeTest t c w else w.wait c.lasts (.conclude t c)

def forget (_ : Prober ε) (id : EndpointId) (w : World ε) : World ε :=
  { w with ledger := w.ledger.forget id }

def observeOne (p : Prober ε) (id : EndpointId) (w : World ε) : World ε :=
  if (w.status? id).isNone then p.probe id w else w

def unseen (p : Prober ε) : List EndpointId → World ε → Nat
  | [], _ => 0
  | id :: ids, w =>
    (if (w.status? id).isNone then 1 else 0) + p.unseen ids (p.observeOne id w)

def observe (p : Prober ε) (ids : List EndpointId) (w : World ε) : World ε :=
  let n := p.unseen ids w
  let w := ids.foldl (fun w id => p.observeOne id w) w
  if n = 0 then w else w.note [.probesStarted n]

end Prober
end EndpointHealth
