import Mathlib.Data.List.Chain
import EndpointHealth.Proofs.Prober.Journals
import EndpointHealth.Proofs.Prober.Outcomes
set_option autoImplicit false

/-!
The schedule of a probe sequence: when it makes its attempts, when it ends, and how. It depends on
nothing but the policy, the time at which the sequence was begun, and the replies to its attempts.

Main statement: when its time has come, a sequence goes on according to its schedule until it has to
wait or has ended (`attempt_goesOn`, `close_goesOn`).
-/

namespace EndpointHealth.Prober

open Journal

variable {ε : Type}

/-! ### Replies -/

/-- For how long a reply is waited for, if nobody waits longer than a limit. -/
def Reply.awaited (limit : Nat) (r : Reply) : Nat :=
  match r.after with
  | some latency => min latency limit
  | none => limit

/-- Whether a reply comes within a limit and is a text without the marker. -/
def Reply.passes (limit : Nat) (r : Reply) : Bool :=
  match r.after, r.answer with
  | some latency, .text s => decide (latency ≤ limit) && !isFailure s
  | _, _ => false

theorem lasts_course (r : Reply) (timeout : UInt64) :
    (r.course timeout).lasts = r.awaited (bound timeout) := by
  unfold Reply.course Reply.awaited
  cases r.after with
  | none => rfl
  | some d =>
    dsimp only
    split
    · rename_i within
      exact (Nat.min_eq_left within).symm
    · rename_i late
      exact (Nat.min_eq_right (Nat.le_of_not_le late)).symm

theorem passes_course (r : Reply) (timeout : UInt64) :
    (r.course timeout).passes = r.passes (bound timeout) := by
  unfold Reply.course Reply.passes Course.passes
  cases r.after with
  | none => rfl
  | some d =>
    dsimp only
    by_cases within : d ≤ bound timeout
    · rw [if_pos within]
      cases r.answer with
      | text s => cases hs : isFailure s <;> simp [Answer.outcome, hs, within]
      | error why => rfl
      | crash => rfl
    · rw [if_neg within]
      cases r.answer <;> simp [within]

theorem crash_of_crashed {r : Reply} {timeout : UInt64}
    (h : (r.course timeout).outcome = .crashed) : r.answer = .crash :=
  Decidable.by_contra fun sound => course_sound sound timeout h

/-! ### Schedules -/

def limit (p : Prober ε) : Nat := (p.policy.probeTimeout.toNat + 1) * 1000

def closes (p : Prober ε) (x : Exchange) : Nat := x.call.start + x.reply.awaited p.limit

def passes (p : Prober ε) (x : Exchange) : Bool := x.reply.passes p.limit

/-- Attempts for an endpoint are made one after another, from a time on, and only the last of them
may pass. -/
structure Paced (p : Prober ε) (id : EndpointId) (time : Nat) (xs : List Exchange) : Prop where
  requests : ∀ x ∈ xs, x.call.request = p.policy.probeRequest id
  first : ∀ x ∈ xs.head?, x.call.start = time
  apart : xs.IsChain fun x y => p.passes x = false ∧ y.call.start = p.closes x + p.delay
  few : xs.length ≤ p.attempts

/-- Whether no attempt follows: the last one has passed, or it was the last that is allowed. -/
def Final (p : Prober ε) (xs : List Exchange) (last : Exchange) : Prop :=
  p.passes last = true ∨ xs.length = p.attempts

/-- What comes of a sequence, by its last attempt. -/
def cameTo (p : Prober ε) (s : Sequence) (last : Exchange) : Ended :=
  ⟨s.number, p.closes last, .sequence (if p.passes last then .success else .failure)⟩

def nextStart (p : Prober ε) (time : Nat) (xs : List Exchange) : Nat :=
  xs.getLast?.elim time fun x => p.closes x + p.delay

section
variable {p : Prober ε} {id : EndpointId} {time : Nat} {xs : List Exchange}

theorem nextStart_of_last {x : Exchange} (last : xs.getLast? = some x) :
    p.nextStart time xs = p.closes x + p.delay := by
  rw [nextStart, last]
  rfl

theorem Paced.nil (p : Prober ε) (id : EndpointId) (time : Nat) : p.Paced id time [] :=
  ⟨by simp, by simp, .nil, Nat.zero_le _⟩

theorem Paced.snoc (paced : p.Paced id time xs) (failed : ∀ x ∈ xs.getLast?, p.passes x = false)
    (more : xs.length < p.attempts) {y : Exchange}
    (call : y.call = ⟨p.nextStart time xs, p.policy.probeRequest id⟩) :
    p.Paced id time (xs ++ [y]) := by
  have start : y.call.start = p.nextStart time xs := by rw [call]
  refine ⟨fun x hx => ?_, fun x hx => ?_, ?_, by simpa using Nat.succ_le_of_lt more⟩
  · rcases List.mem_append.mp hx with hx | hx
    · exact paced.requests x hx
    · rw [List.mem_singleton.mp hx, call]
  · cases xs with
    | nil =>
      cases hx
      exact start
    | cons x' xs => exact paced.first x hx
  · refine List.isChain_append.mpr ⟨paced.apart, .singleton y, fun x hx z hz => ?_⟩
    cases hz
    exact ⟨failed x hx, start.trans (nextStart_of_last hx)⟩

theorem Paced.tail {x : Exchange} (paced : p.Paced id time (x :: xs)) :
    p.Paced id (p.closes x + p.delay) xs := by
  obtain ⟨first, rest⟩ := List.isChain_cons.mp paced.apart
  exact ⟨fun y hy => paced.requests y (List.mem_cons_of_mem _ hy), fun y hy => (first y hy).2, rest,
    Nat.le_trans (Nat.le_succ _) paced.few⟩

theorem closes_le (p : Prober ε) (x : Exchange) : p.closes x ≤ x.call.start + p.limit := by
  unfold closes Reply.awaited
  cases x.reply.after with
  | none => exact Nat.le_refl _
  | some latency => exact Nat.add_le_add_left (Nat.min_le_right _ _) _

/-- No attempt is put off for ever. -/
theorem Paced.nextStart_le (paced : p.Paced id time xs) :
    p.nextStart time xs ≤ time + xs.length * (p.limit + p.delay) := by
  induction xs generalizing time with
  | nil => simp [nextStart]
  | cons x xs ih =>
    have later := ih paced.tail
    have closed := p.closes_le x
    rw [paced.first x rfl] at closed
    have same : p.nextStart time (x :: xs) = p.nextStart (p.closes x + p.delay) xs := by
      unfold nextStart
      rw [List.getLast?_cons]
      cases xs.getLast? <;> rfl
    rw [same, List.length_cons, Nat.succ_mul]
    omega

end

/-! ### What a sequence is up to -/

/-- What a sequence that has made some attempts waits for. -/
inductive Awaits (p : Prober ε) (s : Sequence) (time : Nat) (xs : List Exchange) : Entry → Prop
  | attempt {left : Nat} (count : xs.length + left + 1 = p.attempts)
      (failed : ∀ x ∈ xs.getLast?, p.passes x = false) :
      Awaits p s time xs ⟨p.nextStart time xs, .attempt s left⟩
  | close {left : Nat} {x : Exchange} (count : xs.length + left = p.attempts)
      (last : xs.getLast? = some x) :
      Awaits p s time xs ⟨p.closes x, .close s left (x.reply.course p.policy.probeTimeout)⟩

/-- A sequence has made some attempts, and has been broken off, or waits for something that is not
due before `dawn`, or has ended. -/
inductive Reaches (p : Prober ε) (s : Sequence) (time dawn : Nat) (xs : List Exchange)
    (w : World ε) : Prop
  | broken {x : Exchange} (mem : x ∈ xs) (crash : x.reply.answer = .crash)
  | waits {e : Entry} (paced : p.Paced s.endpoint time xs) (mem : e ∈ w.agenda) (due : dawn ≤ e.due)
      (awaits : p.Awaits s time xs e)
  | done {x : Exchange} (paced : p.Paced s.endpoint time xs) (last : xs.getLast? = some x)
      (final : p.Final xs x) (mem : p.cameTo s x ∈ w.ended) (past : p.closes x ≤ w.now)

/-- A sequence that has made some attempts goes on in a world until it has to wait or has ended. -/
def GoesOn (p : Prober ε) (s : Sequence) (time : Nat) (xs : List Exchange) (f : World ε → World ε)
    (w : World ε) : Prop :=
  ∃ cs, p.Asks w cs (f w) ∧ p.Reaches s time (w.now + 1) (xs ++ p.exchanges w.env cs) (f w)

section
variable {p : Prober ε} {s : Sequence} {time dawn : Nat} {xs : List Exchange} {w v : World ε}

theorem mem_wait (w : World ε) (delay : Nat) (t : Task) :
    ⟨w.now + delay, t⟩ ∈ (w.wait delay t).agenda := mem_schedule.mpr (.inl rfl)

theorem goesOn_silent {f : World ε → World ε} (asks : p.Asks w [] (f w))
    (reaches : p.Reaches s time (w.now + 1) xs (f w)) : p.GoesOn s time xs f w :=
  ⟨[], asks, by simpa [exchanges] using reaches⟩

variable (range : Policy.timeoutInRange p.policy.probeTimeout = true)
include range

theorem bound_probeTimeout : bound p.policy.probeTimeout = p.limit := by
  have le : p.policy.probeTimeout.toNat ≤ 600 := by
    have := (Bool.and_eq_true_iff.mp range).2
    exact UInt64.le_iff_toNat_le.mp (of_decide_eq_true this)
  unfold bound limit
  rw [if_pos]
  have : UInt64.size = 18446744073709551616 := rfl
  omega

theorem closeWith_goesOn {retry : World ε → World ε} {left : Nat} {x : Exchange}
    (hretry : 0 < left → p.passes x = false →
      ∀ v : World ε, v.now = p.nextStart time xs → p.GoesOn s time xs retry v)
    (paced : p.Paced s.endpoint time xs) (last : xs.getLast? = some x)
    (count : xs.length + left = p.attempts) (now : w.now = p.closes x) :
    p.GoesOn s time xs (p.closeWith retry s left (x.reply.course p.policy.probeTimeout)) w := by
  -- The attempt is closed by its course, and the schedule goes by its reply.
  have passed := passes_course x.reply p.policy.probeTimeout
  rw [bound_probeTimeout range] at passed
  have next : p.nextStart time xs = w.now + p.delay := by rw [nextStart_of_last last, now]
  unfold closeWith
  unfold Course.passes at passed
  cases outcome : (x.reply.course p.policy.probeTimeout).outcome with
  | passed text =>
    have pass : p.passes x = true := by simpa [outcome, passes] using passed.symm
    refine goesOn_silent ⟨by simp [finish, World.note, World.conclude], rfl⟩
      (.done paced last (.inl pass) ?_ (Nat.le_of_eq now.symm))
    simp [finish, World.note, World.conclude, cameTo, pass, now]
  | crashed =>
    refine goesOn_silent ⟨by simp [World.note, World.conclude], rfl⟩
      (.broken (List.mem_of_getLast? last) (crash_of_crashed outcome))
  | failed why =>
    have fail : p.passes x = false := by simpa [outcome, passes] using passed.symm
    dsimp only
    by_cases hleft : left = 0
    · have all : xs.length = p.attempts := by omega
      simp only [if_pos hleft]
      refine goesOn_silent ⟨by simp [finish, World.note, World.conclude], rfl⟩
        (.done paced last (.inr all) ?_ (Nat.le_of_eq now.symm))
      simp [finish, World.note, World.conclude, cameTo, fail, now]
    · simp only [if_neg hleft]
      have failed : ∀ y ∈ xs.getLast?, p.passes y = false := fun y hy => by
        rw [last] at hy
        cases hy
        exact fail
      by_cases hdelay : p.delay = 0
      · simp only [if_pos hdelay]
        have reached := hretry (Nat.pos_of_ne_zero hleft) fail
          ((w.note (x.reply.course p.policy.probeTimeout).notices).note
            [.attemptFailed s.endpoint (p.attempts - left) p.attempts why])
          (by rw [next, hdelay]; rfl)
        obtain ⟨cs, asks, reaches⟩ := reached
        exact ⟨cs, ⟨asks.calls, asks.env⟩, reaches⟩
      · simp only [if_neg hdelay]
        refine goesOn_silent ⟨by simp [World.note, World.wait], rfl⟩
          (.waits paced (mem_wait _ _ _) ?_ ?_)
        · show w.now + 1 ≤ w.now + p.delay
          omega
        · have awaits : p.Awaits s time xs ⟨p.nextStart time xs, .attempt s (left - 1)⟩ :=
            .attempt (by omega) failed
          rw [next] at awaits
          exact awaits

theorem attemptWith_goesOn {retry : World ε → World ε} {left : Nat}
    (hretry : 0 < left → ∀ (ys : List Exchange) (v : World ε), p.Paced s.endpoint time ys →
      (∀ y ∈ ys.getLast?, p.passes y = false) → ys.length + left = p.attempts →
      v.now = p.nextStart time ys → p.GoesOn s time ys retry v)
    (paced : p.Paced s.endpoint time xs) (failed : ∀ x ∈ xs.getLast?, p.passes x = false)
    (count : xs.length + left + 1 = p.attempts) (now : w.now = p.nextStart time xs) :
    p.GoesOn s time xs (p.attemptWith retry s left) w := by
  let r := p.policy.probeRequest s.endpoint
  let x : Exchange := ⟨⟨w.now, r⟩, (p.tester w.env w.now r).1⟩
  have asked := Asks.call p r w
  have course : (p.call r w).1 = x.reply.course p.policy.probeTimeout := rfl
  have lasts : (p.call r w).1.lasts = x.reply.awaited p.limit := by
    rw [course, lasts_course, bound_probeTimeout range]
  have closes : p.closes x = w.now + (p.call r w).1.lasts := by rw [lasts]; rfl
  have paced' : p.Paced s.endpoint time (xs ++ [x]) :=
    paced.snoc failed (by omega) (by rw [← now])
  have last : (xs ++ [x]).getLast? = some x := List.getLast?_concat
  have count' : (xs ++ [x]).length + left = p.attempts := by
    rw [List.length_append, List.length_singleton]
    omega
  by_cases atOnce : (p.call r w).1.lasts = 0
  · have closed := closeWith_goesOn range (w := (p.call r w).2)
      (fun more failed v now => hretry more (xs ++ [x]) v paced'
        (fun y hy => by rw [last] at hy; cases hy; exact failed) count' now)
      paced' last count' (by rw [closes, atOnce]; rfl)
    obtain ⟨cs, asks, reaches⟩ := closed
    refine ⟨⟨w.now, r⟩ :: cs, ?_, ?_⟩
    · rw [attemptWith_atOnce atOnce]
      exact asked.trans asks
    · rw [attemptWith_atOnce atOnce]
      rw [List.append_assoc] at reaches
      exact reaches
  · refine ⟨[⟨w.now, r⟩], ?_, ?_⟩
    · rw [attemptWith_waits atOnce]
      exact ⟨asked.calls, asked.env⟩
    · rw [attemptWith_waits atOnce]
      have awaits : p.Awaits s time (xs ++ [x]) ⟨p.closes x, .close s left (p.call r w).1⟩ :=
        .close count' last
      rw [closes] at awaits
      refine .waits paced' (mem_wait _ _ _) ?_ awaits
      show w.now + 1 ≤ w.now + (p.call r w).1.lasts
      omega

theorem attempt_goesOn {left : Nat} (paced : p.Paced s.endpoint time xs)
    (failed : ∀ x ∈ xs.getLast?, p.passes x = false)
    (count : xs.length + left + 1 = p.attempts) (now : w.now = p.nextStart time xs) :
    p.GoesOn s time xs (p.attempt s left) w := by
  induction left generalizing xs w with
  | zero => exact attemptWith_goesOn range (fun h => absurd h (by omega)) paced failed count now
  | succ left ih =>
    exact attemptWith_goesOn range (fun _ ys v paced failed count now => ih paced failed count now)
      paced failed count now

theorem close_goesOn {left : Nat} {x : Exchange} (paced : p.Paced s.endpoint time xs)
    (last : xs.getLast? = some x) (count : xs.length + left = p.attempts)
    (now : w.now = p.closes x) :
    p.GoesOn s time xs (p.close s left (x.reply.course p.policy.probeTimeout)) w := by
  refine closeWith_goesOn range (fun more fail v now => ?_) paced last count now
  refine attempt_goesOn range paced (fun y hy => ?_) (by omega) now
  rw [last] at hy
  cases hy
  exact fail

end

end EndpointHealth.Prober
