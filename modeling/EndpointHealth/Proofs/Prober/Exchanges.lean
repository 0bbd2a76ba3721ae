import EndpointHealth.Proofs.Prober.Steps
set_option autoImplicit false

/-!
What a prober hears from its tester. The tester is a function of its environment, so the calls that
were made say what it has replied to each of them (`exchanges`) and what has become of its
environment (`after`).

Main statement: a tester repeats a conversation exactly if it repeats a first part of it, and the
rest in the environment that the first part leaves (`repeats_append`).
-/

namespace EndpointHealth.Prober

variable {ε δ : Type}

/-- A call, with the tester's reply to it. -/
structure Exchange where
  call : Call
  reply : Reply
  deriving DecidableEq, Repr

def exchanges (p : Prober ε) : ε → List Call → List Exchange
  | _, [] => []
  | env, c :: cs =>
    let (reply, env) := p.tester env c.start c.request
    ⟨c, reply⟩ :: p.exchanges env cs

/-- The environment of a tester that has replied to calls, one after another. -/
def after (p : Prober ε) : ε → List Call → ε
  | env, [] => env
  | env, c :: cs => p.after (p.tester env c.start c.request).2 cs

/-- Whether a tester replies to the calls of a conversation as it says. -/
def Repeats (p : Prober ε) (env : ε) (xs : List Exchange) : Prop :=
  p.exchanges env (xs.map (·.call)) = xs

instance (p : Prober ε) (env : ε) (xs : List Exchange) : Decidable (p.Repeats env xs) :=
  inferInstanceAs (Decidable (_ = _))

theorem exchanges_append (p : Prober ε) (env : ε) (cs ds : List Call) :
    p.exchanges env (cs ++ ds) = p.exchanges env cs ++ p.exchanges (p.after env cs) ds := by
  induction cs generalizing env with
  | nil => rfl
  | cons c cs ih => simp [exchanges, after, ih]

theorem after_append (p : Prober ε) (env : ε) (cs ds : List Call) :
    p.after env (cs ++ ds) = p.after (p.after env cs) ds := by
  induction cs generalizing env with
  | nil => rfl
  | cons c cs ih => exact ih _

@[simp] theorem calls_exchanges (p : Prober ε) (env : ε) (cs : List Call) :
    (p.exchanges env cs).map (·.call) = cs := by
  induction cs generalizing env with
  | nil => rfl
  | cons c cs ih => simp [exchanges, ih]

theorem repeats_cons {p : Prober ε} {env : ε} {x : Exchange} {xs : List Exchange} :
    p.Repeats env (x :: xs) ↔ (p.tester env x.call.start x.call.request).1 = x.reply ∧
      p.Repeats (p.tester env x.call.start x.call.request).2 xs := by
  obtain ⟨c, reply⟩ := x
  simp [Repeats, exchanges]

theorem repeats_append {p : Prober ε} {env : ε} {xs ys : List Exchange} :
    p.Repeats env (xs ++ ys) ↔
      p.Repeats env xs ∧ p.Repeats (p.after env (xs.map (·.call))) ys := by
  induction xs generalizing env with
  | nil => simp [Repeats, after, exchanges]
  | cons x xs ih => simp only [List.cons_append, repeats_cons, ih, List.map_cons, after, and_assoc]

def replaying (policy : Policy) : Prober (List Exchange) where
  policy := policy
  tester
    | [], _, _ => (⟨none, .crash, []⟩, [])
    | x :: xs, _, _ => (x.reply, xs)

theorem repeats_replaying (policy : Policy) (xs : List Exchange) :
    (replaying policy).Repeats xs xs := by
  induction xs with
  | nil => rfl
  | cons x xs ih => exact repeats_cons.mpr ⟨rfl, ih⟩

/-- Between two worlds these calls have been made, and the tester's environment has changed by them
alone. -/
structure Asks (p : Prober ε) (w : World ε) (cs : List Call) (v : World ε) : Prop where
  calls : v.calls = w.calls ++ cs
  env : v.env = p.after w.env cs

namespace Asks

variable {p : Prober ε} {w v u : World ε} {cs ds : List Call}

theorem refl (p : Prober ε) (w : World ε) : p.Asks w [] w := ⟨by simp, rfl⟩

theorem trans (first : p.Asks w cs v) (second : p.Asks v ds u) : p.Asks w (cs ++ ds) u :=
  ⟨by rw [second.calls, first.calls, List.append_assoc], by
    rw [second.env, first.env, after_append]⟩

theorem call (p : Prober ε) (r : TestRequest) (w : World ε) :
    p.Asks w [⟨w.now, r⟩] (p.call r w).2 := ⟨rfl, rfl⟩

end Asks

/-- A tester that repeats a conversation repeats its first reply, so that the attempt takes the same
course. -/
theorem call_repeated {p : Prober ε} {q : Prober δ} {r : TestRequest} {cs : List Call}
    {w : World ε} {v : World δ} (now : v.now = w.now)
    (repeats : q.Repeats v.env (p.exchanges w.env (⟨w.now, r⟩ :: cs))) :
    (q.call r v).1 = (p.call r w).1 ∧
      q.Repeats (q.call r v).2.env (p.exchanges (p.call r w).2.env cs) ∧
      q.Asks v [⟨w.now, r⟩] (q.call r v).2 := by
  obtain ⟨reply, rest⟩ := repeats_cons.mp repeats
  have reply : (q.tester v.env w.now r).1 = (p.tester w.env w.now r).1 := reply
  rw [← now] at reply
  refine ⟨congrArg (Reply.course · r.timeout) (reply.trans (by rw [now])), ?_, ?_⟩
  · show q.Repeats (q.tester v.env v.now r).2 _
    rw [now]
    exact rest
  · rw [← now]
    exact .call q r v

end EndpointHealth.Prober
