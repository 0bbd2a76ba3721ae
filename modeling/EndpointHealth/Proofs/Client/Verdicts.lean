import EndpointHealth.Proofs.Client.Answers
set_option autoImplicit false

/-!
When an attempt passes that tests an endpoint of the registry.

Main statement: it passes with a text exactly if the endpoint can be read and its provider answers
in time with a completion of this text, which must not carry the failure marker; whatever else
happens, it fails (`attempt_passes_iff`).
-/

namespace EndpointHealth.Client

open EndpointHealth.Http (isSuccess)

variable {ν : Type} {n : Network ν} {r : TestRequest} {e : Endpoint} {c : Call}
  {start sent passed t : Nat} {s s' : ν} {a : Arrival} {d : Delivery} {text : String}

/-! ### What a provider replies -/

namespace Chat

/-- A refusal after which the same call is sent again. -/
def Defers (a : Arrival) : Prop :=
  ∃ status doc why, a = .answer status (some doc) ∧ isSuccess status = false ∧
    Complaint.shape.ofDocument doc = .ok why ∧ isTooFast status (Complaint.ofRecord why) = true

/-- A call that has been sent `sent` times is replied to in the end, when `t` milliseconds have
passed: what arrives for it is no deferral, or it is one, and the call is sent again after a
pause. -/
inductive Settles (n : Network ν) (c : Call) (start : Nat) :
    Nat → Nat → ν → Nat → Arrival → Prop
  | arrived {sent passed t : Nat} {s s' : ν} {a : Arrival}
      (sends : n.send s (start + passed) c = (⟨some t, a⟩, s')) (final : ¬ Defers a) :
      Settles n c start sent passed s (passed + t) a
  | deferred {sent passed t next t' : Nat} {s s' : ν} {a a' : Arrival}
      (sends : n.send s (start + passed) c = (⟨some t, a⟩, s')) (defers : Defers a)
      (pause : next = passed + t + max 1 (n.pause sent)) (patient : next ≤ patience)
      (later : Settles n c start (sent + 1) next s' t' a') : Settles n c start sent passed s t' a'

end Chat

/-- The reply of an endpoint's provider to a request, after `t` milliseconds. -/
def Replies (n : Network ν) (e : Endpoint) (r : TestRequest) (start : Nat) (s : ν) (t : Nat)
    (a : Arrival) : Prop :=
  if e.provider = .anthropic then
    ∃ c, Messages.call e r = .ok c ∧ (n.send s start c).1 = ⟨some t, a⟩
  else ∃ c, Chat.call e r = .ok c ∧ Chat.Settles n c start 1 0 s t a

/-- The text of the completion that a document is, if it is one: the texts of all blocks together,
or what the first choice says, of which there must be one. What has no text has the empty one. -/
def completionText? (e : Endpoint) (doc : Bytes) : Option String :=
  if e.provider = .anthropic then
    match Messages.shape.ofDocument doc with
    | .ok (blocks, _) => some (String.join (blocks.map fun (text, ()) => text.getD ""))
    | .error _ => none
  else
    match Chat.shape.ofDocument doc with
    | .ok (_, choices, _) => choices.head?.map fun (_, (content, _), _) => content.getD ""
    | .error _ => none

/-- The provider replies in time with a completion of a text. -/
def Completes (n : Network ν) (e : Endpoint) (r : TestRequest) (start : Nat) (s : ν)
    (text : String) : Prop :=
  ∃ t status doc, Replies n e r start s t (.answer status (some doc)) ∧ t ≤ limit r ∧
    isSuccess status = true ∧ completionText? e doc = some text

theorem ofResult_eq_completed {φ : Type} {error : φ → TestError} {x : Except φ Completion}
    {k : Completion} : Outcome.ofResult error x = .completed k ↔ x = .ok k := by
  cases x <;> simp [Outcome.ofResult]

/-! ### The messages interface -/

theorem Messages.read_eq_ok {status : Nat} {body : Option Bytes} {k : Completion} :
    Messages.read status body = .ok k ↔ isSuccess status = true ∧
      ∃ doc x, body = some doc ∧ Messages.shape.ofDocument doc = .ok x ∧
        Messages.ofRecord x = k := by
  unfold Messages.read
  cases isSuccess status with
  | false => simp
  | true =>
    cases body with
    | none => simp
    | some doc => cases h : Messages.shape.ofDocument doc <;> simp [h]

theorem Messages.ask_completed_iff {k : Completion} :
    (Messages.ask n e r start s).1.outcome = .completed k ↔
      ∃ c t status doc, Messages.call e r = .ok c ∧
        (n.send s start c).1 = ⟨some t, .answer status (some doc)⟩ ∧ t ≤ limit r ∧
        Messages.read status (some doc) = .ok k := by
  unfold Messages.ask
  constructor
  · intro completed
    cases built : Messages.call e r with
    | error why => rw [built] at completed; cases completed
    | ok c =>
      rcases sends : n.send s start c with ⟨⟨after, arrival⟩, s'⟩
      simp only [built, sends] at completed
      cases after with
      | none => cases completed
      | some t =>
        dsimp only at completed
        split at completed
        · cases completed
        · rename_i inTime
          cases arrival with
          | nothing => cases completed
          | answer status body =>
            have read := ofResult_eq_completed.mp completed
            obtain ⟨-, doc, -, rfl, -⟩ := Messages.read_eq_ok.mp read
            exact ⟨c, t, status, doc, rfl, by rw [sends], Nat.le_of_not_lt inTime, read⟩
  · rintro ⟨c, t, status, doc, built, sends, inTime, read⟩
    simp only [built, sends, if_neg (Nat.not_lt_of_le inTime), read]
    rfl

theorem Messages.completionText_iff (family : e.provider = .anthropic) {status : Nat}
    {doc : Bytes} : isSuccess status = true ∧ completionText? e doc = some text ↔
      ∃ k, Messages.read status (some doc) = .ok k ∧ k.content = text := by
  simp only [Messages.read_eq_ok]
  unfold completionText?
  rw [if_pos family]
  constructor
  · rintro ⟨success, found⟩
    cases read : Messages.shape.ofDocument doc with
    | error f => rw [read] at found; cases found
    | ok x =>
      rw [read] at found
      exact ⟨Messages.ofRecord x, ⟨success, doc, x, rfl, read, rfl⟩, Option.some.inj found⟩
  · rintro ⟨k, ⟨success, doc', x, same, read, rfl⟩, content⟩
    cases same
    rw [read]
    exact ⟨success, congrArg some content⟩

theorem Messages.completed_iff (family : e.provider = .anthropic) :
    (∃ k, (Messages.ask n e r start s).1.outcome = .completed k ∧ k.content = text) ↔
      Completes n e r start s text := by
  unfold Completes Replies
  simp only [if_pos family, Messages.ask_completed_iff, Messages.completionText_iff family]
  constructor
  · rintro ⟨k, ⟨c, t, status, doc, built, sends, inTime, read⟩, content⟩
    exact ⟨t, status, doc, ⟨c, built, sends⟩, inTime, k, read, content⟩
  · rintro ⟨t, status, doc, ⟨c, built, sends⟩, inTime, k, read, content⟩
    exact ⟨k, ⟨c, t, status, doc, built, sends, inTime, read⟩, content⟩

/-! ### The chat interface -/

namespace Chat

theorem readCompletion_eq_ok {doc : Bytes} {k : Completion} :
    readCompletion doc = .ok k ↔ ∃ x, shape.ofDocument doc = .ok x ∧ ofRecord? x = some k := by
  unfold readCompletion
  cases shape.ofDocument doc with
  | error f => simp
  | ok x => cases first : ofRecord? x <;> simp [first]

theorem completionText_iff (family : e.provider ≠ .anthropic) {doc : Bytes} :
    completionText? e doc = some text ↔ ∃ k, readCompletion doc = .ok k ∧ k.content = text := by
  have first (x : shape.Carrier) : (ofRecord? x).map (·.content) = x.2.1.head?.map contentOf := by
    obtain ⟨id, choices, created, model, tier, fingerprint, object, usage, ⟨⟩⟩ := x
    exact Option.map_map ..
  simp only [readCompletion_eq_ok]
  unfold completionText?
  rw [if_neg family]
  constructor
  · intro found
    cases read : shape.ofDocument doc with
    | error f => rw [read] at found; cases found
    | ok x =>
      rw [read] at found
      obtain ⟨k, given, content⟩ := Option.map_eq_some_iff.mp ((first x).trans found)
      exact ⟨k, ⟨x, rfl, given⟩, content⟩
  · rintro ⟨k, ⟨x, read, given⟩, content⟩
    rw [read]
    exact (first x).symm.trans (by rw [given, Option.map_some, content])

theorem defers_iff {status : Nat} {body : Option Bytes} :
    Defers (.answer status body) ↔ ∃ why, read status body = .later why := by
  constructor
  · rintro ⟨status', doc, why, same, failure, complaint, tooFast⟩
    cases same
    exact ⟨Complaint.ofRecord why, by simp [read, failure, complaint, tooFast]⟩
  · rintro ⟨why, later⟩
    unfold read at later
    cases body with
    | none => cases later
    | some doc =>
      cases failure : isSuccess status with
      | true => simp [failure] at later
      | false =>
        cases complaint : Complaint.shape.ofDocument doc with
        | error f => simp [failure, complaint] at later
        | ok x =>
          refine ⟨status, doc, x, rfl, failure, complaint, ?_⟩
          cases tooFast : isTooFast status (Complaint.ofRecord x) with
          | true => rfl
          | false => simp [failure, complaint, tooFast] at later

theorem not_defers_success {status : Nat} {body : Option Bytes}
    (success : isSuccess status = true) : ¬ Defers (.answer status body) := by
  rintro ⟨status', doc, why, same, failure, -⟩
  cases same
  rw [success] at failure
  cases failure

theorem final_eq_ok {status : Nat} {body : Option Bytes} {result : Except Fault Completion}
    (final : read status body = .final result) {k : Completion} :
    result = .ok k ↔ ∃ doc, body = some doc ∧ isSuccess status = true ∧
      readCompletion doc = .ok k := by
  unfold read at final
  cases body with
  | none => cases final; simp
  | some doc =>
    cases success : isSuccess status with
    | true =>
      simp only [success, if_true, Verdict.final.injEq] at final
      subst final
      simp
    | false =>
      refine iff_of_false (fun completed => ?_) (by simp)
      subst completed
      cases complaint : Complaint.shape.ofDocument doc with
      | error f => simp [success, complaint] at final
      | ok x =>
        simp only [success, complaint, Bool.false_eq_true, if_false] at final
        split at final <;> cases final

theorem not_defers_nothing : ¬ Defers .nothing := by
  rintro ⟨status, doc, why, arrival, -⟩
  cases arrival

theorem settles_iff (sends : n.send s (start + passed) c = (d, s')) :
    Settles n c start sent passed s t a ↔ ∃ u, d.after = some u ∧
      (¬ Defers d.arrival ∧ t = passed + u ∧ a = d.arrival ∨
        Defers d.arrival ∧ passed + u + max 1 (n.pause sent) ≤ patience ∧
          Settles n c start (sent + 1) (passed + u + max 1 (n.pause sent)) s' t a) := by
  constructor
  · intro settles
    cases settles with
    | arrived sends' final =>
      cases sends.symm.trans sends'
      exact ⟨_, rfl, .inl ⟨final, rfl, rfl⟩⟩
    | deferred sends' defers pause patient later =>
      cases sends.symm.trans sends'
      subst pause
      exact ⟨_, rfl, .inr ⟨defers, patient, later⟩⟩
  · obtain ⟨after, arrival⟩ := d
    rintro ⟨u, answered, ⟨final, rfl, rfl⟩ | ⟨defers, patient, later⟩⟩
    · cases answered
      exact .arrived sends final
    · cases answered
      exact .deferred sends defers rfl patient later

theorem Settles.passed_le (settles : Settles n c start sent passed s t a) : passed ≤ t := by
  induction settles with
  | arrived sends final => exact Nat.le_add_right _ _
  | deferred sends defers pause patient later ih => omega

def Completed (n : Network ν) (r : TestRequest) (c : Call) (start sent passed : Nat) (s : ν)
    (k : Completion) : Prop :=
  ∃ t status doc, Settles n c start sent passed s t (.answer status (some doc)) ∧ t ≤ limit r ∧
    isSuccess status = true ∧ readCompletion doc = .ok k

theorem Completed.passed_le {k : Completion} (completed : Completed n r c start sent passed s k) :
    passed ≤ limit r := by
  obtain ⟨t, status, doc, settles, inTime, -⟩ := completed
  exact Nat.le_trans settles.passed_le inTime

theorem completed_iff {k : Completion} (sends : n.send s (start + passed) c = (d, s')) :
    Completed n r c start sent passed s k ↔ ∃ u, d.after = some u ∧
      (¬ Defers d.arrival ∧ passed + u ≤ limit r ∧ (∃ status doc,
          d.arrival = .answer status (some doc) ∧ isSuccess status = true ∧
            readCompletion doc = .ok k) ∨
        Defers d.arrival ∧ passed + u + max 1 (n.pause sent) ≤ patience ∧
          Completed n r c start (sent + 1) (passed + u + max 1 (n.pause sent)) s' k) := by
  unfold Completed
  simp only [settles_iff sends]
  constructor
  · rintro ⟨t, status, doc, ⟨u, answered, ⟨final, rfl, same⟩ | ⟨defers, patient, later⟩⟩, inTime,
      success, read⟩
    · exact ⟨u, answered, .inl ⟨final, inTime, status, doc, same.symm, success, read⟩⟩
    · exact ⟨u, answered, .inr ⟨defers, patient, t, status, doc, later, inTime, success, read⟩⟩
  · rintro ⟨u, answered, ⟨final, inTime, status, doc, same, success, read⟩ |
      ⟨defers, patient, t, status, doc, later, inTime, success, read⟩⟩
    · exact ⟨_, status, doc, ⟨u, answered, .inl ⟨final, rfl, same.symm⟩⟩, inTime, success, read⟩
    · exact ⟨t, status, doc, ⟨u, answered, .inr ⟨defers, patient, later⟩⟩, inTime, success, read⟩

/-- However often a call is sent again, what comes of it is told by the reply that settles it. -/
theorem converse_completed_iff {k : Completion} :
    (converse n r c start sent passed s).1.outcome = .completed k ↔
      Completed n r c start sent passed s k := by
  -- One case for each way in which a call comes back; only after the last one it is sent again.
  fun_induction converse n r c start sent passed s with
  | case1 sent passed s late d s' sends never =>
    rw [completed_iff sends, never]
    simp [late, Outcome.ofResult]
  | case2 sent passed s late d s' sends t answered now overdue =>
    rw [completed_iff sends, answered]
    refine iff_of_false (fun h => by cases h) ?_
    rintro ⟨u, same, ⟨-, inTime, -⟩ | ⟨-, -, later⟩⟩
    · cases same
      exact Nat.not_lt_of_le inTime overdue
    · cases same
      have := later.passed_le
      omega
  | case3 sent passed s d s' sends t answered now inTime nothing =>
    rw [completed_iff sends, nothing]
    refine iff_of_false (fun h => by cases h) ?_
    rintro ⟨u, -, ⟨-, -, status, doc, same, -⟩ | ⟨defers, -⟩⟩
    · cases same
    · exact not_defers_nothing defers
  | case4 sent passed s d s' sends t answered now inTime status body arrives result final =>
    have settled : ¬ Defers d.arrival := by
      rw [arrives, defers_iff, final]
      rintro ⟨why, h⟩
      cases h
    have inTime : passed + t ≤ limit r := Nat.le_of_not_lt inTime
    rw [completed_iff sends, answered, ofResult_eq_completed, final_eq_ok final, arrives]
    rw [arrives] at settled
    simp [settled, inTime, and_assoc]
  | case5 sent passed s d s' sends t answered now inTime status body arrives why again next tired =>
    have defers : Defers d.arrival := by
      rw [arrives]
      exact defers_iff.mpr ⟨why, again⟩
    rw [completed_iff sends]
    refine iff_of_false (fun h => by cases h) ?_
    rintro ⟨u, same, ⟨final, -⟩ | ⟨-, patient, -⟩⟩
    · exact final defers
    · cases answered.symm.trans same
      exact Nat.not_lt_of_le patient tired
  | case6 sent passed s _ d s' sends t answered now inTime status body arrives why again next _
      beyond =>
    rw [completed_iff sends, answered, arrives]
    refine iff_of_false (fun h => by cases h) ?_
    rintro ⟨u, same, ⟨final, -⟩ | ⟨-, -, later⟩⟩
    · exact final (defers_iff.mpr ⟨why, again⟩)
    · cases same
      exact Nat.not_lt_of_le later.passed_le beyond
  | case7 sent passed s d s' sends t answered now inTime status body arrives why again next patient
      _ ih =>
    have defers : Defers (.answer status body) := defers_iff.mpr ⟨why, again⟩
    rw [completed_iff sends, answered, arrives, ih]
    constructor
    · intro completed
      exact ⟨t, rfl, .inr ⟨defers, Nat.le_of_not_lt patient, completed⟩⟩
    · rintro ⟨u, same, ⟨final, -⟩ | ⟨-, -, later⟩⟩
      · exact absurd defers final
      · cases same
        exact later

theorem ask_completed_iff (legal : isHeaderText e.apiKey = true) {k : Completion} :
    (ask n e r start s).1.outcome = .completed k ↔
      ∃ c, call e r = .ok c ∧ Completed n r c start 1 0 s k := by
  unfold ask
  rw [if_neg (by simp [legal])]
  cases built : call e r with
  | error why => simp [Outcome.ofResult]
  | ok c => simp [converse_completed_iff]

end Chat

theorem Chat.completed_iff_completes (family : e.provider ≠ .anthropic)
    (legal : isHeaderText e.apiKey = true) :
    (∃ k, (Chat.ask n e r start s).1.outcome = .completed k ∧ k.content = text) ↔
      Completes n e r start s text := by
  unfold Completes Replies
  simp only [if_neg family, Chat.ask_completed_iff legal, Chat.completionText_iff family]
  constructor
  · rintro ⟨k, ⟨c, built, t, status, doc, settles, inTime, success, read⟩, content⟩
    exact ⟨t, status, doc, ⟨c, built, settles⟩, inTime, success, k, read, content⟩
  · rintro ⟨t, status, doc, ⟨c, built, settles⟩, inTime, success, k, read, content⟩
    exact ⟨k, ⟨c, built, t, status, doc, settles, inTime, success, read⟩, content⟩

/-! ### Attempts -/

theorem completed_iff (legal : isHeaderText e.apiKey = true) :
    (∃ k, (complete n e r start s).1.outcome = .completed k ∧ k.content = text) ↔
      Completes n e r start s text := by
  unfold complete
  split
  · rename_i family
    exact Messages.completed_iff family
  · rename_i family
    exact Chat.completed_iff_completes family legal

/-- An attempt passes if a completion comes whose text does not carry the marker. -/
theorem answer_passes_iff (id : EndpointId) (o : Outcome) :
    (o.answer id).1.outcome = .passed text ↔
      (∃ k, o = .completed k ∧ k.content = text) ∧ isFailure text = false := by
  rw [Prober.outcome_eq_passed_iff]
  cases o with
  | completed k => simp [Outcome.answer]
  | failed why =>
    simp only [Outcome.answer, Prober.Answer.text.injEq, reduceCtorEq, false_and, exists_false,
      iff_false]
    rintro ⟨rfl, plain⟩
    rw [isFailure_failureText] at plain
    cases plain
  | crashed => simp [Outcome.answer]

theorem not_breaksClient (legal : isHeaderText e.apiKey = true) :
    ¬ e.BreaksClient := fun breaks => by
  rw [(isHeaderText_eq_false_iff _).mpr breaks.2] at legal
  cases legal

theorem test_passes_iff (legal : isHeaderText e.apiKey = true) :
    ((test n e r start s).1.course r.timeout).outcome = .passed text ↔
      Completes n e r start s text ∧ isFailure text = false := by
  obtain ⟨d, inTime, answered⟩ := (test_sound n (not_breaksClient legal) r start s).1
  rw [course_of_le inTime answered, ← completed_iff legal]
  exact answer_passes_iff e.id _

theorem test_not_crashed (legal : isHeaderText e.apiKey = true) :
    ((test n e r start s).1.course r.timeout).outcome ≠ .crashed := by
  obtain ⟨⟨d, inTime, answered⟩, given, text⟩ := test_sound n (not_breaksClient legal) r start s
  intro crashed
  rw [(attempt_of_reply inTime answered).2, text] at crashed
  cases crashed

theorem course_atOnce (why : TestError) (timeout : UInt64) :
    ((atOnce why).course timeout).outcome = .failed (.failed why) := by
  simp [atOnce, Prober.Reply.course, Prober.Answer.outcome]

/-- The attempt that an endpoint of the registry is tested in, or why there is no such endpoint. -/
theorem registryTester_cases (n : Network ν) (b : Backend ν) (now : Nat) (r : TestRequest) :
    (∃ why, (registryTester n b now r).1 = atOnce why ∧
      ∀ e, b.broken = false → b.registry.get r.endpoint ≠ .ok (some e)) ∨
    ∃ e, b.broken = false ∧ b.registry.get r.endpoint = .ok (some e) ∧
      (registryTester n b now r).1 = (test n e r now b.provider).1 := by
  unfold registryTester
  cases locked : b.broken with
  | true => exact .inl ⟨_, rfl, fun e h => by cases h⟩
  | false =>
    cases held : b.registry.get r.endpoint with
    | error f => exact .inl ⟨_, rfl, fun e _ h => by cases h⟩
    | ok found =>
      cases found with
      | none => exact .inl ⟨_, rfl, fun e _ h => by cases h⟩
      | some e => exact .inr ⟨e, rfl, rfl, rfl⟩

/-- What an attempt through the registry comes to, whatever the registry holds and whatever the
provider does: it passes with a text exactly if the endpoint can be read and its provider completes
the request in time with this text, which does not carry the marker. Otherwise it fails, and it
never does because the text is empty. -/
theorem attempt_passes_iff (n : Network ν) (b : Backend ν) (now : Nat) (r : TestRequest)
    (legal : ∀ e, b.registry.get r.endpoint = .ok (some e) → isHeaderText e.apiKey = true) :
    let attempt := ((registryTester n b now r).1.course r.timeout).outcome
    (∀ text, attempt = .passed text ↔ b.broken = false ∧
      ∃ e, b.registry.get r.endpoint = .ok (some e) ∧ Completes n e r now b.provider text ∧
        isFailure text = false) ∧
    ((∀ text, attempt ≠ .passed text) → ∃ why, attempt = .failed why) ∧
    ∀ e, b.broken = false → b.registry.get r.endpoint = .ok (some e) →
      Completes n e r now b.provider "" → attempt = .passed "" := by
  dsimp only
  rcases registryTester_cases n b now r with ⟨why, given, absent⟩ | ⟨e, whole, held, given⟩
  · rw [given, course_atOnce]
    refine ⟨fun text => iff_of_false (fun h => by cases h) ?_, fun _ => ⟨_, rfl⟩,
      fun e whole held => absurd held (absent e whole)⟩
    rintro ⟨whole, e, held, -⟩
    exact absent e whole held
  · have passes (text : String) :
        ((test n e r now b.provider).1.course r.timeout).outcome = .passed text ↔
          Completes n e r now b.provider text ∧ isFailure text = false :=
      test_passes_iff (legal e held)
    have only {f : Endpoint} (h : b.registry.get r.endpoint = .ok (some f)) : f = e :=
      Option.some.inj (Except.ok.inj (h.symm.trans held))
    rw [given]
    refine ⟨fun text => ?_, fun never => ?_, fun f _ hf completes => ?_⟩
    · rw [passes]
      constructor
      · rintro ⟨completes, plain⟩
        exact ⟨whole, e, held, completes, plain⟩
      · rintro ⟨-, f, hf, completes, plain⟩
        rw [only hf] at completes
        exact ⟨completes, plain⟩
    · cases outcome : ((test n e r now b.provider).1.course r.timeout).outcome with
      | passed text => exact absurd outcome (never text)
      | failed why => exact ⟨why, rfl⟩
      | crashed => exact absurd outcome (test_not_crashed (legal e held))
    · rw [only hf] at completes
      exact (passes "").mpr ⟨completes, by decide⟩

def keyed : Endpoint where
  id := "m"
  name := "alias"
  provider := .openai
  model := "gpt-4o"
  apiBase := none
  apiKey := "k"
  isDefault := false

def complaint : Bytes := Text.Utf8.ofText <| Json.Value.toText <|
  .record [("error", .record [("message", .text "slow down")])]

def greeting : Bytes := Text.Utf8.ofText <| Json.Value.toText <|
  .record [("id", .text "c"), ("created", .ofNat 0), ("model", .text "m"), ("object", .text "o"),
    ("choices", .list [.record [("index", .ofNat 0),
      ("message", .record [("role", .text "assistant"), ("content", .text "Hi")])]])]

/-- A provider that refuses the first call and answers the second one. -/
def busy : Network Nat where
  send := fun s _ _ =>
    (⟨some 100, if s = 0 then .answer 429 (some complaint) else .answer 200 (some greeting)⟩, s + 1)
  pause := fun _ => 500

theorem attempt_passes_iff_deferred :
    ((registryTester busy ⟨⟨some [.ofEndpoint keyed]⟩, false, 0⟩ 0
      (Policy.standard.probeRequest "m")).1.course 2).outcome = .passed "Hi" := by
  have held : (⟨some [.ofEndpoint keyed]⟩ : Registry).get "m" = .ok (some keyed) := rfl
  have legal : isHeaderText keyed.apiKey = true := by decide
  obtain ⟨c, built⟩ : ∃ c, Chat.call keyed (Policy.standard.probeRequest "m") = .ok c := ⟨_, rfl⟩
  have complains :
      (Chat.Complaint.shape.ofDocument complaint).toOption.map Chat.Complaint.ofRecord =
        some ⟨"slow down", none, none, none⟩ := by decide +kernel
  have defers : Chat.Defers (.answer 429 (some complaint)) := by
    cases read : Chat.Complaint.shape.ofDocument complaint with
    | error f => rw [read] at complains; cases complains
    | ok why =>
      rw [read] at complains
      have said : Chat.Complaint.ofRecord why = _ := Option.some.inj complains
      exact ⟨429, complaint, why, rfl, rfl, read, by rw [said]; rfl⟩
  have settles : Chat.Settles busy c 0 1 0 0 700 (.answer 200 (some greeting)) :=
    .deferred rfl defers rfl (by decide)
      (show Chat.Settles busy c 0 2 600 1 (600 + 100) _ from
        .arrived rfl (Chat.not_defers_success rfl))
  refine ((attempt_passes_iff busy ⟨⟨some [.ofEndpoint keyed]⟩, false, 0⟩ 0 _ ?_).1 "Hi").mpr
    ⟨rfl, keyed, held, ⟨700, 200, greeting, ⟨c, built, settles⟩, by decide, rfl, by decide +kernel⟩,
      by decide⟩
  intro e he
  cases held.symm.trans he
  exact legal

end EndpointHealth.Client
