import EndpointHealth.Proofs.Http.Listings
import EndpointHealth.Proofs.Prober.Watching
import EndpointHealth.Proofs.Service.Launches
set_option autoImplicit false

/-!
Manual tests as their users see them, from the request to the answer. While a test is under way the
service goes on with other requests, which may remove the endpoint that is tested.

Main statement: a request to test is refused before anything is asked of the tester, or it makes one
call, is answered by what comes of it, and has the status of the endpoint set to success exactly if
the answer says so and the endpoint has not been removed (`test_answered_by_reply`).
-/

namespace EndpointHealth.Http

open EndpointHealth.Service (Confined Holds Attuned Concludes messageFor)

variable {τ : Type} {p : Service.Prober τ} {b : Book} {h l : Chronicle} {w v u : Service.State τ}
  {id : EndpointId}

/-! ### What a prober has gone through -/

theorem upholds_run (p : Service.Prober τ) : p.Upholds fun _ w => ∃ past, p.Run past w :=
  fun _ _ _ _ ⟨_, run⟩ step _ => ⟨_, run.step step⟩

theorem attuned_of_holds {Q : (EndpointId → Prop) → Service.State τ → Prop} (holds : Holds b w)
    (prober : Q (· ∈ w.env.registry.ids) w) : Attuned Q w :=
  ⟨holds.registry ▸ b.sound_registry, holds.whole, prober⟩

theorem run_of_served (confined : Confined p) (served : Served p h w) : ∃ past, p.Run past w := by
  induction served with
  | empty provider => exact ⟨[], _, .refl⟩
  | started before seeds seeded provider notices ih =>
    obtain ⟨past, -, steps⟩ := p.observe_steps _ _
    exact ⟨_, _, (Prober.Steps.single (.aside _ _)).trans steps⟩
  | handled before fresh r ih =>
    have holds := (holds_of_served confined before).2
    exact (attuned_handle confined (upholds_run p) (attuned_of_holds holds ih) fresh r).holds
  | work before next ih =>
    obtain ⟨past, run⟩ := ih
    exact ⟨_, run.step (.work next)⟩

theorem run_of_stocked (confined : Confined p) (stocked : Stocked p h w) :
    ∃ past, p.Run past w := by
  induction stocked with
  | served before => exact run_of_served confined before
  | seeded before seeds seeded notices ih => exact ih.imp fun _ run => run.step (.aside _ _)
  | handled before fresh r ih =>
    have holds := (holds_of_stocked confined before).2
    exact (attuned_handle confined (upholds_run p) (attuned_of_holds holds ih) fresh r).holds
  | work before next ih =>
    obtain ⟨past, run⟩ := ih
    exact ⟨_, run.step (.work next)⟩

/-! ### While the service is up -/

/-- What a service gets to by answering requests and working by itself, without being started again,
and what the requests have done to the registry. -/
inductive Onward (p : Service.Prober τ) (w : Service.State τ) : Chronicle → Service.State τ → Prop
  | refl : Onward p w [] w
  | handled {l : Chronicle} {v : Service.State τ} (before : Onward p w l v) (fresh : EndpointId)
      (r : Request) :
      Onward p w ((deed? fresh r (handle p fresh r v).1).toList ++ l) (handle p fresh r v).2
  | work {l : Chronicle} {v u : Service.State τ} {e : Option Prober.Event}
      (before : Onward p w l v) (next : p.Work v e u) : Onward p w l u

theorem Onward.proceeds (onward : Onward p w l v) (proceeds : p.Proceeds v u) :
    Onward p w l u := by
  induction proceeds with
  | refl => exact onward
  | work _ next ih => exact ih.work next

theorem attuned_of_onward {Q : (EndpointId → Prop) → Service.State τ → Prop}
    (confined : Confined p) (upholds : p.Upholds Q) (attuned : Attuned Q w)
    (onward : Onward p w l v) : Attuned Q v := by
  induction onward with
  | refl => exact attuned
  | handled before fresh r ih => exact attuned_handle confined upholds ih fresh r
  | work before next ih => exact Service.attuned_work confined upholds ih next

theorem deed_ne_started (fresh : EndpointId) (r : Request) (response : Response)
    (seeds : List Endpoint) : deed? fresh r response ≠ some (.started seeds) := by
  unfold deed?
  split
  · rename_i a _
    split
    · cases a with
      | add => simp [Action.deed?]
      | update id => simp [Action.deed?]
      | _ => nofun
    · nofun
  · nofun

theorem holds_of_onward (confined : Confined p) (lawful : h.Lawful) (holds : Holds h.book w)
    (onward : Onward p w l v) :
    Chronicle.Lawful (l ++ h) ∧ Holds (Chronicle.book (l ++ h)) v ∧
      ∀ seeds, .started seeds ∉ l := by
  induction onward with
  | refl => exact ⟨lawful, holds, by simp⟩
  | handled before fresh r ih =>
    obtain ⟨lawful, holds, unseeded⟩ := ih
    have entered := entered_chronicle lawful (entered_handle confined holds fresh r)
    rw [List.append_assoc]
    refine ⟨entered.1, entered.2, fun seeds seeded => ?_⟩
    rcases List.mem_append.mp seeded with seeded | seeded
    · exact deed_ne_started fresh r _ seeds (Option.mem_toList.mp seeded)
    · exact unseeded seeds seeded
  | work before next ih =>
    exact ⟨ih.1, ih.2.1.shelf (Service.sameShelf_of_work confined next), ih.2.2⟩

/-- An id stays taken until its endpoint is removed, and then is free for good unless it is given
again. -/
theorem mem_ids_since (held : id ∈ h.ids) (unseeded : ∀ seeds, .started seeds ∉ l)
    (fresh : ∀ req, .registered id req ∉ l) :
    id ∈ Chronicle.ids (l ++ h) ↔ .removed id ∉ l := by
  induction l with
  | nil => simpa using held
  | cons d l ih =>
    have ih := ih (fun seeds => mt (List.mem_cons_of_mem d) (unseeded seeds))
      (fun req => mt (List.mem_cons_of_mem d) (fresh req))
    show id ∈ d.leaves (Chronicle.ids (l ++ h)) ↔ _
    cases d with
    | started seeds => exact absurd (List.mem_cons_self ..) (unseeded seeds)
    | registered i req =>
      have other : id ≠ i := fun same => fresh req (same ▸ List.mem_cons_self ..)
      simpa [Deed.leaves, other] using ih
    | removed i =>
      by_cases same : id = i
      · simp [Deed.leaves, same]
      · simpa [Deed.leaves, same] using ih
    | edited i req => simpa [Deed.leaves] using ih
    | promoted i => simpa [Deed.leaves] using ih

/-! ### Requests to test -/

theorem withId_ne {segment : List Char} {action : EndpointId → Action} {a : Action}
    (other : ∀ i, action i ≠ a) : withId segment action ≠ .ok a := by
  unfold withId
  split
  · exact fun same => other _ (Except.ok.inj same)
  · nofun

theorem readOnly_ne {method : String} {a a' : Action} (other : a' ≠ a) :
    readOnly method a' ≠ .ok a := by
  unfold readOnly
  split
  · exact fun same => other (Except.ok.inj same)
  · nofun

theorem onEndpoint_ne_test (method : String) (segment : List Char) :
    onEndpoint method segment ≠ .ok (.test id) := by
  unfold onEndpoint
  split
  · exact withId_ne nofun
  · split
    · exact withId_ne nofun
    · split
      · exact withId_ne nofun
      · nofun

theorem method_of_posted {method : String} {asked : Except RouteFault Action} {a : Action}
    (done : posted method asked = .ok a) : method = "POST" := by
  unfold posted at done
  split at done
  · assumption
  · cases done

theorem method_of_test {method target : String}
    (action : actionOf method target = .ok (.test id)) : method = "POST" := by
  unfold actionOf at action
  split at action
  · cases action
  · unfold route at action
    split at action
    · exact absurd action (readOnly_ne nofun)
    · split at action
      · assumption
      · exact absurd action (readOnly_ne nofun)
    · exact absurd action (readOnly_ne nofun)
    · exact absurd action (readOnly_ne nofun)
    · split at action
      · cases action
      · exact absurd action (onEndpoint_ne_test _ _)
    · split at action
      · cases action
      · split at action
        · exact method_of_posted action
        · split at action
          · exact method_of_posted action
          · split at action
            · exact method_of_posted action
            · cases action
    · cases action

theorem get_of_holds (holds : Holds b w) (id : EndpointId) :
    Service.get id w = (match b.get? id with
      | some e => .ok e
      | none => .error (.unknownEndpoint id), w) := by
  have unnoted : w.note [] = w := by
    unfold Prober.World.note
    rw [List.append_nil]
  have read : w.env.registry.get id = .ok (b.get? id) := by
    rw [holds.registry, b.get_registry]
  unfold Service.get
  rw [reading_ok holds.whole read, unnoted]
  cases b.get? id <;> rfl

theorem handle_test_tooLong {r : Request} (action : actionOf r.method r.target = .ok (.test id))
    (long : maxBody < r.body.length) (p : Service.Prober τ) (fresh : EndpointId)
    (w : Service.State τ) : handle p fresh r w = (.now tooLong, w) := by
  rw [handle_of_action action, method_of_test action]
  unfold perform
  dsimp only
  rw [if_pos long]
  rfl

theorem handle_test_unreadable {r : Request} {why : ServiceError}
    (action : actionOf r.method r.target = .ok (.test id)) (short : r.body.length ≤ maxBody)
    (unread : testMessage r.body = .error why) (p : Service.Prober τ) (fresh : EndpointId)
    (w : Service.State τ) : handle p fresh r w = (.now (.error why), w) := by
  rw [handle_of_action action, method_of_test action]
  unfold perform
  dsimp only
  rw [if_neg (Nat.not_lt_of_le short), unread]
  rfl

theorem handle_test_absent {r : Request} {message : Option String}
    (action : actionOf r.method r.target = .ok (.test id)) (short : r.body.length ≤ maxBody)
    (read : testMessage r.body = .ok message) (holds : Holds b w) (absent : id ∉ b.ids)
    (p : Service.Prober τ) (fresh : EndpointId) :
    handle p fresh r w = (.now (.error (.unknownEndpoint id)), w) := by
  rw [handle_of_action action, method_of_test action]
  unfold perform Service.test
  dsimp only
  rw [if_neg (Nat.not_lt_of_le short), read, get_of_holds holds,
    Book.get?_eq_none_iff.mpr absent]
  rfl

theorem handle_test_held {r : Request} {message : Option String}
    (action : actionOf r.method r.target = .ok (.test id)) (short : r.body.length ≤ maxBody)
    (read : testMessage r.body = .ok message) (holds : Holds b w) (held : id ∈ b.ids)
    (p : Service.Prober τ) (fresh : EndpointId) :
    handle p fresh r w = (.later w.ledger.next, p.test id (messageFor p message) w) := by
  obtain ⟨e, found⟩ : ∃ e, b.get? id = some e :=
    Option.ne_none_iff_exists'.mp (mt Book.get?_eq_none_iff.mp (not_not.mpr held))
  rw [handle_of_action action, method_of_test action]
  unfold perform Service.test
  dsimp only
  rw [if_neg (Nat.not_lt_of_le short), read, get_of_holds holds, found]
  rfl

/-! ### Answers -/

/-- What a manual test answers to a reply: a text if it comes in time, with or without the failure
marker, or an error. If the tester breaks there is no answer. -/
def replyAnswer? (timeout : UInt64) (r : Prober.Reply) : Option Answer :=
  if r.after.any (· ≤ Prober.bound timeout) then
    match r.answer with
    | .text s => some (.json 200 (report ⟨!isFailure s, s⟩))
    | .error why => some (.error (.test why))
    | .crash => none
  else some (.error (.test (.timeout timeout)))

theorem testAnswer_course (r : Prober.Reply) (timeout : UInt64) :
    testAnswer (r.course timeout).result = replyAnswer? timeout r := by
  have late : testAnswer (Prober.Course.result
      ⟨Prober.bound timeout, .failed (.timedOut timeout), []⟩) =
        some (.error (.test (.timeout timeout))) := rfl
  unfold Prober.Reply.course replyAnswer?
  cases r.after with
  | none => exact late
  | some d =>
    by_cases inTime : d ≤ Prober.bound timeout
    · simp only [Option.any_some, decide_eq_true inTime, if_true, if_pos inTime]
      cases r.answer with
      | text s =>
        cases marked : isFailure s with
        | true => simp [Prober.Answer.outcome, Prober.Course.result, testAnswer, marked,
            Service.TestReport.ofText]
        | false => simp [Prober.Answer.outcome, Prober.Course.result, testAnswer, marked,
            Service.TestReport.ofText]
      | error why => rfl
      | crash => rfl
    · simp only [Option.any_some, decide_eq_false inTime, if_neg inTime]
      exact late

theorem error_status (e : ServiceError) : 400 ≤ (Answer.error e).status := by
  show 400 ≤ e.kind.status
  cases e.kind <;> decide

theorem error_ne_json (e : ServiceError) (x : Json.Value) :
    Answer.error e ≠ .json 200 x := fun same => by
  have status := error_status e
  rw [same] at status
  exact absurd status (by decide : ¬ 400 ≤ 200)

theorem replyAnswer_success_iff (r : Prober.Reply) (timeout : UInt64) (s : String) :
    replyAnswer? timeout r = some (.json 200 (report ⟨true, s⟩)) ↔
      (∃ d, r.after = some d ∧ d ≤ Prober.bound timeout) ∧ r.answer = .text s ∧
        isFailure s = false := by
  have inTime : r.after.any (· ≤ Prober.bound timeout) = true ↔
      ∃ d, r.after = some d ∧ d ≤ Prober.bound timeout := by simp [Option.any_eq_true]
  unfold replyAnswer?
  split
  · rename_i timely
    rw [and_iff_right (inTime.mp timely)]
    cases r.answer with
    | text t =>
      simp only [Option.some.injEq, Answer.json, report, Answer.mk.injEq, Body.json.injEq,
        Json.Value.record.injEq, List.cons.injEq, Prod.mk.injEq, Json.Value.flag.injEq,
        Json.Value.text.injEq, Bool.not_eq_true', Prober.Answer.text.injEq, true_and, and_true]
      exact ⟨fun ⟨plain, same⟩ => ⟨same, same ▸ plain⟩, fun ⟨same, plain⟩ => ⟨same ▸ plain, same⟩⟩
    | error why =>
      exact iff_of_false (fun h => error_ne_json _ _ (Option.some.inj h)) (fun h => nomatch h.1)
    | crash => exact iff_of_false nofun (fun h => nomatch h.1)
  · rename_i late
    refine iff_of_false (fun h => error_ne_json _ _ (Option.some.inj h)) fun h => ?_
    exact late (inTime.mpr h.1)

theorem passes_course_iff (r : Prober.Reply) (timeout : UInt64) :
    (r.course timeout).passes = true ↔
      ∃ s, replyAnswer? timeout r = some (.json 200 (report ⟨true, s⟩)) := by
  simp only [replyAnswer_success_iff, ← Prober.outcome_passed_iff]
  unfold Prober.Course.passes
  cases (r.course timeout).outcome <;> simp

/-- Where no text comes in time the answer, if there is one, is an error. -/
theorem status_of_failing {r : Prober.Reply} {timeout : UInt64}
    (failing : ¬ ((∃ d, r.after = some d ∧ d ≤ Prober.bound timeout) ∧ ∃ s, r.answer = .text s))
    {a : Answer} (answered : replyAnswer? timeout r = some a) : 400 ≤ a.status := by
  unfold replyAnswer? at answered
  split at answered
  · rename_i timely
    cases h : r.answer with
    | text s => exact absurd ⟨by simpa [Option.any_eq_true] using timely, s, h⟩ failing
    | error why =>
      rw [h] at answered
      cases answered
      exact error_status _
    | crash =>
      rw [h] at answered
      cases answered
  · cases answered
    exact error_status _

/-! ### From the request to the answer -/

/-- A manual test that gets a reply, from the state in which it has just been begun, whatever else
the service does meanwhile, short of being started again. -/
structure Trial (p : Service.Prober τ) (t : Prober.ManualTest) (reply : Prober.Reply)
    (begun : Service.State τ) (response : Response) : Prop where
  /-- It is answered when it has ended. -/
  running : ∀ {l v}, Onward p begun l v →
    (t ∈ v.tests ∧ answer? response v = none) ∨
    (t ∉ v.tests ∧ answer? response v = replyAnswer? p.policy.manualTimeout reply)
  failing : ∀ {l v a}, Onward p begun l v →
    ¬ ((∃ d, reply.after = some d ∧ d ≤ Prober.bound p.policy.manualTimeout) ∧
      ∃ s, reply.answer = .text s) → answer? response v = some a → 400 ≤ a.status
  ends : ∀ {l v}, Onward p begun l v → t ∉ (p.await t.number v).tests
  /-- It makes no call but the first one. -/
  calls : ∀ {l v u}, Onward p begun l v → Concludes p t v u → u.calls = v.calls
  /-- At its end it writes a success if that is what it reports and its endpoint is registered. -/
  written : ∀ {l v u}, Onward p begun l v → Concludes p t v u →
    (∃ s, answer? response u = some (.json 200 (report ⟨true, s⟩))) →
    t.endpoint ∈ v.env.registry.ids → u.ledger = v.ledger.write t.endpoint .success
  unwritten : ∀ {l v u}, Onward p begun l v → Concludes p t v u →
    ¬ ((∃ s, answer? response u = some (.json 200 (report ⟨true, s⟩))) ∧
      t.endpoint ∈ v.env.registry.ids) → u.ledger = v.ledger
  /-- Its endpoint is registered until it is removed, unless the id is given again. -/
  registered : ∀ {l v}, Onward p begun l v → (∀ req, .registered t.endpoint req ∉ l) →
    (t.endpoint ∈ v.env.registry.ids ↔ .removed t.endpoint ∉ l)

theorem answer_of_unended {number : Nat} (unended : v.result? number = none) :
    answer? (.later number) v = none := by
  show (v.result? number).bind _ = none
  rw [unended]
  rfl

theorem answer_of_ended {number time : Nat} {x : Prober.Result}
    (ended : v.result? number = some ⟨number, time, x⟩) :
    answer? (.later number) v = testAnswer x := by
  show (v.result? number).bind _ = _
  rw [ended]
  rfl

/-- How a test that is watched ends: it makes no further call, and writes a success if that is what
it reports and its endpoint is known. -/
theorem concludes_of_watches {t : Prober.ManualTest} {due : Nat} {reply : Prober.Reply}
    {known : EndpointId → Prop}
    (watches : p.Watches t due (reply.course p.policy.manualTimeout) known v)
    (concludes : Concludes p t v u) :
    let success := ∃ s, answer? (.later t.number) u = some (.json 200 (report ⟨true, s⟩))
    u.calls = v.calls ∧
    (success → known t.endpoint → u.ledger = v.ledger.write t.endpoint .success) ∧
    (¬ (success ∧ known t.endpoint) → u.ledger = v.ledger) := by
  obtain ⟨a, b, due', c, split, left⟩ := concludes
  obtain ⟨-, ended, calls, written, unwritten⟩ := watches.concluded split left
  rw [answer_of_ended ended, testAnswer_course, ← passes_course_iff]
  exact ⟨calls, written, unwritten⟩

theorem trial_of_watches {t : Prober.ManualTest} {due : Nat} {reply : Prober.Reply}
    (watches : ∀ {l v}, Onward p w l v →
      p.Watches t due (reply.course p.policy.manualTimeout) (· ∈ v.env.registry.ids) v)
    (registered : ∀ {l v}, Onward p w l v → (∀ req, .registered t.endpoint req ∉ l) →
      (t.endpoint ∈ v.env.registry.ids ↔ .removed t.endpoint ∉ l)) :
    Trial p t reply w (.later t.number) where
  running onward := by
    rcases (watches onward).running with ⟨waiting, unended⟩ | ⟨passed, time, ended⟩
    · exact .inl ⟨waiting, answer_of_unended unended⟩
    · exact .inr ⟨passed, (answer_of_ended ended).trans (testAnswer_course ..)⟩
  failing onward failing answered := by
    rcases (watches onward).running with ⟨-, unended⟩ | ⟨-, time, ended⟩
    · cases (answer_of_unended unended).symm.trans answered
    · rw [answer_of_ended ended, testAnswer_course] at answered
      exact status_of_failing failing answered
  ends onward := (watches onward).await
  calls onward concludes := (concludes_of_watches (watches onward) concludes).1
  written onward concludes := (concludes_of_watches (watches onward) concludes).2.1
  unwritten onward concludes := (concludes_of_watches (watches onward) concludes).2.2
  registered := registered

theorem trial_of_launch (confined : Confined p) (lawful : h.Lawful) (holds : Holds h.book w)
    (run : ∃ past, p.Run past w) (held : id ∈ h.ids) (message : String) :
    Trial p ⟨id, w.ledger.next⟩ (p.tester w.env w.now (p.policy.manualRequest id message)).1
      (p.launchTest id message w) (.later w.ledger.next) := by
  obtain ⟨past, run⟩ := run
  have same : Service.SameShelf w (p.launchTest id message w) := confined _ _ _
  have launched := holds.shelf same
  have ids {l : Chronicle} {v : Service.State τ} (lawful : Chronicle.Lawful l)
      (holds : Holds l.book v) : v.env.registry.ids = l.ids := by
    rw [holds.registry, Book.ids_registry, Chronicle.ids_book lawful]
  have known : id ∈ (p.launchTest id message w).env.registry.ids := ids lawful launched ▸ held
  have watched : p.Watches _ _ _ (· ∈ (p.launchTest id message w).env.registry.ids)
      (p.launchTest id message w) := Prober.watches_launchTest run known message
  have begun := attuned_of_holds launched watched
  have watches {l : Chronicle} {v : Service.State τ}
      (onward : Onward p (p.launchTest id message w) l v) :=
    (attuned_of_onward confined (p.upholds_watches _ _ _) begun onward).holds
  refine trial_of_watches watches fun {l v} onward fresh => ?_
  obtain ⟨lawful', holds', unseeded⟩ := holds_of_onward confined lawful launched onward
  rw [ids lawful' holds']
  exact mem_ids_since held unseeded fresh

/-- A request to test an endpoint. If its body is too long or cannot be read, or the endpoint is not
registered, it is refused, and nothing is done. Otherwise one call is made, with the message as
prompt unless it is missing or blank, and a trial is begun with the tester's reply. -/
theorem test_answered_by_reply (confined : Confined p) (stocked : Stocked p h w)
    (fresh : EndpointId) {r : Request} (action : actionOf r.method r.target = .ok (.test id)) :
    let x := handle p fresh r w
    (maxBody < r.body.length → x = (.now tooLong, w)) ∧
    (r.body.length ≤ maxBody →
      (∀ f, r.body ≠ [] → TestMessage.shape.ofDocument r.body = .error f →
        x = (.now (.json 400
          (.record [("error", .text ("invalid test request: " ++ f.message r.body))])), w)) ∧
      ∀ message, testMessage r.body = .ok message →
        (id ∉ h.ids →
          x = (.now (.json 404 (.record [("error", .text ("Model not found: " ++ id))])), w)) ∧
        (id ∈ h.ids →
          let request := p.policy.manualRequest id (messageFor p message)
          let begun := p.launchTest id (messageFor p message) w
          x.1 = .later w.ledger.next ∧
          x.2.calls = w.calls ++ [⟨w.now, request⟩] ∧
          Onward p begun [] x.2 ∧
          Trial p ⟨id, w.ledger.next⟩ (p.tester w.env w.now request).1 begun x.1)) := by
  obtain ⟨lawful, holds⟩ := holds_of_stocked confined stocked
  have ids : h.book.ids = h.ids := Chronicle.ids_book lawful
  refine ⟨fun long => handle_test_tooLong action long p fresh w, fun short =>
    ⟨fun f filled unread => ?_, fun message read => ⟨fun absent => ?_, fun held => ?_⟩⟩⟩
  · have refused : testMessage r.body = .error (.unreadableTest (f.message r.body)) := by
      rw [testMessage, if_neg filled, unread]
    exact handle_test_unreadable action short refused p fresh w
  · exact handle_test_absent action short read holds (ids ▸ absent) p fresh
  · have begun := Onward.refl.proceeds (p.test_proceeds id (messageFor p message) w)
    have asks := (p.test_docket id (messageFor p message) w).1
    rw [handle_test_held action short read holds (ids ▸ held) p fresh]
    exact ⟨rfl, asks.calls, begun,
      trial_of_launch confined lawful holds (run_of_stocked confined stocked) held _⟩

def added : Service.State Unit := (handle slow "m" adding (.start ⟨.empty, false, ()⟩)).2

def trying : Service.State Unit := slow.launchTest "m" slow.policy.prompt added

/-- It is removed before the test has passed. -/
def dropped : Service.State Unit := (handle slow "" ⟨"DELETE", "/models/m", none, []⟩ trying).2

theorem stocked_added : Stocked slow
    ((deed? "m" adding (handle slow "m" adding (.start ⟨.empty, false, ()⟩)).1).toList ++ [])
    added :=
  .served ((Served.empty ()).handled "m" adding)

/-- The test passes while the first probe is still under way, with the endpoint there or gone. -/
theorem test_answered_by_reply_removed : ∃ u u', Concludes slow ⟨"m", 2⟩ trying u ∧
    Concludes slow ⟨"m", 2⟩ dropped u' ∧ u.ledger = trying.ledger.write "m" .success ∧
      u'.ledger = dropped.ledger ∧ u'.status? "m" = none := by
  obtain ⟨-, read⟩ := test_answered_by_reply confined_slow stocked_added ""
    (r := ⟨"POST", "/models/m/test", none, []⟩) rfl
  obtain ⟨-, -, -, trial⟩ := ((read (Nat.zero_le _)).2 none rfl).2 (by decide +kernel)
  have removing : Onward slow trying _ dropped :=
    Onward.refl.handled "" ⟨"DELETE", "/models/m", none, []⟩
  have passed : Concludes slow ⟨"m", 2⟩ trying _ :=
    ⟨[⟨0, .attempt ⟨"m", 1⟩ 4⟩], [], 1000, ⟨1000, .passed "pong", []⟩, rfl, rfl⟩
  have gone : Concludes slow ⟨"m", 2⟩ dropped _ :=
    ⟨[⟨0, .attempt ⟨"m", 1⟩ 4⟩], [], 1000, ⟨1000, .passed "pong", []⟩, rfl, rfl⟩
  refine ⟨_, _, passed, gone, ?_, ?_, by decide +kernel⟩
  · exact trial.written .refl passed ⟨"pong", rfl⟩ (by decide +kernel)
  · exact trial.unwritten removing gone fun held => absurd held.2 (by decide +kernel)

/-- A body that is too long is answered neither as one that cannot be read nor by a test. -/
theorem overlong_untested :
    ¬ ∀ (h : Chronicle) (w : Service.State Unit) (id : EndpointId) (r : Request),
      Stocked slow h w → actionOf r.method r.target = .ok (.test id) → id ∈ h.ids →
      (∃ a, (handle slow "" r w).1 = .now a ∧ a.status = 400) ∨
        ∃ c, (handle slow "" r w).2.calls = w.calls ++ [c] := by
  intro always
  have long : maxBody < (List.replicate (maxBody + 1) (0x78 : UInt8)).length := by
    rw [List.length_replicate]
    exact Nat.lt_succ_self _
  have action : actionOf "POST" "/models/m/test" = .ok (.test "m") := rfl
  have refused := always _ _ "m" ⟨"POST", "/models/m/test", none, List.replicate (maxBody + 1) 0x78⟩
    stocked_added action (by decide +kernel)
  rw [handle_test_tooLong action long] at refused
  rcases refused with ⟨a, same, status⟩ | ⟨c, calls⟩
  · cases same
    cases status
  · simpa using congrArg List.length calls

end EndpointHealth.Http
