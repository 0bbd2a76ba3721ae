import EndpointHealth.Proofs.Service.Shadows
set_option autoImplicit false

/-!
Secrecy of keys. Two services are asked for the same with different keys, and their testers reply
the same: both go on like one shadow, which recites these replies to them.

Main statement: nothing in their answers tells the keys apart (`answers_keyless`).
-/

namespace EndpointHealth.Http

open EndpointHealth.Service (Confined Follows Shadows Parallel reciting replies)
open EndpointHealth.Prober (Reply)

variable {τ : Type} {p : Service.Prober τ} {w : Service.State τ}

/-! ### Requests -/

/-- What a body writes, unless it is too long or cannot be read. -/
def written? (s : Json.Shape) (body : Bytes) : Option s.Carrier :=
  if maxBody < body.length then none else (s.ofDocument body).toOption

/-- Two requests that are the same but for the key in a body that can be read, by which an endpoint
is registered or edited. -/
inductive Request.Alike (r : Request) : Request → Prop where
  | same : r.Alike r
  | register {body : Bytes} {x y : Registration.shape.Carrier}
      (action : actionOf r.method r.target = .ok .add)
      (written : written? Registration.shape r.body = some x)
      (written' : written? Registration.shape body = some y)
      (alike : (Registration.ofRecord x).Alike (.ofRecord y)) : r.Alike { r with body := body }
  | update {id : EndpointId} {body : Bytes} {x y : Edit.shape.Carrier}
      (action : actionOf r.method r.target = .ok (.update id))
      (written : written? Edit.shape r.body = some x)
      (written' : written? Edit.shape body = some y)
      (alike : (Edit.ofRecord x).Alike (.ofRecord y)) : r.Alike { r with body := body }

theorem read_of_written {s : Json.Shape} {r : Request} {x : s.Carrier}
    (written : written? s r.body = some x) :
    r.read s = if !r.saysJson then
      .error (.plain 415 "Expected request with `Content-Type: application/json`") else .ok x := by
  unfold written? at written
  unfold Request.read
  split at written
  · cases written
  · rename_i short
    rw [if_neg short]
    cases h : s.ofDocument r.body with
    | error f =>
      rw [h] at written
      cases written
    | ok x' =>
      rw [h] at written
      cases written
      rfl

/-- Two requests whose bodies can be read are both read, or refused by the same answer. -/
theorem reads_of_written {s : Json.Shape} {r : Request} {body : Bytes} {x x' : s.Carrier}
    (written : written? s r.body = some x) (written' : written? s body = some x') :
    (∃ a, r.read s = .error a ∧ { r with body := body }.read s = .error a) ∨
      (r.read s = .ok x ∧ { r with body := body }.read s = .ok x') := by
  have read := read_of_written written
  have read' := read_of_written (r := { r with body := body }) written'
  have saysJson : Request.saysJson { r with body := body } = r.saysJson := rfl
  rw [saysJson] at read'
  cases json : r.saysJson with
  | false =>
    rw [json] at read read'
    exact .inl ⟨_, read, read'⟩
  | true =>
    rw [json] at read read'
    exact .inr ⟨read, read'⟩

def resultAnswer {α : Type} (f : α → Answer) : Except ServiceError α → Response
  | .ok a => .now (f a)
  | .error e => .now (.error e)

theorem answered_eq {α : Type} (f : α → Answer) (x : Except ServiceError α × Service.State τ) :
    answered f x = (resultAnswer f x.1, x.2) := by
  obtain ⟨result, v⟩ := x
  cases result <;> rfl

theorem follows_answered {α : Type} {f : α → α} {g : α → Answer}
    {x : Except ServiceError α × Service.State τ}
    {y : Service.State (List Reply) → Except ServiceError α × Service.State (List Reply)}
    (parallel : Parallel f w x y) (keyless : ∀ a, g (f a) = g a) :
    Follows p w (answered g x) (fun v => answered g (y v)) := by
  have hidden (result : Except ServiceError α) :
      resultAnswer g result = resultAnswer g (result.map f) := by
    cases result with
    | error why => rfl
    | ok a => exact congrArg Response.now (keyless a).symm
  have answer {τ : Type} (x : Except ServiceError α × Service.State τ) :
      answered g x = (resultAnswer g (x.1.map f), x.2) := by rw [answered_eq, ← hidden]
  simp only [answer]
  exact Service.follows_map (Service.follows_of_parallel parallel) (resultAnswer g)

theorem listed_hide (es : List (Endpoint × Option Status)) :
    (Service.hideListed es).map (fun (e, s) => listed e s) = es.map fun (e, s) => listed e s := by
  rw [Service.hideListed, List.map_map]
  rfl

/-- The response to a manual test that has been started, unless it was refused. -/
def testResponse : Except ServiceError Nat → Response
  | .ok number => .later number
  | .error e => .now (.error e)

theorem perform_test {r : Request} {message : Option String} (short : ¬maxBody < r.body.length)
    (hmessage : testMessage r.body = .ok message) (p : Service.Prober τ) (fresh id : EndpointId)
    (w : Service.State τ) : perform p fresh r (.test id) w =
      (testResponse (Service.test p id message w).1, (Service.test p id message w).2) := by
  unfold perform
  dsimp only
  rw [if_neg short, hmessage]
  dsimp only
  generalize Service.test p id message w = x
  obtain ⟨result, v⟩ := x
  cases result <;> rfl

theorem perform_follows (confined : Confined p) (fresh : EndpointId) (r : Request) (a : Action)
    (w : Service.State τ) :
    Follows p w (perform p fresh r a w) (perform (reciting p.policy) fresh r a) := by
  cases a with
  | health => exact Service.follows_now p _ w
  | list => exact follows_answered (Service.list_parallel w) fun es => by rw [listed_hide]
  | add =>
    unfold perform
    dsimp only
    split
    · exact Service.follows_now p _ w
    · exact follows_answered ((Service.register_parallel fresh rfl _).note _) fun _ => rfl
  | getDefault => exact follows_answered (Service.getDefault_parallel w) fun _ => rfl
  | statuses =>
    refine ⟨[], (List.append_nil _).symm, fun left v shadows => ⟨?_, shadows⟩⟩
    exact congrArg (fun d => Response.now (.json 200 (statusTable d.ledger.statuses)))
      shadows.docket
  | get id => exact follows_answered (Service.get_parallel id w) fun _ => rfl
  | update id =>
    unfold perform
    dsimp only
    split
    · exact Service.follows_now p _ w
    · exact follows_answered (Service.update_parallel id rfl w) fun _ => rfl
  | remove id => exact follows_answered (Service.remove_parallel id w) fun _ => rfl
  | setDefault id => exact follows_answered (Service.setDefault_parallel id w) fun _ => rfl
  | probe id => exact follows_answered (Service.probe_parallel id w) fun _ => rfl
  | test id =>
    by_cases long : maxBody < r.body.length
    · unfold perform
      simp only [if_pos long]
      exact Service.follows_now p _ w
    · cases hmessage : testMessage r.body with
      | error why =>
        unfold perform
        simp only [if_neg long, hmessage]
        exact Service.follows_now p _ w
      | ok message =>
        simp only [funext (perform_test long hmessage (reciting p.policy) fresh id),
          perform_test long hmessage p fresh id w]
        exact Service.follows_map (Service.test_follows confined id message w) testResponse

theorem alike_follows (confined : Confined p) (fresh : EndpointId) {r r' : Request}
    (alike : r.Alike r') {a : Action} (ha : actionOf r.method r.target = .ok a)
    (w : Service.State τ) :
    Follows p w (perform p fresh r a w) (perform (reciting p.policy) fresh r' a) := by
  cases alike with
  | same => exact perform_follows confined fresh r a w
  | register action written written' alike =>
    cases ha.symm.trans action
    unfold perform
    rcases reads_of_written written written' with ⟨a, read, read'⟩ | ⟨read, read'⟩
    · simp only [read, read']
      exact Service.follows_now p _ w
    · simp only [read, read']
      exact follows_answered ((Service.register_parallel fresh alike.hide_eq _).note _) fun _ => rfl
  | update action written written' alike =>
    cases ha.symm.trans action
    unfold perform
    rcases reads_of_written written written' with ⟨a, read, read'⟩ | ⟨read, read'⟩
    · simp only [read, read']
      exact Service.follows_now p _ w
    · simp only [read, read']
      exact follows_answered (Service.update_parallel _ alike.hide_eq w) fun _ => rfl

theorem handle_follows (confined : Confined p) (fresh : EndpointId) {r r' : Request}
    (alike : r.Alike r') (w : Service.State τ) :
    Follows p w (handle p fresh r w) (handle (reciting p.policy) fresh r') := by
  have method : r'.method = r.method := by cases alike <;> rfl
  have target : r'.target = r.target := by cases alike <;> rfl
  unfold handle
  rw [method, target]
  split
  · exact Service.follows_now p _ w
  · exact Service.follows_now p _ w
  · exact Service.follows_now p _ w
  · rename_i a ha
    exact Service.follows_map (alike_follows confined fresh alike ha w) (·.to r.method)

/-! ### Runs -/

/-- What a service goes through: a request, or time that passes, also until a test has ended. -/
inductive Move where
  | request (fresh : EndpointId) (r : Request)
  | advance (ms : Nat)
  | await (number : Nat)

/-- Two moves that are the same but for the key in a request. -/
inductive Move.Alike : Move → Move → Prop where
  | request (fresh : EndpointId) {r r' : Request} (alike : r.Alike r') :
    Alike (.request fresh r) (.request fresh r')
  | advance (ms : Nat) : Alike (.advance ms) (.advance ms)
  | await (number : Nat) : Alike (.await number) (.await number)

def Move.run (p : Service.Prober τ) (w : Service.State τ) :
    Move → Option Response × Service.State τ
  | .request fresh r => (some (handle p fresh r w).1, (handle p fresh r w).2)
  | .advance ms => (none, p.advance ms w)
  | .await number => (none, p.await number w)

def run (p : Service.Prober τ) : List Move → Service.State τ → List Response × Service.State τ
  | [], w => ([], w)
  | m :: ms, w =>
    let (response, v) := m.run p w
    let (responses, u) := run p ms v
    (response.toList ++ responses, u)

def answers (p : Service.Prober τ) (ms : List Move) (w : Service.State τ) : List (Option Answer) :=
  let (responses, v) := run p ms w
  responses.map (answer? · v)

/-- What the tester replies, one call after another, apart from what it puts on record. -/
def heard (p : Service.Prober τ) : List Move → Service.State τ → List Reply
  | [], _ => []
  | m :: ms, w =>
    let v := (m.run p w).2
    replies p w.env (v.calls.drop w.calls.length) ++ heard p ms v

theorem move_follows (confined : Confined p) {m m' : Move} (alike : m.Alike m')
    (w : Service.State τ) :
    Follows p w (m.run p w) (fun v => m'.run (reciting p.policy) v) := by
  cases alike with
  | request fresh alike => exact Service.follows_map (handle_follows confined fresh alike w) some
  | advance ms =>
    have echoes := EndpointHealth.Prober.advance_echoes (p := p) (q := reciting p.policy) rfl ms w
    exact Service.follows_of_echoes confined echoes none
  | await number =>
    have echoes := EndpointHealth.Prober.await_echoes (p := p) (q := reciting p.policy) rfl number w
    exact Service.follows_of_echoes confined echoes none

theorem run_shadows (confined : Confined p) {ms ms' : List Move}
    (alike : List.Forall₂ Move.Alike ms ms') (w : Service.State τ) (left : List Reply)
    (v : Service.State (List Reply)) (shadows : Shadows w (heard p ms w ++ left) v) :
    (run (reciting p.policy) ms' v).1 = (run p ms w).1 ∧
      Shadows (run p ms w).2 left (run (reciting p.policy) ms' v).2 := by
  induction alike generalizing w v with
  | nil => exact ⟨rfl, shadows⟩
  | @cons m m' ms ms' first rest ih =>
    obtain ⟨cs, calls, follows⟩ := move_follows confined first w
    have asked : (m.run p w).2.calls.drop w.calls.length = cs := by rw [calls, List.drop_left]
    unfold heard at shadows
    dsimp only at shadows
    rw [asked, List.append_assoc] at shadows
    obtain ⟨response, shadows'⟩ := follows _ v shadows
    obtain ⟨responses, shadows''⟩ := ih _ _ shadows'
    refine ⟨?_, shadows''⟩
    unfold run
    dsimp only
    rw [response, responses]

theorem answers_shadow (confined : Confined p) {ms ms' : List Move}
    (alike : List.Forall₂ Move.Alike ms ms') (w : Service.State τ)
    (v : Service.State (List Reply)) (shadows : Shadows w (heard p ms w) v) :
    answers (reciting p.policy) ms' v = answers p ms w := by
  obtain ⟨responses, same⟩ := run_shadows confined alike w [] v (by rwa [List.append_nil])
  unfold answers
  dsimp only
  rw [responses]
  refine List.map_congr_left fun response _ => ?_
  cases response with
  | now a => rfl
  | later number =>
    exact congrArg (fun d => (d.ended.find? (·.number = number)).bind fun e => testAnswer e.result)
      same.docket

theorem alike_refl (ms : List Move) : List.Forall₂ Move.Alike ms ms :=
  List.forall₂_same.mpr fun m _ => by
    cases m with
    | request fresh r => exact .request fresh .same
    | advance ms => exact .advance ms
    | await number => exact .await number

/-- Two runs whose requests differ in nothing but keys, each blank or filled in both, and whose
testers reply alike, give the same answers. -/
theorem answers_keyless {σ : Type} {p' : Service.Prober σ} (policy : p'.policy = p.policy)
    (confined : Confined p) (confined' : Confined p') {w' : Service.State σ}
    (begun : Service.Alike w w') {ms ms' : List Move} (alike : List.Forall₂ Move.Alike ms ms')
    (same : heard p' ms' w' = heard p ms w) : answers p' ms' w' = answers p ms w := by
  -- Both services have one shadow, which knows of a key only whether it is blank.
  have shadows := Service.shadows_shadow w (heard p ms w)
  have shadows' : Shadows w' (heard p' ms' w') (Service.shadow w (heard p ms w)) :=
    ⟨begun.docket.symm, begun.registry.symm, begun.broken.symm, same.symm⟩
  calc answers p' ms' w'
      = answers (reciting p'.policy) ms' (Service.shadow w (heard p ms w)) :=
        (answers_shadow confined' (alike_refl ms') w' _ shadows').symm
    _ = answers (reciting p.policy) ms' (Service.shadow w (heard p ms w)) := by rw [policy]
    _ = answers p ms w := answers_shadow confined alike w _ shadows

def registering (key : String) : Request where
  method := "POST"
  target := "/models"
  contentType := some "application/json"
  body := Text.Utf8.encode ("\x7b\"model_name\": \"alias\", \"model_type\": \"OPENAI\", ".toList
    ++ "\"api_key\": \"".toList ++ key.toList ++ "\"\x7d".toList)

def rekeying (key : String) : Request where
  method := "PUT"
  target := "/models/m"
  contentType := some "application/json"
  body := Text.Utf8.encode ("\x7b\"api_key\": \"".toList ++ key.toList ++ "\"\x7d".toList)

/-- An endpoint is registered, listed, edited and tested. -/
def moves (key key' : String) : List Move :=
  [.request "m" (registering key), .request "" ⟨"GET", "/models", none, []⟩,
    .request "" (rekeying key'), .request "" ⟨"POST", "/models/m/test", none, []⟩]

def nothing : Service.State Unit := .start ⟨.empty, false, ()⟩

theorem answers_keyless_instant :
    heard Service.instant (moves "c" "d") nothing = heard Service.instant (moves "a" "b") nothing ∧
    answers Service.instant (moves "c" "d") nothing =
      answers Service.instant (moves "a" "b") nothing ∧
    (run Service.instant (moves "c" "d") nothing).2.env.registry.rows? ≠
      (run Service.instant (moves "a" "b") nothing).2.env.registry.rows? := by
  have confined : Confined Service.instant := fun b _ _ => ⟨b.provider, rfl⟩
  have begun : Service.Alike nothing nothing := ⟨rfl, rfl, rfl⟩
  have same : heard Service.instant (moves "c" "d") nothing =
      heard Service.instant (moves "a" "b") nothing := by decide +kernel
  have registered : (registering "a").Alike (registering "c") :=
    .register (x := ("alias", (0 : Fin 5), none, none, some "a", none, ()))
      (y := ("alias", (0 : Fin 5), none, none, some "c", none, ())) rfl rfl rfl ⟨rfl, rfl⟩
  have edited : (rekeying "b").Alike (rekeying "d") :=
    .update (x := (none, none, none, none, some (some "b"), ()))
      (y := (none, none, none, none, some (some "d"), ())) rfl rfl rfl ⟨rfl, rfl⟩
  have alike : List.Forall₂ Move.Alike (moves "a" "b") (moves "c" "d") :=
    .cons (.request _ registered) (.cons (.request _ .same)
      (.cons (.request _ edited) (.cons (.request _ .same) .nil)))
  refine ⟨same, answers_keyless rfl confined confined begun alike same, by decide +kernel⟩

end EndpointHealth.Http
