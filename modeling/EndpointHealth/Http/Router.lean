import EndpointHealth.Http.Exchange
import EndpointHealth.Http.Route
set_option autoImplicit false

/-!
Requests are answered by the service, at once or, for manual tests, when the test has ended.
-/

namespace EndpointHealth.Http

variable {τ : Type}

/-- An answer, or the number of the test that will give one. -/
inductive Response where
  | now (a : Answer)
  | later (test : Nat)

def answered {α : Type} (f : α → Answer) :
    Except ServiceError α × Service.State τ → Response × Service.State τ
  | (.ok a, w) => (.now (f a), w)
  | (.error e, w) => (.now (.error e), w)

def testAnswer : Prober.Result → Option Answer
  | .test (.ok s) => some (.json 200 (report (.ofText s)))
  | .test (.error e) => some (.error (.test e))
  | _ => none

def endpointAnswer (e : Endpoint) : Answer := .json 200 e.toValue

/-- Does what a request asks for. A registration takes the id `fresh`. -/
def perform (p : Service.Prober τ) (fresh : EndpointId) (r : Request) (a : Action)
    (w : Service.State τ) : Response × Service.State τ :=
  match a with
  | .health => (.now (.plain 200 "OK"), w)
  | .list =>
    answered (fun es => .json 200 (.list (es.map fun (e, s) => listed e s))) (Service.list p w)
  | .add =>
    match r.read Registration.shape with
    | .error a => (.now a, w)
    | .ok x =>
      let req := Registration.ofRecord x
      answered
        (fun id => .json 201 (.record [("success", .flag true), ("model_id", .text id)]))
        (Service.register p fresh req (w.note [.registering req.name req.provider]))
  | .getDefault => answered endpointAnswer (Service.getDefault w)
  | .statuses => (.now (.json 200 (statusTable (Service.statuses w))), w)
  | .get id => answered endpointAnswer (Service.get id w)
  | .update id =>
    match r.read Edit.shape with
    | .error a => (.now a, w)
    | .ok x => answered endpointAnswer (Service.update p id (Edit.ofRecord x) w)
  | .remove id => answered (fun _ => .json 200 done) (Service.remove p id w)
  | .setDefault id => answered (fun _ => .json 200 done) (Service.setDefault id w)
  | .probe id =>
    answered
      (fun s => .json 202 (.record [("model_id", .text id), ("status", s.toValue)]))
      (Service.probe p id w)
  | .test id =>
    if maxBody < r.body.length then (.now tooLong, w)
    else match testMessage r.body with
      | .error e => (.now (.error e), w)
      | .ok message =>
        match Service.test p id message w with
        | (.ok number, w) => (.later number, w)
        | (.error e, w) => (.now (.error e), w)

def Response.to (method : String) : Response → Response
  | .now a => .now (if method = "HEAD" then a.withoutBody else a)
  | r => r

def handle (p : Service.Prober τ) (fresh : EndpointId) (r : Request) (w : Service.State τ) :
    Response × Service.State τ :=
  match actionOf r.method r.target with
  | .error .unknownPath => (.now (.bare 404), w)
  | .error .unknownMethod => (.now (.bare 405), w)
  | .error .badId =>
    ((Response.now (.plain 400 "Invalid URL: Invalid UTF-8 in `id`")).to r.method, w)
  | .ok a =>
    let (response, w) := perform p fresh r a w
    (response.to r.method, w)

/-- The answer to a response: at once, or when its test has ended. -/
def answer? (response : Response) (w : Service.State τ) : Option Answer :=
  match response with
  | .now a => some a
  | .later number => (w.result? number).bind fun e => testAnswer e.result

end EndpointHealth.Http
