import EndpointHealth.Http.MediaType
import EndpointHealth.Service
set_option autoImplicit false

/-!
Requests to the service and its answers, as they go over the wire.
-/

namespace EndpointHealth.Http

structure Request where
  method : String
  target : String
  contentType : Option String
  body : Bytes
  deriving DecidableEq, Repr

inductive Body where
  | empty
  | text (s : String)
  | json (v : Json.Value)

structure Answer where
  status : Nat
  contentType : Option String
  body : Body

namespace Answer

def bare (status : Nat) : Answer := ⟨status, none, .empty⟩

def plain (status : Nat) (s : String) : Answer :=
  ⟨status, some "text/plain; charset=utf-8", .text s⟩

def json (status : Nat) (v : Json.Value) : Answer := ⟨status, some "application/json", .json v⟩

def error (e : ServiceError) : Answer :=
  json e.kind.status (.record [("error", .text e.message)])

def withoutBody (a : Answer) : Answer := { a with body := .empty }

end Answer

def maxBody : Nat := 2 * 1024 * 1024

def tooLong : Answer := .plain 413 "Failed to buffer the request body: length limit exceeded"

def isVisible (c : Char) : Bool := c = '\t' || (0x20 ≤ c.toNat && c.toNat < 0x7F)

def Request.saysJson (r : Request) : Bool :=
  match r.contentType with
  | none => false
  | some s => s.toList.all isVisible && MediaType.isJson s.toList

def unreadable (f : Json.Fault) (doc : Bytes) : Answer :=
  let place := if f.place = [] then "" else Json.Segment.path f.place ++ ": "
  let why := place ++ f.message doc
  match f.cause.category with
  | .content => .plain 422 ("Failed to deserialize the JSON body into the target type: " ++ why)
  | _ => .plain 400 ("Failed to parse the request body as JSON: " ++ why)

def Request.read (r : Request) (s : Json.Shape) : Except Answer s.Carrier :=
  if !r.saysJson then
    .error (.plain 415 "Expected request with `Content-Type: application/json`")
  else if maxBody < r.body.length then .error tooLong
  else match s.ofDocument r.body with
    | .error f => .error (unreadable f r.body)
    | .ok x => .ok x

/-- The message of a test request; an empty body is one without a message. -/
def testMessage (body : Bytes) : Except ServiceError (Option String) :=
  if body = [] then .ok none
  else match TestMessage.shape.ofDocument body with
    | .error f => .error (.unreadableTest (f.message body))
    | .ok x => .ok (TestMessage.ofRecord x).message

/-! ### Answers in JSON -/

def done : Json.Value := .record [("success", .flag true)]

def listed (e : Endpoint) (s : Option Status) : Json.Value :=
  .record (Endpoint.fields.toMembers e.toRecord ++ [("status", .ofOption Status.toValue s)])

def statusTable (t : Table Status) : Json.Value :=
  .record (t.entries.map fun (id, s) => (id, s.toValue))

def report (r : Service.TestReport) : Json.Value :=
  .record [("success", .flag r.success), ("response", .text r.response)]

end EndpointHealth.Http
