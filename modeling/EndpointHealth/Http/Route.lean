import EndpointHealth.Text.Percent
import EndpointHealth.Endpoint
set_option autoImplicit false

/-!
Which action a method and a target ask for. Plain names win over ids, and an id is one segment of
the path, not empty, with its percent signs decoded.
-/

namespace EndpointHealth.Http

inductive Action where
  | health
  | list
  | add
  | getDefault
  | statuses
  | get (id : EndpointId)
  | update (id : EndpointId)
  | remove (id : EndpointId)
  | setDefault (id : EndpointId)
  | probe (id : EndpointId)
  | test (id : EndpointId)
  deriving DecidableEq, Repr

inductive RouteFault where
  | unknownPath
  | unknownMethod
  /-- The id in the path is no text. -/
  | badId
  deriving DecidableEq, Repr

def path (target : List Char) : List Char := target.takeWhile fun c => c ≠ '?' && c ≠ '#'

/-- Reading goes by GET, and by HEAD for those who do not want the answer's body. -/
def isRead (method : String) : Bool := method = "GET" || method = "HEAD"

def withId (segment : List Char) (action : EndpointId → Action) : Except RouteFault Action :=
  match Text.Utf8.text? (Text.Percent.decode (Text.Utf8.encode segment)) with
  | some id => .ok (action id)
  | none => .error .badId

def onEndpoint (method : String) (segment : List Char) : Except RouteFault Action :=
  if isRead method then withId segment .get
  else if method = "PUT" then withId segment .update
  else if method = "DELETE" then withId segment .remove
  else .error .unknownMethod

def posted (method : String) (a : Except RouteFault Action) : Except RouteFault Action :=
  if method = "POST" then a else .error .unknownMethod

def readOnly (method : String) (a : Action) : Except RouteFault Action :=
  if isRead method then .ok a else .error .unknownMethod

def route (method : String) (segments : List String) : Except RouteFault Action :=
  match segments with
  | ["health"] => readOnly method .health
  | ["models"] => if method = "POST" then .ok .add else readOnly method .list
  | ["models", "default"] => readOnly method .getDefault
  | ["models", "status"] => readOnly method .statuses
  | ["models", id] => if id = "" then .error .unknownPath else onEndpoint method id.toList
  | ["models", id, what] =>
    if id = "" then .error .unknownPath
    else if what = "default" then posted method (withId id.toList .setDefault)
    else if what = "probe" then posted method (withId id.toList .probe)
    else if what = "test" then posted method (withId id.toList .test)
    else .error .unknownPath
  | _ => .error .unknownPath

def segments (path : List Char) : Option (List String) :=
  match path with
  | '/' :: r => some ((r.splitOn '/').map String.ofList)
  | _ => none

def actionOf (method : String) (target : String) : Except RouteFault Action :=
  match segments (path target.toList) with
  | none => .error .unknownPath
  | some ss => route method ss

end EndpointHealth.Http
