import EndpointHealth.Registration
import EndpointHealth.TestRequest
import EndpointHealth.Text.Quoted
set_option autoImplicit false

/-!
Why the service does not do what it was asked, and how it says so.
-/

namespace EndpointHealth

inductive ServiceError where
  | unknownEndpoint (id : EndpointId)
  | noDefault
  | refused (why : Refusal)
  | unreadableTest (why : String)
  | test (why : TestError)
  | registry (why : String)
  /-- An earlier failure has left the registry in an unknown state. -/
  | locked
  deriving DecidableEq, Repr

/-- Who is to blame: the one who asked for what is not there, or asked badly, the provider, or the
service. -/
inductive ErrorKind where
  | notFound | badRequest | outside | inside
  deriving DecidableEq, Repr

namespace ErrorKind

def status : ErrorKind → Nat
  | notFound => 404
  | badRequest => 400
  | outside => 502
  | inside => 500

def name : ErrorKind → String
  | notFound => "NotFound"
  | badRequest => "BadRequest"
  | outside => "Upstream"
  | inside => "Internal"

end ErrorKind

def TestError.kind : TestError → ErrorKind
  | .unknownEndpoint _ => .notFound
  | .invalidEndpoint _ => .badRequest
  | .registry _ => .inside
  | .provider _ | .timeout _ | .unreadable _ => .outside

namespace ServiceError

def kind : ServiceError → ErrorKind
  | unknownEndpoint _ | noDefault => .notFound
  | refused _ | unreadableTest _ => .badRequest
  | test why => why.kind
  | registry _ | locked => .inside

def message : ServiceError → String
  | unknownEndpoint id => "Model not found: " ++ id
  | noDefault => "No default model is set"
  | refused why => why.message
  | unreadableTest why => "invalid test request: " ++ why
  | test (.invalidEndpoint why) => why
  | test why => why.message
  | registry why => why
  | locked => "database lock error"

def logged (e : ServiceError) : String := e.kind.name ++ "(" ++ Text.quoted e.message ++ ")"

end ServiceError
end EndpointHealth
