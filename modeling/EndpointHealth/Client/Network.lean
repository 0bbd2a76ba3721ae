import EndpointHealth.Json.Value
import EndpointHealth.Text.Base64
import EndpointHealth.Url
set_option autoImplicit false

/-!
Calls to providers: what is sent, what may come back, and why a call may not get that far.
-/

namespace EndpointHealth.Client

structure Call where
  url : Url
  headers : List (String × String)
  body : Json.Value

inductive Arrival where
  | nothing
  /-- An answer. The body is none if it is cut off. -/
  | answer (status : Nat) (body : Option Bytes)
  deriving DecidableEq, Repr

structure Delivery where
  /-- After how many milliseconds it comes; none if never. -/
  after : Option Nat
  arrival : Arrival
  deriving DecidableEq, Repr

structure Network (ν : Type) where
  send : ν → Nat → Call → Delivery × ν
  /-- The pause before a call is sent again, in milliseconds, by how often it was sent before. -/
  pause : Nat → Nat

def Network.silent : Network Unit where
  send := fun s _ _ => (⟨some 0, .nothing⟩, s)
  pause := fun _ => 0

inductive CallFault where
  | notBuilt (url : Option Url)
  | notAnswered (url : Url)
  | cutOff
  deriving DecidableEq, Repr

def CallFault.message : CallFault → String
  | .notBuilt none => "builder error"
  | .notBuilt (some u) => "builder error for url (" ++ u.toText ++ ")"
  | .notAnswered u => "error sending request for url (" ++ u.toText ++ ")"
  | .cutOff => "error decoding response body"

def isHeaderText (s : String) : Bool :=
  s.toList.all fun c => c = '\t' || (0x20 ≤ c.toNat && c.toNat != 0x7F)

/-- The URL that a text writes, which has to name a host, without the credentials in it. -/
def locate (address : String) : Except CallFault (Option Url.Credentials × Url) :=
  match Url.ofText? address with
  | none => .error (.notBuilt none)
  | some u => if u.hasHost then .ok u.takeCredentials else .error (.notBuilt (some u))

def credentialsHeader (c : Url.Credentials) : String × String :=
  let pair := Text.Utf8.ofText (c.user ++ ":" ++ c.password)
  ("authorization", "Basic " ++ String.ofList (Text.Base64.encode pair))

def prepare (credentials : Option Url.Credentials) (u : Url) (headers : List (String × String))
    (body : Json.Value) : Except CallFault Call :=
  if u.isHttp && u.fitsRequest then
    let presented := (credentials.map credentialsHeader).toList.filter
      fun h => !headers.any (·.1 = h.1)
    let json := ("content-type", "application/json")
    .ok { url := u, headers := presented ++ headers ++ [json], body }
  else .error (.notBuilt (some u))

end EndpointHealth.Client
