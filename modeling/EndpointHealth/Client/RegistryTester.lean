import EndpointHealth.Client.Chat
import EndpointHealth.Client.Messages
import EndpointHealth.Service
set_option autoImplicit false

/-!
Testing endpoints for real: the registry says where an endpoint is, and its provider is asked.

Whatever a provider does, the test of an endpoint gives a text; one that reports a failure carries
the marker. Only what goes wrong before is an error.
-/

namespace EndpointHealth.Client

variable {ν : Type}

def complete (n : Network ν) (e : Endpoint) (r : TestRequest) (start : Nat) (s : ν) : Asking × ν :=
  if e.provider = .anthropic then Messages.ask n e r start s else Chat.ask n e r start s

def Outcome.answer (id : EndpointId) : Outcome → Prober.Answer × List Notice
  | .completed c => (.text c.content, [])
  | .failed why => (.text (failureText why.message), [.requestFailed id why])
  | .crashed => (.crash, [])

def test (n : Network ν) (e : Endpoint) (r : TestRequest) (start : Nat) (s : ν) :
    Prober.Reply × ν :=
  let (asking, s) := complete n e r start s
  let (answer, notices) := asking.outcome.answer e.id
  ({ after := some asking.lasts, answer, notices }, s)

def atOnce (why : TestError) : Prober.Reply :=
  { after := some 0, answer := .error why, notices := [] }

/-- Tests the endpoint that the registry holds under a request's id. -/
def registryTester (n : Network ν) : Prober.Tester (Backend ν) := fun b now r =>
  if b.broken then
    (atOnce (.registry "database lock error: poisoned lock: another task failed inside"), b)
  else
    match b.registry.get r.endpoint with
    | .error f => (atOnce (.registry f.message), b)
    | .ok none => (atOnce (.unknownEndpoint r.endpoint), b)
    | .ok (some e) =>
      let (reply, s) := test n e r now b.provider
      (reply, { b with provider := s })

end EndpointHealth.Client
