import EndpointHealth.Prober.World
set_option autoImplicit false

/-!
A tester that answers from a script: for each endpoint a list of replies, taken in the order in
which requests come, and one reply for all other requests.
-/

namespace EndpointHealth.Prober

inductive Line where
  | say (text : String)
  /-- A text and then the prompt. -/
  | echo (before : String)
  | fail (why : TestError)
  deriving DecidableEq, Repr

/-- A reply of a script: its answer, and the wait before it, in milliseconds. -/
structure Cue where
  line : Line
  latency : Nat
  deriving DecidableEq, Repr

structure Script where
  cues : Table (List Cue)
  otherwise : Cue
  deriving Repr

namespace Script

def Line.answer (r : TestRequest) : Line → Answer
  | .say text => .text text
  | .echo before => .text (before ++ r.content)
  | .fail why => .error why

def Cue.reply (c : Cue) (r : TestRequest) : Reply :=
  { after := some c.latency, answer := Line.answer r c.line, notices := [] }

def answer (s : Script) (r : TestRequest) : Reply × Script :=
  match s.cues.get? r.endpoint with
  | some (c :: rest) => (Cue.reply c r, { s with cues := s.cues.set r.endpoint rest })
  | _ => (Cue.reply s.otherwise r, s)

def tester : Tester Script := fun s _ r => s.answer r

end Script
end EndpointHealth.Prober
