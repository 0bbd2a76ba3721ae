import EndpointHealth.TestRequest
set_option autoImplicit false

/-!
How endpoints are probed: how often, at what distance, and with which requests.
-/

namespace EndpointHealth

structure Policy where
  maxAttempts : UInt32
  /-- The wait after a failed attempt, in milliseconds. -/
  retryDelay : UInt64
  prompt : String
  temperature : Number.Floating
  probeMaxTokens : UInt32
  /-- In seconds. -/
  probeTimeout : UInt64
  manualMaxTokens : UInt32
  /-- In seconds. -/
  manualTimeout : UInt64
  deriving DecidableEq, Repr

structure OutOfRange where
  field : String
  rule : String
  deriving DecidableEq, Repr

namespace Policy

def standard : Policy where
  maxAttempts := 5
  retryDelay := 3000
  prompt := "Hello, this is a test message. Please respond."
  temperature := Number.Format.single.ofDecimal 1 (-1)
  probeMaxTokens := 20
  probeTimeout := 2
  manualMaxTokens := 50
  manualTimeout := 3

def shape : Json.Shape :=
  .record "ProbePolicy"
    (.field .defaulted "max_attempts" .word32
    (.field .defaulted "retry_delay_ms" .word64
    (.field .defaulted "test_prompt" .text
    (.field .defaulted "temperature" .single
    (.field .defaulted "probe_max_tokens" .word32
    (.field .defaulted "probe_timeout_secs" .word64
    (.field .defaulted "manual_max_tokens" .word32
    (.field .defaulted "manual_timeout_secs" .word64 .done))))))))

/-- Fields that are missing are those of `standard`. -/
def ofRecord : shape.Carrier → Policy
  | (attempts, delay, prompt, temperature, probeTokens, probeTimeout, manualTokens,
      manualTimeout, ()) =>
    { maxAttempts := attempts.getD standard.maxAttempts
      retryDelay := delay.getD standard.retryDelay
      prompt := prompt.getD standard.prompt
      temperature := temperature.getD standard.temperature
      probeMaxTokens := probeTokens.getD standard.probeMaxTokens
      probeTimeout := probeTimeout.getD standard.probeTimeout
      manualMaxTokens := manualTokens.getD standard.manualMaxTokens
      manualTimeout := manualTimeout.getD standard.manualTimeout }

def toRecord (p : Policy) : shape.Carrier :=
  (some p.maxAttempts, some p.retryDelay, some p.prompt, some p.temperature,
    some p.probeMaxTokens, some p.probeTimeout, some p.manualMaxTokens, some p.manualTimeout, ())

theorem ofRecord_toRecord (p : Policy) : ofRecord p.toRecord = p := by
  simp [ofRecord, toRecord]

def toText (p : Policy) : String := (shape.toValue p.toRecord).toText

def ofDocument (doc : Bytes) : Json.Reading Policy := (shape.ofDocument doc).map ofRecord

def ofValue? (v : Json.Value) : Option Policy := (shape.ofValue? v).map ofRecord

def probeRequest (p : Policy) (id : EndpointId) : TestRequest where
  endpoint := id
  role := .user
  content := p.prompt
  temperature := p.temperature
  maxTokens := p.probeMaxTokens
  timeout := p.probeTimeout

def manualRequest (p : Policy) (id : EndpointId) (message : String) : TestRequest where
  endpoint := id
  role := .user
  content := message
  temperature := p.temperature
  maxTokens := p.manualMaxTokens
  timeout := p.manualTimeout

def maxTimeout : UInt64 := 600

def two : Number.Floating := Number.Format.single.ofInt 2

/-- From zero to two; a zero may have a sign, and what is no number is not within. -/
def temperatureInRange (t : Number.Floating) : Bool :=
  t.magnitude ≤ two.magnitude && (!t.negative || t.magnitude = 0)

def timeoutInRange (seconds : UInt64) : Bool := 1 ≤ seconds && seconds ≤ maxTimeout

def outOfRange? (p : Policy) : Option OutOfRange :=
  let timeoutRule := "must be within 1..=" ++ toString maxTimeout.toNat
  if p.maxAttempts = 0 then some ⟨"probe.max_attempts", "must be at least 1"⟩
  else if !temperatureInRange p.temperature then
    some ⟨"probe.temperature", "must be within 0.0..=2.0"⟩
  else if !timeoutInRange p.probeTimeout then some ⟨"probe.probe_timeout_secs", timeoutRule⟩
  else if !timeoutInRange p.manualTimeout then some ⟨"probe.manual_timeout_secs", timeoutRule⟩
  else none

end Policy
end EndpointHealth
