import EndpointHealth.Client.Completion
import EndpointHealth.Endpoint
import EndpointHealth.Http.Reason
set_option autoImplicit false

/-!
The chat interface, which all endpoints but those of the kind `anthropic` offer.

An endpoint that refuses a call because there are too many is asked again after a pause, as long as
the timeout allows.
-/

namespace EndpointHealth.Client.Chat

/-! ### The call -/

def usualBase : String := "https://api.openai.com/v1"

def isAzure (e : Endpoint) : Bool := e.provider = .azureOpenai

def address (e : Endpoint) : String :=
  if isAzure e then
    e.apiBase.getD "" ++ "/openai/deployments/" ++ e.targetModel ++ "/chat/completions"
  else (e.apiBase.filter (· ≠ "")).getD usualBase ++ "/chat/completions"

def query (e : Endpoint) : List (String × String) :=
  if isAzure e then [("api-version", "2024-10-21")] else []

def headers (e : Endpoint) : List (String × String) :=
  if isAzure e then [("api-key", e.apiKey)]
  else [("authorization", "Bearer " ++ e.apiKey), ("openai-beta", "assistants=v2")]

def body (e : Endpoint) (r : TestRequest) : Json.Value :=
  .record [("messages", messages r), ("model", .text e.targetModel),
    ("temperature", .single r.temperature), ("max_tokens", .ofNat r.maxTokens.toNat)]

def call (e : Endpoint) (r : TestRequest) : Except CallFault Call := do
  let (credentials, u) ← locate (address e)
  prepare credentials (u.addQuery (query e)) (headers e) (body e r)

/-! ### The answer -/

def tokenBytes : Json.Shape := .list .byte

def likelyTokenShape : Json.Shape :=
  .record "TopLogprobs"
    (.field .required "token" .text
    (.field .required "logprob" .single
    (.field .nullable "bytes" tokenBytes .done)))

def tokenShape : Json.Shape :=
  .record "ChatCompletionTokenLogprob"
    (.field .required "token" .text
    (.field .required "logprob" .single
    (.field .nullable "bytes" tokenBytes
    (.field .required "top_logprobs" (.list likelyTokenShape) .done))))

def logprobsShape : Json.Shape :=
  .record "ChatChoiceLogprobs"
    (.field .nullable "content" (.list tokenShape)
    (.field .nullable "refusal" (.list tokenShape) .done))

def functionShape : Json.Shape :=
  .record "FunctionCall"
    (.field .required "name" .text
    (.field .required "arguments" .text .done))

def toolCallShape : Json.Shape :=
  .record "ChatCompletionMessageToolCall"
    (.field .required "id" .text
    (.field .required "type" (.choice ["function"])
    (.field .required "function" functionShape .done)))

def audioShape : Json.Shape :=
  .record "ChatCompletionResponseMessageAudio"
    (.field .required "id" .text
    (.field .required "expires_at" .word32
    (.field .required "data" .text
    (.field .required "transcript" .text .done))))

def messageShape : Json.Shape :=
  .record "ChatCompletionResponseMessage"
    (.field .nullable "content" .text
    (.field .nullable "refusal" .text
    (.field .nullable "tool_calls" (.list toolCallShape)
    (.field .required "role" (.choice ["system", "user", "assistant", "tool", "function"])
    (.field .nullable "function_call" functionShape
    (.field .nullable "audio" audioShape .done))))))

def finishReasons : List String :=
  ["stop", "length", "tool_calls", "content_filter", "function_call"]

def choiceShape : Json.Shape :=
  .record "ChatChoice"
    (.field .required "index" .word32
    (.field .required "message" messageShape
    (.field .nullable "finish_reason" (.choice finishReasons)
    (.field .nullable "logprobs" logprobsShape .done))))

def inputDetailsShape : Json.Shape :=
  .record "PromptTokensDetails"
    (.field .nullable "audio_tokens" .word32
    (.field .nullable "cached_tokens" .word32 .done))

def outputDetailsShape : Json.Shape :=
  .record "CompletionTokensDetails"
    (.field .nullable "accepted_prediction_tokens" .word32
    (.field .nullable "audio_tokens" .word32
    (.field .nullable "reasoning_tokens" .word32
    (.field .nullable "rejected_prediction_tokens" .word32 .done))))

def usageShape : Json.Shape :=
  .record "CompletionUsage"
    (.field .required "prompt_tokens" .word32
    (.field .required "completion_tokens" .word32
    (.field .required "total_tokens" .word32
    (.field .nullable "prompt_tokens_details" inputDetailsShape
    (.field .nullable "completion_tokens_details" outputDetailsShape .done)))))

def shape : Json.Shape :=
  .record "CreateChatCompletionResponse"
    (.field .required "id" .text
    (.field .required "choices" (.list choiceShape)
    (.field .required "created" .word32
    (.field .required "model" .text
    (.field .nullable "service_tier" (.choice ["scale", "default"])
    (.field .nullable "system_fingerprint" .text
    (.field .required "object" .text
    (.field .nullable "usage" usageShape .done))))))))

/-- What a choice says; nothing is the empty text. -/
def contentOf : choiceShape.Carrier → String
  | (_, (content, _), _) => content.getD ""

def ofRecord? : shape.Carrier → Option Completion
  | (_, choices, _, _, _, _, _, usage, ()) =>
    choices.head?.map fun c =>
      { content := contentOf c
        inputTokens := (usage.map fun u => u.1).getD 0
        outputTokens := (usage.map fun u => u.2.1).getD 0 }

structure Complaint where
  text : String
  kind : Option String
  parameter : Option String
  code : Option String
  deriving DecidableEq, Repr

namespace Complaint

def shape : Json.Shape :=
  .record "WrappedError"
    (.field .required "error"
      (.record "ApiError"
        (.field .required "message" .text
        (.field .nullable "type" .text
        (.field .nullable "param" .text
        (.field .nullable "code" .text .done)))))
    .done)

def ofRecord : shape.Carrier → Complaint
  | ((text, kind, parameter, code, ()), ()) => { text, kind, parameter, code }

def message (c : Complaint) : String :=
  " ".intercalate
    ((c.kind.map (· ++ ":")).toList ++ [c.text]
      ++ (c.parameter.map fun p => "(param: " ++ p ++ ")").toList
      ++ (c.code.map fun k => "(code: " ++ k ++ ")").toList)

end Complaint

inductive Fault where
  | call (why : CallFault)
  | timedOut (seconds : UInt64)
  | unreadable (why : String)
  | refused (why : Complaint)
  | noChoices
  deriving DecidableEq, Repr

def Fault.error : Fault → TestError
  | .call why => .provider ("http error: " ++ why.message)
  | .timedOut seconds => .timeout seconds
  | .unreadable why => .provider ("failed to deserialize api response: " ++ why)
  | .refused why => .provider why.message
  | .noChoices => .provider "No choices in response"

inductive Verdict where
  | final (result : Except Fault Completion)
  /-- There were too many calls, so the same call may succeed later. -/
  | later (why : Complaint)

/-- Whether a refusal is due to calls that come too fast, and not to an exhausted quota. -/
def isTooFast (status : Nat) (c : Complaint) : Bool :=
  status = 429 && c.kind != some "insufficient_quota"

def readCompletion (doc : Bytes) : Except Fault Completion :=
  match shape.ofDocument doc with
  | .error f => .error (.unreadable (f.message doc))
  | .ok x =>
    match ofRecord? x with
    | some c => .ok c
    | none => .error .noChoices

def read (status : Nat) (body : Option Bytes) : Verdict :=
  match body with
  | none => .final (.error (.call .cutOff))
  | some doc =>
    if Http.isSuccess status then .final (readCompletion doc)
    else
      match Complaint.shape.ofDocument doc with
      | .error f => .final (.error (.unreadable (f.message doc)))
      | .ok x =>
        let c := Complaint.ofRecord x
        if isTooFast status c then .later c else .final (.error (.refused c))

abbrev outcome : Except Fault Completion → Outcome := .ofResult Fault.error

/-! ### Asking -/

/-- For how many milliseconds a call is sent again. -/
def patience : Nat := 15 * 60 * 1000

variable {ν : Type}

/-- Sends a call when some milliseconds have passed and it has been sent `sent` times, and again
after a pause of at least a millisecond when there were too many calls. -/
def converse (n : Network ν) (r : TestRequest) (c : Call) (start sent passed : Nat) (s : ν) :
    Asking × ν :=
  let late : Asking := ⟨limit r, outcome (.error (.timedOut r.timeout))⟩
  let (d, s) := n.send s (start + passed) c
  match d.after with
  | none => (late, s)
  | some t =>
    let now := passed + t
    if limit r < now then (late, s)
    else
      match d.arrival with
      | .nothing => (⟨now, outcome (.error (.call (.notAnswered c.url)))⟩, s)
      | .answer status body =>
        match read status body with
        | .final result => (⟨now, outcome result⟩, s)
        | .later why =>
          let next := now + max 1 (n.pause sent)
          if patience < next then (⟨now, outcome (.error (.refused why))⟩, s)
          else if limit r < next then (late, s)
          else converse n r c start (sent + 1) next s
termination_by limit r - passed
decreasing_by omega

/-- Asks an endpoint for a completion. A key that no header can hold breaks the client. -/
def ask (n : Network ν) (e : Endpoint) (r : TestRequest) (start : Nat) (s : ν) : Asking × ν :=
  if !isHeaderText e.apiKey then (⟨0, .crashed⟩, s)
  else
    match call e r with
    | .error why => (⟨0, outcome (.error (.call why))⟩, s)
    | .ok c => converse n r c start 1 0 s

end EndpointHealth.Client.Chat
