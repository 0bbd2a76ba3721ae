import EndpointHealth.Prober.Clock
import EndpointHealth.Registry
set_option autoImplicit false

/-!
What the service does for its users. Every action goes through the registry first, in one piece,
and then turns to the prober: a new or edited endpoint is probed, a removed one is forgotten, and
listing probes the endpoints that have no status yet.

Once the registry is broken every action that needs it is refused.
-/

namespace EndpointHealth

/-- What actions and tests share: the registry, and what a tester needs beyond it. -/
structure Backend (τ : Type) where
  registry : Registry
  /-- Whether something failed while it held the registry. -/
  broken : Bool
  provider : τ

namespace Service

variable {τ : Type}

abbrev State (τ : Type) := Prober.World (Backend τ)
abbrev Prober (τ : Type) := EndpointHealth.Prober (Backend τ)

structure Change (α : Type) where
  result : α
  registry : Registry
  notices : List Notice

def inRegistry {α : Type} (action : Registry → Except RegistryFault (Change α)) (w : State τ) :
    Except ServiceError α × State τ :=
  if w.env.broken then (.error .locked, w.note [.lockBroken])
  else match action w.env.registry with
    | .error f => (.error (.registry f.message), w.note [.registryFailed f.message])
    | .ok c =>
      let env := { w.env with registry := c.registry }
      (.ok c.result, { w with env }.note c.notices)

def reading {α : Type} (read : Registry → Except RegistryFault α) (w : State τ) :
    Except ServiceError α × State τ :=
  inRegistry (fun r => (read r).map fun a => ⟨a, r, []⟩) w

def andThen {α β : Type} (x : Except ServiceError α × State τ)
    (next : α → State τ → Except ServiceError β × State τ) : Except ServiceError β × State τ :=
  match x with
  | (.error e, w) => (.error e, w)
  | (.ok a, w) => next a w

/-! ### In the registry -/

/-- Stores an endpoint; the first of all becomes the default, and so does one that asks to. -/
def store (e : Endpoint) (makeDefault : Bool) (r : Registry) :
    Except RegistryFault (Change Unit) := do
  let first := (← r.count) = 0
  let r ← r.insert e
  if first || makeDefault then
    let (r, notices) ← r.setDefault? (some e)
    .ok ⟨(), r, .registered e.name e.id :: notices⟩
  else .ok ⟨(), r, [.registered e.name e.id]⟩

def edit (id : EndpointId) (req : Edit) (r : Registry) :
    Except RegistryFault (Change (Except ServiceError Endpoint)) := do
  match ← r.get id with
  | none => .ok ⟨.error (.unknownEndpoint id), r, []⟩
  | some stored =>
    match req.apply stored with
    | .error why => .ok ⟨.error (.refused why), r, []⟩
    | .ok e =>
      let r ← r.update e
      .ok ⟨.ok e, r, [.updated e.name e.id]⟩

def takeOut (id : EndpointId) (r : Registry) : Except RegistryFault (Change Bool) := do
  let (found, r) ← r.delete id
  .ok ⟨found, r, if found then [.deleted id] else []⟩

def choose (id : EndpointId) (r : Registry) : Except RegistryFault (Change Bool) := do
  let (found, r) ← r.setDefault id
  .ok ⟨found, r, if found then [.madeDefault id] else []⟩

/-! ### Actions -/

def get (id : EndpointId) (w : State τ) : Except ServiceError Endpoint × State τ :=
  andThen (reading (·.get id) w) fun
    | some e, w => (.ok e, w)
    | none, w => (.error (.unknownEndpoint id), w)

def getDefault (w : State τ) : Except ServiceError Endpoint × State τ :=
  andThen (reading Registry.getDefault w) fun
    | some e, w => (.ok e, w)
    | none, w => (.error .noDefault, w)

def list (p : Prober τ) (w : State τ) :
    Except ServiceError (List (Endpoint × Option Status)) × State τ :=
  andThen (reading Registry.list w) fun es w =>
    let w := p.observe (es.map (·.id)) w
    (.ok (es.map fun e => (e, w.status? e.id)), w)

def register (p : Prober τ) (id : EndpointId) (req : Registration) (w : State τ) :
    Except ServiceError EndpointId × State τ :=
  let e := req.endpoint id
  match e.refusal? with
  | some why => (.error (.refused why), w)
  | none =>
    andThen (inRegistry (store e req.makeDefault) w) fun _ w => (.ok id, p.probe id w)

def update (p : Prober τ) (id : EndpointId) (req : Edit) (w : State τ) :
    Except ServiceError Endpoint × State τ :=
  andThen (inRegistry (edit id req) w) fun
    | .ok e, w => (.ok e, p.probe id w)
    | .error why, w => (.error why, w)

def remove (p : Prober τ) (id : EndpointId) (w : State τ) : Except ServiceError Unit × State τ :=
  andThen (inRegistry (takeOut id) w) fun found w =>
    if found then (.ok (), p.forget id w) else (.error (.unknownEndpoint id), w)

def setDefault (id : EndpointId) (w : State τ) : Except ServiceError Unit × State τ :=
  andThen (inRegistry (choose id) w) fun found w =>
    if found then (.ok (), w) else (.error (.unknownEndpoint id), w)

def probe (p : Prober τ) (id : EndpointId) (w : State τ) : Except ServiceError Status × State τ :=
  andThen (get id w) fun _ w => (.ok .pending, (p.probe id w).note [.probeRequested id])

/-- Starts a manual test of an endpoint, by the number of the test. A message that is missing or
blank is replaced by the prompt of automatic probes. -/
def test (p : Prober τ) (id : EndpointId) (message : Option String) (w : State τ) :
    Except ServiceError Nat × State τ :=
  andThen (get id w) fun _ w =>
    (.ok w.ledger.next, p.test id ((message.bind Text.nonBlank?).getD p.policy.prompt) w)

structure TestReport where
  success : Bool
  response : String
  deriving DecidableEq, Repr

def TestReport.ofText (s : String) : TestReport := ⟨!isFailure s, s⟩

def statuses (w : State τ) : Table Status := w.ledger.statuses

end Service
end EndpointHealth
