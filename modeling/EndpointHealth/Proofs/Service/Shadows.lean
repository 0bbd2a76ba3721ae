import EndpointHealth.Proofs.Http.Refusals
import EndpointHealth.Proofs.Prober.Echoes
import EndpointHealth.Proofs.Registry.Keys
set_option autoImplicit false

/-!
The service without keys. A shadow of a service has its dockets and its registry with other keys,
blank where the keys are, and its tester recites what the tester of the service is going to reply.

Main statements: the shadow of a service does what the service does, as long as it is asked for the
same with other keys (`list_parallel`, `register_parallel`, `update_parallel` and others), also when
the tester is called (`test_follows`), and it stays its shadow while the prober works by itself
(`shadows_of_echoes`).
-/

namespace EndpointHealth.Service

open EndpointHealth.Prober (Call Reply Exchange Echoes)

variable {τ : Type} {p : Prober τ} {w : State τ} {left : List Reply}

/-! ### Reciting -/

def reciting (policy : Policy) : Prober (List Reply) where
  policy := policy
  tester b _ _ :=
    match b.provider with
    | [] => (⟨none, .crash, []⟩, b)
    | reply :: rest => (reply, { b with provider := rest })

/-- What a tester replies to calls, one after another, apart from what it puts on record. -/
def replies (p : Prober τ) (b : Backend τ) (cs : List Call) : List Reply :=
  (p.plain.exchanges b cs).map (·.reply)

theorem repeats_reciting (policy : Policy) (xs : List Exchange) (left : List Reply)
    {b : Backend (List Reply)} (given : b.provider = xs.map (·.reply) ++ left) :
    (reciting policy).Repeats b xs ∧
      (reciting policy).after b (xs.map (·.call)) = { b with provider := left } := by
  induction xs generalizing b with
  | nil => exact ⟨rfl, by rw [← show b.provider = left from given]; rfl⟩
  | cons x xs ih =>
    obtain ⟨registry, broken, provider⟩ := b
    cases given
    obtain ⟨repeats, after⟩ := ih (b := ⟨registry, broken, xs.map (·.reply) ++ left⟩) rfl
    exact ⟨EndpointHealth.Prober.repeats_cons.mpr ⟨rfl, repeats⟩, after⟩

theorem after_confined (confined : Confined p) (b : Backend τ) (cs : List Call) :
    ∃ provider, p.after b cs = { b with provider := provider } := by
  induction cs generalizing b with
  | nil => exact ⟨b.provider, rfl⟩
  | cons c cs ih =>
    obtain ⟨provider, replied⟩ := confined b c.start c.request
    obtain ⟨provider', rest⟩ := ih (p.tester b c.start c.request).2
    refine ⟨provider', ?_⟩
    show p.after (p.tester b c.start c.request).2 cs = _
    rw [rest, replied]

/-! ### Shadows -/

/-- Two services that are the same, as far as it can be seen with the keys hidden and the tester
left aside. -/
structure Alike {σ τ : Type} (w : State σ) (v : State τ) : Prop where
  docket : v.docket.plain = w.docket.plain
  registry : v.env.registry.hide = w.env.registry.hide
  broken : v.env.broken = w.env.broken

/-- The shadow of a service, whose tester has these replies left. -/
structure Shadows (w : State τ) (left : List Reply) (v : State (List Reply)) : Prop where
  docket : v.docket = w.docket.plain
  registry : v.env.registry.hide = w.env.registry.hide
  broken : v.env.broken = w.env.broken
  provider : v.env.provider = left

/-- A shadow that has the keys. -/
def shadow (w : State τ) (left : List Reply) : State (List Reply) where
  env := ⟨w.env.registry, w.env.broken, left⟩
  now := w.now
  ledger := w.ledger
  agenda := w.docket.plain.agenda
  calls := []
  ended := w.ended
  notices := []

theorem shadows_shadow (w : State τ) (left : List Reply) : Shadows w left (shadow w left) :=
  ⟨rfl, rfl, rfl, rfl⟩

theorem Shadows.note {v : State (List Reply)} (shadows : Shadows w left v)
    (ns ms : List Notice) : Shadows (w.note ns) left (v.note ms) :=
  ⟨shadows.docket, shadows.registry, shadows.broken, shadows.provider⟩

/-- What a prober does by itself its shadow does as well, with the replies that it hears. -/
theorem shadows_of_echoes (confined : Confined p) {f : State τ → State τ}
    {g : State (List Reply) → State (List Reply)} (echoes : Echoes p (reciting p.policy) f g w) :
    ∃ cs, (f w).calls = w.calls ++ cs ∧ ∀ left v, Shadows w (replies p w.env cs ++ left) v →
      Shadows (f w) left (g v) := by
  obtain ⟨cs, asks, follows⟩ := echoes
  refine ⟨cs, asks.calls, fun left v shadows => ?_⟩
  obtain ⟨repeats, after⟩ := repeats_reciting p.policy (p.plain.exchanges w.env cs) left
    shadows.provider
  obtain ⟨asked, docket⟩ := follows v shadows.docket repeats
  rw [EndpointHealth.Prober.calls_exchanges] at after
  obtain ⟨provider, confined⟩ := after_confined confined w.env cs
  have env : (f w).env = { w.env with provider := provider } := asks.env.trans confined
  have env' : (g v).env = { v.env with provider := left } := asked.env.trans after
  refine ⟨docket, ?_, ?_, by rw [env']⟩
  · rw [env, env']
    exact shadows.registry
  · rw [env, env']
    exact shadows.broken

/-! ### Actions -/

theorem map_eq_map {ε α β : Type} {f : α → β} {x y : Except ε α} (same : y.map f = x.map f) :
    (∃ why, x = .error why ∧ y = .error why) ∨ ∃ a b, x = .ok a ∧ y = .ok b ∧ f b = f a := by
  cases x with
  | error why =>
    cases y with
    | error why' =>
      cases same
      exact .inl ⟨why, rfl, rfl⟩
    | ok b => cases same
  | ok a =>
    cases y with
    | error why' => cases same
    | ok b => exact .inr ⟨a, b, rfl, rfl, Except.ok.inj same⟩

/-- An action without calls, and the same of the shadows; `f` is what can be seen of the result with
the keys hidden. -/
def Parallel {α β : Type} (f : α → β) (w : State τ) (x : Except ServiceError α × State τ)
    (y : State (List Reply) → Except ServiceError α × State (List Reply)) : Prop :=
  x.2.calls = w.calls ∧ ∀ left v, Shadows w left v →
    (y v).1.map f = x.1.map f ∧ Shadows x.2 left (y v).2

theorem parallel_ok {α β : Type} {f : α → β} {a b : α} {u : State τ}
    {v : State (List Reply) → State (List Reply)} (same : f b = f a) (calls : u.calls = w.calls)
    (shadows : ∀ left v', Shadows w left v' → Shadows u left (v v')) :
    Parallel f w (.ok a, u) (fun v' => (.ok b, v v')) :=
  ⟨calls, fun left v' h => ⟨congrArg Except.ok same, shadows left v' h⟩⟩

theorem parallel_error {α β : Type} (f : α → β) (why : ServiceError) (w : State τ) :
    Parallel f w (.error why, w) (fun v => (.error why, v)) :=
  ⟨rfl, fun _ _ h => ⟨rfl, h⟩⟩

theorem Parallel.note {α β : Type} {f : α → β} {ns : List Notice}
    {x : Except ServiceError α × State τ}
    {y : State (List Reply) → Except ServiceError α × State (List Reply)}
    (parallel : Parallel f (w.note ns) x y) (ms : List Notice) :
    Parallel f w x (fun v => y (v.note ms)) :=
  ⟨parallel.1, fun left _ shadows => parallel.2 left _ (shadows.note ns ms)⟩

theorem parallel_andThen {α β γ δ : Type} {f : α → γ} {g : β → δ}
    {x : Except ServiceError α × State τ}
    {y : State (List Reply) → Except ServiceError α × State (List Reply)}
    {next : α → State τ → Except ServiceError β × State τ}
    {next' : α → State (List Reply) → Except ServiceError β × State (List Reply)}
    (first : Parallel f w x y)
    (second : ∀ a b u, f b = f a → Parallel g u (next a u) (next' b)) :
    Parallel g w (andThen x next) (fun v => andThen (y v) next') := by
  obtain ⟨result, u⟩ := x
  obtain ⟨calls, follows⟩ := first
  refine ⟨?_, fun left v shadows => ?_⟩
  · cases result with
    | error why => exact calls
    | ok a => exact (second a a u rfl).1.trans calls
  · obtain ⟨same, shadows'⟩ := follows left v shadows
    dsimp only at same shadows' ⊢
    generalize y v = outcome at same shadows' ⊢
    obtain ⟨result', v'⟩ := outcome
    rcases map_eq_map same with ⟨why, rfl, rfl⟩ | ⟨a, b, rfl, rfl, seen⟩
    · exact ⟨rfl, shadows'⟩
    · exact (second a b u seen).2 left v' shadows'

theorem parallel_inRegistry {α β : Type} {f : α → β}
    {action action' : Registry → Except RegistryFault (Change α)}
    (same : ∀ r r' : Registry, r'.hide = r.hide →
      (action' r').map (Change.hide f) = (action r).map (Change.hide f)) (w : State τ) :
    Parallel f w (inRegistry action w) (inRegistry action') := by
  refine ⟨?_, fun left v shadows => ?_⟩
  · unfold inRegistry
    split
    · rfl
    · split <;> rfl
  · have same := same _ _ shadows.registry
    unfold inRegistry
    rw [shadows.broken]
    split
    · exact ⟨rfl, shadows.note _ _⟩
    · rcases map_eq_map same with ⟨why, h, h'⟩ | ⟨c, c', h, h', seen⟩
      · rw [h, h']
        exact ⟨rfl, shadows.note _ _⟩
      · rw [h, h']
        have result : f c'.result = f c.result := congrArg Change.result seen
        have registry : c'.registry.hide = c.registry.hide := congrArg Change.registry seen
        exact ⟨congrArg Except.ok result, shadows.docket, registry, shadows.broken,
          shadows.provider⟩

theorem parallel_reading {α β : Type} {f : α → β} {read : Registry → Except RegistryFault α}
    (same : ∀ r r' : Registry, r'.hide = r.hide → (read r').map f = (read r).map f) (w : State τ) :
    Parallel f w (reading read w) (reading read) := by
  refine parallel_inRegistry (fun r r' hidden => ?_) w
  rcases map_eq_map (same r r' hidden) with ⟨why, h, h'⟩ | ⟨a, b, h, h', seen⟩
  · rw [h, h']
    rfl
  · rw [h, h']
    show Except.ok (⟨f b, r'.hide, []⟩ : Change β) = .ok ⟨f a, r.hide, []⟩
    rw [seen, hidden]

/-! ### What the service does -/

/-- What a listing shows with the keys hidden. -/
def hideListed (es : List (Endpoint × Option Status)) : List (Endpoint × Option Status) :=
  es.map fun (e, s) => (e.hide, s)

theorem list_parallel (w : State τ) :
    Parallel hideListed w (list p w) (list (reciting p.policy)) := by
  refine parallel_andThen (parallel_reading (f := List.map Endpoint.hide) (fun r r' hidden => ?_) w)
    fun es es' u same => ?_
  · rw [← Registry.list_hide, ← Registry.list_hide, hidden]
  · have ids : es'.map (·.id) = es.map (·.id) := by
      have ids := congrArg (List.map Endpoint.id) same
      rwa [List.map_map, List.map_map] at ids
    have asks := p.asks_observe (es.map (·.id)) u
    refine ⟨by simpa using asks.calls, fun left v shadows => ?_⟩
    have docket := EndpointHealth.Prober.docket_observe (p := p) (q := reciting p.policy) rfl
      (es.map (·.id)) shadows.docket
    have env : (p.observe (es.map (·.id)) u).env = u.env := asks.env
    have env' : ((reciting p.policy).observe (es.map (·.id)) v).env = v.env :=
      ((reciting p.policy).asks_observe (es.map (·.id)) v).env
    have status (id : EndpointId) : ((reciting p.policy).observe (es.map (·.id)) v).status? id =
        (p.observe (es.map (·.id)) u).status? id :=
      congrArg (fun d => d.ledger.status? id) docket
    have listed (es : List Endpoint) (w : State τ) :
        hideListed (es.map fun e => (e, w.status? e.id)) =
          (es.map Endpoint.hide).map fun e => (e, w.status? e.id) := by
      simp only [hideListed, List.map_map]
      rfl
    dsimp only
    rw [ids]
    refine ⟨congrArg Except.ok ?_, docket, ?_, ?_, ?_⟩
    · simp only [status, listed, same]
    · rw [env, env', shadows.registry]
    · rw [env, env', shadows.broken]
    · rw [env', shadows.provider]

theorem parallel_found {read : Registry → Except RegistryFault (Option Endpoint)}
    {next : Option Endpoint → State τ → Except ServiceError Endpoint × State τ}
    {next' : Option Endpoint → State (List Reply) →
      Except ServiceError Endpoint × State (List Reply)}
    (hide : ∀ r : Registry, read r.hide = (read r).map (Option.map Endpoint.hide))
    {why : ServiceError} (absent : ∀ u, next none u = (.error why, u))
    (absent' : ∀ v, next' none v = (.error why, v)) (found : ∀ e u, next (some e) u = (.ok e, u))
    (found' : ∀ e v, next' (some e) v = (.ok e, v)) (w : State τ) :
    Parallel Endpoint.hide w (andThen (reading read w) next)
      (fun v => andThen (reading read v) next') := by
  refine parallel_andThen (f := Option.map Endpoint.hide)
    (parallel_reading (fun r r' hidden => ?_) w) fun e e' u same => ?_
  · rw [← hide, ← hide, hidden]
  · cases e with
    | none =>
      cases e' with
      | none =>
        rw [absent, funext absent']
        exact parallel_error _ why u
      | some e' => cases same
    | some e =>
      cases e' with
      | none => cases same
      | some e' =>
        rw [found, funext (found' e')]
        exact parallel_ok (Option.some.inj same) rfl fun _ _ shadows => shadows

theorem get_parallel (id : EndpointId) (w : State τ) :
    Parallel Endpoint.hide w (get id w) (get id) :=
  parallel_found (Registry.get_hide · id) (fun _ => rfl) (fun _ => rfl) (fun _ _ => rfl)
    (fun _ _ => rfl) w

theorem getDefault_parallel (w : State τ) :
    Parallel Endpoint.hide w (getDefault w) getDefault :=
  parallel_found Registry.getDefault_hide (fun _ => rfl) (fun _ => rfl) (fun _ _ => rfl)
    (fun _ _ => rfl) w

theorem shadows_probe (id : EndpointId) {v : State (List Reply)}
    (shadows : Shadows w left v) : Shadows (p.probe id w) left ((reciting p.policy).probe id v) :=
  have docket := EndpointHealth.Prober.docket_probe (p := p) (q := reciting p.policy) rfl id
    shadows.docket
  ⟨docket, shadows.registry, shadows.broken, shadows.provider⟩

theorem register_parallel (id : EndpointId) {req req' : Registration}
    (alike : req'.hide = req.hide) (w : State τ) :
    Parallel (fun id => id) w (register p id req w) (register (reciting p.policy) id req') := by
  have endpoint : (req'.endpoint id).hide = (req.endpoint id).hide := by
    rw [← Registration.endpoint_hide, alike, Registration.endpoint_hide]
  have makeDefault := congrArg Registration.makeDefault alike
  have refusal : (req'.endpoint id).refusal? = (req.endpoint id).refusal? := by
    rw [← Endpoint.refusal?_hide, endpoint, Endpoint.refusal?_hide]
  unfold register
  dsimp only
  rw [refusal]
  split
  · exact parallel_error _ _ w
  · refine parallel_andThen (f := fun u => u) (parallel_inRegistry (fun r r' hidden => ?_) w)
      fun _ _ u _ => parallel_ok rfl rfl fun left v shadows => shadows_probe id shadows
    have stored := store_hide (req'.endpoint id) req'.makeDefault r'
    rw [endpoint, hidden, store_hide] at stored
    show (store _ req'.makeDefault r').map _ = _
    rw [show req'.makeDefault = req.makeDefault from makeDefault] at stored ⊢
    exact stored.symm

theorem update_parallel (id : EndpointId) {req req' : Edit}
    (alike : req'.hide = req.hide) (w : State τ) :
    Parallel Endpoint.hide w (update p id req w) (update (reciting p.policy) id req') := by
  refine parallel_andThen (f := Except.map Endpoint.hide)
    (parallel_inRegistry (fun r r' hidden => ?_) w) fun e e' u same => ?_
  · rw [← edit_hide, ← edit_hide, alike, hidden]
  · rcases map_eq_map same with ⟨why, rfl, rfl⟩ | ⟨e, e', rfl, rfl, seen⟩
    · exact parallel_error _ _ u
    · exact parallel_ok seen rfl fun _ _ shadows => shadows_probe id shadows

theorem remove_parallel (id : EndpointId) (w : State τ) :
    Parallel (fun u => u) w (remove p id w) (remove (reciting p.policy) id) := by
  refine parallel_andThen (f := fun found => found)
    (parallel_inRegistry (fun r r' hidden => ?_) w) fun found found' u same => ?_
  · rw [← takeOut_hide, ← takeOut_hide, hidden]
  · cases same
    cases found with
    | false => exact parallel_error _ _ u
    | true =>
      refine parallel_ok rfl rfl fun _ _ h => ⟨?_, h.registry, h.broken, h.provider⟩
      exact EndpointHealth.Prober.docket_forget id h.docket

theorem setDefault_parallel (id : EndpointId) (w : State τ) :
    Parallel (fun u => u) w (setDefault id w) (setDefault id) := by
  refine parallel_andThen (f := fun found => found)
    (parallel_inRegistry (fun r r' hidden => ?_) w) fun found found' u same => ?_
  · rw [← choose_hide, ← choose_hide, hidden]
  · cases same
    cases found with
    | false => exact parallel_error _ _ u
    | true => exact parallel_ok rfl rfl fun _ _ h => h

theorem probe_parallel (id : EndpointId) (w : State τ) :
    Parallel (fun s => s) w (probe p id w) (probe (reciting p.policy) id) :=
  parallel_andThen (get_parallel id w) fun _ _ _ _ =>
    parallel_ok rfl rfl fun _ _ h => (shadows_probe id h).note _ _

/-! ### Calling the tester -/

/-- Something is done, with calls on its way; and so it is by the shadow, with the same result, if
it has the replies to these calls to recite. -/
def Follows {α : Type} (p : Prober τ) (w : State τ) (x : α × State τ)
    (y : State (List Reply) → α × State (List Reply)) : Prop :=
  ∃ cs, x.2.calls = w.calls ++ cs ∧ ∀ left v, Shadows w (replies p w.env cs ++ left) v →
    (y v).1 = x.1 ∧ Shadows x.2 left (y v).2

theorem follows_now {α : Type} (p : Prober τ) (a : α) (w : State τ) :
    Follows p w (a, w) (fun v => (a, v)) :=
  ⟨[], by simp, fun _ _ shadows => ⟨rfl, shadows⟩⟩

theorem follows_map {α β : Type} {x : α × State τ}
    {y : State (List Reply) → α × State (List Reply)} (follows : Follows p w x y) (f : α → β) :
    Follows p w (f x.1, x.2) (fun v => (f (y v).1, (y v).2)) := by
  obtain ⟨cs, calls, same⟩ := follows
  refine ⟨cs, calls, fun left v shadows => ?_⟩
  obtain ⟨result, shadows'⟩ := same left v shadows
  exact ⟨congrArg f result, shadows'⟩

theorem follows_of_parallel {α β : Type} {f : α → β} {x : Except ServiceError α × State τ}
    {y : State (List Reply) → Except ServiceError α × State (List Reply)}
    (parallel : Parallel f w x y) :
    Follows p w (x.1.map f, x.2) (fun v => ((y v).1.map f, (y v).2)) :=
  ⟨[], by rw [parallel.1, List.append_nil], parallel.2⟩

theorem follows_of_echoes {α : Type} (confined : Confined p) {f : State τ → State τ}
    {g : State (List Reply) → State (List Reply)} (echoes : Echoes p (reciting p.policy) f g w)
    (a : α) : Follows p w (a, f w) (fun v => (a, g v)) := by
  obtain ⟨cs, calls, shadows⟩ := shadows_of_echoes confined echoes
  exact ⟨cs, calls, fun left v h => ⟨rfl, shadows left v h⟩⟩

theorem test_follows (confined : Confined p) (id : EndpointId) (message : Option String)
    (w : State τ) :
    Follows p w (test p id message w) (test (reciting p.policy) id message) := by
  -- Looking the endpoint up changes nothing, so that the tester is called as from the beginning.
  obtain ⟨notices, noted⟩ := noted_get id w
  obtain ⟨-, parallel⟩ := get_parallel id w
  unfold test
  generalize get id w = got at noted parallel
  obtain ⟨result, u⟩ := got
  cases noted
  cases result with
  | error why =>
    refine ⟨[], by simp [andThen], fun left v shadows => ?_⟩
    obtain ⟨same, shadows'⟩ := parallel left v shadows
    dsimp only at same shadows' ⊢
    generalize get id v = got' at same shadows' ⊢
    obtain ⟨result', v'⟩ := got'
    rcases map_eq_map same with ⟨why', ⟨⟩, rfl⟩ | ⟨-, -, ⟨⟩, -, -⟩
    exact ⟨rfl, shadows'⟩
  | ok e =>
    obtain ⟨cs, calls, follows⟩ := shadows_of_echoes confined
      (EndpointHealth.Prober.test_echoes (p := p) (q := reciting p.policy) rfl id
        ((message.bind Text.nonBlank?).getD p.policy.prompt) (w.note notices))
    refine ⟨cs, calls, fun left v shadows => ?_⟩
    obtain ⟨same, shadows'⟩ := parallel _ v shadows
    dsimp only at same shadows' ⊢
    generalize get id v = got' at same shadows' ⊢
    obtain ⟨result', v'⟩ := got'
    rcases map_eq_map same with ⟨-, ⟨⟩, -⟩ | ⟨-, e', ⟨⟩, rfl, -⟩
    refine ⟨congrArg Except.ok ?_, follows left v' shadows'⟩
    exact congrArg (fun d => d.ledger.next) shadows'.docket

end EndpointHealth.Service
