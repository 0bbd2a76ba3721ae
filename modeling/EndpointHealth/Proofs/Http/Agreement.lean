import EndpointHealth.Http.Router
import EndpointHealth.Proofs.Prober.Coverage
import EndpointHealth.Proofs.Registry.Rows
import EndpointHealth.Proofs.Service.Removal
set_option autoImplicit false

/-!
The registry and the statuses, over all requests that are answered one after another. Manual tests
and sequences may be under way across them.

Main statement: the endpoints with a status are those in the registry, and so the answers that list
the endpoints and their statuses have the same ids (`status_iff_registered`). It comes from a more
general one: whatever a prober upholds of the endpoints that it knows, requests uphold of the
registered ones (`attuned_handle`).
-/

namespace EndpointHealth.Service

open EndpointHealth.Prober (Event)

variable {τ : Type} {p : Prober τ} {w v : State τ}

/-- A tester that changes nothing but what belongs to its provider. -/
def Confined (p : Prober τ) : Prop :=
  ∀ b now r, ∃ provider, (p.tester b now r).2 = { b with provider := provider }

theorem registryTester_confined {ν : Type} (policy : Policy) (n : Client.Network ν) :
    Confined ⟨policy, Client.registryTester n⟩ := by
  intro b now r
  show ∃ provider, (Client.registryTester n b now r).2 = { b with provider := provider }
  unfold Client.registryTester
  split
  · exact ⟨b.provider, rfl⟩
  · split
    · exact ⟨b.provider, rfl⟩
    · exact ⟨b.provider, rfl⟩
    · exact ⟨_, rfl⟩

/-- Two states that differ in the provider, as far as their backends go. -/
def SameShelf (w v : State τ) : Prop := ∃ provider, v.env = { w.env with provider := provider }

theorem SameShelf.refl (w : State τ) : SameShelf w w := ⟨w.env.provider, rfl⟩

theorem SameShelf.trans {u : State τ} (first : SameShelf w v) (second : SameShelf v u) :
    SameShelf w u := by
  obtain ⟨provider, hv⟩ := first
  obtain ⟨provider', hu⟩ := second
  exact ⟨provider', by rw [hu, hv]⟩

theorem sameShelf_of_work (confined : Confined p) {e : Option Event} (work : p.Work w e v) :
    SameShelf w v := by
  cases work with
  | tick time => exact .refl w
  | attempt h => exact confined _ _ _
  | close h =>
    refine ⟨w.env.provider, ?_⟩
    unfold EndpointHealth.Prober.settle EndpointHealth.Prober.closeWith
    dsimp only
    split
    · rfl
    · rfl
    · split
      · rfl
      · split <;> rfl
  | conclude h =>
    refine ⟨w.env.provider, ?_⟩
    unfold EndpointHealth.Prober.closeTest
    dsimp only
    split <;> rfl

theorem sameShelf_of_proceeds (confined : Confined p) (proceeds : p.Proceeds w v) :
    SameShelf w v := by
  induction proceeds with
  | refl => exact .refl w
  | work _ next ih => exact ih.trans (sameShelf_of_work confined next)

/-- The registry can be read, and something is true of the endpoints in it and of the prober. -/
structure Attuned (Q : (EndpointId → Prop) → State τ → Prop) (w : State τ) : Prop where
  sound : w.env.registry.Sound
  whole : w.env.broken = false
  holds : Q (· ∈ w.env.registry.ids) w

/-- The registry can be read, and it holds the endpoints that the prober has been told of. -/
structure Agrees (p : Prober τ) (w : State τ) : Prop where
  sound : w.env.registry.Sound
  whole : w.env.broken = false
  covers : p.Covers (· ∈ w.env.registry.ids) w

theorem agrees_iff : Agrees p w ↔ Attuned p.Covers w :=
  ⟨fun agrees => ⟨agrees.sound, agrees.whole, agrees.covers⟩,
    fun attuned => ⟨attuned.sound, attuned.whole, attuned.holds⟩⟩

theorem agrees_start (provider : τ) : Agrees p (.start ⟨.empty, false, provider⟩) where
  sound := Registry.sound_empty
  whole := rfl
  covers := EndpointHealth.Prober.congr_known (EndpointHealth.Prober.covers_start _) fun _ => by
    simp [EndpointHealth.Prober.World.start, Registry.ids, Registry.empty]

variable {Q : (EndpointId → Prop) → State τ → Prop}

theorem attuned_work (confined : Confined p) (upholds : p.Upholds Q) {e : Option Event}
    (attuned : Attuned Q w) (work : p.Work w e v) : Attuned Q v := by
  obtain ⟨provider, hv⟩ := sameShelf_of_work confined work
  have holds := upholds.work attuned.holds work
  refine ⟨?_, ?_, ?_⟩
  · rw [hv]
    exact attuned.sound
  · rw [hv]
    exact attuned.whole
  · rw [hv]
    exact holds

/-! ### Errands -/

/-- The endpoints that are known when an errand has been run. -/
def Errand.leaves (known : EndpointId → Prop) : Errand → EndpointId → Prop
  | .begin id _ => fun i => i = id ∨ known i
  | .forget id => fun i => i ≠ id ∧ known i
  | .observe _ | .test _ _ => known

/-- Whether an errand is about known endpoints only, or such as it makes known. -/
def Errand.Fits (known : EndpointId → Prop) : Errand → Prop
  | .observe ids => ∀ i ∈ ids, known i
  | .begin id rest => ∀ i ∈ rest, i = id ∨ known i
  | .forget _ => True
  | .test id _ => known id

theorem env_observe (p : Prober τ) (ids : List EndpointId) (w : State τ) :
    (p.observe ids w).env = w.env := congrArg (·.env) (p.observe_eq ids w)

theorem holds_run (confined : Confined p) (upholds : p.Upholds Q) {known : EndpointId → Prop}
    {x : Errand} (holds : Q known w) (fits : x.Fits known) :
    Q (x.leaves known) (x.run p w) ∧ SameShelf w (x.run p w) := by
  cases x with
  | observe ids => exact ⟨upholds.observe holds fits, _, env_observe p ids w⟩
  | begin id rest =>
    have probed := upholds.probe holds id
    exact ⟨upholds.observe probed fits, _, env_observe p rest (p.probe id w)⟩
  | forget id => exact ⟨upholds.forget holds id, .refl w⟩
  | test id message =>
    have begun : SameShelf w (p.launchTest id message w) := confined _ _ _
    have proceeds := p.test_proceeds id message w
    exact ⟨upholds.test holds fits message, begun.trans (sameShelf_of_proceeds confined proceeds)⟩

/-! ### Requests -/

/-- After its section in the registry the errand of a request tells the prober what has changed
there. -/
structure Tells (r : Registry) (entered : Except ServiceError Errand × State τ) : Prop where
  sound : entered.2.env.registry.Sound
  whole : entered.2.env.broken = false
  refused : ∀ why, entered.1 = .error why → ∀ id, id ∈ r.ids ↔ id ∈ entered.2.env.registry.ids
  fits : ∀ x, entered.1 = .ok x → x.Fits (· ∈ r.ids)
  left : ∀ x, entered.1 = .ok x → ∀ id, x.leaves (· ∈ r.ids) id ↔ id ∈ entered.2.env.registry.ids

theorem tells_refused {r : Registry} (why : ServiceError) (sound : v.env.registry.Sound)
    (whole : v.env.broken = false) (same : v.env.registry.ids = r.ids) :
    Tells r (.error why, v) where
  sound := sound
  whole := whole
  refused := fun _ _ id => by rw [same]
  fits := fun x hx => by cases hx
  left := fun x hx => by cases hx

theorem tells_left {r : Registry} {x : Errand} (sound : v.env.registry.Sound)
    (whole : v.env.broken = false) (fits : x.Fits (· ∈ r.ids))
    (left : ∀ id, x.leaves (· ∈ r.ids) id ↔ id ∈ v.env.registry.ids) : Tells r (.ok x, v) where
  sound := sound
  whole := whole
  refused := fun why hwhy => by cases hwhy
  fits := fun y hy => by cases hy; exact fits
  left := fun y hy => by cases hy; exact left

theorem tells_inRegistry {α : Type} {action : Registry → Except RegistryFault (Change α)}
    {next : α → State τ → Except ServiceError Errand × State τ} (sound : w.env.registry.Sound)
    (whole : w.env.broken = false)
    (h : ∀ c, action w.env.registry = .ok c → ∀ v : State τ, v.env.registry = c.registry →
      v.env.broken = false → Tells w.env.registry (next c.result v)) :
    Tells w.env.registry (andThen (inRegistry action w) next) := by
  unfold inRegistry
  split
  · exact tells_refused _ sound whole rfl
  · cases hc : action w.env.registry with
    | error f => exact tells_refused _ sound whole rfl
    | ok c => exact h c hc _ rfl whole

theorem tells_reading {α : Type} {read : Registry → Except RegistryFault α}
    {next : α → State τ → Except ServiceError Errand × State τ} (sound : w.env.registry.Sound)
    (whole : w.env.broken = false)
    (h : ∀ a, read w.env.registry = .ok a → ∀ v : State τ, v.env.registry = w.env.registry →
      v.env.broken = false → Tells w.env.registry (next a v)) :
    Tells w.env.registry (andThen (reading read w) next) := by
  refine tells_inRegistry sound whole fun c hc v hv hwhole => ?_
  obtain ⟨a, ha, rfl⟩ := ok_of_map hc
  exact h a ha v hv hwhole

theorem tells_get {id : EndpointId}
    {next : Endpoint → State τ → Except ServiceError Errand × State τ}
    (sound : w.env.registry.Sound) (whole : w.env.broken = false)
    (h : id ∈ w.env.registry.ids → ∀ e, ∀ v : State τ, v.env.registry = w.env.registry →
      v.env.broken = false → Tells w.env.registry (next e v)) :
    Tells w.env.registry (andThen (get id w) next) := by
  unfold get
  rw [andThen_assoc]
  refine tells_reading sound whole fun found hfound v hv hwhole => ?_
  cases found with
  | none => exact tells_refused _ (hv ▸ sound) hwhole (by rw [hv])
  | some e => exact h (Registry.mem_ids_of_get hfound).2 e v hv hwhole

theorem tells_enter (p : Prober τ) (r : Request) (sound : w.env.registry.Sound)
    (whole : w.env.broken = false) : Tells w.env.registry (r.enter p w) := by
  cases r with
  | list =>
    refine tells_reading sound whole fun es hes v hv hwhole => ?_
    refine tells_left (hv ▸ sound) hwhole (fun i hi => ?_) fun id => by rw [hv]; rfl
    rwa [Registry.ids_of_list hes] at hi
  | register id req =>
    unfold Request.enter
    dsimp only
    split
    · exact tells_refused _ sound whole rfl
    · refine tells_inRegistry sound whole fun c hc v hv hwhole => ?_
      refine tells_left (hv ▸ sound_store sound hc) hwhole (by simp [Errand.Fits]) fun i => ?_
      rw [hv, (ids_of_store hc).1]
      simp [Errand.leaves, Registration.endpoint, or_comm]
  | update id req =>
    refine tells_inRegistry sound whole fun c hc v hv hwhole => ?_
    obtain ⟨hids, found⟩ := ids_of_edit hc
    have sound' : v.env.registry.Sound := hv ▸ sound_edit sound hc
    cases hresult : c.result with
    | error why => exact tells_refused _ sound' hwhole (by rw [hv, hids])
    | ok e =>
      refine tells_left sound' hwhole (by simp [Errand.Fits]) fun i => ?_
      rw [hv, hids]
      exact or_iff_right_of_imp fun hi => hi ▸ found e hresult
  | probe id =>
    refine tells_get sound whole fun hid e v hv hwhole => ?_
    refine tells_left (hv ▸ sound) hwhole (by simp [Errand.Fits]) fun i => ?_
    rw [hv]
    exact or_iff_right_of_imp fun hi => hi ▸ hid
  | test id message =>
    refine tells_get sound whole fun hid e v hv hwhole => ?_
    exact tells_left (hv ▸ sound) hwhole hid fun i => by rw [hv]; rfl
  | remove id =>
    refine tells_inRegistry sound whole fun c hc v hv hwhole => ?_
    obtain ⟨found, hids⟩ := ids_of_takeOut hc
    have sound' : v.env.registry.Sound := hv ▸ sound_takeOut sound hc
    cases hresult : c.result with
    | false =>
      -- Nothing has been taken out, so the endpoint was not there and the ids are the same.
      have absent : id ∉ w.env.registry.ids := fun hid => by simp [found.mpr hid] at hresult
      refine tells_refused _ sound' hwhole ?_
      rw [hv, hids, List.filter_eq_self]
      exact fun i hi => decide_eq_true fun heq => absurd hi (heq ▸ absent)
    | true =>
      refine tells_left sound' hwhole trivial fun i => ?_
      rw [hv, hids]
      simp [Errand.leaves, and_comm]

theorem attuned_serve (confined : Confined p) (upholds : p.Upholds Q) (attuned : Attuned Q w)
    (r : Request) : Attuned Q (r.serve p w) := by
  have tells := tells_enter p r attuned.sound attuned.whole
  have served := served p r w
  obtain ⟨env, notices, hv⟩ := enter_beside p r w
  have holds := upholds.aside attuned.holds env notices
  rw [← hv] at holds
  generalize r.enter p w = entry at tells served holds
  obtain ⟨result, v⟩ := entry
  cases result with
  | error why =>
    rw [show r.serve p w = v from served]
    exact ⟨tells.sound, tells.whole,
      EndpointHealth.Prober.congr_known holds (tells.refused why rfl)⟩
  | ok x =>
    obtain ⟨notices, hw⟩ := served
    obtain ⟨run, provider, hrun⟩ := holds_run confined upholds holds (tells.fits x rfl)
    rw [hw]
    refine ⟨?_, ?_, ?_⟩
    · show (x.run p v).env.registry.Sound
      rw [hrun]
      exact tells.sound
    · show (x.run p v).env.broken = false
      rw [hrun]
      exact tells.whole
    · refine EndpointHealth.Prober.congr_known (upholds.aside run _ notices) fun id => ?_
      rw [tells.left x rfl id]
      show _ ↔ id ∈ (x.run p v).env.registry.ids
      rw [hrun]

/-! ### Requests that the prober is not told of -/

theorem attuned_note (upholds : p.Upholds Q) (attuned : Attuned Q w) (notices : List Notice) :
    Attuned Q (w.note notices) :=
  ⟨attuned.sound, attuned.whole, upholds.aside attuned.holds _ _⟩

theorem attuned_inRegistry {α : Type} {action : Registry → Except RegistryFault (Change α)}
    (upholds : p.Upholds Q) (attuned : Attuned Q w)
    (h : ∀ c, action w.env.registry = .ok c →
      c.registry.Sound ∧ c.registry.ids = w.env.registry.ids) :
    Attuned Q (inRegistry action w).2 := by
  unfold inRegistry
  split
  · exact attuned_note upholds attuned _
  · cases hc : action w.env.registry with
    | error f => exact attuned_note upholds attuned _
    | ok c =>
      obtain ⟨sound, ids⟩ := h c hc
      refine ⟨sound, attuned.whole, ?_⟩
      refine EndpointHealth.Prober.congr_known (upholds.aside attuned.holds _ _) fun id => ?_
      show _ ↔ id ∈ c.registry.ids
      rw [ids]

theorem attuned_reading {α : Type} (read : Registry → Except RegistryFault α)
    (upholds : p.Upholds Q) (attuned : Attuned Q w) : Attuned Q (reading read w).2 := by
  refine attuned_inRegistry upholds attuned fun c hc => ?_
  obtain ⟨a, -, rfl⟩ := ok_of_map hc
  exact ⟨attuned.sound, rfl⟩

theorem andThen_state {α β : Type} (x : Except ServiceError α × State τ)
    {next : α → State τ → Except ServiceError β × State τ} (h : ∀ a v, (next a v).2 = v) :
    (andThen x next).2 = x.2 := by
  obtain ⟨result, v⟩ := x
  cases result with
  | error why => rfl
  | ok a => exact h a v

theorem attuned_get (upholds : p.Upholds Q) (attuned : Attuned Q w) (id : EndpointId) :
    Attuned Q (get id w).2 := by
  unfold get
  rw [andThen_state _ fun e v => by cases e <;> rfl]
  exact attuned_reading _ upholds attuned

theorem attuned_getDefault (upholds : p.Upholds Q) (attuned : Attuned Q w) :
    Attuned Q (getDefault w).2 := by
  unfold getDefault
  rw [andThen_state _ fun e v => by cases e <;> rfl]
  exact attuned_reading _ upholds attuned

theorem attuned_setDefault (upholds : p.Upholds Q) (attuned : Attuned Q w) (id : EndpointId) :
    Attuned Q (setDefault id w).2 := by
  unfold setDefault
  rw [andThen_state _ fun found v => by cases found <;> rfl]
  exact attuned_inRegistry upholds attuned fun c hc => sound_choose attuned.sound hc

end EndpointHealth.Service

namespace EndpointHealth.Http

open EndpointHealth.Service (Agrees Attuned Confined)

variable {τ : Type} {p : Service.Prober τ} {w : Service.State τ}
  {Q : (EndpointId → Prop) → Service.State τ → Prop}

/-- States that a service gets to that has been started with an empty registry: it answers requests,
each with an id of its own at hand, and between them the prober works by itself. -/
inductive Reached (p : Service.Prober τ) : Service.State τ → Prop
  | start (provider : τ) : Reached p (.start ⟨.empty, false, provider⟩)
  | handle {w : Service.State τ} (before : Reached p w) (fresh : EndpointId) (r : Request) :
      Reached p (handle p fresh r w).2
  | work {w v : Service.State τ} {e : Option Prober.Event} (before : Reached p w)
      (next : p.Work w e v) : Reached p v

theorem Reached.proceeds {v : Service.State τ} (reached : Reached p w) (proceeds : p.Proceeds w v) :
    Reached p v := by
  induction proceeds with
  | refl => exact reached
  | work _ next ih => exact ih.work next

theorem Reached.advance (reached : Reached p w) (ms : Nat) : Reached p (p.advance ms w) :=
  reached.proceeds (p.advance_proceeds ms w)

theorem Reached.await (reached : Reached p w) (number : Nat) : Reached p (p.await number w) :=
  reached.proceeds (p.await_proceeds number w)

theorem answered_state {α : Type} (f : α → Answer) (x : Except ServiceError α × Service.State τ) :
    (answered f x).2 = x.2 := by
  obtain ⟨result, v⟩ := x
  cases result <;> rfl

theorem attuned_perform (confined : Confined p) (upholds : p.Upholds Q) (attuned : Attuned Q w)
    (fresh : EndpointId) (r : Request) (a : Action) : Attuned Q (perform p fresh r a w).2 := by
  have serve := fun v (attuned : Attuned Q v) => Service.attuned_serve confined upholds attuned
  cases a with
  | health => exact attuned
  | list =>
    unfold perform
    rw [answered_state]
    exact serve w attuned .list
  | add =>
    unfold perform
    dsimp only
    split
    · exact attuned
    · rw [answered_state]
      exact serve _ (Service.attuned_note upholds attuned _) (.register fresh _)
  | getDefault =>
    unfold perform
    rw [answered_state]
    exact Service.attuned_getDefault upholds attuned
  | statuses => exact attuned
  | get id =>
    unfold perform
    rw [answered_state]
    exact Service.attuned_get upholds attuned id
  | update id =>
    unfold perform
    dsimp only
    split
    · exact attuned
    · rw [answered_state]
      exact serve w attuned (.update id _)
  | remove id =>
    unfold perform
    rw [answered_state]
    exact serve w attuned (.remove id)
  | setDefault id =>
    unfold perform
    rw [answered_state]
    exact Service.attuned_setDefault upholds attuned id
  | probe id =>
    unfold perform
    rw [answered_state]
    exact serve w attuned (.probe id)
  | test id =>
    unfold perform
    dsimp only
    split
    · exact attuned
    · split
      · exact attuned
      · rename_i message _
        have tested := serve w attuned (.test id message)
        unfold Service.Request.serve at tested
        dsimp only at tested
        split
        · rename_i number v hv
          rwa [hv] at tested
        · rename_i e v hv
          rwa [hv] at tested

theorem attuned_handle (confined : Confined p) (upholds : p.Upholds Q) (attuned : Attuned Q w)
    (fresh : EndpointId) (r : Request) : Attuned Q (handle p fresh r w).2 := by
  unfold handle
  split
  · exact attuned
  · exact attuned
  · exact attuned
  · exact attuned_perform confined upholds attuned fresh r _

theorem agrees_of_reached (confined : Confined p) (reached : Reached p w) : Agrees p w := by
  have upholds := p.upholds_covers
  refine Service.agrees_iff.mpr ?_
  induction reached with
  | start provider => exact Service.agrees_iff.mp (Service.agrees_start provider)
  | handle _ fresh r ih => exact attuned_handle confined upholds ih fresh r
  | work _ next ih => exact Service.attuned_work confined upholds ih next

/-! ### The two answers -/

theorem member_listed (e : Endpoint) (s : Option Status) :
    (listed e s).member? "model_id" = some (.text e.id) := rfl

theorem reading_ok {α : Type} {read : Registry → Except RegistryFault α} {a : α}
    (whole : w.env.broken = false) (h : read w.env.registry = .ok a) :
    Service.reading read w = (.ok a, w.note []) := by
  unfold Service.reading Service.inRegistry
  rw [if_neg (by simp [whole])]
  simp only [h, Except.map]

/-- What a listing answers is told after all that it lists has been observed. -/
theorem handle_listing (p : Service.Prober τ) (whole : w.env.broken = false) {es : List Endpoint}
    (hes : w.env.registry.list = .ok es) (fresh : EndpointId) (type : Option String)
    (body : Bytes) :
    handle p fresh ⟨"GET", "/models", type, body⟩ w =
      (.now (.json 200 (.list
        (es.map fun e => listed e ((p.observe (es.map (·.id)) w).status? e.id)))),
      p.observe (es.map (·.id)) w) := by
  have action : actionOf "GET" "/models" = .ok .list := rfl
  have unnoted : w.note [] = w := by
    unfold Prober.World.note
    rw [List.append_nil]
  have listed : Service.list p w =
      (.ok (es.map fun e => (e, (p.observe (es.map (·.id)) w).status? e.id)),
        p.observe (es.map (·.id)) w) := by
    unfold Service.list
    rw [reading_ok whole hes, unnoted]
    rfl
  unfold handle
  rw [action]
  unfold perform
  dsimp only
  rw [listed]
  simp [answered, Response.to, Function.comp_def]

/-- Where all endpoints have a status a listing tells it and leaves everything as it is. -/
theorem handle_listing_seen (p : Service.Prober τ) (whole : w.env.broken = false)
    {es : List Endpoint} (hes : w.env.registry.list = .ok es)
    (seen : ∀ e ∈ es, w.status? e.id ≠ none) (fresh : EndpointId) (type : Option String)
    (body : Bytes) :
    handle p fresh ⟨"GET", "/models", type, body⟩ w =
      (.now (.json 200 (.list (es.map fun e => listed e (w.status? e.id)))), w) := by
  have unchanged : p.observe (es.map (·.id)) w = w := by
    refine p.observe_of_some fun id hid => ?_
    obtain ⟨e, he, rfl⟩ := List.mem_map.mp hid
    exact seen e he
  rw [handle_listing p whole hes, unchanged]

theorem handle_list (agrees : Agrees p w) {es : List Endpoint} (hes : w.env.registry.list = .ok es)
    (fresh : EndpointId) (type : Option String) (body : Bytes) :
    (handle p fresh ⟨"GET", "/models", type, body⟩ w).1 =
      .now (.json 200 (.list (es.map fun e => listed e (w.status? e.id)))) := by
  have seen (e : Endpoint) (he : e ∈ es) : w.status? e.id ≠ none :=
    (agrees.covers.status e.id).mpr (Registry.ids_of_list hes ▸ List.mem_map_of_mem he)
  rw [handle_listing_seen p agrees.whole hes seen]

theorem handle_statuses (p : Service.Prober τ) (fresh : EndpointId) (type : Option String)
    (body : Bytes) (w : Service.State τ) :
    (handle p fresh ⟨"GET", "/models/status", type, body⟩ w).1 =
      .now (.json 200 (statusTable w.ledger.statuses)) := by
  have action : actionOf "GET" "/models/status" = .ok .statuses := rfl
  unfold handle
  rw [action]
  rfl

theorem keys_statusTable (t : Table Status) :
    (t.entries.map fun (id, s) => (id, s.toValue)).map (·.1) = t.keys := by
  simp [Table.keys, Function.comp_def]

/-- Whatever has been asked for and whatever is under way, the endpoints with a status are the
registered ones, and the lists of endpoints and of statuses are answered with their ids. -/
theorem status_iff_registered (confined : Confined p) (reached : Reached p w) :
    (∀ id, w.status? id ≠ none ↔ id ∈ w.env.registry.ids) ∧
    ∃ items members,
      items.map (·.member? "model_id") = w.env.registry.ids.map (fun id => some (.text id)) ∧
      (members.map (·.1)).Perm w.env.registry.ids ∧
      ∀ fresh type body,
        (handle p fresh ⟨"GET", "/models", type, body⟩ w).1 = .now (.json 200 (.list items)) ∧
        (handle p fresh ⟨"GET", "/models/status", type, body⟩ w).1 =
          .now (.json 200 (.record members)) := by
  have agrees := agrees_of_reached confined reached
  obtain ⟨es, hes⟩ := Registry.list_of_sound agrees.sound
  refine ⟨agrees.covers.status, _, _, ?_, ?_, fun fresh type body =>
    ⟨handle_list agrees hes fresh type body, handle_statuses p fresh type body w⟩⟩
  · rw [← Registry.ids_of_list hes]
    simp [member_listed]
  · rw [keys_statusTable]
    refine (List.perm_ext_iff_of_nodup agrees.covers.nodup ?_).mpr fun id => ?_
    · exact Registry.nodup_of_sound agrees.sound
    · exact agrees.covers.mem_keys id

def slow : Service.Prober Unit where
  policy := .standard
  tester := fun b _ _ => (⟨some 1000, .text "pong", []⟩, b)

def adding : Request where
  method := "POST"
  target := "/models"
  contentType := some "application/json"
  body := Text.Utf8.encode
    "\x7b\"model_name\": \"alias\", \"model_type\": \"OPENAI\", \"api_key\": \"key\"\x7d".toList

/-- An endpoint is removed while a manual test of it is under way, which passes afterwards. -/
theorem status_iff_registered_removed :
    ∃ w, Reached slow w ∧ w.ended.map (·.number) = [2] ∧ w.status? "m" = none := by
  have added := (Reached.start (p := slow) ()).handle "m" adding
  have tested := added.handle "" ⟨"POST", "/models/m/test", none, []⟩
  have removed := tested.handle "" ⟨"DELETE", "/models/m", none, []⟩
  have waiting : (handle slow "" ⟨"DELETE", "/models/m", none, []⟩
      (handle slow "" ⟨"POST", "/models/m/test", none, []⟩
        (handle slow "m" adding (.start ⟨.empty, false, ()⟩)).2).2).2.agenda =
      [⟨0, .attempt ⟨"m", 1⟩ 4⟩] ++
        ⟨1000, .conclude ⟨"m", 2⟩ ⟨1000, .passed "pong", []⟩⟩ :: [] := rfl
  have passed := removed.work (.conclude waiting)
  have confined : Confined slow := fun b _ _ => ⟨b.provider, rfl⟩
  refine ⟨_, passed, rfl, ?_⟩
  have registered := (status_iff_registered confined passed).1 "m"
  exact Decidable.not_not.mp (mt registered.mp (by decide +kernel))

end EndpointHealth.Http
