import EndpointHealth.Proofs.Http.Agreement
import EndpointHealth.Proofs.Prober.Mirroring
set_option autoImplicit false

/-!
Requests that fail. An action can be refused in many places, each of them before the first change on
its way; a manual test asks the tester, but it leaves no trace with the prober unless it passes.

Main statement: a request that is answered by an error has changed neither the registry nor the
statuses nor the sequences that are running (`failure_changes_nothing`).
-/

namespace EndpointHealth.Service

variable {τ : Type} {p : Prober τ} {w v u : State τ}

/-! ### Actions -/

/-- Nothing has happened but that notices were put on record. -/
def Noted (w v : State τ) : Prop := ∃ notices, v = w.note notices

theorem Noted.refl (w : State τ) : Noted w w := ⟨[], by simp [Prober.World.note]⟩

theorem Noted.trans (first : Noted w v) (second : Noted v u) : Noted w u := by
  obtain ⟨ns, rfl⟩ := first
  obtain ⟨ms, rfl⟩ := second
  exact ⟨ns ++ ms, by simp [Prober.World.note]⟩

/-- If an action is refused, nothing has happened. -/
def Spares {α : Type} (w : State τ) (x : Except ServiceError α × State τ) : Prop :=
  ∀ why, x.1 = .error why → Noted w x.2

theorem spares_ok {α : Type} (w v : State τ) (a : α) : Spares w (.ok a, v) := fun _ h => by cases h

theorem spares_error {α : Type} (noted : Noted w v) (why : ServiceError) :
    Spares (α := α) w (.error why, v) := fun _ _ => noted

theorem Spares.of_noted {α : Type} {x : Except ServiceError α × State τ} (noted : Noted w v)
    (spares : Spares v x) : Spares w x := fun why h => noted.trans (spares why h)

theorem spares_inRegistry {α β : Type} {action : Registry → Except RegistryFault (Change α)}
    {next : α → State τ → Except ServiceError β × State τ}
    (h : ∀ c, action w.env.registry = .ok c →
      Spares w (next c.result
        (({ w with env := { w.env with registry := c.registry } } : State τ).note c.notices))) :
    Spares w (andThen (inRegistry action w) next) := by
  unfold inRegistry
  split
  · exact spares_error ⟨_, rfl⟩ _
  · cases hc : action w.env.registry with
    | error f => exact spares_error ⟨_, rfl⟩ _
    | ok c => exact h c hc

/-- Reading changes nothing, whether it is refused or not. -/
theorem noted_reading {α : Type} (read : Registry → Except RegistryFault α) (w : State τ) :
    Noted w (reading read w).2 := by
  unfold reading inRegistry
  split
  · exact ⟨_, rfl⟩
  · cases hread : read w.env.registry with
    | error f =>
      simp only [hread, Except.map]
      exact ⟨_, rfl⟩
    | ok a =>
      simp only [hread, Except.map]
      exact ⟨_, rfl⟩

theorem noted_get (id : EndpointId) (w : State τ) : Noted w (get id w).2 := by
  unfold get
  rw [andThen_state _ fun e v => by cases e <;> rfl]
  exact noted_reading _ w

theorem noted_getDefault (w : State τ) : Noted w (getDefault w).2 := by
  unfold getDefault
  rw [andThen_state _ fun e v => by cases e <;> rfl]
  exact noted_reading _ w

theorem spares_andThen {α β : Type} {x : Except ServiceError α × State τ}
    {next : α → State τ → Except ServiceError β × State τ} (noted : Noted w x.2)
    (h : ∀ a v, ∃ b u, next a v = (.ok b, u)) : Spares w (andThen x next) := by
  obtain ⟨result, v⟩ := x
  cases result with
  | error why => exact spares_error noted why
  | ok a =>
    obtain ⟨b, u, hnext⟩ := h a v
    show Spares w (next a v)
    rw [hnext]
    exact spares_ok _ _ _

/-- An action in the registry that has changed nothing there may be followed by a refusal. -/
theorem spares_unchanged {α β : Type} {c : Change α} (same : c.registry = w.env.registry)
    (why : ServiceError) :
    Spares (α := β) w (.error why,
      ({ w with env := { w.env with registry := c.registry } } : State τ).note c.notices) := by
  rw [same]
  exact spares_error ⟨_, rfl⟩ why

/-! ### In the registry -/

theorem registry_of_refused_edit {id : EndpointId} {req : Edit} {r : Registry}
    {c : Change (Except ServiceError Endpoint)} (h : edit id req r = .ok c) {why : ServiceError}
    (refused : c.result = .error why) : c.registry = r := by
  obtain ⟨stored, -, h⟩ := ok_of_bind h
  cases stored with
  | none =>
    cases h
    rfl
  | some stored =>
    dsimp only at h
    cases happly : req.apply stored with
    | error why =>
      rw [happly] at h
      cases h
      rfl
    | ok e =>
      rw [happly] at h
      obtain ⟨r', -, h⟩ := ok_of_bind h
      cases h
      cases refused

theorem registry_of_absent_delete {id : EndpointId} {r r' : Registry}
    (h : r.delete id = .ok (false, r')) : r' = r := by
  obtain ⟨rows, hrows, h⟩ := ok_of_bind h
  have hrows := Registry.rows_of_rowsFor hrows
  obtain ⟨absent, rfl⟩ := Prod.mk.inj (Except.ok.inj h)
  have kept : rows.filter (·.id ≠ id) = rows := List.filter_eq_self.mpr fun row hrow =>
    decide_eq_true fun same => List.any_eq_false.mp absent row hrow (decide_eq_true same)
  rw [kept, ← hrows]

theorem registry_of_absent_setDefault {id : EndpointId} {r r' : Registry}
    (h : r.setDefault id = .ok (false, r')) : r' = r := by
  obtain ⟨rows, -, h⟩ := ok_of_bind h
  split at h
  · cases h
  · cases h
    rfl

theorem registry_of_absent_takeOut {id : EndpointId} {r : Registry} {c : Change Bool}
    (h : takeOut id r = .ok c) (absent : c.result = false) : c.registry = r := by
  obtain ⟨⟨found, r'⟩, hdelete, h⟩ := ok_of_bind h
  cases h
  cases absent
  exact registry_of_absent_delete hdelete

theorem registry_of_absent_choose {id : EndpointId} {r : Registry} {c : Change Bool}
    (h : choose id r = .ok c) (absent : c.result = false) : c.registry = r := by
  obtain ⟨⟨found, r'⟩, hset, h⟩ := ok_of_bind h
  cases h
  cases absent
  exact registry_of_absent_setDefault hset

theorem rows_of_insert {e : Endpoint} {r r' : Registry} (h : r.insert e = .ok r') :
    ∃ rows rows', r = ⟨some rows⟩ ∧ r' = ⟨some rows'⟩ := by
  obtain ⟨rows?⟩ := r
  unfold Registry.insert Registry.addRow at h
  cases rows? with
  | none => cases h
  | some rows =>
    dsimp only at h
    split at h
    · cases h
    · rename_i added hadded
      cases h
      split at hadded
      · cases hadded
      · cases hadded
        exact ⟨rows, _, rfl, rfl⟩

theorem setDefault_of_rows (rows : List Row) (id : EndpointId) :
    ∃ chosen, Registry.setDefault ⟨some rows⟩ id = .ok chosen := by
  show ∃ chosen, (if rows.any (·.id = id) = true then _ else _) = _
  split
  · exact ⟨_, rfl⟩
  · exact ⟨_, rfl⟩

/-- Two changes make an endpoint the stored default, of which only the first can fail. -/
theorem store_of_insert {e : Endpoint} {r r' : Registry} (inserted : r.insert e = .ok r')
    (makeDefault : Bool) : ∃ c, store e makeDefault r = .ok c := by
  obtain ⟨rows, rows', rfl, rfl⟩ := rows_of_insert inserted
  unfold store
  show ∃ c, (Registry.insert ⟨some rows⟩ e >>= _) = _
  rw [inserted]
  show ∃ c, (if (decide (rows.length = 0) || makeDefault) = true then _ else _) = _
  split
  · obtain ⟨chosen, hset⟩ := setDefault_of_rows rows' e.id
    show ∃ c, ((Registry.setDefault ⟨some rows'⟩ e.id >>= _) >>= _) = _
    rw [hset]
    exact ⟨_, rfl⟩
  · exact ⟨_, rfl⟩

/-! ### What the service does -/

theorem list_spares (p : Prober τ) (w : State τ) : Spares w (list p w) :=
  spares_andThen (noted_reading _ w) fun _ _ => ⟨_, _, rfl⟩

theorem register_spares (p : Prober τ) (id : EndpointId) (req : Registration) (w : State τ) :
    Spares w (register p id req w) := by
  unfold register
  dsimp only
  split
  · exact spares_error (.refl w) _
  · exact spares_inRegistry fun _ _ => spares_ok _ _ _

theorem update_spares (p : Prober τ) (id : EndpointId) (req : Edit) (w : State τ) :
    Spares w (update p id req w) :=
  spares_inRegistry fun c hc => by
    cases hresult : c.result with
    | error why => exact spares_unchanged (registry_of_refused_edit hc hresult) why
    | ok e => exact spares_ok _ _ _

theorem remove_spares (p : Prober τ) (id : EndpointId) (w : State τ) : Spares w (remove p id w) :=
  spares_inRegistry fun c hc => by
    cases hresult : c.result with
    | false => exact spares_unchanged (registry_of_absent_takeOut hc hresult) _
    | true => exact spares_ok _ _ _

theorem setDefault_spares (id : EndpointId) (w : State τ) : Spares w (setDefault id w) :=
  spares_inRegistry fun c hc => by
    cases hresult : c.result with
    | false => exact spares_unchanged (registry_of_absent_choose hc hresult) _
    | true => exact spares_ok _ _ _

theorem probe_spares (p : Prober τ) (id : EndpointId) (w : State τ) : Spares w (probe p id w) :=
  spares_andThen (noted_get id w) fun _ _ => ⟨_, _, rfl⟩

/-! ### Manual tests -/

/-- The registry, the statuses and the sequences are as they were, with all that is still to be done
for these and all that decides whether their outcomes will be written. -/
structure Untouched (w v : State τ) : Prop where
  registry : v.env.registry = w.env.registry
  broken : v.env.broken = w.env.broken
  statuses : v.ledger.statuses = w.ledger.statuses
  current : v.ledger.current = w.ledger.current
  forgotten : v.ledger.forgotten = w.ledger.forgotten
  running : v.agenda.filter (·.task.sequence?.isSome) = w.agenda.filter (·.task.sequence?.isSome)

/-- The attempt of a manual test ends. -/
def Concludes (p : Prober τ) (t : EndpointHealth.Prober.ManualTest) (w v : State τ) : Prop :=
  ∃ a b due c, w.agenda = a ++ ⟨due, .conclude t c⟩ :: b ∧
    v = p.closeTest t c { w with agenda := a ++ b }

theorem untouched_launchTest (confined : Confined p) (id : EndpointId) (message : String)
    (w : State τ) : Untouched w (p.launchTest id message w) := by
  obtain ⟨provider, henv⟩ := confined w.env w.now (p.policy.manualRequest id message)
  have env : (p.launchTest id message w).env = { w.env with provider := provider } := henv
  refine ⟨by rw [env], by rw [env], rfl, rfl, rfl, ?_⟩
  exact EndpointHealth.Prober.filter_schedule_left rfl _

theorem test_cases (p : Prober τ) (id : EndpointId) (message : String) (w : State τ) :
    p.test id message w = p.launchTest id message w ∨
      Concludes p ⟨id, w.ledger.next⟩ (p.launchTest id message w) (p.test id message w) := by
  unfold EndpointHealth.Prober.launchTest EndpointHealth.Prober.test
  generalize p.call (p.policy.manualRequest id message) { w with ledger := w.ledger.claim } = called
  obtain ⟨c, v⟩ := called
  dsimp only
  split
  · obtain ⟨a, b, hsplit, hv⟩ :=
      EndpointHealth.Prober.wait_split v c.lasts (.conclude ⟨id, w.ledger.next⟩ c)
    exact .inr ⟨a, b, _, c, hsplit, by rw [hv]⟩
  · exact .inl rfl

end EndpointHealth.Service

namespace EndpointHealth.Http

open EndpointHealth.Service (Confined Noted Spares Untouched Concludes)

variable {τ : Type} {p : Service.Prober τ} {w v : Service.State τ}

/-- If the answer is given now and is an error, nothing has happened; if it is given later, nothing
has happened but that a manual test was started. -/
def Harmless (p : Service.Prober τ) (w : Service.State τ) : Response × Service.State τ → Prop
  | (.now a, v) => isSuccess a.status = false → Noted w v
  | (.later number, v) => ∃ u id message,
      Noted w u ∧ number = u.ledger.next ∧ v = p.test id message u

theorem harmless_answered {α : Type} {f : α → Answer} {x : Except ServiceError α × Service.State τ}
    (spares : Spares w x) (success : ∀ a, isSuccess (f a).status = true) :
    Harmless p w (answered f x) := by
  obtain ⟨result, v⟩ := x
  cases result with
  | error why => exact fun _ => spares why rfl
  | ok a =>
    intro failure
    rw [success a] at failure
    cases failure

theorem harmless_perform (p : Service.Prober τ) (fresh : EndpointId) (r : Request) (a : Action)
    (w : Service.State τ) : Harmless p w (perform p fresh r a w) := by
  have unchanged (a : Answer) : Harmless p w (.now a, w) := fun _ => .refl w
  cases a with
  | health => exact unchanged _
  | list => exact harmless_answered (Service.list_spares p w) fun _ => rfl
  | add =>
    unfold perform
    dsimp only
    split
    · exact unchanged _
    · refine harmless_answered ?_ ?_
      · exact (Service.register_spares p fresh _ _).of_noted ⟨_, rfl⟩
      · exact fun _ => rfl
  | getDefault => exact harmless_answered (fun _ _ => Service.noted_getDefault w) fun _ => rfl
  | statuses => exact unchanged _
  | get id => exact harmless_answered (fun _ _ => Service.noted_get id w) fun _ => rfl
  | update id =>
    unfold perform
    dsimp only
    split
    · exact unchanged _
    · exact harmless_answered (Service.update_spares p id _ w) fun _ => rfl
  | remove id => exact harmless_answered (Service.remove_spares p id w) fun _ => rfl
  | setDefault id => exact harmless_answered (Service.setDefault_spares id w) fun _ => rfl
  | probe id => exact harmless_answered (Service.probe_spares p id w) fun _ => rfl
  | test id =>
    unfold perform Service.test
    dsimp only
    split
    · exact unchanged _
    · split
      · exact unchanged _
      -- The endpoint is looked up first, and at most this puts something on record.
      · have noted := Service.noted_get id w
        generalize Service.get id w = got at noted
        obtain ⟨result, u⟩ := got
        cases result with
        | error why => exact fun _ => noted
        | ok e => exact ⟨u, id, _, noted, rfl, rfl⟩

theorem harmless_to {response : Response} (harmless : Harmless p w (response, v))
    (method : String) : Harmless p w (response.to method, v) := by
  cases response with
  | later number => exact harmless
  | now a =>
    unfold Response.to
    dsimp only
    split
    · exact harmless
    · exact harmless

theorem harmless_handle (p : Service.Prober τ) (fresh : EndpointId) (r : Request)
    (w : Service.State τ) : Harmless p w (handle p fresh r w) := by
  have unchanged (a : Answer) : Harmless p w (.now a, w) := fun _ => .refl w
  unfold handle
  split
  · exact unchanged _
  · exact unchanged _
  · exact harmless_to (unchanged _) r.method
  · exact harmless_to (harmless_perform p fresh r _ w) r.method

/-! ### Manual tests -/

theorem untouched_closeTest (p : Service.Prober τ) (t : Prober.ManualTest) (c : Prober.Course)
    (w : Service.State τ) : ∃ x, (p.closeTest t c w).ended = w.ended ++ [x] ∧ x.number = t.number ∧
      ∀ a, testAnswer x.result = some a → isSuccess a.status = false →
        Untouched w (p.closeTest t c w) := by
  have untouched {v : Service.State τ} (env : v.env = w.env) (ledger : v.ledger = w.ledger)
      (agenda : v.agenda = w.agenda) : Untouched w v :=
    ⟨by rw [env], by rw [env], by rw [ledger], by rw [ledger], by rw [ledger], by rw [agenda]⟩
  unfold Prober.closeTest
  dsimp only
  split
  · refine ⟨_, rfl, rfl, fun a ha failure => ?_⟩
    cases ha
    cases failure
  · refine ⟨_, rfl, rfl, fun a ha failure => ?_⟩
    cases ha
    cases failure
  · exact ⟨_, rfl, rfl, fun _ _ _ => untouched rfl rfl rfl⟩
  · exact ⟨_, rfl, rfl, fun _ _ _ => untouched rfl rfl rfl⟩
  · exact ⟨_, rfl, rfl, fun _ _ _ => untouched rfl rfl rfl⟩

theorem untouched_of_concludes {t : Prober.ManualTest} (concludes : Concludes p t w v) :
    ∃ x, v.ended = w.ended ++ [x] ∧ x.number = t.number ∧
      ∀ a, testAnswer x.result = some a → isSuccess a.status = false → Untouched w v := by
  obtain ⟨a, b, due, c, hagenda, rfl⟩ := concludes
  obtain ⟨x, ended, number, untouched⟩ := untouched_closeTest p t c { w with agenda := a ++ b }
  refine ⟨x, ended, number, fun answer ha failure => ?_⟩
  have same := untouched answer ha failure
  refine ⟨same.registry, same.broken, same.statuses, same.current, same.forgotten, ?_⟩
  rw [same.running, hagenda]
  simp [EndpointHealth.Prober.Task.sequence?]

/-- A manual test that has been started is under way, or it has ended at once. -/
theorem untouched_of_later (confined : Confined p) {fresh : EndpointId} {r : Request} {number : Nat}
    (h : handle p fresh r w = (.later number, v)) : ∃ t u, t.number = number ∧ Untouched w u ∧
      t ∈ u.tests ∧ (v = u ∨ Concludes p t u v) := by
  have harmless := harmless_handle p fresh r w
  rw [h] at harmless
  obtain ⟨u, id, message, ⟨notices, rfl⟩, rfl, rfl⟩ := harmless
  have launched := Service.untouched_launchTest confined id message (w.note notices)
  refine ⟨⟨id, w.ledger.next⟩, p.launchTest id message (w.note notices), rfl, ?_, ?_,
    Service.test_cases p id message _⟩
  · exact ⟨launched.registry, launched.broken, launched.statuses, launched.current,
      launched.forgotten, launched.running⟩
  · refine (EndpointHealth.Prober.tests_wait _ _ _).mem_iff.mpr (List.mem_append_left _ ?_)
    exact List.mem_singleton_self _

/-- A request that is answered with a failure at once leaves everything but the log as it was. One
that starts a manual test touches nothing but the tests, and nor does the end of a test that is
answered with a failure. The last part says that an endpoint that can be inserted can be stored, so
that no registration fails halfway. -/
theorem failure_changes_nothing (confined : Confined p) (fresh : EndpointId) (r : Request) :
    (∀ a, handle p fresh r w = (.now a, v) → isSuccess a.status = false →
      ∃ notices, v = w.note notices) ∧
    (∀ number, handle p fresh r w = (.later number, v) → ∃ t u, t.number = number ∧
      Untouched w u ∧ t ∈ u.tests ∧ (v = u ∨ Concludes p t u v)) ∧
    (∀ t, Concludes p t w v → ∃ x, v.ended = w.ended ++ [x] ∧ x.number = t.number ∧
      ∀ a, testAnswer x.result = some a → isSuccess a.status = false → Untouched w v) ∧
    ∀ e makeDefault f, Service.store e makeDefault w.env.registry = .error f →
      ∀ r', w.env.registry.insert e ≠ .ok r' := by
  refine ⟨fun a h failure => ?_, fun number h => untouched_of_later confined h,
    fun t => untouched_of_concludes, fun e makeDefault f failed r' inserted => ?_⟩
  · have harmless := harmless_handle p fresh r w
    rw [h] at harmless
    exact harmless failure
  · obtain ⟨c, stored⟩ := Service.store_of_insert inserted makeDefault
    rw [stored] at failed
    cases failed

/-- A prober whose tester fails after a second. -/
def down : Service.Prober Unit where
  policy := .standard
  tester := fun b _ _ => (⟨some 1000, .error (.provider "down"), []⟩, b)

def probing : Service.State Unit := down.probe "m" Service.shelf

def testing : Service.State Unit :=
  (handle down "" ⟨"POST", "/models/m/test", none, []⟩ probing).2

def tested : Service.State Unit :=
  down.closeTest ⟨"m", 2⟩ ⟨1000, .failed (.failed (.provider "down")), []⟩
    { testing with agenda := [⟨0, .attempt ⟨"m", 1⟩ 4⟩] }

/-- An unknown endpoint cannot be deleted, and a manual test fails. -/
theorem failure_changes_nothing_down : probing.sequences = [⟨"m", 1⟩] ∧
    (∃ notices, (handle down "" ⟨"DELETE", "/models/x", none, []⟩ probing).2 =
      probing.note notices) ∧
    Untouched probing testing ∧ Concludes down ⟨"m", 2⟩ testing tested ∧
    Untouched testing tested := by
  have confined : Confined down := fun b _ _ => ⟨b.provider, rfl⟩
  have deleted := failure_changes_nothing (w := probing)
    (v := (handle down "" ⟨"DELETE", "/models/x", none, []⟩ probing).2) confined ""
    ⟨"DELETE", "/models/x", none, []⟩
  have begun := failure_changes_nothing (w := probing) (v := testing) confined ""
    ⟨"POST", "/models/m/test", none, []⟩
  have ended := failure_changes_nothing (w := testing) (v := tested) confined ""
    ⟨"POST", "/models/m/test", none, []⟩
  have concludes : Concludes down ⟨"m", 2⟩ testing tested :=
    ⟨[⟨0, .attempt ⟨"m", 1⟩ 4⟩], [], 1000, _, rfl, rfl⟩
  refine ⟨rfl, ?_, ?_, concludes, ?_⟩
  · have refused : (handle down "" ⟨"DELETE", "/models/x", none, []⟩ probing).1 =
        .now (.error (.unknownEndpoint "x")) := rfl
    exact deleted.1 _ (Prod.ext refused rfl) rfl
  · have later : (handle down "" ⟨"POST", "/models/m/test", none, []⟩ probing).1 = .later 2 := rfl
    obtain ⟨t, u, -, untouched, -, same | concluded⟩ := begun.2.1 2 (Prod.ext later rfl)
    · exact same ▸ untouched
    · obtain ⟨x, hx, -⟩ := untouched_of_concludes concluded
      have none : testing.ended = [] := rfl
      simp [none] at hx
  · obtain ⟨x, hx, -, untouched⟩ := ended.2.2.1 _ concludes
    have last : [] ++ [⟨2, 0, .test (.error (.provider "down"))⟩] = [] ++ [x] := hx
    cases last
    exact untouched _ rfl rfl

end EndpointHealth.Http
