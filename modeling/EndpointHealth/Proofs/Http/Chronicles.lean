import EndpointHealth.Proofs.Catalog.Folders
import EndpointHealth.Proofs.Service.Bookkeeping
import EndpointHealth.Startup
set_option autoImplicit false

/-!
A service that is started, perhaps again and again with its registry as it was, and answers
requests. What it has done to the registry can be told from the requests and their answers alone.

Main statements: the registry of a service is its chronicle's book (`holds_of_served`), and starting
the service from files goes on with a chronicle (`served_of_launch`).
-/

namespace EndpointHealth.Http

open EndpointHealth.Service (Confined Holds Gives SameShelf)

variable {τ : Type} {p : Service.Prober τ} {b b' : Book} {w v : Service.State τ}

/-! ### Deeds of requests -/

/-- What an action does to the registry if it is done. A registration takes the id `fresh`. -/
def Action.deed? (fresh : EndpointId) (r : Request) : Action → Option Deed
  | .add => (r.read Registration.shape).toOption.map fun x =>
    .registered fresh (Registration.ofRecord x)
  | .update id => (r.read Edit.shape).toOption.map fun x => .edited id (Edit.ofRecord x)
  | .remove id => some (.removed id)
  | .setDefault id => some (.promoted id)
  | .health | .list | .getDefault | .statuses | .get _ | .probe _ | .test _ => none

def Response.isDone : Response → Bool
  | .now a => isSuccess a.status
  | .later _ => false

/-- What a request that has been answered has done to the registry. -/
def deed? (fresh : EndpointId) (r : Request) (response : Response) : Option Deed :=
  match actionOf r.method r.target with
  | .ok a => if response.isDone then a.deed? fresh r else none
  | .error _ => none

theorem isDone_to (response : Response) (method : String) :
    (response.to method).isDone = response.isDone := by
  cases response with
  | now a =>
    unfold Response.to
    dsimp only
    split <;> rfl
  | later number => rfl

theorem isDone_error (e : ServiceError) : (Response.now (.error e)).isDone = false := by
  have failure (k : ErrorKind) : isSuccess k.status = false := by cases k <;> rfl
  exact failure e.kind

/-- The deed that has been done, if any, was lawful, and the book is held with it on record. -/
structure Entered (b : Book) (d? : Option Deed) (w : Service.State τ) : Prop where
  lawful : ∀ d ∈ d?, d.Lawful b.ids
  holds : Holds (d?.elim b b.record) w

theorem entered_none (holds : Holds b w) : Entered b none w := ⟨(fun _ h => by cases h), holds⟩

/-! ### Answers -/

theorem handle_of_action {r : Request} {a : Action} (action : actionOf r.method r.target = .ok a)
    (p : Service.Prober τ) (fresh : EndpointId) (w : Service.State τ) :
    handle p fresh r w =
      ((perform p fresh r a w).1.to r.method, (perform p fresh r a w).2) := by
  unfold handle
  rw [action]

theorem answered_gives {α : Type} (f : α → Answer) {x : Except ServiceError α × Service.State τ}
    {a : α} (gives : Gives x (.ok a) b) :
    (answered f x).1 = .now (f a) ∧ Holds b (answered f x).2 := by
  obtain ⟨result, v⟩ := x
  obtain ⟨rfl, holds⟩ := gives
  exact ⟨rfl, holds⟩

theorem answered_gives_error {α : Type} (f : α → Answer)
    {x : Except ServiceError α × Service.State τ} {why : ServiceError}
    (gives : Gives x (.error why) b) :
    (answered f x).1 = .now (.error why) ∧ Holds b (answered f x).2 := by
  obtain ⟨result, v⟩ := x
  obtain ⟨rfl, holds⟩ := gives
  exact ⟨rfl, holds⟩

/-! ### What a request enters -/

theorem entered_done {α : Type} {f : α → Answer} {x : Except ServiceError α × Service.State τ}
    {a : α} {d? : Option Deed} (gives : Gives x (.ok a) (d?.elim b b.record))
    (lawful : ∀ d ∈ d?, d.Lawful b.ids) (success : isSuccess (f a).status = true) :
    Entered b (if (answered f x).1.isDone then d? else none) (answered f x).2 := by
  obtain ⟨given, holds⟩ := answered_gives f gives
  rw [given, show (Response.now (f a)).isDone = true from success]
  exact ⟨lawful, holds⟩

theorem entered_failed {α : Type} {f : α → Answer} {x : Except ServiceError α × Service.State τ}
    {why : ServiceError} (gives : Gives x (.error why) b) (d? : Option Deed) :
    Entered b (if (answered f x).1.isDone then d? else none) (answered f x).2 := by
  obtain ⟨given, holds⟩ := answered_gives_error f gives
  rw [given, isDone_error]
  exact entered_none holds

theorem status_of_read {r : Request} {s : Json.Shape} {a : Answer} (h : r.read s = .error a) :
    isSuccess a.status = false := by
  unfold Request.read at h
  split at h
  · cases h
    rfl
  · split at h
    · cases h
      rfl
    · split at h
      · cases h
        unfold unreadable
        dsimp only
        generalize Json.Fault.cause _ = cause
        cases cause.category <;> rfl
      · cases h

theorem holds_perform_test (confined : Confined p) (holds : Holds b w) (fresh id : EndpointId)
    (r : Request) : Holds b (perform p fresh r (.test id) w).2 := by
  unfold perform
  dsimp only
  split
  · exact holds
  · split
    · exact holds
    · rename_i message _
      have tested := Service.test_holds confined holds id message
      split
      · rename_i number v hv
        rwa [hv] at tested
      · rename_i e v hv
        rwa [hv] at tested

theorem entered_add (p : Service.Prober τ) (holds : Holds b w) (fresh : EndpointId) (r : Request) :
    let x := perform p fresh r .add w
    Entered b (if x.1.isDone then Action.add.deed? fresh r else none) x.2 := by
  unfold perform Action.deed?
  dsimp only
  cases h : r.read Registration.shape with
  | error a =>
    rw [show (Response.now a).isDone = false from status_of_read h]
    exact entered_none holds
  | ok x =>
    have noted := holds.note [.registering (Registration.ofRecord x).name
      (Registration.ofRecord x).provider]
    dsimp only [Except.toOption, Option.map]
    cases allowed : ((Registration.ofRecord x).endpoint fresh).refusal? with
    | some why => exact entered_failed (Service.register_refused noted allowed) _
    | none =>
      by_cases taken : fresh ∈ b.ids
      · obtain ⟨why, gives⟩ := Service.register_taken (p := p) noted allowed taken
        exact entered_failed gives _
      · have lawful : (Deed.registered fresh (Registration.ofRecord x)).Lawful b.ids :=
          ⟨allowed, taken⟩
        refine entered_done (Service.register_gives noted lawful) (fun d hd => ?_) rfl
        exact Option.mem_some.mp hd ▸ lawful

theorem entered_update (p : Service.Prober τ) (holds : Holds b w) (fresh id : EndpointId)
    (r : Request) :
    let x := perform p fresh r (.update id) w
    Entered b (if x.1.isDone then (Action.update id).deed? fresh r else none) x.2 := by
  unfold perform Action.deed?
  dsimp only
  cases h : r.read Edit.shape with
  | error a =>
    rw [show (Response.now a).isDone = false from status_of_read h]
    exact entered_none holds
  | ok x =>
    dsimp only [Except.toOption, Option.map]
    cases held : b.get? id with
    | none =>
      have absent := Book.get?_eq_none_iff.mp held
      exact entered_failed (Service.update_absent holds absent _) _
    | some e =>
      cases applied : (Edit.ofRecord x).apply e with
      | error why => exact entered_failed (Service.update_refused holds held applied) _
      | ok e' =>
        refine entered_done (Service.update_gives holds held applied) (fun d hd => ?_) rfl
        have known : id ∈ b.ids := by
          by_contra absent
          cases (Book.get?_eq_none_iff.mpr absent).symm.trans held
        exact Option.mem_some.mp hd ▸ known

theorem entered_perform (confined : Confined p) (holds : Holds b w) (fresh : EndpointId)
    (r : Request) (a : Action) :
    let x := perform p fresh r a w
    Entered b (if x.1.isDone then a.deed? fresh r else none) x.2 := by
  have unchanged {x : Response × Service.State τ} (h : Holds b x.2) :
      Entered b (if x.1.isDone then none else none) x.2 := by
    rw [ite_self]
    exact entered_none h
  cases a with
  | health => exact unchanged holds
  | list =>
    obtain ⟨status, gives⟩ := Service.list_gives p holds
    exact unchanged (answered_state _ _ ▸ gives.2)
  | add => exact entered_add p holds fresh r
  | getDefault => exact unchanged (answered_state _ _ ▸ (Service.getDefault_gives holds).2)
  | statuses => exact unchanged holds
  | get id => exact unchanged (answered_state _ _ ▸ (Service.get_gives holds id).2)
  | update id => exact entered_update p holds fresh id r
  | remove id =>
    by_cases held : id ∈ b.ids
    · refine entered_done (Service.remove_gives holds held) (fun d hd => ?_) rfl
      exact Option.mem_some.mp hd ▸ held
    · exact entered_failed (Service.remove_absent holds held) _
  | setDefault id =>
    by_cases held : id ∈ b.ids
    · refine entered_done (Service.setDefault_gives holds held) (fun d hd => ?_) rfl
      exact Option.mem_some.mp hd ▸ held
    · exact entered_failed (Service.setDefault_absent holds held) _
  | probe id => exact unchanged (answered_state _ _ ▸ Service.probe_holds p holds id)
  | test id => exact unchanged (holds_perform_test confined holds fresh id r)

theorem entered_handle (confined : Confined p) (holds : Holds b w) (fresh : EndpointId)
    (r : Request) :
    Entered b (deed? fresh r (handle p fresh r w).1) (handle p fresh r w).2 := by
  cases action : actionOf r.method r.target with
  | error why =>
    unfold handle deed?
    rw [action]
    cases why <;> exact entered_none holds
  | ok a =>
    unfold deed?
    rw [handle_of_action action, action]
    dsimp only
    rw [isDone_to]
    exact entered_perform confined holds fresh r a

/-! ### Services -/

/-- A service at its start: it has a registry, and has a probe begun for every endpoint in it. -/
def opened (p : Service.Prober τ) (r : Registry) (provider : τ) (notices : List Notice) :
    Service.State τ :=
  p.observe r.ids ((Prober.World.start ⟨r, false, provider⟩).note notices)

/-- States of a service whose registry was empty at first, with what has been done to it. The
service is started, answers requests, each with an id of its own at hand, and is started again; in
between the prober works by itself. -/
inductive Served (p : Service.Prober τ) : Chronicle → Service.State τ → Prop
  | empty (provider : τ) : Served p [] (.start ⟨.empty, false, provider⟩)
  | started {h : Chronicle} {w : Service.State τ} (before : Served p h w) (seeds : List Endpoint)
      {s : Registry.Seeding} (seeded : w.env.registry.seed (.ofEndpoints seeds) = .ok s)
      (provider : τ) (notices : List Notice) :
      Served p (.started seeds :: h) (opened p s.registry provider notices)
  | handled {h : Chronicle} {w : Service.State τ} (before : Served p h w) (fresh : EndpointId)
      (r : Request) :
      Served p ((deed? fresh r (handle p fresh r w).1).toList ++ h) (handle p fresh r w).2
  | work {h : Chronicle} {w v : Service.State τ} {e : Option Prober.Event} (before : Served p h w)
      (next : p.Work w e v) : Served p h v

theorem confined_slow : Confined slow := fun b _ _ => ⟨b.provider, rfl⟩

theorem Reached.served (reached : Reached p w) : ∃ h, Served p h w := by
  induction reached with
  | start provider => exact ⟨[], .empty provider⟩
  | handle _ fresh r ih =>
    obtain ⟨h, served⟩ := ih
    exact ⟨_, served.handled fresh r⟩
  | work _ next ih =>
    obtain ⟨h, served⟩ := ih
    exact ⟨h, served.work next⟩

theorem holds_opened {r : Registry} (same : r = b.registry) (provider : τ)
    (notices : List Notice) : Holds b (opened p r provider notices) :=
  Holds.observe (Holds.note ⟨same, rfl⟩ notices) _

theorem entered_chronicle {h : Chronicle} {d? : Option Deed} (lawful : h.Lawful)
    (entered : Entered h.book d? w) :
    Chronicle.Lawful (d?.toList ++ h) ∧ Holds (Chronicle.book (d?.toList ++ h)) w := by
  cases d? with
  | none => exact ⟨lawful, entered.holds⟩
  | some d =>
    have allowed := entered.lawful d rfl
    rw [Chronicle.ids_book lawful] at allowed
    exact ⟨⟨allowed, lawful⟩, entered.holds⟩

theorem registry_of_seed {h : Chronicle} (holds : Holds h.book w) {seeds : List Endpoint}
    {s : Registry.Seeding} (seeded : w.env.registry.seed (.ofEndpoints seeds) = .ok s) :
    s.registry = (Chronicle.book (.started seeds :: h)).registry := by
  obtain ⟨notices, seeded'⟩ := h.book.seed_registry seeds
  rw [holds.registry, seeded'] at seeded
  exact congrArg Registry.Seeding.registry (Except.ok.inj seeded.symm)

theorem holds_of_served (confined : Confined p) {h : Chronicle} (served : Served p h w) :
    h.Lawful ∧ Holds h.book w := by
  induction served with
  | empty provider => exact ⟨trivial, rfl, rfl⟩
  | started before seeds seeded provider notices ih =>
    obtain ⟨lawful, holds⟩ := ih
    exact ⟨⟨trivial, lawful⟩, holds_opened (registry_of_seed holds seeded) provider notices⟩
  | handled before fresh r ih =>
    exact entered_chronicle ih.1 (entered_handle confined ih.2 fresh r)
  | work before next ih => exact ⟨ih.1, ih.2.shelf (Service.sameShelf_of_work confined next)⟩

theorem seed_nil (b : Book) : ∃ s, b.registry.seed (.ofEndpoints []) = .ok s ∧
    s.registry = b.registry := by
  obtain ⟨notices, seeded⟩ := b.seed_registry []
  refine ⟨_, seeded, ?_⟩
  by_cases empty : b.records = []
  · obtain ⟨records, -⟩ := Book.seed_of_empty empty []
    show (⟨some ((b.seed []).2.records.map _)⟩ : Registry) = ⟨some (b.records.map _)⟩
    rw [records, empty]
    rfl
  · exact congrArg Book.registry (Book.seed_of_ne_nil empty [])

/-- Seeding at the start is seeding from the endpoints of a catalog, or from none. -/
theorem seeded_of_startup {files : Startup.Files} {folder : String} {r : Registry}
    {notices : List Notice} (h : Startup.seed files folder b.registry = .ok (r, notices)) :
    ∃ seeds s, b.registry.seed (.ofEndpoints seeds) = .ok s ∧ s.registry = r := by
  obtain ⟨none, spared, same⟩ := seed_nil b
  unfold Startup.seed at h
  split at h
  · split at h
    · cases h
      exact ⟨[], none, spared, same⟩
    · rename_i c gathered
      obtain ⟨es, rfl⟩ := Catalog.ofFolder_ofEndpoints gathered
      split at h
      · cases h
      · rename_i s seeded
        cases h
        exact ⟨es, s, seeded, rfl⟩
  · cases h
    exact ⟨[], none, spared, same⟩

/-- A service that is started from files which hold its registry goes on with its chronicle. -/
theorem served_of_launch (confined : Confined p) {h : Chronicle} (served : Served p h w)
    {s : Settings} (policy : s.probe = p.policy) {files files' : Startup.Files}
    (found : Startup.openRegistry files s.server.database = .ok (w.env.registry, files'))
    {provider : τ} (launched : (Startup.launch s p.tester provider files).state = .ok v) :
    ∃ seeds, Served p (.started seeds :: h) v := by
  obtain ⟨-, holds⟩ := holds_of_served confined served
  unfold Startup.launch at launched
  dsimp only at launched
  rw [found, holds.registry, policy] at launched
  dsimp only at launched
  split at launched
  · cases launched
  · rename_i r seeded startup
    obtain ⟨seeds, s, seeding, rfl⟩ := seeded_of_startup startup
    split at launched
    · cases launched
    · rename_i es listed
      cases launched
      rw [Registry.ids_of_list listed]
      exact ⟨seeds, served.started seeds (holds.registry ▸ seeding) provider _⟩

end EndpointHealth.Http
