import EndpointHealth.Proofs.Http.Refusals
import EndpointHealth.Proofs.Prober.Reduction
import EndpointHealth.Proofs.Registry.Deeds
set_option autoImplicit false

/-!
What the actions of the service give and leave where the registry is a book's.

Main statements: reading gives what is in the book (`get_gives`, `getDefault_gives`, `list_gives`),
and each change that is made leaves the book with its deed on record (`register_gives`,
`update_gives`, `remove_gives`, `setDefault_gives`); whatever else is asked leaves it as it was.
-/

namespace EndpointHealth

namespace Book

variable {b : Book} {id : EndpointId} {e : Endpoint}

theorem eq_of_id {e f : Endpoint} (he : e ∈ b.records) (hf : f ∈ b.records) (same : e.id = f.id) :
    e = f := List.inj_on_of_nodup_map b.nodup he hf same

theorem mem_of_get? (h : b.get? id = some e) :
    ∃ old ∈ b.records, old.id = id ∧ e = b.shown old := by
  obtain ⟨old, hold, rfl⟩ := List.mem_map.mp (List.mem_of_find?_eq_some h)
  exact ⟨old, hold, of_decide_eq_true (List.find?_some h :), rfl⟩

theorem get?_of_mem {old : Endpoint} (h : old ∈ b.records) :
    b.get? old.id = some (b.shown old) := by
  cases found : b.get? old.id with
  | none =>
    have other := List.find?_eq_none.mp found _ (List.mem_map_of_mem h)
    exact absurd (decide_eq_true rfl) other
  | some e =>
    obtain ⟨other, hother, same, rfl⟩ := mem_of_get? found
    rw [eq_of_id hother h same]

theorem get?_eq_none_iff : b.get? id = none ↔ id ∉ b.ids := by
  constructor
  · rintro missing held
    obtain ⟨old, hold, rfl⟩ := List.mem_map.mp held
    cases missing.symm.trans (get?_of_mem hold)
  · intro absent
    refine Option.eq_none_iff_forall_not_mem.mpr fun e he => absent ?_
    obtain ⟨old, hold, rfl, -⟩ := mem_of_get? he
    exact List.mem_map_of_mem hold

/-- An endpoint that is read, edited and written back has been edited in its place. -/
theorem update_merge (h : b.get? id = some e) (req : Edit) :
    (b.update (req.merge e)).registry = (b.edit id req).registry := by
  obtain ⟨old, hold, rfl, rfl⟩ := mem_of_get? h
  have records : (b.update (req.merge (b.shown old))).records = (b.edit old.id req).records := by
    refine List.map_congr_left fun f hf => ?_
    show (if f.id = old.id then _ else f) = if f.id = old.id then _ else f
    split
    · rename_i same
      rw [eq_of_id hf hold same]
      rfl
    · rfl
  show (⟨some ((b.update (req.merge (b.shown old))).records.map (row b.chosen?))⟩ : Registry) =
    ⟨some ((b.edit old.id req).records.map (row b.chosen?))⟩
  rw [records]

end Book

namespace Service

variable {τ : Type} {p : Prober τ} {b b' : Book} {w v : State τ} {α β : Type}

/-! ### In the registry -/

theorem store_taken {e : Endpoint} (taken : e.id ∈ b.ids) (makeDefault : Bool) :
    store e makeDefault b.registry = .error ⟨.insert, .takenId⟩ := by
  unfold store
  rw [b.count_registry]
  show (b.registry.insert e >>= _) = _
  rw [b.insert_registry, Book.insert, dif_pos taken]
  rfl

theorem store_fresh {e : Endpoint} (fresh : e.id ∉ b.ids) (makeDefault : Bool) : ∃ notices,
    store e makeDefault b.registry = .ok ⟨(), (b.register e makeDefault).registry, notices⟩ := by
  obtain ⟨c, inserted, records, -⟩ := Book.insert_eq_ok fresh
  have held : e.id ∈ c.ids := by simp [Book.ids, records]
  have first : decide (b.count = 0) = b.records.isEmpty := by
    rw [Book.count]
    cases b.records <;> rfl
  unfold store Book.register
  rw [b.count_registry]
  show ∃ notices, (b.registry.insert e >>= _) = _
  rw [b.insert_registry, inserted]
  dsimp only
  show ∃ notices, (if (decide (b.count = 0) || makeDefault) = true then _ else _) = _
  rw [first]
  split
  · show ∃ notices, ((c.registry.setDefault e.id >>= _) >>= _) = _
    rw [c.setDefault_registry, Book.setDefault, dif_pos held]
    exact ⟨_, rfl⟩
  · exact ⟨_, rfl⟩

theorem edit_absent {id : EndpointId} (absent : id ∉ b.ids) (req : Edit) :
    edit id req b.registry = .ok ⟨.error (.unknownEndpoint id), b.registry, []⟩ := by
  unfold edit
  rw [b.get_registry, Book.get?_eq_none_iff.mpr absent]
  rfl

theorem edit_refused {id : EndpointId} {req : Edit} {e : Endpoint} {why : Refusal}
    (held : b.get? id = some e) (refused : req.apply e = .error why) :
    edit id req b.registry = .ok ⟨.error (.refused why), b.registry, []⟩ := by
  unfold edit
  rw [b.get_registry, held]
  simp only [bind, Except.bind, refused]

theorem edit_applied {id : EndpointId} {req : Edit} {e e' : Endpoint}
    (held : b.get? id = some e) (applied : req.apply e = .ok e') : ∃ notices,
    edit id req b.registry = .ok ⟨.ok e', (b.edit id req).registry, notices⟩ := by
  obtain ⟨rfl, -⟩ := Edit.eq_merge_of_apply applied
  have updated : b.registry.update (req.merge e) = .ok (b.edit id req).registry := by
    rw [b.update_registry, Book.update_merge held]
  unfold edit
  rw [b.get_registry, held]
  simp only [bind, Except.bind, applied, updated]
  exact ⟨_, rfl⟩

theorem takeOut_registry (b : Book) (id : EndpointId) : ∃ notices,
    takeOut id b.registry = .ok ⟨id ∈ b.ids, (b.delete id).2.registry, notices⟩ := by
  unfold takeOut
  rw [b.delete_registry]
  exact ⟨_, rfl⟩

theorem choose_registry (b : Book) (id : EndpointId) : ∃ notices,
    choose id b.registry = .ok ⟨(b.setDefault id).1, (b.setDefault id).2.registry, notices⟩ := by
  unfold choose
  rw [b.setDefault_registry]
  exact ⟨_, rfl⟩

/-! ### What an action gives and leaves -/

/-- The registry can be used, and it is a book's. -/
structure Holds (b : Book) (w : State τ) : Prop where
  registry : w.env.registry = b.registry
  whole : w.env.broken = false

theorem Holds.shelf (holds : Holds b w) (same : SameShelf w v) : Holds b v := by
  obtain ⟨provider, hv⟩ := same
  exact ⟨by rw [hv]; exact holds.registry, by rw [hv]; exact holds.whole⟩

theorem Holds.note (holds : Holds b w) (notices : List Notice) : Holds b (w.note notices) :=
  ⟨holds.registry, holds.whole⟩

theorem Holds.observe (holds : Holds b w) (ids : List EndpointId) :
    Holds b (p.observe ids w) := by
  have env : (p.observe ids w).env = w.env := (p.asks_observe ids w).env
  exact ⟨by rw [env]; exact holds.registry, by rw [env]; exact holds.whole⟩

/-- An action has given a result and left a book. -/
def Gives (x : Except ServiceError α × State τ) (result : Except ServiceError α) (b : Book) :
    Prop :=
  x.1 = result ∧ Holds b x.2

theorem gives_inRegistry {action : Registry → Except RegistryFault (Change α)} {result : α}
    {notices : List Notice} (holds : Holds b w)
    (h : action b.registry = .ok ⟨result, b'.registry, notices⟩) :
    Gives (inRegistry action w) (.ok result) b' := by
  unfold inRegistry
  rw [if_neg (by simp [holds.whole]), holds.registry, h]
  exact ⟨rfl, rfl, holds.whole⟩

theorem gives_fault {action : Registry → Except RegistryFault (Change α)} {f : RegistryFault}
    (holds : Holds b w) (h : action b.registry = .error f) :
    Gives (inRegistry action w) (.error (.registry f.message)) b := by
  unfold inRegistry
  rw [if_neg (by simp [holds.whole]), holds.registry, h]
  exact ⟨rfl, holds.note _⟩

theorem gives_reading {read : Registry → Except RegistryFault α} {a : α} (holds : Holds b w)
    (h : read b.registry = .ok a) : Gives (reading read w) (.ok a) b :=
  gives_inRegistry holds (by rw [h]; rfl)

theorem gives_andThen {x : Except ServiceError α × State τ}
    {next : α → State τ → Except ServiceError β × State τ} {a : α}
    {result : Except ServiceError β} (first : Gives x (.ok a) b)
    (h : ∀ v, Holds b v → Gives (next a v) result b') : Gives (andThen x next) result b' := by
  obtain ⟨given, v⟩ := x
  obtain ⟨rfl, holds⟩ := first
  exact h v holds

theorem gives_andThen_error {x : Except ServiceError α × State τ}
    {next : α → State τ → Except ServiceError β × State τ} {why : ServiceError}
    (first : Gives x (.error why) b) : Gives (andThen x next) (.error why) b := by
  obtain ⟨given, v⟩ := x
  obtain ⟨rfl, holds⟩ := first
  exact ⟨rfl, holds⟩

/-! ### Reading -/

theorem get_gives (holds : Holds b w) (id : EndpointId) :
    Gives (get id w) (match b.get? id with
      | some e => .ok e
      | none => .error (.unknownEndpoint id)) b := by
  refine gives_andThen (gives_reading holds (b.get_registry id)) fun v hv => ?_
  cases b.get? id with
  | none => exact ⟨rfl, hv⟩
  | some e => exact ⟨rfl, hv⟩

theorem getDefault_gives (holds : Holds b w) :
    Gives (getDefault w) (match b.default? with
      | some e => .ok e
      | none => .error .noDefault) b := by
  refine gives_andThen (gives_reading holds b.getDefault_registry) fun v hv => ?_
  cases b.default? with
  | none => exact ⟨rfl, hv⟩
  | some e => exact ⟨rfl, hv⟩

theorem list_gives (p : Prober τ) (holds : Holds b w) : ∃ status : EndpointId → Option Status,
    Gives (list p w) (.ok (b.list.map fun e => (e, status e.id))) b := by
  have first := gives_reading holds b.list_registry
  unfold list
  generalize reading Registry.list w = x at first
  obtain ⟨given, v⟩ := x
  obtain ⟨rfl, holds⟩ := first
  exact ⟨(p.observe (b.list.map (·.id)) v).status?, rfl, holds.observe _⟩

/-- What needs an endpoint only leaves the book as it is. -/
theorem holds_of_get {next : Endpoint → State τ → Except ServiceError β × State τ}
    (holds : Holds b w) (id : EndpointId) (h : ∀ e v, SameShelf v (next e v).2) :
    Holds b (andThen (get id w) next).2 := by
  have first := (get_gives holds id).2
  generalize get id w = x at first
  obtain ⟨result, v⟩ := x
  cases result with
  | error why => exact first
  | ok e => exact first.shelf (h e v)

theorem probe_holds (p : Prober τ) (holds : Holds b w) (id : EndpointId) :
    Holds b (probe p id w).2 :=
  holds_of_get holds id fun _ v => .refl v

theorem test_holds (confined : Confined p) (holds : Holds b w) (id : EndpointId)
    (message : Option String) : Holds b (test p id message w).2 :=
  holds_of_get holds id fun _ v =>
    have begun : SameShelf v (p.launchTest id _ v) := confined _ _ _
    begun.trans (sameShelf_of_proceeds confined (p.test_proceeds id _ v))

/-! ### Changing -/

theorem register_refused {id : EndpointId} {req : Registration} {why : Refusal} (holds : Holds b w)
    (refused : (req.endpoint id).refusal? = some why) :
    Gives (register p id req w) (.error (.refused why)) b := by
  unfold register
  simp only [refused]
  exact ⟨rfl, holds⟩

theorem register_taken {id : EndpointId} {req : Registration} (holds : Holds b w)
    (allowed : (req.endpoint id).refusal? = none) (taken : id ∈ b.ids) :
    ∃ why, Gives (register p id req w) (.error why) b := by
  unfold register
  simp only [allowed]
  exact ⟨_, gives_andThen_error (gives_fault holds (store_taken taken req.makeDefault))⟩

theorem register_gives {id : EndpointId} {req : Registration} (holds : Holds b w)
    (lawful : (Deed.registered id req).Lawful b.ids) :
    Gives (register p id req w) (.ok id) (b.record (.registered id req)) := by
  obtain ⟨allowed, fresh⟩ := lawful
  obtain ⟨notices, stored⟩ := store_fresh (e := req.endpoint id) fresh req.makeDefault
  unfold register
  simp only [allowed]
  exact gives_andThen (gives_inRegistry holds stored) fun v hv => ⟨rfl, hv.shelf (.refl v)⟩

theorem update_absent {id : EndpointId} (holds : Holds b w) (absent : id ∉ b.ids) (req : Edit) :
    Gives (update p id req w) (.error (.unknownEndpoint id)) b :=
  gives_andThen (gives_inRegistry holds (edit_absent absent req)) fun _ hv => ⟨rfl, hv⟩

theorem update_refused {id : EndpointId} {req : Edit} {e : Endpoint} {why : Refusal}
    (holds : Holds b w) (held : b.get? id = some e) (refused : req.apply e = .error why) :
    Gives (update p id req w) (.error (.refused why)) b :=
  gives_andThen (gives_inRegistry holds (edit_refused held refused)) fun _ hv => ⟨rfl, hv⟩

theorem update_gives {id : EndpointId} {req : Edit} {e e' : Endpoint} (holds : Holds b w)
    (held : b.get? id = some e) (applied : req.apply e = .ok e') :
    Gives (update p id req w) (.ok e') (b.record (.edited id req)) := by
  obtain ⟨notices, edited⟩ := edit_applied held applied
  exact gives_andThen (gives_inRegistry holds edited) fun v hv => ⟨rfl, hv.shelf (.refl v)⟩

theorem remove_absent {id : EndpointId} (holds : Holds b w) (absent : id ∉ b.ids) :
    Gives (remove p id w) (.error (.unknownEndpoint id)) b := by
  obtain ⟨notices, taken⟩ := takeOut_registry b id
  have same : (b.delete id).2.registry = b.registry := by
    have untaken : takeOut id b.registry = .ok ⟨false, (b.delete id).2.registry, notices⟩ := by
      simpa [absent] using taken
    exact registry_of_absent_takeOut untaken rfl
  rw [same, decide_eq_false absent] at taken
  exact gives_andThen (gives_inRegistry holds taken) fun _ hv => ⟨rfl, hv⟩

theorem remove_gives {id : EndpointId} (holds : Holds b w) (held : id ∈ b.ids) :
    Gives (remove p id w) (.ok ()) (b.record (.removed id)) := by
  obtain ⟨notices, taken⟩ := takeOut_registry b id
  rw [decide_eq_true held] at taken
  exact gives_andThen (gives_inRegistry holds taken) fun v hv => ⟨rfl, hv.shelf (.refl v)⟩

theorem setDefault_absent {id : EndpointId} (holds : Holds b w) (absent : id ∉ b.ids) :
    Gives (setDefault id w) (.error (.unknownEndpoint id)) b := by
  obtain ⟨notices, chosen⟩ := choose_registry b id
  rw [Book.setDefault, dif_neg absent] at chosen
  exact gives_andThen (gives_inRegistry holds chosen) fun _ hv => ⟨rfl, hv⟩

theorem setDefault_gives {id : EndpointId} (holds : Holds b w) (held : id ∈ b.ids) :
    Gives (setDefault id w) (.ok ()) (b.record (.promoted id)) := by
  obtain ⟨notices, chosen⟩ := choose_registry b id
  have found : (b.setDefault id).1 = true := by rw [Book.setDefault, dif_pos held]
  rw [found] at chosen
  exact gives_andThen (gives_inRegistry holds chosen) fun _ hv => ⟨rfl, hv⟩

end Service
end EndpointHealth
