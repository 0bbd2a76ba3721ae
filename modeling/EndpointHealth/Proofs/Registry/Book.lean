import EndpointHealth.Proofs.Registry.Catalogs
import EndpointHealth.Proofs.Registry.Ids
import Mathlib.Data.List.Find
set_option autoImplicit false

/-!
What a registry stands for: endpoints in the order in which they came, and which of them is the
default. The flags of the rows say the same as a single pointer.

Main statements: the registry of a book obeys a call as the book does (`obey_registry`) and reads as
the book (`list_registry`, `get_registry`, `getDefault_registry`, `count_registry`), in which no
endpoint says that it is the default but the one that is (`filter_isDefault`).
-/

namespace EndpointHealth

/-- Endpoints of different ids in the order in which they came, and the id of the one that has been
chosen as the default. Their own flags mean nothing. -/
structure Book where
  records : List Endpoint
  chosen? : Option EndpointId
  nodup : (records.map (·.id)).Nodup
  known : ∀ id ∈ chosen?, id ∈ records.map (·.id)

/-- A call that changes a registry. -/
inductive Command where
  | insert (e : Endpoint)
  | update (e : Endpoint)
  | setDefault (id : EndpointId)
  | delete (id : EndpointId)
  /-- Seeds from the catalog of some endpoints. -/
  | seed (es : List Endpoint)
  deriving DecidableEq, Repr

/-- What a call answers that does not fail. -/
inductive Command.Reply where
  | done
  | found (b : Bool)
  | seeded (count : Nat)
  deriving DecidableEq, Repr

namespace Book

/-! ### Reading -/

def empty : Book := ⟨[], none, by simp, by simp⟩

def ids (b : Book) : List EndpointId := b.records.map (·.id)

def shown (b : Book) (e : Endpoint) : Endpoint := { e with isDefault := b.chosen? = some e.id }

def list (b : Book) : List Endpoint := b.records.map b.shown

def get? (b : Book) (id : EndpointId) : Option Endpoint := b.list.find? (·.id = id)

def default? (b : Book) : Option Endpoint := b.chosen?.bind b.get?

def count (b : Book) : Nat := b.records.length

/-! ### Changing -/

/-- An endpoint with the fields of another that an edit may change. -/
def edited (e old : Endpoint) : Endpoint :=
  { old with name := e.name, model := e.model, apiBase := e.apiBase, apiKey := e.apiKey }

def rewrite (b : Book) (f : Endpoint → Endpoint) (keeps : ∀ e, (f e).id = e.id) : Book :=
  have same : (b.records.map f).map (·.id) = b.records.map (·.id) := by simp [keeps]
  { records := b.records.map f
    chosen? := b.chosen?
    nodup := same ▸ b.nodup
    known := same ▸ b.known }

def insert (b : Book) (e : Endpoint) : Except RegistryFault Book :=
  if taken : e.id ∈ b.ids then .error ⟨.insert, .takenId⟩
  else .ok
    { records := b.records ++ [e]
      chosen? := b.chosen?
      nodup := by
        rw [List.map_append, List.nodup_append]
        exact ⟨b.nodup, by simp, fun i hi j hj same => taken (by simp_all [ids])⟩
      known := fun id h => by
        rw [List.map_append]
        exact List.mem_append_left _ (b.known id h) }

/-- Replaces what an edit may change in the endpoint of an id, if there is one. -/
def update (b : Book) (e : Endpoint) : Book :=
  b.rewrite (fun old => if old.id = e.id then edited e old else old)
    fun old => by split <;> rfl

def setDefault (b : Book) (id : EndpointId) : Bool × Book :=
  if h : id ∈ b.ids then
    (true, { b with chosen? := some id, known := fun _ h' => Option.mem_some.mp h' ▸ h })
  else (false, b)

/-- Takes out an endpoint, and tells whether it was there. -/
def delete (b : Book) (id : EndpointId) : Bool × Book :=
  (id ∈ b.ids,
    { records := b.records.filter (·.id ≠ id)
      chosen? := b.chosen?.filter (· ≠ id)
      nodup := b.nodup.sublist (List.filter_sublist.map _)
      known := fun j h => by
        obtain ⟨h, other⟩ := (Option.mem_filter_iff ..).mp h
        obtain ⟨e, he, rfl⟩ := List.mem_map.mp (b.known j h)
        exact List.mem_map.mpr ⟨e, List.mem_filter.mpr ⟨he, other⟩, rfl⟩ })

/-- The endpoints of a catalog that break no rule. -/
def accepted (es : List Endpoint) : List Endpoint :=
  (Catalog.ofEndpoints es).endpoints.filter (·.refusal?.isNone)

theorem nodup_accepted (es : List Endpoint) : ((accepted es).map (·.id)).Nodup :=
  (Catalog.nodup_ofEndpoints es).sublist (List.filter_sublist.map _)

def favourite? (es : List Endpoint) : Option Endpoint := (es.find? (·.isDefault)).or es.head?

theorem mem_of_favourite {es : List Endpoint} {e : Endpoint} (h : favourite? es = some e) :
    e ∈ es := by
  unfold favourite? at h
  cases hfind : es.find? (·.isDefault) with
  | some f =>
    rw [hfind] at h
    cases h
    exact List.mem_of_find?_eq_some hfind
  | none =>
    rw [hfind] at h
    exact List.mem_of_mem_head? h

/-- Fills an empty book, and tells with how many endpoints. -/
def seed (b : Book) (es : List Endpoint) : Nat × Book :=
  if b.records = [] then
    ((accepted es).length,
      { records := accepted es
        chosen? := (favourite? (accepted es)).map (·.id)
        nodup := nodup_accepted es
        known := fun id h => by
          obtain ⟨e, he, rfl⟩ := Option.map_eq_some_iff.mp h
          exact List.mem_map.mpr ⟨e, mem_of_favourite he, rfl⟩ })
  else (0, b)

def obey (b : Book) : Command → Except RegistryFault (Command.Reply × Book)
  | .insert e => (b.insert e).map fun b => (.done, b)
  | .update e => .ok (.done, b.update e)
  | .setDefault id => let (found, b) := b.setDefault id; .ok (.found found, b)
  | .delete id => let (found, b) := b.delete id; .ok (.found found, b)
  | .seed es => let (n, b) := b.seed es; .ok (.seeded n, b)

/-! ### The registry of a book -/

def flag (chosen? : Option EndpointId) (id : EndpointId) : Int := if chosen? = some id then 1 else 0

def row (chosen? : Option EndpointId) (e : Endpoint) : Row :=
  { Row.ofEndpoint e with flag := flag chosen? e.id }

@[simp] theorem row_id (chosen? : Option EndpointId) (e : Endpoint) :
    (row chosen? e).id = e.id := rfl

def registry (b : Book) : Registry := ⟨some (b.records.map (row b.chosen?))⟩

end Book

def Registry.obey (r : Registry) : Command → Except RegistryFault (Command.Reply × Registry)
  | .insert e => (r.insert e).map fun r => (.done, r)
  | .update e => (r.update e).map fun r => (.done, r)
  | .setDefault id => (r.setDefault id).map fun (found, r) => (.found found, r)
  | .delete id => (r.delete id).map fun (found, r) => (.found found, r)
  | .seed es => (r.seed (.ofEndpoints es)).map fun s => (.seeded s.count, s.registry)

namespace Book

variable (b : Book)

theorem any_registry (id : EndpointId) :
    (b.records.map (row b.chosen?)).any (·.id = id) = decide (id ∈ b.ids) := by
  rw [Bool.eq_iff_iff]
  simp only [List.any_eq_true, List.mem_map, decide_eq_true_eq, ids]
  simp

theorem insert_registry (e : Endpoint) :
    b.registry.insert e = (b.insert e).map registry := by
  unfold Registry.insert Registry.addRow registry insert
  dsimp only
  rw [any_registry]
  by_cases taken : e.id ∈ b.ids
  · simp [taken, Row.ofEndpoint, Except.map]
  · have unchosen : b.chosen? ≠ some e.id := fun h => taken (b.known e.id h)
    simp [taken, Row.ofEndpoint, row, flag, unchosen, Except.map]

theorem update_registry (e : Endpoint) : b.registry.update e = .ok (b.update e).registry := by
  have same (old : Endpoint) :
      (if (row b.chosen? old).id = e.id then Registry.editedRow e (row b.chosen? old)
        else row b.chosen? old) =
      row b.chosen? (if old.id = e.id then edited e old else old) := by
    show (if old.id = e.id then _ else _) = _
    split <;> rfl
  show Except.ok (⟨some _⟩ : Registry) = _
  simp only [List.map_map, Function.comp_def, same]
  simp [update, rewrite, registry, Function.comp_def]

theorem setDefault_registry (id : EndpointId) :
    b.registry.setDefault id = .ok ((b.setDefault id).1, (b.setDefault id).2.registry) := by
  show (if (b.records.map (row b.chosen?)).any (·.id = id) = true then _ else _) = _
  rw [any_registry]
  unfold setDefault
  by_cases held : id ∈ b.ids
  · simp only [held, decide_true, if_true, dif_pos, registry, List.map_map]
    refine congrArg (fun rows => Except.ok (true, (⟨some rows⟩ : Registry))) ?_
    refine List.map_congr_left fun e _ => ?_
    show { row b.chosen? e with flag := if e.id = id then 1 else 0 } = row (some id) e
    rw [row, row, flag, flag]
    simp only [Option.some.injEq, eq_comm]
  · simp [held]

theorem delete_registry (id : EndpointId) :
    b.registry.delete id = .ok ((b.delete id).1, (b.delete id).2.registry) := by
  show Except.ok ((b.records.map (row b.chosen?)).any (·.id = id), (⟨some _⟩ : Registry)) = _
  rw [any_registry, List.filter_map]
  refine congrArg (fun rows => Except.ok (decide (id ∈ b.ids), (⟨some rows⟩ : Registry))) ?_
  refine List.map_congr_left fun e he => ?_
  have other : e.id ≠ id := of_decide_eq_true (List.mem_filter.mp he).2
  have flags : flag (b.chosen?.filter (· ≠ id)) e.id = flag b.chosen? e.id := by
    unfold flag
    refine if_congr ?_ rfl rfl
    rw [Option.filter_eq_some_iff]
    simp [other]
  show _ = { Row.ofEndpoint e with flag := flag (b.chosen?.filter (· ≠ id)) e.id }
  rw [flags]
  rfl

/-! ### Seeding -/

theorem insert_fresh {rows : List Row} {e : Endpoint} (fresh : ∀ row ∈ rows, row.id ≠ e.id) :
    Registry.insert ⟨some rows⟩ e = .ok ⟨some (rows ++ [Row.ofEndpoint e])⟩ := by
  have untaken : rows.any (·.id = (Row.ofEndpoint e).id) = false :=
    List.any_eq_false.mpr fun row hrow same => fresh row hrow (of_decide_eq_true same)
  simp [Registry.insert, Registry.addRow, untaken]

theorem foldlM_insert {rows : List Row} {es : List Endpoint}
    (nodup : (rows.map (·.id) ++ es.map (·.id)).Nodup) :
    es.foldlM Registry.insert ⟨some rows⟩ =
      .ok (⟨some (rows ++ es.map Row.ofEndpoint)⟩ : Registry) := by
  induction es generalizing rows with
  | nil => simp; rfl
  | cons e es ih =>
    have fresh : ∀ row ∈ rows, row.id ≠ e.id := fun row hrow =>
      (List.nodup_append.mp nodup).2.2 _ (List.mem_map_of_mem hrow) _ (List.mem_cons_self ..)
    rw [List.foldlM_cons, insert_fresh fresh]
    show es.foldlM Registry.insert _ = _
    rw [ih (by simpa [Row.ofEndpoint] using nodup)]
    simp

/-- The book of some endpoints, none of which is the default. -/
def unchosen (es : List Endpoint) (nodup : (es.map (·.id)).Nodup) : Book :=
  ⟨es, none, nodup, by simp⟩

theorem setDefault?_registry (e : Option Endpoint) (known : ∀ f ∈ e, f ∈ b.records) :
    ∃ notices, b.registry.setDefault? e =
      .ok (⟨some (b.records.map (row ((e.map (·.id)).or b.chosen?)))⟩, notices) := by
  cases e with
  | none => exact ⟨[], rfl⟩
  | some e =>
    have held : e.id ∈ b.ids := List.mem_map_of_mem (known e rfl)
    show ∃ notices, (b.registry.setDefault e.id >>= _) = _
    rw [setDefault_registry, setDefault, dif_pos held]
    exact ⟨_, rfl⟩

theorem seed_registry (es : List Endpoint) :
    ∃ notices, b.registry.seed (.ofEndpoints es) =
      .ok ⟨(b.seed es).2.registry, (b.seed es).1, notices⟩ := by
  have counted : b.registry.count = .ok b.records.length := by
    show Except.ok _ = _
    simp
  unfold Registry.seed seed
  rw [counted]
  show ∃ notices, (if 0 < b.records.length then _ else _) = _
  by_cases empty : b.records = []
  · have nodup := nodup_accepted es
    have rows : b.registry = ⟨some []⟩ := by simp [registry, empty]
    obtain ⟨notices, chosen⟩ := (unchosen (accepted es) nodup).setDefault?_registry
      (favourite? (accepted es)) fun f hf => mem_of_favourite hf
    rw [if_neg (by simp [empty]), if_pos empty, rows]
    dsimp only
    rw [show (Catalog.ofEndpoints es).endpoints.filter (·.refusal?.isNone) = accepted es from rfl,
      foldlM_insert (by simpa using nodup)]
    show ∃ notices, ((unchosen (accepted es) nodup).registry.setDefault? (favourite? _) >>= _) = _
    rw [chosen]
    simp only [unchosen, Option.or_none]
    exact ⟨_, rfl⟩
  · rw [if_pos (List.length_pos_of_ne_nil empty), if_neg empty]
    exact ⟨_, rfl⟩

/-- A registry and its book answer a call alike, and the registry is the book's afterwards. -/
theorem obey_registry (c : Command) :
    b.registry.obey c = (b.obey c).map fun (reply, b) => (reply, b.registry) := by
  cases c with
  | insert e =>
    unfold Registry.obey obey
    dsimp only
    rw [insert_registry]
    cases b.insert e <;> rfl
  | update e =>
    unfold Registry.obey
    dsimp only
    rw [update_registry]
    rfl
  | setDefault id =>
    unfold Registry.obey
    dsimp only
    rw [setDefault_registry]
    rfl
  | delete id =>
    unfold Registry.obey
    dsimp only
    rw [delete_registry]
    rfl
  | seed es =>
    obtain ⟨notices, seeded⟩ := b.seed_registry es
    unfold Registry.obey
    dsimp only
    rw [seeded]
    rfl

/-! ### Reading a registry -/

theorem readFor_row (task : RegistryTask) (e : Endpoint) :
    Registry.readFor task (row b.chosen? e) = .ok (b.shown e) := by
  unfold Registry.readFor row
  rw [Row.endpoint_ofEndpoint]
  by_cases chosen : b.chosen? = some e.id <;> simp [flag, shown, chosen]

theorem list_registry : b.registry.list = .ok b.list := by
  have readable (es : List Endpoint) :
      (es.map (row b.chosen?)).mapM (Registry.readFor .readRow) = .ok (es.map b.shown) := by
    induction es with
    | nil => rfl
    | cons e es ih =>
      rw [List.map_cons, List.mapM_cons, readFor_row, ih]
      rfl
  exact readable b.records

/-- The book's endpoints with a property that can be told from the row. -/
theorem find?_registry (task : RegistryTask) (p : Row → Bool) (q : Endpoint → Bool)
    (alike : ∀ e ∈ b.records, p (row b.chosen? e) = q (b.shown e)) :
    ((b.records.map (row b.chosen?)).find? p).mapM (Registry.readFor task) =
      .ok (b.list.find? q) := by
  have same : b.records.find? (p ∘ row b.chosen?) = b.records.find? (q ∘ b.shown) :=
    List.find?_congr alike
  rw [List.find?_map, list, List.find?_map, same]
  cases b.records.find? (q ∘ b.shown) with
  | none => rfl
  | some e =>
    show (Registry.readFor task (row b.chosen? e)).map some = _
    rw [readFor_row]
    rfl

theorem get_registry (id : EndpointId) : b.registry.get id = .ok (b.get? id) :=
  (Registry.get_rows _ id).trans
    (b.find?_registry .load (·.id = id) (·.id = id) fun _ _ => rfl)

theorem count_registry : b.registry.count = .ok b.count := by
  show Except.ok _ = _
  simp [count]

theorem default?_eq_find? : b.default? = b.list.find? (·.isDefault) := by
  unfold default?
  cases chosen : b.chosen? with
  | none =>
    refine (List.find?_eq_none.mpr fun e he => ?_).symm
    obtain ⟨f, -, rfl⟩ := List.mem_map.mp he
    simp [shown, chosen]
  | some id =>
    refine List.find?_congr fun e he => ?_
    obtain ⟨f, -, rfl⟩ := List.mem_map.mp he
    simp [shown, chosen, eq_comm]

theorem getDefault_registry : b.registry.getDefault = .ok b.default? := by
  rw [default?_eq_find?, registry, Registry.getDefault_rows]
  refine b.find?_registry .loadDefault (·.flag = 1) (·.isDefault) fun e _ => ?_
  show decide ((if b.chosen? = some e.id then (1 : Int) else 0) = 1) = decide _
  by_cases chosen : b.chosen? = some e.id <;> simp [chosen]

theorem filter_eq_find? {α : Type} {p : α → Bool} {l : List α}
    (single : l.Pairwise fun a b => p a = true → p b = false) :
    l.filter p = (l.find? p).toList := by
  induction l with
  | nil => rfl
  | cons a l ih =>
    obtain ⟨first, rest⟩ := List.pairwise_cons.mp single
    cases h : p a with
    | true =>
      rw [List.filter_cons_of_pos h, List.find?_cons_of_pos h, List.filter_eq_nil_iff.mpr]
      · rfl
      · exact fun b hb => by simp [first b hb h]
    | false => simpa [h] using ih rest

theorem filter_isDefault : b.list.filter (·.isDefault) = b.default?.toList := by
  rw [default?_eq_find?]
  refine filter_eq_find? (List.pairwise_map.mpr ?_)
  refine (List.pairwise_map.mp b.nodup).imp fun {e f} other chosen => ?_
  have chosen : b.chosen? = some e.id := of_decide_eq_true chosen
  exact decide_eq_false fun h => other (Option.some.inj (chosen.symm.trans h))

end Book
end EndpointHealth
