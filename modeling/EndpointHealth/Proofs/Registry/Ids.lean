import EndpointHealth.Service
set_option autoImplicit false

/-!
The ids in a registry, and what becomes of them when the registry is read or changed.
-/

namespace EndpointHealth

theorem ok_of_bind {ε α β : Type} {x : Except ε α} {f : α → Except ε β} {b : β}
    (h : x >>= f = .ok b) : ∃ a, x = .ok a ∧ f a = .ok b := by
  cases x with
  | error why => cases h
  | ok a => exact ⟨a, rfl, h⟩

theorem ok_of_map {ε α β : Type} {x : Except ε α} {f : α → β} {b : β}
    (h : x.map f = .ok b) : ∃ a, x = .ok a ∧ f a = b := by
  cases x with
  | error why => cases h
  | ok a => exact ⟨a, rfl, Except.ok.inj h⟩

namespace Registry

def ids (r : Registry) : List EndpointId := (r.rows?.getD []).map (·.id)

theorem readFor_id {task : RegistryTask} {row : Row} {e : Endpoint}
    (h : readFor task row = .ok e) : e.id = row.id := by
  unfold readFor Row.endpoint at h
  cases hp : Provider.ofName? row.provider with
  | none => simp [hp] at h
  | some provider =>
    simp only [hp, Except.ok.injEq] at h
    rw [← h]

theorem mapM_readFor_ids {task : RegistryTask} {rows : List Row} {es : List Endpoint}
    (h : rows.mapM (readFor task) = .ok es) : es.map (·.id) = rows.map (·.id) := by
  induction rows generalizing es with
  | nil =>
    cases h
    rfl
  | cons row rows ih =>
    rw [List.mapM_cons] at h
    obtain ⟨e, hrow, h⟩ := ok_of_bind h
    obtain ⟨es', hrows, h⟩ := ok_of_bind h
    cases h
    simp [readFor_id hrow, ih hrows]

theorem rows_of_rowsFor {r : Registry} {task : RegistryTask} {rows : List Row}
    (h : r.rowsFor task = .ok rows) : r.rows? = some rows := by
  unfold rowsFor at h
  split at h
  · cases h
  · cases h
    assumption

theorem get_rows (rows : List Row) (id : EndpointId) :
    get ⟨some rows⟩ id = (rows.find? (·.id = id)).mapM (readFor .load) := by
  simp only [get, rowsFor, bind, Except.bind]
  cases rows.find? (·.id = id) <;> rfl

theorem getDefault_rows (rows : List Row) :
    getDefault ⟨some rows⟩ = (rows.find? (·.flag = 1)).mapM (readFor .loadDefault) := by
  simp only [getDefault, rowsFor, bind, Except.bind]
  cases rows.find? (·.flag = 1) <;> rfl

theorem ids_of_rows {r : Registry} {rows : List Row} (h : r.rows? = some rows) :
    r.ids = rows.map (·.id) := by
  simp [ids, h]

/-! ### Reading -/

theorem ids_of_list {r : Registry} {es : List Endpoint} (h : r.list = .ok es) :
    es.map (·.id) = r.ids := by
  obtain ⟨rows, hrows, h⟩ := ok_of_bind h
  rw [ids_of_rows (rows_of_rowsFor hrows)]
  exact mapM_readFor_ids h

theorem mem_ids_of_get {r : Registry} {id : EndpointId} {e : Endpoint}
    (h : r.get id = .ok (some e)) : e.id = id ∧ id ∈ r.ids := by
  obtain ⟨rows, hrows, h⟩ := ok_of_bind h
  cases hrow : rows.find? (·.id = id) with
  | none =>
    rw [hrow] at h
    cases h
  | some row =>
    rw [hrow] at h
    obtain ⟨e', he, hsome⟩ := ok_of_map h
    cases hsome
    have hid : row.id = id := by simpa using List.find?_some hrow
    refine ⟨(readFor_id he).trans hid, ?_⟩
    rw [ids_of_rows (rows_of_rowsFor hrows)]
    exact List.mem_map.mpr ⟨row, List.mem_of_find?_eq_some hrow, hid⟩

/-! ### Changing -/

theorem mem_ids_iff_any {r : Registry} {rows : List Row} (h : r.rows? = some rows)
    (id : EndpointId) : rows.any (·.id = id) = true ↔ id ∈ r.ids := by
  simp [ids_of_rows h]

theorem ids_of_insert {r r' : Registry} {e : Endpoint} (h : r.insert e = .ok r') :
    r'.ids = r.ids ++ [e.id] ∧ e.id ∉ r.ids := by
  unfold insert addRow at h
  cases hrows : r.rows? with
  | none => simp [hrows] at h
  | some rows =>
    simp only [hrows] at h
    by_cases taken : rows.any (·.id = (Row.ofEndpoint e).id) = true
    · simp [taken] at h
    · rw [if_neg taken] at h
      cases h
      refine ⟨?_, fun hmem => taken ((mem_ids_iff_any hrows e.id).mpr hmem)⟩
      simp [ids, hrows, Row.ofEndpoint]

theorem ids_of_update {r r' : Registry} {e : Endpoint} (h : r.update e = .ok r') :
    r'.ids = r.ids := by
  obtain ⟨rows, hrows, h⟩ := ok_of_bind h
  cases h
  rw [ids_of_rows (rows_of_rowsFor hrows)]
  simp only [ids, Option.getD_some, List.map_map]
  refine List.map_congr_left fun row _ => ?_
  by_cases hrow : row.id = e.id <;> simp [hrow, editedRow]

theorem ids_of_delete {r r' : Registry} {id : EndpointId} {found : Bool}
    (h : r.delete id = .ok (found, r')) :
    (found = true ↔ id ∈ r.ids) ∧ r'.ids = r.ids.filter (· ≠ id) := by
  obtain ⟨rows, hrows, h⟩ := ok_of_bind h
  have hrows := rows_of_rowsFor hrows
  cases h
  refine ⟨mem_ids_iff_any hrows id, ?_⟩
  simp only [ids, hrows, Option.getD_some, List.filter_map]
  rfl

theorem ids_of_setDefault {r r' : Registry} {id : EndpointId} {found : Bool}
    (h : r.setDefault id = .ok (found, r')) : (found = true ↔ id ∈ r.ids) ∧ r'.ids = r.ids := by
  obtain ⟨rows, hrows, h⟩ := ok_of_bind h
  have hrows := rows_of_rowsFor hrows
  have held := mem_ids_iff_any hrows id
  by_cases known : rows.any (·.id = id) = true
  · rw [if_pos known] at h
    cases h
    refine ⟨iff_of_true rfl (held.mp known), ?_⟩
    simp [ids, hrows, Function.comp_def]
  · rw [if_neg known] at h
    cases h
    exact ⟨iff_of_false (by simp) (mt held.mpr known), rfl⟩

theorem ids_of_setDefault? {r r' : Registry} {e : Option Endpoint} {notices : List Notice}
    (h : r.setDefault? e = .ok (r', notices)) : r'.ids = r.ids := by
  cases e with
  | none =>
    cases h
    rfl
  | some e =>
    obtain ⟨set, hset, h⟩ := ok_of_bind h
    cases h
    exact (ids_of_setDefault hset).2

end Registry

namespace Service

open Registry

/-! ### Actions in the registry -/

theorem ids_of_store {e : Endpoint} {makeDefault : Bool} {r : Registry} {c : Change Unit}
    (h : store e makeDefault r = .ok c) : c.registry.ids = r.ids ++ [e.id] ∧ e.id ∉ r.ids := by
  obtain ⟨n, -, h⟩ := ok_of_bind h
  obtain ⟨r', hinsert, h⟩ := ok_of_bind h
  obtain ⟨hids, fresh⟩ := ids_of_insert hinsert
  refine ⟨?_, fresh⟩
  split at h
  · obtain ⟨set, hset, h⟩ := ok_of_bind h
    cases h
    exact (ids_of_setDefault? hset).trans hids
  · cases h
    exact hids

theorem ids_of_edit {id : EndpointId} {req : Edit} {r : Registry}
    {c : Change (Except ServiceError Endpoint)} (h : edit id req r = .ok c) :
    c.registry.ids = r.ids ∧ ∀ e, c.result = .ok e → id ∈ r.ids := by
  obtain ⟨stored, hget, h⟩ := ok_of_bind h
  cases stored with
  | none =>
    cases h
    exact ⟨rfl, fun e he => by cases he⟩
  | some stored =>
    dsimp only at h
    cases happly : req.apply stored with
    | error why =>
      rw [happly] at h
      cases h
      exact ⟨rfl, fun e he => by cases he⟩
    | ok e =>
      rw [happly] at h
      obtain ⟨r', hupdate, h⟩ := ok_of_bind h
      cases h
      exact ⟨ids_of_update hupdate, fun _ _ => (mem_ids_of_get hget).2⟩

theorem ids_of_takeOut {id : EndpointId} {r : Registry} {c : Change Bool}
    (h : takeOut id r = .ok c) :
    (c.result = true ↔ id ∈ r.ids) ∧ c.registry.ids = r.ids.filter (· ≠ id) := by
  obtain ⟨deleted, hdelete, h⟩ := ok_of_bind h
  cases h
  exact ids_of_delete hdelete

end Service
end EndpointHealth
