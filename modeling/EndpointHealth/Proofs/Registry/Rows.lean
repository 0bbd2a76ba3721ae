import EndpointHealth.Proofs.Registry.Ids
set_option autoImplicit false

/-!
Registries whose rows can all be read. Main statements: every action in the registry leaves it so
(`sound_store`, `sound_edit`, `sound_takeOut`, `sound_choose`), and all its endpoints can be listed
(`list_of_sound`).
-/

namespace EndpointHealth

namespace Registry

/-- The table is there, no id is taken twice, and every row names a provider. -/
def Sound (r : Registry) : Prop :=
  ∃ rows, r = ⟨some rows⟩ ∧ (rows.map (·.id)).Nodup ∧
    ∀ row ∈ rows, (Provider.ofName? row.provider).isSome

theorem sound_empty : Sound .empty := ⟨[], rfl, by simp, by simp⟩

theorem nodup_of_sound {r : Registry} (sound : r.Sound) : r.ids.Nodup := by
  obtain ⟨rows, rfl, nodup, -⟩ := sound
  exact nodup

theorem mapM_readFor_ok (task : RegistryTask) {rows : List Row}
    (known : ∀ row ∈ rows, (Provider.ofName? row.provider).isSome) :
    ∃ es, rows.mapM (readFor task) = .ok es := by
  induction rows with
  | nil => exact ⟨[], rfl⟩
  | cons row rows ih =>
    obtain ⟨es, hes⟩ := ih fun other hmem => known other (List.mem_cons_of_mem _ hmem)
    obtain ⟨provider, hp⟩ := Option.isSome_iff_exists.mp (known row (List.mem_cons_self ..))
    rw [List.mapM_cons, hes]
    simp only [readFor, Row.endpoint, hp]
    exact ⟨_, rfl⟩

theorem list_of_sound {r : Registry} (sound : r.Sound) : ∃ es, r.list = .ok es := by
  obtain ⟨rows, rfl, -, known⟩ := sound
  exact mapM_readFor_ok .readRow known

/-! ### Changing -/

/-- Rows may be rewritten as long as they keep their ids and providers. -/
theorem sound_map {rows : List Row} {f : Row → Row} (nodup : (rows.map (·.id)).Nodup)
    (known : ∀ row ∈ rows, (Provider.ofName? row.provider).isSome)
    (hid : ∀ row, (f row).id = row.id) (hprovider : ∀ row, (f row).provider = row.provider) :
    Sound ⟨some (rows.map f)⟩ := by
  refine ⟨rows.map f, rfl, ?_, fun row hmem => ?_⟩
  · simpa [Function.comp_def, hid] using nodup
  · obtain ⟨before, hbefore, rfl⟩ := List.mem_map.mp hmem
    rw [hprovider]
    exact known before hbefore

theorem sound_insert {r r' : Registry} {e : Endpoint} (sound : r.Sound)
    (h : r.insert e = .ok r') : r'.Sound := by
  have fresh := (ids_of_insert h).2
  obtain ⟨rows, rfl, nodup, known⟩ := sound
  unfold insert addRow at h
  dsimp only at h
  split at h
  · cases h
  · rename_i added hadded
    cases h
    split at hadded
    · cases hadded
    · cases hadded
      refine ⟨rows ++ [Row.ofEndpoint e], rfl, ?_, fun row hmem => ?_⟩
      · rw [List.map_append, List.nodup_append]
        refine ⟨nodup, by simp, fun i hi j hj heq => fresh ?_⟩
        have hj : j = e.id := by simpa [Row.ofEndpoint] using hj
        rwa [← hj, ← heq]
      · rcases List.mem_append.mp hmem with hmem | hmem
        · exact known row hmem
        · rw [List.mem_singleton.mp hmem]
          simp [Row.ofEndpoint, Provider.ofName_name]

theorem sound_update {r r' : Registry} {e : Endpoint} (sound : r.Sound)
    (h : r.update e = .ok r') : r'.Sound := by
  obtain ⟨rows, rfl, nodup, known⟩ := sound
  cases h
  refine sound_map nodup known (fun row => ?_) fun row => ?_
  · by_cases hrow : row.id = e.id <;> simp [hrow, editedRow]
  · by_cases hrow : row.id = e.id <;> simp [hrow, editedRow]

theorem sound_delete {r r' : Registry} {id : EndpointId} {found : Bool} (sound : r.Sound)
    (h : r.delete id = .ok (found, r')) : r'.Sound := by
  obtain ⟨rows, rfl, nodup, known⟩ := sound
  cases h
  refine ⟨_, rfl, ?_, fun row hmem => known row (List.mem_filter.mp hmem).1⟩
  exact nodup.sublist (List.filter_sublist.map _)

theorem sound_setDefault {r r' : Registry} {id : EndpointId} {found : Bool} (sound : r.Sound)
    (h : r.setDefault id = .ok (found, r')) : r'.Sound := by
  obtain ⟨rows, hrows, h⟩ := ok_of_bind h
  split at h
  · cases h
    obtain ⟨_, rfl, nodup, known⟩ := sound
    cases hrows
    exact sound_map nodup known (fun _ => rfl) fun _ => rfl
  · cases h
    exact sound

theorem sound_setDefault? {r r' : Registry} {e : Option Endpoint} {notices : List Notice}
    (sound : r.Sound) (h : r.setDefault? e = .ok (r', notices)) : r'.Sound := by
  cases e with
  | none =>
    cases h
    exact sound
  | some e =>
    obtain ⟨set, hset, h⟩ := ok_of_bind h
    cases h
    exact sound_setDefault sound hset

end Registry

namespace Service

open Registry

/-! ### Actions in the registry -/

theorem sound_store {e : Endpoint} {makeDefault : Bool} {r : Registry} {c : Change Unit}
    (sound : r.Sound) (h : store e makeDefault r = .ok c) : c.registry.Sound := by
  obtain ⟨n, -, h⟩ := ok_of_bind h
  obtain ⟨r', hinsert, h⟩ := ok_of_bind h
  have stored := sound_insert sound hinsert
  split at h
  · obtain ⟨set, hset, h⟩ := ok_of_bind h
    cases h
    exact sound_setDefault? stored hset
  · cases h
    exact stored

theorem sound_edit {id : EndpointId} {req : Edit} {r : Registry}
    {c : Change (Except ServiceError Endpoint)} (sound : r.Sound) (h : edit id req r = .ok c) :
    c.registry.Sound := by
  obtain ⟨stored, -, h⟩ := ok_of_bind h
  cases stored with
  | none =>
    cases h
    exact sound
  | some stored =>
    dsimp only at h
    cases happly : req.apply stored with
    | error why =>
      rw [happly] at h
      cases h
      exact sound
    | ok e =>
      rw [happly] at h
      obtain ⟨r', hupdate, h⟩ := ok_of_bind h
      cases h
      exact sound_update sound hupdate

theorem sound_takeOut {id : EndpointId} {r : Registry} {c : Change Bool} (sound : r.Sound)
    (h : takeOut id r = .ok c) : c.registry.Sound := by
  obtain ⟨deleted, hdelete, h⟩ := ok_of_bind h
  cases h
  exact sound_delete sound hdelete

theorem sound_choose {id : EndpointId} {r : Registry} {c : Change Bool} (sound : r.Sound)
    (h : choose id r = .ok c) : c.registry.Sound ∧ c.registry.ids = r.ids := by
  obtain ⟨chosen, hset, h⟩ := ok_of_bind h
  cases h
  exact ⟨sound_setDefault sound hset, (ids_of_setDefault hset).2⟩

end Service
end EndpointHealth
