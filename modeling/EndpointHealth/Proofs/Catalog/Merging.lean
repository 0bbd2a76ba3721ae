import EndpointHealth.Proofs.Registry.Catalogs
import EndpointHealth.Proofs.Text.Order
import Mathlib.Data.List.Dedup
import Mathlib.Data.List.Find
import Mathlib.Data.List.Sort
set_option autoImplicit false

/-!
Catalogs as tables from ids to endpoints. Two catalogs that give the same for every id are the same
(`eq_of_get?`), and endpoints that are merged into a catalog override those that it has, the last of
an id before all others (`get?_merge`).

Main statement: lists of endpoints that have no id in common are merged in any order
(`foldl_merge_perm`).
-/

namespace EndpointHealth.Catalog

variable {c d : Catalog} {e f : Endpoint} {es fs : List Endpoint} {id : EndpointId}

/-! ### Order -/

/-- The ids go upwards, byte by byte. -/
def InOrder (c : Catalog) : Prop :=
  c.endpoints.Pairwise fun e f => Text.Utf8.ofText e.id < Text.Utf8.ofText f.id

theorem inOrder_iff : c.InOrder ↔ Ordered c.endpoints := by
  simp only [InOrder, Ordered, Text.Utf8.ofText_lt_ofText]

theorem inOrder_empty : empty.InOrder := .nil

theorem InOrder.insert (ordered : c.InOrder) (e : Endpoint) : (c.insert e).InOrder :=
  inOrder_iff.mpr (ordered_insertInto e (inOrder_iff.mp ordered))

theorem InOrder.nodup (ordered : c.InOrder) : (c.endpoints.map (·.id)).Nodup :=
  List.pairwise_map.mpr ((inOrder_iff.mp ordered).imp ne_of_lt)

/-! ### Looking up -/

theorem mem_of_get? (h : c.get? id = some e) : e ∈ c.endpoints ∧ e.id = id := by
  unfold get? at h
  exact ⟨List.mem_of_find?_eq_some h, by simpa using List.find?_some h⟩

theorem get?_eq_some_iff (ordered : c.InOrder) :
    c.get? id = some e ↔ e ∈ c.endpoints ∧ e.id = id := by
  refine ⟨mem_of_get?, fun ⟨held, same⟩ => ?_⟩
  cases found : c.get? id with
  | none => exact absurd (decide_eq_true same) (List.find?_eq_none.mp found e held)
  | some f =>
    obtain ⟨held', same'⟩ := mem_of_get? found
    rw [List.inj_on_of_nodup_map ordered.nodup held' held (same'.trans same.symm)]

theorem get?_eq_none_iff : c.get? id = none ↔ id ∉ c.endpoints.map (·.id) := by
  simp [get?]

theorem eq_of_get? (hc : c.InOrder) (hd : d.InOrder) (same : ∀ id, c.get? id = d.get? id) :
    c = d := by
  have mem (e : Endpoint) : e ∈ c.endpoints ↔ e ∈ d.endpoints := by
    have here : c.get? e.id = some e ↔ _ := get?_eq_some_iff hc
    have there : d.get? e.id = some e ↔ _ := get?_eq_some_iff hd
    rw [same] at here
    simpa using here.symm.trans there
  have irrefl : Std.Irrefl fun e f : Endpoint => e.id < f.id := ⟨fun e => lt_irrefl e.id⟩
  have antisymm : Std.Antisymm fun e f : Endpoint => e.id < f.id :=
    ⟨fun e f h h' => absurd h' (lt_asymm h)⟩
  obtain ⟨cs⟩ := c
  obtain ⟨ds⟩ := d
  exact congrArg mk ((inOrder_iff.mp hc).eq_of_mem_iff (inOrder_iff.mp hd) mem)

/-! ### Merging -/

theorem find?_insertInto (e : Endpoint) (id : EndpointId) (fs : List Endpoint) :
    (insertInto e fs).find? (·.id = id) =
      if e.id = id then some e else fs.find? (·.id = id) := by
  induction fs with
  | nil => by_cases h : e.id = id <;> simp [insertInto, h]
  | cons f fs ih =>
    unfold insertInto
    split
    · rename_i same
      by_cases h : e.id = id
      · simp [h]
      · simp [h, show f.id ≠ id from same ▸ h]
    · rename_i other
      split
      · by_cases h : e.id = id <;> simp [h]
      · by_cases h : f.id = id
        · simp [h, show e.id ≠ id from fun h' => other (h'.trans h.symm)]
        · simp [h, ih]

theorem get?_insert (c : Catalog) (e : Endpoint) (id : EndpointId) :
    (c.insert e).get? id = if e.id = id then some e else c.get? id :=
  find?_insertInto e id c.endpoints

def merge (c : Catalog) (es : List Endpoint) : Catalog := es.foldl insert c

/-- The last of some endpoints that has an id. -/
def latest? (id : EndpointId) (es : List Endpoint) : Option Endpoint :=
  es.reverse.find? (·.id = id)

theorem latest?_cons (id : EndpointId) (e : Endpoint) (es : List Endpoint) :
    latest? id (e :: es) = (latest? id es).or (if e.id = id then some e else none) := by
  unfold latest?
  rw [List.reverse_cons, List.find?_append]
  by_cases h : e.id = id <;> simp [h]

theorem latest?_eq_none_iff : latest? id es = none ↔ id ∉ es.map (·.id) := by
  simp [latest?]

/-- Endpoints that are merged override those that are there, and the last of an id the others. -/
theorem get?_merge (c : Catalog) (es : List Endpoint) (id : EndpointId) :
    (c.merge es).get? id = (latest? id es).or (c.get? id) := by
  induction es generalizing c with
  | nil => rfl
  | cons e es ih =>
    rw [merge, List.foldl_cons, latest?_cons, ← merge, ih, get?_insert, Option.or_assoc]
    by_cases h : e.id = id <;> simp [h]

theorem InOrder.merge (ordered : c.InOrder) (es : List Endpoint) : (c.merge es).InOrder := by
  induction es generalizing c with
  | nil => exact ordered
  | cons e es ih => exact ih (ordered.insert e)

theorem merge_append (c : Catalog) (es fs : List Endpoint) :
    c.merge (es ++ fs) = (c.merge es).merge fs := List.foldl_append ..

theorem merge_flatten (c : Catalog) (docs : List (List Endpoint)) :
    c.merge docs.flatten = docs.foldl merge c := by
  induction docs generalizing c with
  | nil => rfl
  | cons es docs ih => rw [List.flatten_cons, merge_append, ih, List.foldl_cons]

theorem mem_ids_merge :
    id ∈ (c.merge es).endpoints.map (·.id) ↔ id ∈ (c.endpoints ++ es).map (·.id) := by
  rw [← not_iff_not, ← get?_eq_none_iff, get?_merge, Option.or_eq_none_iff, latest?_eq_none_iff,
    get?_eq_none_iff, List.map_append, List.mem_append, not_or, and_comm]

theorem size_merge (ordered : c.InOrder) (es : List Endpoint) :
    (c.merge es).size = ((c.endpoints ++ es).map (·.id)).dedup.length := by
  have perm : ((c.merge es).endpoints.map (·.id)).Perm ((c.endpoints ++ es).map (·.id)).dedup := by
    refine (List.perm_ext_iff_of_nodup (ordered.merge es).nodup (List.nodup_dedup _)).mpr ?_
    exact fun id => mem_ids_merge.trans List.mem_dedup.symm
  rw [← perm.length_eq, List.length_map, size]

theorem ofEndpoints_endpoints (ordered : c.InOrder) : ofEndpoints c.endpoints = c := by
  refine eq_of_get? (inOrder_empty.merge _) ordered fun id => ?_
  have single : latest? id c.endpoints = c.get? id :=
    List.find?_eq_find?_of_perm (List.reverse_perm _) fun e he f hf =>
      List.inj_on_of_nodup_map ordered.nodup (List.mem_reverse.mp he.1) (List.mem_reverse.mp hf.1)
        ((of_decide_eq_true he.2).trans (of_decide_eq_true hf.2).symm)
  rw [ofEndpoints, ← merge, get?_merge, single]
  exact Option.or_none

/-! ### Any order -/

/-- Two lists of endpoints have no id in common. -/
def Apart (es fs : List Endpoint) : Prop := (es.map (·.id)).Disjoint (fs.map (·.id))

theorem Apart.symm (apart : Apart es fs) : Apart fs es := List.Disjoint.symm apart

theorem merge_comm (ordered : c.InOrder) (apart : Apart es fs) :
    (c.merge es).merge fs = (c.merge fs).merge es := by
  refine eq_of_get? ((ordered.merge _).merge _) ((ordered.merge _).merge _) fun id => ?_
  rw [get?_merge, get?_merge, get?_merge, get?_merge, ← Option.or_assoc, ← Option.or_assoc]
  by_cases here : id ∈ es.map (·.id)
  · rw [latest?_eq_none_iff.mpr (apart here), Option.or_none, Option.none_or]
  · rw [latest?_eq_none_iff.mpr here, Option.or_none, Option.none_or]

theorem foldl_merge_perm {docs docs' : List (List Endpoint)} (perm : docs.Perm docs')
    (apart : docs.Pairwise Apart) (ordered : c.InOrder) :
    docs.foldl merge c = docs'.foldl merge c := by
  induction perm generalizing c with
  | nil => rfl
  | cons es _ ih => exact ih (List.pairwise_cons.mp apart).2 (ordered.merge es)
  | swap es fs docs =>
    have first := (List.pairwise_cons.mp apart).1 es (List.mem_cons_self ..)
    rw [List.foldl_cons, List.foldl_cons, List.foldl_cons, List.foldl_cons,
      merge_comm ordered first]
  | trans perm _ ih ih' =>
    exact (ih apart ordered).trans (ih' ((perm.pairwise_iff Apart.symm).mp apart) ordered)

end EndpointHealth.Catalog
