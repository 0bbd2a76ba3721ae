import EndpointHealth.Catalog
import Mathlib.Data.String.Basic
set_option autoImplicit false

/-!
Catalogs, as they are gathered one endpoint after another. Main statement: their ids go upwards, so
that none comes twice (`nodup_ofEndpoints`).
-/

namespace EndpointHealth.Catalog

/-- The catalog of some endpoints, of which a later one replaces an earlier one of its id. -/
def ofEndpoints (es : List Endpoint) : Catalog := es.foldl insert empty

def Ordered (es : List Endpoint) : Prop := es.Pairwise fun e f => e.id < f.id

theorem mem_insertInto {e f : Endpoint} {es : List Endpoint} (h : f ∈ insertInto e es) :
    f = e ∨ f ∈ es := by
  induction es with
  | nil => exact .inl (List.mem_singleton.mp h)
  | cons g es ih =>
    unfold insertInto at h
    split at h
    · exact (List.mem_cons.mp h).imp_right (List.mem_cons_of_mem _)
    · split at h
      · exact List.mem_cons.mp h
      · rcases List.mem_cons.mp h with rfl | h
        · exact .inr (List.mem_cons_self ..)
        · exact (ih h).imp_right (List.mem_cons_of_mem _)

theorem ordered_insertInto (e : Endpoint) {es : List Endpoint} (ordered : Ordered es) :
    Ordered (insertInto e es) := by
  induction es with
  | nil => exact List.pairwise_singleton _ _
  | cons f es ih =>
    obtain ⟨first, rest⟩ := List.pairwise_cons.mp ordered
    unfold insertInto
    split
    · rename_i same
      exact List.pairwise_cons.mpr ⟨fun g hg => same ▸ first g hg, rest⟩
    · rename_i other
      split
      · rename_i before
        refine List.pairwise_cons.mpr ⟨fun g hg => ?_, ordered⟩
        rcases List.mem_cons.mp hg with rfl | hg
        · exact before
        · exact lt_trans before (first g hg)
      · rename_i notBefore
        refine List.pairwise_cons.mpr ⟨fun g hg => ?_, ih rest⟩
        rcases mem_insertInto hg with rfl | hg
        · exact lt_of_le_of_ne (not_lt.mp notBefore) (Ne.symm other)
        · exact first g hg

theorem ordered_ofEndpoints (es : List Endpoint) : Ordered (ofEndpoints es).endpoints := by
  have gathered (c : Catalog) (ordered : Ordered c.endpoints) :
      Ordered (es.foldl insert c).endpoints := by
    induction es generalizing c with
    | nil => exact ordered
    | cons e es ih => exact ih (c.insert e) (ordered_insertInto e ordered)
  exact gathered empty .nil

theorem nodup_ofEndpoints (es : List Endpoint) :
    ((ofEndpoints es).endpoints.map (·.id)).Nodup :=
  List.pairwise_map.mpr ((ordered_ofEndpoints es).imp ne_of_lt)

end EndpointHealth.Catalog
