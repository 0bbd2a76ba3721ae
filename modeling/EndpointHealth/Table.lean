set_option autoImplicit false

/-!
Values by key, in the order in which the keys came.

Main statements: a key that was set reads as its value, one that was erased reads as nothing, and
other keys read as before (`get_set`, `get_erase`); and no key comes twice (`nodup_set`,
`nodup_erase`).
-/

namespace EndpointHealth

/-- Values by text key; no operation makes a key come twice. -/
structure Table (α : Type) where
  entries : List (String × α)
  deriving Repr, DecidableEq

namespace Table

variable {α : Type}

def empty : Table α := ⟨[]⟩

def getIn (k : String) : List (String × α) → Option α
  | [] => none
  | (j, a) :: r => if j = k then some a else getIn k r

def get? (t : Table α) (k : String) : Option α := getIn k t.entries

def setIn (k : String) (a : α) : List (String × α) → List (String × α)
  | [] => [(k, a)]
  | (j, b) :: r => if j = k then (k, a) :: r else (j, b) :: setIn k a r

def set (t : Table α) (k : String) (a : α) : Table α := ⟨setIn k a t.entries⟩

def erase (t : Table α) (k : String) : Table α := ⟨t.entries.filter (·.1 ≠ k)⟩

def keys (t : Table α) : List String := t.entries.map (·.1)

@[simp] theorem get_empty (k : String) : (empty : Table α).get? k = none := rfl

theorem getIn_setIn (k j : String) (a : α) (es : List (String × α)) :
    getIn j (setIn k a es) = if j = k then some a else getIn j es := by
  induction es with
  | nil => by_cases h : j = k <;> simp_all [setIn, getIn, eq_comm]
  | cons e r ih =>
    by_cases h : e.1 = k <;> by_cases h' : j = k <;> by_cases h'' : e.1 = j <;>
      simp_all [setIn, getIn, eq_comm]

@[simp] theorem get_set (t : Table α) (k j : String) (a : α) :
    (t.set k a).get? j = if j = k then some a else t.get? j := getIn_setIn k j a t.entries

theorem getIn_filter (k j : String) (es : List (String × α)) :
    getIn j (es.filter (·.1 ≠ k)) = if j = k then none else getIn j es := by
  induction es with
  | nil => simp [getIn]
  | cons e r ih =>
    by_cases h : e.1 = k <;> by_cases h' : j = k <;> by_cases h'' : e.1 = j <;>
      simp_all [getIn]

@[simp] theorem get_erase (t : Table α) (k j : String) :
    (t.erase k).get? j = if j = k then none else t.get? j := getIn_filter k j t.entries

/-! ### Keys -/

theorem getIn_isSome (k : String) (es : List (String × α)) :
    (getIn k es).isSome ↔ k ∈ es.map (·.1) := by
  induction es with
  | nil => simp [getIn]
  | cons e r ih =>
    by_cases h : e.1 = k
    · simp [getIn, h]
    · simp [getIn, h, Ne.symm h, ih]

theorem mem_keys (t : Table α) (k : String) : k ∈ t.keys ↔ (t.get? k).isSome :=
  (getIn_isSome k t.entries).symm

theorem nodup_setIn (k : String) (a : α) {es : List (String × α)}
    (h : (es.map (·.1)).Nodup) : ((setIn k a es).map (·.1)).Nodup := by
  induction es with
  | nil => simp [setIn]
  | cons e r ih =>
    obtain ⟨first, rest⟩ := List.nodup_cons.mp h
    unfold setIn
    split
    · rename_i same
      subst same
      exact List.nodup_cons.mpr ⟨first, rest⟩
    · rename_i other
      refine List.nodup_cons.mpr ⟨?_, ih rest⟩
      rw [← getIn_isSome, getIn_setIn, if_neg other, getIn_isSome]
      exact first

theorem nodup_set {t : Table α} (h : t.keys.Nodup) (k : String) (a : α) :
    (t.set k a).keys.Nodup := nodup_setIn k a h

theorem nodup_erase {t : Table α} (h : t.keys.Nodup) (k : String) : (t.erase k).keys.Nodup :=
  h.sublist (List.filter_sublist.map _)

end Table
end EndpointHealth
