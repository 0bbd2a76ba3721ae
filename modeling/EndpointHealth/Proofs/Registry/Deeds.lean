import EndpointHealth.Proofs.Registry.Calls
set_option autoImplicit false

/-!
The life of a registry, told by what has been done to it.

A chronicle says by itself which ids are taken (`Chronicle.ids`) and which of them has been promoted
last and is still there (`Chronicle.Promotes`). Main statements: the book that is written by its
deeds has these ids (`ids_book`) and this default (`chosen_iff_promotes`), and all its records have
what every new record has and no edit takes away (`forall_records`).
-/

namespace EndpointHealth

/-- What has been done to a registry. -/
inductive Deed where
  /-- The service has been started, with some endpoints to seed an empty registry from. -/
  | started (seeds : List Endpoint)
  | registered (id : EndpointId) (req : Registration)
  | edited (id : EndpointId) (req : Edit)
  | removed (id : EndpointId)
  | promoted (id : EndpointId)
  deriving DecidableEq, Repr

namespace Deed

/-- Whether a deed can be done where these ids are taken. -/
def Lawful (taken : List EndpointId) : Deed → Prop
  | started _ => True
  | registered id req => (req.endpoint id).refusal? = none ∧ id ∉ taken
  | edited id _ | removed id | promoted id => id ∈ taken

/-- The ids that are taken after a deed. -/
def leaves (taken : List EndpointId) : Deed → List EndpointId
  | started seeds => if taken = [] then (Book.accepted seeds).map (·.id) else taken
  | registered id _ => taken ++ [id]
  | removed id => taken.filter (· ≠ id)
  | edited _ _ | promoted _ => taken

/-- The id that a deed makes the default where these ids are taken. -/
def promotes? (taken : List EndpointId) : Deed → Option EndpointId
  | started seeds =>
    if taken = [] then (Book.favourite? (Book.accepted seeds)).map (·.id) else none
  | registered id req => if taken = [] ∨ req.makeDefault then some id else none
  | promoted id => some id
  | edited _ _ | removed _ => none

end Deed

/-- Deeds, the newest first. -/
abbrev Chronicle := List Deed

namespace Chronicle

def ids : Chronicle → List EndpointId
  | [] => []
  | d :: h => d.leaves (ids h)

def Lawful : Chronicle → Prop
  | [] => True
  | d :: h => d.Lawful (ids h) ∧ Lawful h

/-- The last deed that has promoted an endpoint has promoted this one, which has not been removed
since. -/
def Promotes (h : Chronicle) (id : EndpointId) : Prop :=
  ∃ a d b, h = a ++ d :: b ∧ d.promotes? (ids b) = some id ∧ .removed id ∉ a ∧
    ∀ x e y, a = x ++ e :: y → e.promotes? (ids (y ++ d :: b)) = none

theorem promotes_nil (id : EndpointId) : ¬ Promotes [] id := by
  rintro ⟨a, d, b, split, -⟩
  cases a <;> cases split

theorem promotes_cons (d : Deed) (h : Chronicle) (id : EndpointId) :
    Promotes (d :: h) id ↔ d.promotes? (ids h) = some id ∨
      d.promotes? (ids h) = none ∧ d ≠ .removed id ∧ Promotes h id := by
  constructor
  · rintro ⟨a, e, b, split, promoted, kept, last⟩
    cases a with
    | nil =>
      cases split
      exact .inl promoted
    | cons f a =>
      cases split
      refine .inr ⟨last [] d a rfl, fun same => kept (same ▸ List.mem_cons_self ..), ?_⟩
      refine ⟨a, e, b, rfl, promoted, fun h => kept (List.mem_cons_of_mem _ h), ?_⟩
      exact fun x f y hx => last (d :: x) f y (by rw [hx]; rfl)
  · rintro (promoted | ⟨none, other, a, e, b, rfl, promoted, kept, last⟩)
    · exact ⟨[], d, h, rfl, promoted, by simp, fun x e y hx => by cases x <;> cases hx⟩
    · refine ⟨d :: a, e, b, rfl, promoted, ?_, fun x f y hx => ?_⟩
      · rw [List.mem_cons, not_or]
        exact ⟨Ne.symm other, kept⟩
      · cases x with
        | nil =>
          cases hx
          exact none
        | cons f' x =>
          obtain ⟨rfl, rest⟩ := List.cons.inj hx
          exact last x f y rest

end Chronicle

/-! ### The book of a chronicle -/

namespace Book

/-- Adds an endpoint of a new id, which becomes the default if it is the first one or shall be. -/
def register (b : Book) (e : Endpoint) (makeDefault : Bool) : Book :=
  match b.insert e with
  | .error _ => b
  | .ok c => if b.records.isEmpty || makeDefault then (c.setDefault e.id).2 else c

def edit (b : Book) (id : EndpointId) (req : Edit) : Book :=
  b.rewrite (fun e => if e.id = id then req.merge e else e) fun e => by split <;> rfl

def record (b : Book) : Deed → Book
  | .started seeds => (b.seed seeds).2
  | .registered id req => b.register (req.endpoint id) req.makeDefault
  | .edited id req => b.edit id req
  | .removed id => (b.delete id).2
  | .promoted id => (b.setDefault id).2

variable {b : Book}

theorem ids_eq_nil_iff : b.ids = [] ↔ b.records = [] := List.map_eq_nil_iff

theorem chosen_of_empty (empty : b.records = []) : b.chosen? = none :=
  Option.eq_none_iff_forall_not_mem.mpr fun id h => by simpa [empty] using b.known id h

theorem seed_of_empty (empty : b.records = []) (seeds : List Endpoint) :
    (b.seed seeds).2.records = accepted seeds ∧
      (b.seed seeds).2.chosen? = (favourite? (accepted seeds)).map (·.id) := by
  unfold seed
  rw [if_pos empty]
  exact ⟨rfl, rfl⟩

theorem seed_of_ne_nil (filled : b.records ≠ []) (seeds : List Endpoint) :
    (b.seed seeds).2 = b := by
  unfold seed
  rw [if_neg filled]

theorem insert_eq_ok {e : Endpoint} (fresh : e.id ∉ b.ids) :
    ∃ c, b.insert e = .ok c ∧ c.records = b.records ++ [e] ∧ c.chosen? = b.chosen? := by
  unfold insert
  rw [dif_neg fresh]
  exact ⟨_, rfl, rfl, rfl⟩

theorem setDefault_of_mem {id : EndpointId} (held : id ∈ b.ids) :
    (b.setDefault id).2.records = b.records ∧ (b.setDefault id).2.chosen? = some id := by
  unfold setDefault
  rw [dif_pos held]
  exact ⟨rfl, rfl⟩

theorem register_of_fresh {e : Endpoint} (fresh : e.id ∉ b.ids) (makeDefault : Bool) :
    (b.register e makeDefault).records = b.records ++ [e] ∧
    (b.register e makeDefault).chosen? =
      if b.ids = [] ∨ makeDefault then some e.id else b.chosen? := by
  obtain ⟨c, inserted, records, chosen⟩ := insert_eq_ok fresh
  have held : e.id ∈ c.ids := by simp [ids, records]
  obtain ⟨records', chosen'⟩ := setDefault_of_mem held
  unfold register
  simp only [inserted, Bool.or_eq_true, List.isEmpty_iff, ids_eq_nil_iff]
  split
  · exact ⟨records'.trans records, chosen'⟩
  · exact ⟨records, chosen⟩

theorem ids_record {d : Deed} (lawful : d.Lawful b.ids) :
    (b.record d).ids = d.leaves b.ids := by
  cases d with
  | started seeds =>
    show (b.seed seeds).2.ids = if b.ids = [] then _ else _
    by_cases empty : b.records = []
    · rw [if_pos (ids_eq_nil_iff.mpr empty), ids, (seed_of_empty empty seeds).1]
    · rw [if_neg (mt ids_eq_nil_iff.mp empty), seed_of_ne_nil empty]
  | registered id req =>
    obtain ⟨records, -⟩ := register_of_fresh (e := req.endpoint id) lawful.2 req.makeDefault
    show (b.register _ _).ids = _
    rw [ids, records, List.map_append]
    rfl
  | edited id req =>
    show (b.edit id req).ids = b.ids
    unfold ids edit rewrite
    rw [List.map_map]
    refine List.map_congr_left fun e _ => ?_
    show Endpoint.id (if e.id = id then req.merge e else e) = e.id
    split <;> rfl
  | removed id => exact b.ids_delete id
  | promoted id => exact congrArg (·.map (·.id)) (setDefault_of_mem lawful).1

/-- A deed promotes an endpoint, or the default stays what it was unless it is removed. -/
theorem chosen_record {d : Deed} (lawful : d.Lawful b.ids) (id : EndpointId) :
    (b.record d).chosen? = some id ↔ d.promotes? b.ids = some id ∨
      d.promotes? b.ids = none ∧ d ≠ .removed id ∧ b.chosen? = some id := by
  cases d with
  | started seeds =>
    show (b.seed seeds).2.chosen? = some id ↔ _
    unfold Deed.promotes?
    by_cases empty : b.records = []
    · simp [seed_of_empty empty, ids_eq_nil_iff.mpr empty, chosen_of_empty empty]
    · simp [seed_of_ne_nil empty, mt ids_eq_nil_iff.mp empty]
  | registered i req =>
    obtain ⟨-, chosen⟩ := register_of_fresh (e := req.endpoint i) lawful.2 req.makeDefault
    show (b.register _ _).chosen? = some id ↔ _
    rw [chosen]
    unfold Deed.promotes?
    by_cases promoted : b.ids = [] ∨ req.makeDefault = true
    · simp [promoted, Registration.endpoint]
    · simp [promoted]
  | edited i req => simp [record, edit, rewrite, Deed.promotes?]
  | removed i =>
    show b.chosen?.filter (· ≠ i) = some id ↔ _
    rw [Option.filter_eq_some_iff]
    simp [Deed.promotes?, and_comm, @eq_comm _ i]
  | promoted i =>
    show (b.setDefault i).2.chosen? = some id ↔ _
    simp [(setDefault_of_mem lawful).2, Deed.promotes?]

/-- Where the records of a book come from when a deed has been done. -/
theorem mem_records_record {d : Deed} {e : Endpoint} (h : e ∈ (b.record d).records) :
    e ∈ b.records ∨ (∃ seeds, d = .started seeds ∧ e ∈ accepted seeds) ∨
      (∃ id req, d = .registered id req ∧ e = req.endpoint id) ∨
      ∃ id req old, d = .edited id req ∧ old ∈ b.records ∧ e = req.merge old := by
  cases d with
  | started seeds =>
    have h : e ∈ (b.seed seeds).2.records := h
    by_cases empty : b.records = []
    · rw [(seed_of_empty empty seeds).1] at h
      exact .inr (.inl ⟨seeds, rfl, h⟩)
    · rw [seed_of_ne_nil empty] at h
      exact .inl h
  | registered id req =>
    have h : e ∈ (b.register (req.endpoint id) req.makeDefault).records := h
    by_cases taken : (req.endpoint id).id ∈ b.ids
    · unfold register insert at h
      rw [dif_pos taken] at h
      exact .inl h
    · rw [(register_of_fresh taken _).1, List.mem_append, List.mem_singleton] at h
      exact h.imp_right fun h => .inr (.inl ⟨id, req, rfl, h⟩)
  | edited id req =>
    obtain ⟨old, hold, rfl⟩ := List.mem_map.mp h
    by_cases edited : old.id = id
    · exact .inr (.inr (.inr ⟨id, req, old, rfl, hold, if_pos edited⟩))
    · rw [if_neg edited]
      exact .inl hold
  | removed id => exact .inl (List.mem_filter.mp h).1
  | promoted id =>
    have h : e ∈ (b.setDefault id).2.records := h
    unfold setDefault at h
    split at h
    · exact .inl h
    · exact .inl h

end Book

namespace Chronicle

def book : Chronicle → Book
  | [] => .empty
  | d :: h => (book h).record d

variable {h : Chronicle}

theorem ids_book (lawful : Lawful h) : (book h).ids = ids h := by
  induction h with
  | nil => rfl
  | cons d h ih =>
    have same := ih lawful.2
    rw [book, Book.ids_record (same ▸ lawful.1), same, ids]

theorem chosen_iff_promotes (lawful : Lawful h) (id : EndpointId) :
    (book h).chosen? = some id ↔ Promotes h id := by
  induction h with
  | nil => exact iff_of_false (by simp [book, Book.empty]) (promotes_nil id)
  | cons d h ih =>
    have same := ids_book lawful.2
    rw [book, Book.chosen_record (same ▸ lawful.1), promotes_cons, same, ih lawful.2]

/-- What every new record has, and every edit leaves, all records have. -/
theorem forall_records {P : Endpoint → Prop}
    (seeded : ∀ seeds, .started seeds ∈ h → ∀ e ∈ Book.accepted seeds, P e)
    (registered : ∀ id req, .registered id req ∈ h → P (req.endpoint id))
    (edited : ∀ (req : Edit) e, P e → P (req.merge e)) : ∀ e ∈ (book h).records, P e := by
  induction h with
  | nil => simp [book, Book.empty]
  | cons d h ih =>
    have before := ih (fun seeds hd => seeded seeds (List.mem_cons_of_mem _ hd))
      fun id req hd => registered id req (List.mem_cons_of_mem _ hd)
    intro e he
    rcases Book.mem_records_record he with he | ⟨seeds, rfl, accepted⟩ | ⟨id, req, rfl, rfl⟩ |
      ⟨id, req, old, rfl, hold, rfl⟩
    · exact before e he
    · exact seeded seeds (List.mem_cons_self ..) e accepted
    · exact registered id req (List.mem_cons_self ..)
    · exact edited req old (before old hold)

/-- Deeds that have been done were lawful when they were. -/
theorem allowed_of_registered (lawful : Lawful h) {id : EndpointId} {req : Registration}
    (done : .registered id req ∈ h) : (req.endpoint id).refusal? = none := by
  induction h with
  | nil => cases done
  | cons d h ih =>
    rcases List.mem_cons.mp done with rfl | done
    · exact lawful.1.1
    · exact ih lawful.2 done

end Chronicle
end EndpointHealth
