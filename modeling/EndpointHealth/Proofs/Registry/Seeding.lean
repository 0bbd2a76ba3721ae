import EndpointHealth.Proofs.Catalog.Documents
import EndpointHealth.Proofs.Registry.Book
set_option autoImplicit false

/-!
Seeding a registry from a catalog.

Main statement: a registry that holds anything is left alone; an empty one gets the endpoints of the
catalog that break no rule, in the order of their ids, and one of them as the default, if there are
any (`seed_once`).
-/

namespace EndpointHealth

open EndpointHealth.Text

/-- The endpoints of a catalog that break no rule. -/
def Catalog.accepted (c : Catalog) : List Endpoint := c.endpoints.filter (·.refusal?.isNone)

namespace Registry

/-- Which of some endpoints is to be the default: one that is flagged if there is any, and before
all others that are flagged like it. -/
structure Preferred (es : List Endpoint) (d : Endpoint) : Prop where
  held : d ∈ es
  flagged : (∃ e ∈ es, e.isDefault = true) → d.isDefault = true
  first : ∀ e ∈ es, e.isDefault = d.isDefault → e = d ∨ Utf8.ofText d.id < Utf8.ofText e.id

variable {es : List Endpoint} {d : Endpoint}

theorem first_of_find? {p : Endpoint → Bool} (ordered : (Catalog.mk es).InOrder)
    (h : es.find? p = some d) {e : Endpoint} (he : e ∈ es) (like : p e = true) :
    e = d ∨ Utf8.ofText d.id < Utf8.ofText e.id := by
  obtain ⟨-, before, after, rfl, unlike⟩ := List.find?_eq_some_iff_append.mp h
  rcases List.mem_append.mp he with he | he
  · exact absurd like (by simpa using unlike e he)
  · rcases List.mem_cons.mp he with rfl | he
    · exact .inl rfl
    · exact .inr ((List.pairwise_cons.mp (List.pairwise_append.mp ordered).2.1).1 e he)

theorem preferred_of_favourite (ordered : (Catalog.mk es).InOrder)
    (h : Book.favourite? es = some d) : Preferred es d := by
  have held := Book.mem_of_favourite h
  unfold Book.favourite? at h
  cases found : es.find? (·.isDefault) with
  | some f =>
    rw [found] at h
    cases h
    have flagged := List.find?_some found
    exact ⟨held, fun _ => flagged, fun e he like =>
      first_of_find? ordered found he (like.trans flagged)⟩
  | none =>
    rw [found, Option.none_or] at h
    have unflagged := List.find?_eq_none.mp found
    refine ⟨held, fun ⟨e, he, flagged⟩ => absurd flagged (unflagged e he), fun e he _ => ?_⟩
    obtain ⟨rest, rfl⟩ := List.head?_eq_some_iff.mp h
    rcases List.mem_cons.mp he with rfl | he
    · exact .inl rfl
    · exact .inr ((List.pairwise_cons.mp ordered).1 e he)

theorem favourite?_eq_none_iff : Book.favourite? es = none ↔ es = [] := by
  unfold Book.favourite?
  rw [Option.or_eq_none_iff, List.head?_eq_none_iff]
  exact ⟨And.right, fun h => ⟨by rw [h]; rfl, h⟩⟩

/-! ### Seeding -/

theorem seed_nonempty {rows : List Row} (filled : rows ≠ []) (c : Catalog) :
    seed ⟨some rows⟩ c = .ok ⟨⟨some rows⟩, 0, [.seedingSkipped rows.length]⟩ :=
  if_pos (List.length_pos_of_ne_nil filled)

/-- An endpoint as it is stored next to a default. -/
def flaggedFor (d? : Option Endpoint) (e : Endpoint) : Endpoint :=
  { e with isDefault := d? = some e }

/-- The book that a catalog fills. -/
def bookOf (c : Catalog) : Book := (Book.empty.seed c.endpoints).2

variable {c : Catalog}

theorem accepted_endpoints (ordered : c.InOrder) : Book.accepted c.endpoints = c.accepted := by
  rw [Book.accepted, Catalog.ofEndpoints_endpoints ordered, Catalog.accepted]

theorem records_bookOf (ordered : c.InOrder) : (bookOf c).records = c.accepted :=
  accepted_endpoints ordered

theorem chosen_bookOf (ordered : c.InOrder) :
    (bookOf c).chosen? = (Book.favourite? c.accepted).map (·.id) := by
  rw [← accepted_endpoints ordered]
  rfl

theorem seed_empty (ordered : c.InOrder) :
    ∃ notices, empty.seed c = .ok ⟨(bookOf c).registry, c.accepted.length, notices⟩ := by
  obtain ⟨notices, seeded⟩ := Book.empty.seed_registry c.endpoints
  rw [Catalog.ofEndpoints_endpoints ordered] at seeded
  rw [← accepted_endpoints ordered]
  exact ⟨notices, seeded⟩

theorem inOrder_accepted (ordered : c.InOrder) : (Catalog.mk c.accepted).InOrder :=
  ordered.filter _

theorem shown_bookOf (ordered : c.InOrder) {e : Endpoint} (held : e ∈ c.accepted) :
    (bookOf c).shown e = flaggedFor (Book.favourite? c.accepted) e := by
  have same : (bookOf c).chosen? = some e.id ↔ Book.favourite? c.accepted = some e := by
    rw [chosen_bookOf ordered, Option.map_eq_some_iff]
    refine ⟨fun ⟨d, chosen, same⟩ => ?_, fun chosen => ⟨e, chosen, rfl⟩⟩
    rw [chosen, List.inj_on_of_nodup_map (inOrder_accepted ordered).nodup
      (Book.mem_of_favourite chosen) held same]
  simp only [Book.shown, flaggedFor, same]

theorem list_bookOf (ordered : c.InOrder) :
    (bookOf c).registry.list =
      .ok (c.accepted.map (flaggedFor (Book.favourite? c.accepted))) := by
  rw [Book.list_registry, Book.list, records_bookOf ordered]
  exact congrArg Except.ok (List.map_congr_left fun e held => shown_bookOf ordered held)

theorem default?_bookOf (ordered : c.InOrder) :
    (bookOf c).default? =
      (Book.favourite? c.accepted).map fun d => { d with isDefault := true } := by
  rw [Book.default?, chosen_bookOf ordered]
  cases favourite : Book.favourite? c.accepted with
  | none => rfl
  | some d =>
    have held := Book.mem_of_favourite favourite
    have found : c.accepted.find? (·.id = d.id) = some d :=
      (Catalog.get?_eq_some_iff (inOrder_accepted ordered)).mpr ⟨held, rfl⟩
    have shown := shown_bookOf ordered held
    rw [favourite, flaggedFor, decide_eq_true rfl] at shown
    show (bookOf c).list.find? (·.id = d.id) = _
    rw [Book.list, List.find?_map, records_bookOf ordered]
    show (c.accepted.find? (·.id = d.id)).map _ = _
    rw [found, Option.map_some, shown]
    rfl

/-- Only the favourite of the endpoints that a catalog fills a book with is its default. -/
theorem filter_bookOf (ordered : c.InOrder) :
    (c.accepted.map (flaggedFor (Book.favourite? c.accepted))).filter (·.isDefault) =
      ((Book.favourite? c.accepted).map fun d => { d with isDefault := true }).toList := by
  have listed := (Book.list_registry _).symm.trans (list_bookOf ordered)
  rw [← Except.ok.inj listed, Book.filter_isDefault, default?_bookOf ordered]

/-- Seeding leaves a registry alone that holds anything. An empty one gets exactly the endpoints of
the catalog that break no rule, each as it is but for its flag, in the order of their ids; one of
them, if there are any, becomes the only default; and from then on seeding leaves it alone. -/
theorem seed_once (c : Catalog) (ordered : c.InOrder) :
    (∀ rows, rows ≠ [] → ∃ notices, seed ⟨some rows⟩ c = .ok ⟨⟨some rows⟩, 0, notices⟩) ∧
    ∃ s d?, empty.seed c = .ok s ∧
      s.count = c.accepted.length ∧ s.registry.count = .ok s.count ∧
      s.registry.list = .ok (c.accepted.map (flaggedFor d?)) ∧
      c.accepted.Pairwise (fun e f => Utf8.ofText e.id < Utf8.ofText f.id) ∧
      (∀ d ∈ d?, Preferred c.accepted d) ∧ (d? = none ↔ c.accepted = []) ∧
      (c.accepted.map (flaggedFor d?)).filter (·.isDefault) =
        (d?.map fun d => { d with isDefault := true }).toList ∧
      s.registry.getDefault = .ok (d?.map fun d => { d with isDefault := true }) ∧
      (0 < s.count → ∀ c' : Catalog, ∃ notices,
        s.registry.seed c' = .ok ⟨s.registry, 0, notices⟩) := by
  refine ⟨fun rows filled => ⟨_, seed_nonempty filled c⟩, ?_⟩
  obtain ⟨notices, seeded⟩ := seed_empty ordered
  have count : (bookOf c).records.length = c.accepted.length := by rw [records_bookOf ordered]
  refine ⟨_, Book.favourite? c.accepted, seeded, rfl, ?_, list_bookOf ordered,
    inOrder_accepted ordered, fun d => preferred_of_favourite (inOrder_accepted ordered),
    favourite?_eq_none_iff, filter_bookOf ordered, ?_, ?_⟩
  · rw [Book.count_registry, Book.count, count]
  · rw [Book.getDefault_registry, default?_bookOf ordered]
  · intro some_inserted c'
    refine ⟨_, seed_nonempty (fun none => ?_) c'⟩
    rw [List.map_eq_nil_iff] at none
    rw [none, List.length_nil] at count
    exact absurd count some_inserted.ne

def keyed (id : EndpointId) (isDefault : Bool) : Endpoint :=
  { Catalog.brief id "name" isDefault with apiKey := "key" }

/-- A flagged endpoint without a key, one that is not flagged, and two that are. -/
def mixed : Catalog :=
  ⟨[Catalog.brief "a" "name" true, keyed "b" false, keyed "d" true, keyed "é" true]⟩

/-- Neither the flagged endpoint that breaks a rule nor the first that breaks none is the default,
but the first of those that are flagged and break none. -/
theorem seed_once_mixed :
    mixed.InOrder ∧ ∃ s, empty.seed mixed = .ok s ∧ s.count = 3 ∧
      s.registry.list = .ok [keyed "b" false, keyed "d" true, keyed "é" false] ∧
      s.registry.getDefault = .ok (some (keyed "d" true)) := by
  have ordered : mixed.InOrder := by
    unfold Catalog.InOrder
    decide +kernel
  have accepted : mixed.accepted = [keyed "b" false, keyed "d" true, keyed "é" true] := by
    decide +kernel
  obtain ⟨-, s, d?, seeded, count, -, listed, -, preferred, vacant, -, default, -⟩ :=
    seed_once mixed ordered
  rw [accepted] at count listed preferred vacant
  cases d? with
  | none => cases vacant.mp rfl
  | some d =>
    obtain ⟨held, flagged, first⟩ := preferred d rfl
    have chosen : d = keyed "d" true := by
      simp only [List.mem_cons, List.not_mem_nil, or_false] at held
      rcases held with rfl | rfl | rfl
      · exact absurd (flagged ⟨keyed "d" true, by decide +kernel, rfl⟩) (by decide)
      · rfl
      · exact absurd (first (keyed "d" true) (by decide +kernel) rfl) (by decide +kernel)
    subst chosen
    exact ⟨ordered, s, seeded, count, listed, default⟩

end Registry
end EndpointHealth
