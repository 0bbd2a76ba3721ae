import EndpointHealth.Prober
set_option autoImplicit false

/-!
Endpoints that a prober observes for the first time: those of a list that have no status when their
turn comes.

Main statement: observing a list begins one sequence for each of them, one after the other, and does
nothing else but to put their number on record (`observe_eq`).
-/

namespace EndpointHealth.Prober

variable {ε : Type} (p : Prober ε)

/-- The endpoints of a list without a status, in the order in which they are probed. -/
def newcomers : List EndpointId → World ε → List EndpointId
  | [], _ => []
  | id :: ids, w =>
    if (w.status? id).isNone then id :: newcomers ids (p.probe id w) else newcomers ids w

def newSequences (ids : List EndpointId) (w : World ε) : List Sequence :=
  ((p.newcomers ids w).zipIdx w.ledger.next).map fun (id, n) => ⟨id, n⟩

/-- The first attempts of new sequences, by their endpoints and numbers. -/
def beginnings (now : Nat) (numbered : List (EndpointId × Nat)) : List Entry :=
  numbered.map fun (id, n) => ⟨now, .attempt ⟨id, n⟩ (p.attempts - 1)⟩

def enqueue (es agenda : List Entry) : List Entry :=
  es.foldl (fun agenda e => schedule e agenda) agenda

/-! ### Newcomers -/

@[simp] theorem status_probe (id j : EndpointId) (w : World ε) :
    (p.probe id w).status? j = if j = id then some .pending else w.status? j :=
  Ledger.status_start ..

theorem observed_eq (ids : List EndpointId) (w : World ε) :
    ids.foldl (fun w id => p.observeOne id w) w =
      (p.newcomers ids w).foldl (fun w id => p.probe id w) w := by
  induction ids generalizing w with
  | nil => rfl
  | cons id ids ih =>
    rw [List.foldl_cons, ih, newcomers, observeOne]
    split <;> rfl

theorem unseen_eq (ids : List EndpointId) (w : World ε) :
    p.unseen ids w = (p.newcomers ids w).length := by
  induction ids generalizing w with
  | nil => rfl
  | cons id ids ih =>
    rw [unseen, newcomers, ih, observeOne]
    split
    · exact Nat.add_comm ..
    · exact Nat.zero_add _

theorem mem_newcomers (ids : List EndpointId) (w : World ε) (j : EndpointId) :
    j ∈ p.newcomers ids w ↔ j ∈ ids ∧ w.status? j = none := by
  induction ids generalizing w with
  | nil => simp [newcomers]
  | cons id ids ih =>
    rw [newcomers]
    split
    · rename_i unseen
      rw [Option.isNone_iff_eq_none] at unseen
      rw [List.mem_cons, List.mem_cons, ih, status_probe]
      by_cases same : j = id
      · simp [same, unseen]
      · simp [same]
    · rename_i seen
      rw [Option.isNone_iff_eq_none] at seen
      rw [ih, List.mem_cons]
      by_cases same : j = id
      · simp [same, seen]
      · simp [same]

theorem nodup_newcomers (ids : List EndpointId) (w : World ε) : (p.newcomers ids w).Nodup := by
  induction ids generalizing w with
  | nil => exact List.nodup_nil
  | cons id ids ih =>
    rw [newcomers]
    split
    · refine List.nodup_cons.mpr ⟨fun again => ?_, ih _⟩
      have unseen := ((p.mem_newcomers _ _ _).mp again).2
      simp at unseen
    · exact ih w

theorem newcomers_of_nodup {ids : List EndpointId} (nodup : ids.Nodup) (w : World ε) :
    p.newcomers ids w = ids.filter fun id => (w.status? id).isNone := by
  induction ids generalizing w with
  | nil => rfl
  | cons id ids ih =>
    obtain ⟨first, rest⟩ := List.nodup_cons.mp nodup
    have later : (ids.filter fun j => ((p.probe id w).status? j).isNone) =
        ids.filter fun j => (w.status? j).isNone := by
      refine List.filter_congr fun j hj => ?_
      rw [status_probe, if_neg (ne_of_mem_of_not_mem hj first)]
    rw [newcomers, List.filter_cons, ih rest, ih rest, later]

theorem newcomers_of_some {ids : List EndpointId} {w : World ε}
    (seen : ∀ id ∈ ids, w.status? id ≠ none) : p.newcomers ids w = [] := by
  refine List.eq_nil_iff_forall_not_mem.mpr fun id newcomer => ?_
  obtain ⟨listed, unseen⟩ := (p.mem_newcomers ids w id).mp newcomer
  exact seen id listed unseen

theorem unseen_of_some {ids : List EndpointId} {w : World ε}
    (seen : ∀ id ∈ ids, w.status? id ≠ none) : p.unseen ids w = 0 := by
  rw [unseen_eq, p.newcomers_of_some seen]
  rfl

theorem endpoint_newSequences (ids : List EndpointId) (w : World ε) :
    (p.newSequences ids w).map (·.endpoint) = p.newcomers ids w := by
  rw [newSequences, List.map_map]
  exact List.zipIdx_map_fst _ _

/-! ### Sequences one after the other -/

/-- Probes that begin together differ from one another in their endpoint and number only. -/
theorem foldl_probe (ids : List EndpointId) (w : World ε) :
    ids.foldl (fun w id => p.probe id w) w =
      { w with
        ledger := ids.foldl Ledger.start w.ledger
        agenda := enqueue (p.beginnings w.now (ids.zipIdx w.ledger.next)) w.agenda } := by
  induction ids generalizing w with
  | nil => rfl
  | cons id ids ih =>
    rw [List.foldl_cons, ih]
    rfl

theorem status_foldl_start (ids : List EndpointId) (l : Ledger) (j : EndpointId) :
    (ids.foldl Ledger.start l).status? j = if j ∈ ids then some .pending else l.status? j := by
  induction ids generalizing l with
  | nil => simp
  | cons id ids ih =>
    rw [List.foldl_cons, ih, Ledger.status_start]
    by_cases first : j = id <;> by_cases later : j ∈ ids <;> simp [first, later]

theorem observe_eq (ids : List EndpointId) (w : World ε) :
    p.observe ids w =
      { w with
        ledger := (p.newcomers ids w).foldl Ledger.start w.ledger
        agenda := enqueue
          (p.beginnings w.now ((p.newcomers ids w).zipIdx w.ledger.next)) w.agenda
        notices := w.notices ++ if p.newcomers ids w = [] then []
          else [.probesStarted (p.newcomers ids w).length] } := by
  unfold observe
  rw [observed_eq, unseen_eq, p.foldl_probe]
  dsimp only
  by_cases none : p.newcomers ids w = []
  · simp [none]
  · rw [if_neg (by simpa using none), if_neg none]
    rfl

theorem observe_of_some {ids : List EndpointId} {w : World ε}
    (seen : ∀ id ∈ ids, w.status? id ≠ none) : p.observe ids w = w := by
  rw [observe_eq, p.newcomers_of_some seen, if_pos rfl, List.append_nil]
  rfl

end EndpointHealth.Prober
