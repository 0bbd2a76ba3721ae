import EndpointHealth.Proofs.Prober.Coverage
import EndpointHealth.Proofs.Prober.Newcomers
import EndpointHealth.Proofs.Prober.Numbering
import Mathlib.Data.Finset.Card
set_option autoImplicit false

/-!
What observing a list of endpoints does, wherever a prober has got to.

It begins a sequence for each endpoint of the list that has no status, however often the endpoint is
listed, and does nothing to all else (`opens_observe`). Main statement: in every run it counts and
begins exactly these, and observing any of the endpoints again comes to nothing
(`observe_begins_unseen`).
-/

namespace EndpointHealth.Prober

variable {ε : Type} (p : Prober ε)

def opening (now : Nat) (s : Sequence) : Entry := ⟨now, .attempt s (p.attempts - 1)⟩

/-- Sequences are begun, each of another endpoint, and nothing else happens, whatever is put on
record. -/
structure Opens (begun : List Sequence) (w v : World ε) : Prop where
  distinct : (begun.map (·.endpoint)).Nodup
  numbers : begun.map (·.number) = List.range' w.ledger.next begun.length
  events : p.Steps w (begun.map .begun).reverse v
  /-- What is new on the agenda are their first attempts, -/
  queued : v.agenda.Perm (begun.map (p.opening w.now) ++ w.agenda)
  /-- and what was there stays there in its order. -/
  kept : w.agenda.Sublist v.agenda
  status : ∀ id, v.status? id =
    if id ∈ begun.map (·.endpoint) then some .pending else w.status? id
  current : ∀ id, id ∉ begun.map (·.endpoint) →
    v.ledger.current.get? id = w.ledger.current.get? id
  forgotten : ∀ id, id ∉ begun.map (·.endpoint) →
    v.ledger.forgotten.get? id = w.ledger.forgotten.get? id
  env : v.env = w.env
  now : v.now = w.now
  calls : v.calls = w.calls
  ended : v.ended = w.ended

/-! ### The agenda -/

theorem perm_schedule (e : Entry) (es : List Entry) : (schedule e es).Perm (e :: es) := by
  obtain ⟨a, b, split, rfl⟩ := schedule_split e es
  rw [split]
  exact List.perm_middle

theorem sublist_schedule (e : Entry) (es : List Entry) : es.Sublist (schedule e es) := by
  obtain ⟨a, b, split, rfl⟩ := schedule_split e es
  rw [split]
  exact (List.sublist_cons_self e b).append_left a

theorem perm_enqueue (es agenda : List Entry) : (enqueue es agenda).Perm (es ++ agenda) := by
  induction es generalizing agenda with
  | nil => exact .refl _
  | cons e es ih =>
    show (enqueue es (schedule e agenda)).Perm _
    exact ((ih _).trans ((perm_schedule e agenda).append_left es)).trans List.perm_middle

theorem sublist_enqueue (es agenda : List Entry) : agenda.Sublist (enqueue es agenda) := by
  induction es generalizing agenda with
  | nil => exact .refl _
  | cons e es ih => exact (sublist_schedule e agenda).trans (ih _)

/-! ### The ledger -/

theorem current_foldl_start {ids : List EndpointId} {j : EndpointId} (other : j ∉ ids)
    (l : Ledger) : (ids.foldl Ledger.start l).current.get? j = l.current.get? j := by
  induction ids generalizing l with
  | nil => rfl
  | cons id ids ih =>
    obtain ⟨first, rest⟩ := not_or.mp (mt List.mem_cons.mpr other)
    rw [List.foldl_cons, ih rest]
    simp [Ledger.start, first]

theorem forgotten_foldl_start {ids : List EndpointId} {j : EndpointId} (other : j ∉ ids)
    (l : Ledger) : (ids.foldl Ledger.start l).forgotten.get? j = l.forgotten.get? j := by
  induction ids generalizing l with
  | nil => rfl
  | cons id ids ih =>
    obtain ⟨first, rest⟩ := not_or.mp (mt List.mem_cons.mpr other)
    rw [List.foldl_cons, ih rest]
    simp [Ledger.start, first]

/-! ### Sequences -/

theorem length_newSequences (ids : List EndpointId) (w : World ε) :
    (p.newSequences ids w).length = (p.newcomers ids w).length := by
  rw [← endpoint_newSequences, List.length_map]

theorem number_newSequences (ids : List EndpointId) (w : World ε) :
    (p.newSequences ids w).map (·.number) =
      List.range' w.ledger.next (p.newSequences ids w).length := by
  rw [length_newSequences, newSequences, List.map_map]
  exact List.zipIdx_map_snd _ _

theorem opening_newSequences (ids : List EndpointId) (w : World ε) :
    (p.newSequences ids w).map (p.opening w.now) =
      p.beginnings w.now ((p.newcomers ids w).zipIdx w.ledger.next) := by
  rw [newSequences, List.map_map]
  rfl

theorem opens_observe (ids : List EndpointId) (w : World ε) :
    p.Opens (p.newSequences ids w) w (p.observe ids w) := by
  have events := p.steps_observe ids w
  rw [observe_eq] at events ⊢
  refine
    { distinct := ?_
      numbers := p.number_newSequences ids w
      events := events
      queued := ?_
      kept := sublist_enqueue _ _
      status := fun id => ?_
      current := fun id other => ?_
      forgotten := fun id other => ?_
      env := rfl
      now := rfl
      calls := rfl
      ended := rfl }
  · rw [endpoint_newSequences]
    exact p.nodup_newcomers ids w
  · rw [opening_newSequences]
    exact perm_enqueue _ _
  · rw [endpoint_newSequences]
    exact status_foldl_start _ _ id
  · rw [endpoint_newSequences] at other
    exact current_foldl_start other _
  · rw [endpoint_newSequences] at other
    exact forgotten_foldl_start other _

/-! ### Observing again -/

theorem status_observe {ids : List EndpointId} {id : EndpointId} (listed : id ∈ ids)
    (w : World ε) : (p.observe ids w).status? id = some ((w.status? id).getD .pending) := by
  rw [(p.opens_observe ids w).status, endpoint_newSequences]
  split
  · rename_i newcomer
    rw [((p.mem_newcomers ids w id).mp newcomer).2]
    rfl
  · rename_i old
    cases seen : w.status? id with
    | none => exact absurd ((p.mem_newcomers ids w id).mpr ⟨listed, seen⟩) old
    | some s => rfl

theorem unseen_eq_card (ids : List EndpointId) (w : World ε) :
    p.unseen ids w = (ids.toFinset.filter fun id => w.status? id = none).card := by
  rw [unseen_eq, ← List.toFinset_card_of_nodup (p.nodup_newcomers ids w)]
  congr 1
  ext id
  simp [mem_newcomers]

theorem notices_observe (ids : List EndpointId) (w : World ε) :
    (p.observe ids w).notices =
      w.notices ++ if p.unseen ids w = 0 then [] else [.probesStarted (p.unseen ids w)] := by
  rw [observe_eq, unseen_eq]
  simp only [List.length_eq_zero_iff]

/-- Wherever a prober has got to, observing a list of endpoints counts those of them that have no
status, each of them once, and begins a new sequence for each, and does nothing else but to put
their number on record. Then all endpoints of the list have a status, and observing any of them
again begins nothing and changes nothing. -/
theorem observe_begins_unseen {h : History} {w : World ε} (run : p.Run h w)
    (ids : List EndpointId) :
    ∃ begun, p.Opens begun w (p.observe ids w) ∧
      p.Run ((begun.map .begun).reverse ++ h) (p.observe ids w) ∧
      (∀ id, id ∈ begun.map (·.endpoint) ↔ id ∈ ids ∧ w.status? id = none) ∧
      (∀ s ∈ begun, s.number ∉ w.docket.numbers) ∧
      p.unseen ids w = (ids.toFinset.filter fun id => w.status? id = none).card ∧
      (p.observe ids w).notices = (w.notices ++
        if p.unseen ids w = 0 then [] else [.probesStarted (p.unseen ids w)]) ∧
      (∀ id ∈ ids, (p.observe ids w).status? id ≠ none) ∧
      ∀ again ⊆ ids, p.unseen again (p.observe ids w) = 0 ∧
        p.observe again (p.observe ids w) = p.observe ids w := by
  have opens := p.opens_observe ids w
  have seen : ∀ id ∈ ids, (p.observe ids w).status? id ≠ none := fun id listed => by
    rw [p.status_observe listed]
    exact Option.some_ne_none _
  refine ⟨_, opens, ?_, fun id => ?_, fun s hs taken => ?_, p.unseen_eq_card ids w,
    p.notices_observe ids w, seen, fun again some => ?_⟩
  · exact run.imp fun _ steps => steps.trans opens.events
  · rw [endpoint_newSequences, mem_newcomers]
  -- Numbers that were given out are not above the count, and the new ones are.
  · have old := (numbered_of_run run).le _ taken
    have new := List.mem_map_of_mem (f := (·.number)) hs
    rw [opens.numbers, List.mem_range'_1] at new
    exact absurd old (Nat.not_le_of_lt new.1)
  · have seen' : ∀ id ∈ again, (p.observe ids w).status? id ≠ none :=
      fun id listed => seen id (some listed)
    exact ⟨p.unseen_of_some seen', p.observe_of_some seen'⟩

/-- One endpoint of the list is listed twice and was removed, one was never probed, and one is
probed already. -/
theorem observe_begins_unseen_forgotten :
    let w : World Unit := steady.probe "n" (steady.forget "m" (steady.probe "m" (.start ())))
    let ids : List EndpointId := ["m", "n", "k", "m"]
    (w.status? "m" = none ∧ w.status? "n" = some .pending ∧ w.status? "k" = none) ∧
      steady.Run [.begun ⟨"n", 3⟩, .forgotten "m", .begun ⟨"m", 1⟩] w ∧
      ∃ begun, steady.Opens begun w (steady.observe ids w) ∧
        (∀ id, id ∈ begun.map (·.endpoint) ↔ id ∈ ids ∧ w.status? id = none) ∧
        steady.unseen ids w = 2 ∧
        steady.observe ["k", "m"] (steady.observe ids w) = steady.observe ids w := by
  intro w ids
  have run : steady.Run [.begun ⟨"n", 3⟩, .forgotten "m", .begun ⟨"m", 1⟩] w :=
    ⟨(), ((Steps.refl.step (.begin "m")).step (.forget "m")).step (.begin "n")⟩
  obtain ⟨begun, opens, -, which, -, -, -, -, again⟩ := steady.observe_begins_unseen run ids
  exact ⟨⟨rfl, rfl, rfl⟩, run, begun, opens, which, rfl, (again _ (by decide)).2⟩

end EndpointHealth.Prober
