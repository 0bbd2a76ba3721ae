import EndpointHealth.Proofs.Http.Defaults
set_option autoImplicit false

/-!
What is read of an endpoint, in whichever way it is read.

Main statement: getting an endpoint, listing all of them, asking for the default and the answer to
the last edit give one and the same record, and what is edited or removed changes no reading of
another endpoint (`readings_agree`).
-/

namespace EndpointHealth

namespace Deed

/-- Whether a deed writes the record of an id, whatever it does to the default. -/
def Writes (id : EndpointId) : Deed → Prop
  | registered i _ | edited i _ | removed i => i = id
  | started _ | promoted _ => False

end Deed

/-! ### In the book -/

namespace Book

variable {b b' : Book} {id : EndpointId} {e old : Endpoint}

/-- A record stays until it is written. -/
theorem mem_records_of_spared {d : Deed} (lawful : d.Lawful b.ids) (held : old ∈ b.records)
    (spared : ¬ d.Writes old.id) : old ∈ (b.record d).records := by
  cases d with
  | started seeds =>
    show old ∈ (b.seed seeds).2.records
    rwa [seed_of_ne_nil (List.ne_nil_of_mem held)]
  | registered i req =>
    show old ∈ (b.register _ _).records
    rw [(register_of_fresh (e := req.endpoint i) lawful.2 req.makeDefault).1]
    exact List.mem_append_left _ held
  | edited i req => exact List.mem_map.mpr ⟨old, held, if_neg (Ne.symm spared)⟩
  | removed i => exact List.mem_filter.mpr ⟨held, decide_eq_true (Ne.symm spared)⟩
  | promoted i =>
    show old ∈ (b.setDefault i).2.records
    rwa [(setDefault_of_mem lawful).1]

theorem get?_edit (held : b.get? id = some e) (req : Edit) :
    (b.edit id req).get? id = some (req.merge e) := by
  obtain ⟨old, hold, rfl, rfl⟩ := mem_of_get? held
  have written : req.merge old ∈ (b.edit old.id req).records :=
    List.mem_map.mpr ⟨old, hold, if_pos rfl⟩
  exact get?_of_mem written

theorem default?_eq_some_iff : b.default? = some e ↔ e ∈ b.list ∧ e.isDefault = true := by
  rw [← Option.mem_toList, ← filter_isDefault, List.mem_filter]

theorem filter_id (held : b.get? id = some e) : b.list.filter (·.id = id) = [e] := by
  have single : b.list.Pairwise
      fun f g => decide (f.id = id) = true → decide (g.id = id) = false := by
    refine List.pairwise_map.mpr ((List.pairwise_map.mp b.nodup).imp fun {f g} other same => ?_)
    exact decide_eq_false fun h => other ((of_decide_eq_true same : f.id = id).trans h.symm)
  rw [filter_eq_find? single]
  exact congrArg Option.toList held

def others (b : Book) (id : EndpointId) : List Endpoint := b.list.filter (·.id ≠ id)

theorem others_edit (b : Book) (id : EndpointId) (req : Edit) :
    (b.edit id req).others id = b.others id := by
  show ((b.records.map _).map b.shown).filter _ = (b.records.map b.shown).filter _
  induction b.records with
  | nil => rfl
  | cons f fs ih =>
    by_cases same : f.id = id
    · simpa [shown, same, Edit.merge] using ih
    · simpa [shown, same] using ih

theorem others_delete (b : Book) (id : EndpointId) :
    (b.delete id).2.others id = b.others id := by
  have kept (b : Book) : b.others id = (b.records.filter (·.id ≠ id)).map b.shown := List.filter_map
  have records : (b.delete id).2.records = b.records.filter (·.id ≠ id) := rfl
  rw [kept, kept, records, List.filter_filter]
  simp only [Bool.and_self]
  refine List.map_congr_left fun e he => ?_
  have other : e.id ≠ id := of_decide_eq_true (List.mem_filter.mp he).2
  have chosen : (b.delete id).2.chosen? = some e.id ↔ b.chosen? = some e.id := by
    show b.chosen?.filter (· ≠ id) = some e.id ↔ _
    simp [Option.filter_eq_some_iff, other]
  simp [shown, chosen]

theorem get?_of_others (same : b'.others id = b.others id) {j : EndpointId} (other : j ≠ id) :
    b'.get? j = b.get? j := by
  have found (b : Book) : b.get? j = (b.others id).find? (·.id = j) := by
    unfold get? others
    rw [List.find?_filter]
    refine List.find?_congr fun e _ => ?_
    by_cases h : e.id = j <;> simp [h, other]
  rw [found, found, same]

theorem default?_of_others (same : b'.others id = b.others id) (other : e.id ≠ id) :
    b'.default? = some e ↔ b.default? = some e := by
  have listed (b : Book) : e ∈ b.list ↔ e ∈ b.others id := by simp [others, other]
  rw [default?_eq_some_iff, default?_eq_some_iff, listed, listed, same]

end Book

namespace Service

open EndpointHealth.Http (Entered entered_none opened holds_opened)

variable {τ : Type} {p : Prober τ} {b : Book} {w v : State τ} {h : Chronicle} {id : EndpointId}

/-! ### Calls -/

/-- A call of the service. -/
inductive Order where
  | list
  | get (id : EndpointId)
  | getDefault
  | statuses
  | register (id : EndpointId) (req : Registration)
  | update (id : EndpointId) (req : Edit)
  | remove (id : EndpointId)
  | setDefault (id : EndpointId)
  | probe (id : EndpointId)
  | test (id : EndpointId) (message : Option String)

/-- Whether an action has been done, and what it leaves. -/
def told {α : Type} (x : Except ServiceError α × State τ) : Bool × State τ := (x.1.isOk, x.2)

def Order.call (p : Prober τ) : Order → State τ → Bool × State τ
  | .list, w => told (Service.list p w)
  | .get id, w => told (Service.get id w)
  | .getDefault, w => told (Service.getDefault w)
  | .statuses, w => (true, w)
  | .register id req, w => told (Service.register p id req w)
  | .update id req, w => told (Service.update p id req w)
  | .remove id, w => told (Service.remove p id w)
  | .setDefault id, w => told (Service.setDefault id w)
  | .probe id, w => told (Service.probe p id w)
  | .test id message, w => told (Service.test p id message w)

/-- What a call does to the registry if it is done. -/
def Order.deed? : Order → Option Deed
  | .register id req => some (.registered id req)
  | .update id req => some (.edited id req)
  | .remove id => some (.removed id)
  | .setDefault id => some (.promoted id)
  | .list | .get _ | .getDefault | .statuses | .probe _ | .test _ _ => none

/-- What comes of a state by calls and starts of the service, and what they have done to the
registry; in between the prober works by itself. -/
inductive Runs (p : Prober τ) (w : State τ) : Chronicle → State τ → Prop
  | refl : Runs p w [] w
  | started {h : Chronicle} {v : State τ} (before : Runs p w h v) (seeds : List Endpoint)
      {s : Registry.Seeding} (seeded : v.env.registry.seed (.ofEndpoints seeds) = .ok s)
      (provider : τ) (notices : List Notice) :
      Runs p w (.started seeds :: h) (opened p s.registry provider notices)
  | called {h : Chronicle} {v : State τ} (before : Runs p w h v) (o : Order) :
      Runs p w ((if (o.call p v).1 then o.deed? else none).toList ++ h) (o.call p v).2
  | work {h : Chronicle} {v u : State τ} {e : Option EndpointHealth.Prober.Event}
      (before : Runs p w h v) (next : p.Work v e u) : Runs p w h u

theorem entered_ok {α : Type} {x : Except ServiceError α × State τ} {a : α} {d? : Option Deed}
    (gives : Gives x (.ok a) (d?.elim b b.record)) (lawful : ∀ d ∈ d?, d.Lawful b.ids) :
    Entered b (if (told x).1 then d? else none) (told x).2 := by
  obtain ⟨given, holds⟩ := gives
  unfold told
  rw [given]
  exact ⟨lawful, holds⟩

theorem entered_error {α : Type} {x : Except ServiceError α × State τ} {why : ServiceError}
    (gives : Gives x (.error why) b) (d? : Option Deed) :
    Entered b (if (told x).1 then d? else none) (told x).2 := by
  obtain ⟨given, holds⟩ := gives
  unfold told
  rw [given]
  exact entered_none holds

/-- A call that is done enters its deed; any other leaves the book as it is. -/
theorem entered_call (confined : Confined p) (holds : Holds b w) (o : Order) :
    Entered b (if (o.call p w).1 then o.deed? else none) (o.call p w).2 := by
  have unchanged {x : Bool × State τ} (h : Holds b x.2) :
      Entered b (if x.1 then none else none) x.2 := by
    rw [ite_self]
    exact entered_none h
  cases o with
  | list =>
    obtain ⟨status, gives⟩ := list_gives p holds
    exact unchanged gives.2
  | get id => exact unchanged (get_gives holds id).2
  | getDefault => exact unchanged (getDefault_gives holds).2
  | statuses => exact unchanged holds
  | register id req =>
    cases allowed : (req.endpoint id).refusal? with
    | some why => exact entered_error (register_refused holds allowed) _
    | none =>
      by_cases taken : id ∈ b.ids
      · obtain ⟨why, gives⟩ := register_taken (p := p) holds allowed taken
        exact entered_error gives _
      · have lawful : (Deed.registered id req).Lawful b.ids := ⟨allowed, taken⟩
        exact entered_ok (register_gives holds lawful) fun d hd => Option.mem_some.mp hd ▸ lawful
  | update id req =>
    cases held : b.get? id with
    | none => exact entered_error (update_absent holds (Book.get?_eq_none_iff.mp held) req) _
    | some e =>
      cases applied : req.apply e with
      | error why => exact entered_error (update_refused holds held applied) _
      | ok e' =>
        have known : id ∈ b.ids := by
          by_contra absent
          cases (Book.get?_eq_none_iff.mpr absent).symm.trans held
        exact entered_ok (update_gives holds held applied) fun d hd =>
          Option.mem_some.mp hd ▸ known
  | remove id =>
    by_cases held : id ∈ b.ids
    · exact entered_ok (remove_gives holds held) fun d hd => Option.mem_some.mp hd ▸ held
    · exact entered_error (remove_absent holds held) _
  | setDefault id =>
    by_cases held : id ∈ b.ids
    · exact entered_ok (setDefault_gives holds held) fun d hd => Option.mem_some.mp hd ▸ held
    · exact entered_error (setDefault_absent holds held) _
  | probe id => exact unchanged (probe_holds p holds id)
  | test id message => exact unchanged (test_holds confined holds id message)

/-- After a run there is a book again, with all records that have not been written. -/
theorem holds_of_runs (confined : Confined p) (holds : Holds b w) (runs : Runs p w h v) :
    ∃ b', Holds b' v ∧
      ∀ old ∈ b.records, (∀ d ∈ h, ¬ d.Writes old.id) → old ∈ b'.records := by
  induction runs with
  | refl => exact ⟨b, holds, fun old hold _ => hold⟩
  | started before seeds seeded provider notices ih =>
    obtain ⟨c, holds, kept⟩ := ih
    obtain ⟨notices', seeded'⟩ := c.seed_registry seeds
    rw [holds.registry, seeded'] at seeded
    cases seeded
    refine ⟨c.record (.started seeds), holds_opened rfl provider notices, fun old hold spared => ?_⟩
    exact Book.mem_records_of_spared trivial
      (kept old hold fun d hd => spared d (List.mem_cons_of_mem _ hd)) (fun writes => writes)
  | called before o ih =>
    obtain ⟨c, holds, kept⟩ := ih
    obtain ⟨lawful, entered⟩ := entered_call confined holds o
    generalize (if (o.call p _).1 then o.deed? else none) = d? at lawful entered ⊢
    cases d? with
    | none => exact ⟨c, entered, kept⟩
    | some d =>
      refine ⟨c.record d, entered, fun old hold spared => ?_⟩
      exact Book.mem_records_of_spared (lawful d rfl)
        (kept old hold fun d hd => spared d (List.mem_cons_of_mem _ hd))
        (spared d (List.mem_cons_self ..))
  | work before next ih =>
    obtain ⟨c, holds, kept⟩ := ih
    exact ⟨c, holds.shelf (sameShelf_of_work confined next), kept⟩

/-! ### Readings -/

/-- The records of a list without their statuses. -/
def records (p : Prober τ) (w : State τ) : Except ServiceError (List Endpoint) :=
  (list p w).1.map fun entries => entries.map (·.1)

/-- An endpoint is the default that is read. -/
def IsDefault (w : State τ) (id : EndpointId) : Prop := ∃ e, (getDefault w).1 = .ok e ∧ e.id = id

/-- In whichever way the endpoint of an id is read, it is this one. -/
structure ReadsAs (p : Prober τ) (w : State τ) (id : EndpointId) (e : Endpoint) : Prop where
  got : (get id w).1 = .ok e
  listed : (records p w).map (fun es => es.filter (·.id = id)) = .ok [e]
  default : IsDefault w id → (getDefault w).1 = .ok e
  flagged : e.isDefault = true ↔ IsDefault w id

/-- All endpoints but one are read alike. -/
structure SameBeside (p : Prober τ) (id : EndpointId) (w v : State τ) : Prop where
  got : ∀ j, j ≠ id → (get j v).1 = (get j w).1
  listed : (records p v).map (fun es => es.filter (·.id ≠ id)) =
    (records p w).map (fun es => es.filter (·.id ≠ id))
  default : ∀ e : Endpoint, e.id ≠ id → ((getDefault v).1 = .ok e ↔ (getDefault w).1 = .ok e)

theorem records_holds (p : Prober τ) (holds : Holds b w) : records p w = .ok b.list := by
  obtain ⟨status, given, -⟩ := list_gives p holds
  rw [records, given, Except.map, List.map_map]
  exact congrArg Except.ok (List.map_id' _)

theorem getDefault_holds (holds : Holds b w) (e : Endpoint) :
    (getDefault w).1 = .ok e ↔ b.default? = some e := by
  rw [(getDefault_gives holds).1]
  cases b.default? <;> simp

theorem isDefault_iff (holds : Holds b w) (id : EndpointId) :
    IsDefault w id ↔ b.chosen? = some id := by
  constructor
  · rintro ⟨e, given, rfl⟩
    exact Http.chosen_of_default? ((getDefault_holds holds e).mp given)
  · intro chosen
    obtain ⟨e, found, same⟩ := Http.default?_of_chosen chosen
    exact ⟨e, (getDefault_holds holds e).mpr found, same⟩

theorem readsAs_holds (holds : Holds b w) {e : Endpoint} (held : b.get? id = some e) :
    ReadsAs p w id e where
  got := by rw [(get_gives holds id).1, held]
  listed := by rw [records_holds p holds, Except.map, Book.filter_id held]
  default := fun chosen => by
    rw [isDefault_iff holds] at chosen
    rw [getDefault_holds holds, Book.default?, chosen]
    exact held
  flagged := by
    rw [isDefault_iff holds]
    obtain ⟨old, -, rfl, rfl⟩ := Book.mem_of_get? held
    exact decide_eq_true_iff

theorem sameBeside_holds {b' : Book} (holds : Holds b w) (holds' : Holds b' v)
    (same : b'.others id = b.others id) : SameBeside p id w v where
  got := fun j other => by
    rw [(get_gives holds j).1, (get_gives holds' j).1, Book.get?_of_others same other]
  listed := by
    rw [records_holds p holds, records_holds p holds']
    exact congrArg Except.ok same
  default := fun e other => by
    rw [getDefault_holds holds, getDefault_holds holds', Book.default?_of_others same other]

theorem update_holds (holds : Holds b w) {req : Edit} {e : Endpoint}
    (edited : (update p id req w).1 = .ok e) :
    Holds (b.edit id req) (update p id req w).2 ∧ (b.edit id req).get? id = some e := by
  cases held : b.get? id with
  | none =>
    rw [(update_absent holds (Book.get?_eq_none_iff.mp held) req).1] at edited
    cases edited
  | some old =>
    cases applied : req.apply old with
    | error why =>
      rw [(update_refused holds held applied).1] at edited
      cases edited
    | ok e' =>
      obtain ⟨given, after⟩ := update_gives (p := p) holds held applied
      rw [given] at edited
      cases edited
      obtain ⟨rfl, -⟩ := Edit.eq_merge_of_apply applied
      exact ⟨after, Book.get?_edit held req⟩

theorem remove_holds (holds : Holds b w) (removed : (remove p id w).1 = .ok ()) :
    Holds (b.delete id).2 (remove p id w).2 := by
  by_cases held : id ∈ b.ids
  · exact (remove_gives holds held).2
  · rw [(remove_absent holds held).1] at removed
    cases removed

/-- An endpoint reads alike as long as its record is not written and it is the default, or is not,
as before. -/
theorem readsAs_of_runs (confined : Confined p) (holds : Holds b w) {e : Endpoint}
    (held : b.get? id = some e) (runs : Runs p w h v) (spared : ∀ d ∈ h, ¬ d.Writes id)
    (unmoved : IsDefault v id ↔ IsDefault w id) : ReadsAs p v id e := by
  obtain ⟨old, hold, rfl, rfl⟩ := Book.mem_of_get? held
  obtain ⟨c, holds', kept⟩ := holds_of_runs confined holds runs
  rw [isDefault_iff holds, isDefault_iff holds'] at unmoved
  have same : c.shown old = b.shown old := by simp [Book.shown, unmoved]
  exact readsAs_holds holds' (same ▸ Book.get?_of_mem (kept old hold spared))

/-- All ways of reading agree. Every endpoint of a registry reads as one record; what an edit has
answered is that record until it is written again or another default is chosen; and neither an edit
nor a removal changes what is read of other endpoints. -/
theorem readings_agree (confined : Confined p) {provider : τ}
    (runs : Runs p (.start ⟨.empty, false, provider⟩) h w) :
    (∀ id ∈ w.env.registry.ids, ∃ e, ReadsAs p w id e) ∧
    (∀ id req e, (update p id req w).1 = .ok e → SameBeside p id w (update p id req w).2 ∧
      ∀ l v, Runs p (update p id req w).2 l v → (∀ d ∈ l, ¬ d.Writes id) →
        (IsDefault v id ↔ IsDefault (update p id req w).2 id) → ReadsAs p v id e) ∧
    ∀ id, (remove p id w).1 = .ok () → SameBeside p id w (remove p id w).2 := by
  have empty : Holds .empty (.start ⟨.empty, false, provider⟩ : State τ) := ⟨rfl, rfl⟩
  obtain ⟨b, holds, -⟩ := holds_of_runs confined empty runs
  refine ⟨fun id known => ?_, fun id req e edited => ?_, fun id removed => ?_⟩
  · rw [holds.registry, b.ids_registry] at known
    obtain ⟨old, hold, rfl⟩ := List.mem_map.mp known
    exact ⟨_, readsAs_holds holds (Book.get?_of_mem hold)⟩
  · obtain ⟨holds', held⟩ := update_holds holds edited
    refine ⟨sameBeside_holds holds holds' (b.others_edit id req), fun l v runs spared unmoved => ?_⟩
    exact readsAs_of_runs confined holds' held runs spared unmoved
  · exact sameBeside_holds holds (remove_holds holds removed) (b.others_delete id)

/-- Two endpoints are seeded. The one that is the default is edited and then found, and then it is
removed. -/
theorem readings_agree_seeded : ∃ w e, Runs Http.slow (.start ⟨.empty, false, ()⟩)
      [.started [claimant "a", claimant "b"]] w ∧
    (update Http.slow "a" ⟨none, some "first", none, none, none⟩ w).1 = .ok e ∧
    e.name = "first" ∧ e.isDefault = true ∧
    ReadsAs Http.slow (update Http.slow "a" ⟨none, some "first", none, none, none⟩ w).2 "a" e ∧
    SameBeside Http.slow "a" w (remove Http.slow "a" w).2 := by
  have runs := (Runs.refl (p := Http.slow) (w := .start ⟨.empty, false, ()⟩)).started
    [claimant "a", claimant "b"] rfl () []
  have agree := readings_agree Http.confined_slow runs
  refine ⟨_, _, runs, rfl, rfl, rfl, ?_, agree.2.2 "a" rfl⟩
  exact (agree.2.1 "a" _ _ rfl).2 [] _ .refl (fun d hd => by cases hd) Iff.rfl

end Service
end EndpointHealth
