import EndpointHealth.Proofs.Http.Chronicles
set_option autoImplicit false

/-!
The default endpoint over all that a service is asked to do.

Main statement: the default is the endpoint that has been promoted last, unless it has been removed
since; then there is none (`default_of_last_promotion`).
-/

namespace EndpointHealth.Http

open EndpointHealth.Service (Confined Holds)

variable {τ : Type} {p : Service.Prober τ} {b : Book} {w v : Service.State τ} {h : Chronicle}

def defaultAnswer (p : Service.Prober τ) (w : Service.State τ) (fresh : EndpointId)
    (type : Option String) (body : Bytes) : Response :=
  (handle p fresh ⟨"GET", "/models/default", type, body⟩ w).1

def AnswersDefault (p : Service.Prober τ) (w : Service.State τ) (id : EndpointId) : Prop :=
  ∀ fresh type body, ∃ value, defaultAnswer p w fresh type body = .now (.json 200 value) ∧
    value.member? "model_id" = some (.text id)

/-- Whether an action can leave no other default than there is. -/
def Action.SparesDefault (h : Chronicle) : Action → Prop
  | .add | .setDefault _ => False
  | .remove id => ¬ h.Promotes id
  | .health | .list | .getDefault | .statuses | .get _ | .update _ | .probe _ | .test _ => True

theorem member_toValue (e : Endpoint) : e.toValue.member? "model_id" = some (.text e.id) := rfl

theorem members_listed (e : Endpoint) (s : Option Status) :
    (listed e s).member? "model_id" = some (.text e.id) ∧
      (listed e s).member? "is_studio_default" = some (.flag e.isDefault) := ⟨rfl, rfl⟩

/-! ### The default of a book -/

theorem default?_of_chosen {id : EndpointId} (chosen : b.chosen? = some id) :
    ∃ e, b.default? = some e ∧ e.id = id := by
  obtain ⟨old, hold, rfl⟩ := List.mem_map.mp (b.known id chosen)
  refine ⟨b.shown old, ?_, rfl⟩
  unfold Book.default?
  rw [chosen]
  exact Book.get?_of_mem hold

theorem chosen_of_default? {e : Endpoint} (h : b.default? = some e) : b.chosen? = some e.id := by
  obtain ⟨id, chosen, got⟩ := Option.bind_eq_some_iff.mp h
  obtain ⟨old, -, rfl, rfl⟩ := Book.mem_of_get? got
  exact chosen

theorem flagged_iff_chosen {id : EndpointId} :
    (∃ e ∈ b.list, e.id = id ∧ e.isDefault = true) ↔ b.chosen? = some id := by
  constructor
  · rintro ⟨e, he, rfl, flagged⟩
    obtain ⟨old, -, rfl⟩ := List.mem_map.mp he
    exact of_decide_eq_true flagged
  · intro chosen
    obtain ⟨old, hold, rfl⟩ := List.mem_map.mp (b.known id chosen)
    exact ⟨b.shown old, List.mem_map_of_mem hold, rfl, decide_eq_true chosen⟩

theorem answered_default (holds : Holds b w) (fresh : EndpointId) (type : Option String)
    (body : Bytes) : defaultAnswer p w fresh type body = match b.default? with
      | some e => .now (.json 200 e.toValue)
      | none => .now (.error .noDefault) := by
  have action : actionOf "GET" "/models/default" = .ok .getDefault := rfl
  have gives := Service.getDefault_gives holds
  rw [defaultAnswer, handle_of_action action]
  show (answered endpointAnswer (Service.getDefault w)).1.to "GET" = _
  cases held : b.default? with
  | none =>
    rw [held] at gives
    rw [(answered_gives_error _ gives).1]
    rfl
  | some e =>
    rw [held] at gives
    rw [(answered_gives _ gives).1]
    rfl

theorem answered_no_default (holds : Holds b w) (unchosen : b.chosen? = none) (fresh : EndpointId)
    (type : Option String) (body : Bytes) : defaultAnswer p w fresh type body =
      .now (.json 404 (.record [("error", .text "No default model is set")])) := by
  have none : b.default? = none := by rw [Book.default?, unchosen]; rfl
  rw [answered_default holds, none]
  rfl

theorem answered_list (holds : Holds b w) (fresh : EndpointId) (type : Option String)
    (body : Bytes) : ∃ items,
    (handle p fresh ⟨"GET", "/models", type, body⟩ w).1 = .now (.json 200 (.list items)) ∧
    items.map (·.member? "model_id") = b.ids.map (fun id => some (.text id)) ∧
    ∀ id, (∃ item ∈ items, item.member? "model_id" = some (.text id) ∧
      item.member? "is_studio_default" = some (.flag true)) ↔ b.chosen? = some id := by
  have action : actionOf "GET" "/models" = .ok .list := rfl
  obtain ⟨status, gives⟩ := Service.list_gives p holds
  refine ⟨b.list.map fun e => listed e (status e.id), ?_, ?_, fun id => ?_⟩
  · rw [handle_of_action action]
    show (answered _ (Service.list p w)).1.to "GET" = _
    rw [(answered_gives _ gives).1]
    simp [Response.to, Function.comp_def]
  · simp [members_listed, Book.ids, Book.list, Book.shown]
  · rw [← flagged_iff_chosen]
    simp [members_listed]

theorem answersDefault_iff (holds : Holds b w) (id : EndpointId) :
    AnswersDefault p w id ↔ b.chosen? = some id := by
  constructor
  · intro answers
    obtain ⟨value, given, member⟩ := answers "" none []
    rw [answered_default holds] at given
    cases held : b.default? with
    | none =>
      rw [held] at given
      cases given
    | some e =>
      rw [held] at given
      cases given
      cases (member_toValue e).symm.trans member
      exact chosen_of_default? held
  · intro chosen fresh type body
    obtain ⟨e, held, rfl⟩ := default?_of_chosen chosen
    refine ⟨e.toValue, ?_, rfl⟩
    rw [answered_default holds, held]

/-! ### The default of a chronicle -/

/-- Only what promotes an endpoint or removes the default changes it. -/
theorem promotes_of_spared (fresh : EndpointId) (r : Request) (response : Response)
    (spared : response.isDone = true →
      ∀ a, actionOf r.method r.target = .ok a → a.SparesDefault h) (id : EndpointId) :
    Chronicle.Promotes ((deed? fresh r response).toList ++ h) id ↔ h.Promotes id := by
  cases found : deed? fresh r response with
  | none => exact Iff.rfl
  | some d =>
    unfold deed? at found
    split at found
    · rename_i a action
      split at found
      · rename_i done
        have spared := spared done a action
        show Chronicle.Promotes (d :: h) id ↔ _
        rw [Chronicle.promotes_cons]
        cases a with
        | add => exact spared.elim
        | setDefault i => exact spared.elim
        | remove i =>
          cases found
          have other : h.Promotes id → Deed.removed i ≠ .removed id := fun promoted same => by
            cases same
            exact spared promoted
          simpa [Deed.promotes?] using other
        | update i =>
          obtain ⟨req, -, rfl⟩ := Option.map_eq_some_iff.mp found
          simp [Deed.promotes?]
        | _ => cases found
      · cases found
    · cases found

/-- The default endpoint, as it is answered. It is the one that has been promoted last, in seeding,
by its registration or on request, if it has not been removed since. -/
theorem default_of_last_promotion (confined : Confined p) (served : Served p h w) :
    (∀ id, AnswersDefault p w id ↔ h.Promotes id) ∧
    ((∀ id, ¬ h.Promotes id) → ∀ fresh type body, defaultAnswer p w fresh type body =
      .now (.json 404 (.record [("error", .text "No default model is set")]))) ∧
    (∀ fresh type body, ∃ items,
      (handle p fresh ⟨"GET", "/models", type, body⟩ w).1 = .now (.json 200 (.list items)) ∧
      items.map (·.member? "model_id") = h.ids.map (fun id => some (.text id)) ∧
      ∀ id, (∃ item ∈ items, item.member? "model_id" = some (.text id) ∧
        item.member? "is_studio_default" = some (.flag true)) ↔ h.Promotes id) ∧
    (∀ e v, p.Work w e v → ∀ id, AnswersDefault p v id ↔ AnswersDefault p w id) ∧
    ∀ fresh r, ((handle p fresh r w).1.isDone = true →
        ∀ a, actionOf r.method r.target = .ok a → a.SparesDefault h) →
      ∀ id, AnswersDefault p (handle p fresh r w).2 id ↔ AnswersDefault p w id := by
  have answers {h : Chronicle} {w : Service.State τ} (served : Served p h w) (id : EndpointId) :
      AnswersDefault p w id ↔ h.Promotes id := by
    obtain ⟨lawful, holds⟩ := holds_of_served confined served
    rw [answersDefault_iff holds, Chronicle.chosen_iff_promotes lawful]
  obtain ⟨lawful, holds⟩ := holds_of_served confined served
  have chosen (id : EndpointId) : h.book.chosen? = some id ↔ h.Promotes id :=
    Chronicle.chosen_iff_promotes lawful id
  refine ⟨answers served, fun never => ?_, fun fresh type body => ?_, fun e v next id => ?_,
    fun fresh r spared id => ?_⟩
  · refine answered_no_default holds (Option.eq_none_iff_forall_not_mem.mpr fun id hid => ?_)
    exact never id ((chosen id).mp hid)
  · obtain ⟨items, given, ids, flags⟩ := answered_list (p := p) holds fresh type body
    rw [Chronicle.ids_book lawful] at ids
    exact ⟨items, given, ids, fun id => (flags id).trans (chosen id)⟩
  · rw [answers served, answers (served.work next)]
  · rw [answers served, answers (served.handled fresh r)]
    exact promotes_of_spared fresh r _ spared id

/-- Two endpoints are seeded, and the one that is not the default is promoted and then removed. -/
def promoting : Chronicle :=
  [.removed "b", .promoted "b", .started [claimant "a", claimant "b"]]

theorem default_of_last_promotion_removed : ∃ w, Served slow promoting w ∧
    (∀ id, ¬ AnswersDefault slow w id) ∧
    defaultAnswer slow w "" none [] =
      .now (.json 404 (.record [("error", .text "No default model is set")])) := by
  have started := (Served.empty (p := slow) ()).started [claimant "a", claimant "b"] rfl () []
  have chosen := started.handled "" ⟨"POST", "/models/b/default", none, []⟩
  have removed := chosen.handled "" ⟨"DELETE", "/models/b", none, []⟩
  have never : ∀ id, ¬ Chronicle.Promotes promoting id := by
    intro id
    simp [promoting, Chronicle.promotes_cons, Deed.promotes?]
  have settled := default_of_last_promotion confined_slow removed
  exact ⟨_, removed, fun id h => never id ((settled.1 id).mp h), settled.2.1 never "" none []⟩

end EndpointHealth.Http
