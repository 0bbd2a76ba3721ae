import EndpointHealth.Proofs.Http.Chronicles
import EndpointHealth.Proofs.Registry.Edits
set_option autoImplicit false

/-!
The rules for endpoints, over all that a service is asked to do.

An edit leaves what it does not give as it is, and gives nothing that is blank; so it cannot make an
endpoint break a rule that it has met (`refusal_merge`). Main statement: all endpoints in the
registry meet the rules, and the only edit of one that is refused is one that names another provider
(`stored_valid_and_editable`).
-/

namespace EndpointHealth

open Text (isBlank nonBlank?)

/-! ### Rules -/

theorem refusal?_eq_none_iff (e : Endpoint) : e.refusal? = none ↔
    isBlank e.name = false ∧ isBlank e.apiKey = false ∧
    (e.provider.needsApiBase = true → ∃ s, e.apiBase.bind nonBlank? = some s) ∧
    (e.provider.needsModel = true → isBlank e.model = false) := by
  unfold Endpoint.refusal?
  cases isBlank e.name with
  | true => simp
  | false =>
    cases isBlank e.apiKey with
    | true => simp
    | false =>
      cases e.apiBase.bind nonBlank? with
      | none => cases e.provider.needsApiBase <;> simp
      | some s => simp

theorem isBlank_given {old : String} (h : isBlank old = false) (new : Option String) :
    isBlank (Edit.given new old) = false := by
  unfold Edit.given
  cases new with
  | none => exact h
  | some s =>
    show isBlank ((nonBlank? s).getD old) = false
    unfold nonBlank?
    split
    · exact h
    · rename_i filled
      exact Bool.eq_false_iff.mpr filled

theorem nonBlank_of_some {s t : String} (h : nonBlank? s = some t) : nonBlank? t = some t := by
  unfold nonBlank? at h ⊢
  split at h
  · cases h
  · rename_i filled
    cases h
    exact if_neg filled

/-- An edit cannot break a rule that is met. -/
theorem refusal_merge {e : Endpoint} (valid : e.refusal? = none) (req : Edit) :
    (req.merge e).refusal? = none := by
  obtain ⟨name, key, base, model⟩ := (refusal?_eq_none_iff e).mp valid
  refine (refusal?_eq_none_iff _).mpr ⟨isBlank_given name _, isBlank_given key _, fun needs => ?_,
    fun needs => isBlank_given (model needs) _⟩
  show ∃ s, ((req.apiBase.bind nonBlank?).or e.apiBase).bind nonBlank? = some s
  cases given : req.apiBase.bind nonBlank? with
  | none => exact base needs
  | some s =>
    obtain ⟨t, -, filled⟩ := Option.bind_eq_some_iff.mp given
    exact ⟨s, nonBlank_of_some filled⟩

theorem apply_of_valid {e : Endpoint} (valid : e.refusal? = none) (req : Edit) :
    req.apply e = if req.changesProvider e then .error .providerChange else .ok (req.merge e) := by
  unfold Edit.apply
  rw [refusal_merge valid req]

theorem valid_of_accepted {seeds : List Endpoint} {e : Endpoint} (h : e ∈ Book.accepted seeds) :
    e.refusal? = none := Option.isNone_iff_eq_none.mp (List.mem_filter.mp h).2

theorem Chronicle.valid_records {h : Chronicle} (lawful : h.Lawful) :
    ∀ e ∈ h.book.records, e.refusal? = none :=
  forall_records (fun _ _ _ accepted => valid_of_accepted accepted)
    (fun _ _ done => allowed_of_registered lawful done)
    fun req _ valid => refusal_merge valid req

namespace Http

open Service (Confined Holds)

variable {τ : Type} {p : Service.Prober τ} {w : Service.State τ} {h : Chronicle}

/-! ### Services -/

/-- Whatever a service has been asked for, all its endpoints meet the rules, and each of them can be
edited at will as long as its provider is not changed. -/
theorem stored_valid_and_editable (confined : Confined p) (served : Served p h w) :
    ∃ es, w.env.registry.list = .ok es ∧ ∀ e ∈ es, e.refusal? = none ∧
      (Service.get e.id w).1 = .ok e ∧
      ∀ req, ((∃ why, (Service.update p e.id req w).1 = .error why) ↔
          ∃ t, req.provider = some t ∧ t ≠ e.provider) ∧
        ∀ e', (Service.update p e.id req w).1 = .ok e' → e' = req.merge e := by
  obtain ⟨lawful, holds⟩ := holds_of_served confined served
  refine ⟨h.book.list, by rw [holds.registry, Book.list_registry], fun e he => ?_⟩
  obtain ⟨old, hold, rfl⟩ := List.mem_map.mp he
  have valid : (h.book.shown old).refusal? = none := Chronicle.valid_records lawful old hold
  have held : h.book.get? (h.book.shown old).id = some (h.book.shown old) :=
    (Book.get?_of_mem hold :)
  refine ⟨valid, ?_, fun req => ?_⟩
  · rw [(Service.get_gives holds _).1, held]
  · have applied := apply_of_valid valid req
    rw [← changesProvider_iff]
    by_cases changes : req.changesProvider (h.book.shown old) = true
    · rw [if_pos changes] at applied
      rw [(Service.update_refused holds held applied).1]
      exact ⟨iff_of_true ⟨_, rfl⟩ changes, fun e' he' => by cases he'⟩
    · rw [if_neg changes] at applied
      rw [(Service.update_gives holds held applied).1]
      exact ⟨iff_of_false (by simp) changes, fun e' he' => by cases he'; rfl⟩

/-- A seeded endpoint can have anything but another provider. -/
theorem stored_valid_and_editable_seeded : ∃ w, Served slow [.started [claimant "a"]] w ∧
    (∃ why, (Service.update slow "a" ⟨some .anthropic, none, none, none, none⟩ w).1 = .error why) ∧
    ¬ ∃ why, (Service.update slow "a" ⟨some .openai, some " ", none, none, none⟩ w).1 =
      .error why := by
  have started := (Served.empty (p := slow) ()).started [claimant "a"] rfl () []
  obtain ⟨es, listed, editable⟩ := stored_valid_and_editable confined_slow started
  cases (show Except.ok [claimant "a"] = Except.ok es from listed)
  obtain ⟨-, -, editable⟩ := editable _ (List.mem_singleton_self _)
  refine ⟨_, started, (editable _).1.mpr ⟨.anthropic, rfl, by decide⟩, fun refused => ?_⟩
  obtain ⟨t, named, other⟩ := (editable _).1.mp refused
  cases named
  exact other rfl

end Http
end EndpointHealth
