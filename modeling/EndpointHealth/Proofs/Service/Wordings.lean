import EndpointHealth.Proofs.Http.Validity
import EndpointHealth.Proofs.Service.Readings
import Mathlib.Data.List.DropRight
set_option autoImplicit false

/-!
The same texts, given to a new endpoint and to one that is edited.

A registration stores names without the white space at their ends, an edit stores them as they are
written. Main statement: where both are given the same texts, none of which is blank, they store the
same place and the same key, and the same names exactly if these neither begin nor end with white
space (`wordings_agree_iff`).
-/

namespace EndpointHealth

namespace Text

/-- Whether a text neither begins nor ends with white space. -/
def isBare (s : String) : Bool :=
  s.toList.head?.all (!isSpace ·) && s.toList.getLast?.all (!isSpace ·)

/-! ### Texts -/

theorem dropWhile_eq_self_iff_head (cs : List Char) :
    cs.dropWhile isSpace = cs ↔ cs.head?.all (!isSpace ·) = true := by
  rw [List.dropWhile_eq_self_iff]
  cases cs <;> simp

theorem rdropWhile_eq_self_iff_getLast (cs : List Char) :
    cs.rdropWhile isSpace = cs ↔ cs.getLast?.all (!isSpace ·) = true := by
  rw [List.rdropWhile, List.reverse_eq_iff, dropWhile_eq_self_iff_head, List.head?_reverse]

theorem trimChars_eq_self_iff (cs : List Char) : trimChars cs = cs ↔
    (cs.head?.all (!isSpace ·) && cs.getLast?.all (!isSpace ·)) = true := by
  rw [Bool.and_eq_true, ← dropWhile_eq_self_iff_head, ← rdropWhile_eq_self_iff_getLast]
  constructor
  · intro trimmed
    have trimmed : (cs.dropWhile isSpace).rdropWhile isSpace = cs := trimmed
    have whole : cs.dropWhile isSpace = cs := by
      have shorter := (List.rdropWhile_prefix isSpace (cs.dropWhile isSpace)).length_le
      rw [trimmed] at shorter
      have suffix := List.dropWhile_suffix (l := cs) isSpace
      exact suffix.eq_of_length (Nat.le_antisymm suffix.length_le shorter)
    exact ⟨whole, by rwa [whole] at trimmed⟩
  · rintro ⟨first, last⟩
    show (cs.dropWhile isSpace).rdropWhile isSpace = cs
    rw [first, last]

theorem trim_eq_self_iff (s : String) : trim s = s ↔ isBare s = true := by
  rw [isBare, ← trimChars_eq_self_iff, trim]
  constructor
  · intro same
    simpa using congrArg String.toList same
  · intro same
    rw [same, String.ofList_toList]

theorem filled_of_trim {s : String} (filled : isBlank (trim s) = false) : isBlank s = false := by
  cases blank : isBlank s with
  | false => rfl
  | true =>
    rw [(isBlank_iff_trim s).mp blank] at filled
    exact filled

end Text

open Text (isBlank nonBlank? trim isBare)

/-- The edit that gives an endpoint the texts of a registration, and may name a provider. -/
def Registration.asEdit (req : Registration) (provider : Option Provider) : Edit where
  provider := provider
  name := some req.name
  model := some req.model
  apiBase := req.apiBase
  apiKey := some req.apiKey

theorem merge_asEdit {req : Registration} {fresh : EndpointId}
    (accepted : (req.endpoint fresh).refusal? = none) (model : isBlank req.model = false)
    (base : ∃ s, req.apiBase = some s ∧ isBlank s = false) (t : Option Provider) (e : Endpoint) :
    (req.asEdit t).merge e = { e with
      name := req.name, model := req.model, apiBase := req.apiBase, apiKey := req.apiKey } := by
  obtain ⟨name, key, -⟩ := (refusal?_eq_none_iff _).mp accepted
  have name : isBlank req.name = false := Text.filled_of_trim name
  obtain ⟨s, base, filled⟩ := base
  simp [Edit.merge, Edit.given, Registration.asEdit, base, nonBlank?, name, model, filled,
    show isBlank req.apiKey = false from key]

namespace Book

theorem get?_register {b : Book} {e : Endpoint} (fresh : e.id ∉ b.ids) (makeDefault : Bool) :
    (b.register e makeDefault).get? e.id = some ((b.register e makeDefault).shown e) := by
  refine get?_of_mem ?_
  rw [(register_of_fresh fresh makeDefault).1]
  exact List.mem_append_right _ (List.mem_singleton_self e)

end Book

namespace Service

open Http (holds_of_served)

variable {τ : Type} {p : Prober τ} {b : Book} {w w' : State τ} {l l' : Chronicle}
  {id fresh i : EndpointId} {e : Endpoint} {req : Registration}

/-- A registration that is accepted keeps the rules and takes an id that is free. -/
theorem lawful_of_register (holds : Holds b w)
    (registered : (register p fresh req w).1 = .ok i) :
    i = fresh ∧ (Deed.registered fresh req).Lawful b.ids := by
  cases allowed : (req.endpoint fresh).refusal? with
  | some why =>
    rw [(register_refused holds allowed).1] at registered
    cases registered
  | none =>
    by_cases taken : fresh ∈ b.ids
    · obtain ⟨why, given, -⟩ := register_taken (p := p) holds allowed taken
      rw [given] at registered
      cases registered
    · have lawful : (Deed.registered fresh req).Lawful b.ids := ⟨allowed, taken⟩
      rw [(register_gives holds lawful).1] at registered
      cases registered
      exact ⟨rfl, lawful⟩

theorem get_registered (holds : Holds b w) (registered : (register p fresh req w).1 = .ok i) :
    ∃ isDefault, (get i (register p fresh req w).2).1 =
      .ok { req.endpoint fresh with isDefault := isDefault } := by
  obtain ⟨rfl, lawful⟩ := lawful_of_register holds registered
  obtain ⟨-, after⟩ := register_gives (p := p) holds lawful
  have held : (b.record (.registered i req)).get? i = _ :=
    Book.get?_register (e := req.endpoint i) lawful.2 req.makeDefault
  rw [(get_gives after i).1, held]
  exact ⟨_, rfl⟩

theorem get_updated (holds : Holds b w) {r : Edit} (edited : (update p id r w).1 = .ok e) :
    (get id (update p id r w).2).1 = .ok e := by
  obtain ⟨after, held⟩ := update_holds holds edited
  rw [(get_gives after id).1, held]

theorem held_of_get (holds : Holds b w) (got : (get id w).1 = .ok e) : b.get? id = some e := by
  rw [(get_gives holds id).1] at got
  cases held : b.get? id with
  | none =>
    rw [held] at got
    cases got
  | some e' =>
    rw [held] at got
    cases got
    rfl

/-- An endpoint that has been read can be given the texts of a registration that is accepted. -/
theorem update_asEdit (lawful : l.Lawful) (holds : Holds l.book w) (got : (get id w).1 = .ok e)
    {t : Option Provider} (kept : ∀ u ∈ t, u = e.provider) :
    (update p id (req.asEdit t) w).1 = .ok ((req.asEdit t).merge e) := by
  have held := held_of_get holds got
  obtain ⟨old, hold, -, rfl⟩ := Book.mem_of_get? held
  have valid : (l.book.shown old).refusal? = none := Chronicle.valid_records lawful old hold
  have applied : (req.asEdit t).apply (l.book.shown old) = .ok _ :=
    Edit.apply_eq_ok_iff.mpr ⟨kept, rfl, refusal_merge valid _⟩
  exact (update_gives holds held applied).1

/-- A registration that is accepted and an edit that gives an endpoint the same texts, none of them
blank, store the same place and the same key. The names that are stored are what is left of those of
the edit when white space is trimmed off their ends, and so each of them is the same exactly if it
neither begins nor ends with white space. -/
theorem wordings_agree_iff (confined : Confined p) (served : Http.Served p l w)
    (served' : Http.Served p l' w') (got : (get id w).1 = .ok e)
    (registered : (register p fresh req w').1 = .ok i) (model : isBlank req.model = false)
    (base : ∃ s, req.apiBase = some s ∧ isBlank s = false) :
    ∃ new, (get i (register p fresh req w').2).1 = .ok new ∧
      ∀ t, (∀ u ∈ t, u = e.provider) → ∃ e',
        (update p id (req.asEdit t) w).1 = .ok e' ∧
        (get id (update p id (req.asEdit t) w).2).1 = .ok e' ∧
        new.apiBase = e'.apiBase ∧ new.apiKey = e'.apiKey ∧
        new.name = trim e'.name ∧ new.model = trim e'.model ∧
        (new.name = e'.name ↔ isBare req.name = true) ∧
        (new.model = e'.model ↔ isBare req.model = true) := by
  obtain ⟨lawful, holds⟩ := holds_of_served confined served
  obtain ⟨-, holds'⟩ := holds_of_served confined served'
  have accepted := (lawful_of_register holds' registered).2.1
  obtain ⟨isDefault, stored⟩ := get_registered holds' registered
  refine ⟨_, stored, fun t kept => ?_⟩
  have edited : (update p id (req.asEdit t) w).1 = .ok ((req.asEdit t).merge e) :=
    update_asEdit lawful holds got kept
  refine ⟨_, edited, get_updated holds edited, ?_⟩
  rw [merge_asEdit accepted model base]
  obtain ⟨s, base, filled⟩ := base
  refine ⟨?_, rfl, rfl, rfl, Text.trim_eq_self_iff _, Text.trim_eq_self_iff _⟩
  show req.apiBase.bind nonBlank? = req.apiBase
  simp [base, nonBlank?, filled]

def spaced : Registration where
  name := "my alias"
  provider := .openai
  model := "gpt\t"
  apiBase := some " http://host"
  apiKey := "key "
  makeDefault := false

/-- One name is stored alike and the other is not. -/
theorem wordings_agree_iff_spaced : ∃ w new e', Http.Served Http.slow [.started [claimant "a"]] w ∧
    (get "b" (register Http.slow "b" spaced w).2).1 = .ok new ∧
    (get "a" (update Http.slow "a" (spaced.asEdit (some .openai)) w).2).1 = .ok e' ∧
    new.apiBase = e'.apiBase ∧ new.apiKey = e'.apiKey ∧
    new.name = e'.name ∧ new.model ≠ e'.model := by
  have started := (Http.Served.empty (p := Http.slow) ()).started [claimant "a"] rfl () []
  obtain ⟨new, stored, agree⟩ := @wordings_agree_iff Unit Http.slow _ _ _ _ "a" "b" "b" _ spaced
    Http.confined_slow started started rfl rfl (by decide) ⟨" http://host", rfl, by decide⟩
  obtain ⟨e', -, edited, base, key, -, -, name, model⟩ := agree (some .openai) (by decide)
  exact ⟨_, new, e', started, stored, edited, base, key, name.mpr (by decide),
    mt model.mp (by decide)⟩

/-- An edit stores names with the white space at their ends, where a registration that is given the
same texts stores them without. -/
theorem edited_untrimmed : ∃ w new e', Http.Served Http.slow [.started [claimant "a"]] w ∧
    (get "b" (register Http.slow "b" { spaced with name := " alias " } w).2).1 = .ok new ∧
    (get "a" (update Http.slow "a"
      (Registration.asEdit { spaced with name := " alias " } none) w).2).1 = .ok e' ∧
    new.name = "alias" ∧ e'.name = " alias " ∧ new.model = "gpt" ∧ e'.model = "gpt\t" := by
  have started := (Http.Served.empty (p := Http.slow) ()).started [claimant "a"] rfl () []
  exact ⟨_, _, _, started, rfl, rfl, by decide, rfl, by decide, rfl⟩

end Service
end EndpointHealth
