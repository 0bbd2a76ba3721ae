import EndpointHealth.Registration
set_option autoImplicit false

/-!
Edits of endpoints, one after another.

What an edit makes of a record is said field by field (`Edit.Merged`). Main statement: an edit is
refused exactly if it names another provider or what it makes of the record breaks a rule; once it
is made, making it again changes nothing, and two edits that are made one after the other come to a
single one (`edits_settle`).
-/

namespace EndpointHealth

theorem changesProvider_iff (req : Edit) (e : Endpoint) :
    req.changesProvider e = true ↔ ∃ t, req.provider = some t ∧ t ≠ e.provider := by
  unfold Edit.changesProvider
  cases req.provider with
  | none => simp
  | some t => simp

namespace Edit

open Text (isBlank nonBlank?)

/-! ### Fields -/

/-- What a field that held `old` holds after an edit that may give it a text. -/
inductive Fills {α : Type} (hold : String → α) (old : α) : Option String → α → Prop
  | given {s : String} (filled : isBlank s = false) : Fills hold old (some s) (hold s)
  | blank {s : String} (blank : isBlank s = true) : Fills hold old (some s) old
  | missing : Fills hold old none old

/-- What an edit makes of a record. -/
structure Merged (r : Edit) (e e' : Endpoint) : Prop where
  id : e'.id = e.id
  provider : e'.provider = e.provider
  isDefault : e'.isDefault = e.isDefault
  name : Fills (fun s => s) e.name r.name e'.name
  model : Fills (fun s => s) e.model r.model e'.model
  apiBase : Fills some e.apiBase r.apiBase e'.apiBase
  apiKey : Fills (fun s => s) e.apiKey r.apiKey e'.apiKey

/-- The text of the later of two edits, unless it is missing or blank. -/
def later? : Option String → Option String → Option String
  | some s, earlier => if isBlank s then earlier else some s
  | none, earlier => earlier

def followedBy (r r' : Edit) : Edit where
  provider := r'.provider.or r.provider
  name := later? r'.name r.name
  model := later? r'.model r.model
  apiBase := later? r'.apiBase r.apiBase
  apiKey := later? r'.apiKey r.apiKey

theorem fills_iff {α : Type} {hold : String → α} {old now : α} {new : Option String} :
    Fills hold old new now ↔ now = ((new.bind nonBlank?).map hold).getD old := by
  constructor
  · intro fills
    cases fills with
    | given filled => simp [nonBlank?, filled]
    | blank blank => simp [nonBlank?, blank]
    | missing => rfl
  · rintro rfl
    cases new with
    | none => exact .missing
    | some s =>
      cases h : isBlank s with
      | true => simpa [nonBlank?, h] using Fills.blank h
      | false => simpa [nonBlank?, h] using Fills.given h

theorem fills_text_iff {old now : String} {new : Option String} :
    Fills (fun s => s) old new now ↔ now = given new old := by
  rw [fills_iff, Option.map_id', given]

theorem fills_place_iff {old now : Option String} {new : Option String} :
    Fills some old new now ↔ now = (new.bind nonBlank?).or old := by
  rw [fills_iff]
  cases new.bind nonBlank? <;> rfl

theorem merged_iff {r : Edit} {e e' : Endpoint} : Merged r e e' ↔ e' = r.merge e := by
  constructor
  · rintro ⟨hid, hprovider, hdefault, name, model, apiBase, apiKey⟩
    rw [fills_text_iff] at name model apiKey
    rw [fills_place_iff] at apiBase
    cases e'
    simp_all [merge]
  · rintro rfl
    exact
      { id := rfl
        provider := rfl
        isDefault := rfl
        name := fills_text_iff.mpr rfl
        model := fills_text_iff.mpr rfl
        apiBase := fills_place_iff.mpr rfl
        apiKey := fills_text_iff.mpr rfl }

/-! ### One edit after another -/

theorem nonBlank_later? (new old : Option String) :
    (later? new old).bind nonBlank? = (new.bind nonBlank?).or (old.bind nonBlank?) := by
  cases new with
  | none => rfl
  | some s => cases h : isBlank s <;> simp [later?, nonBlank?, h]

theorem given_later? (new mid : Option String) (old : String) :
    given (later? new mid) old = given new (given mid old) := by
  unfold given
  rw [nonBlank_later?]
  cases new.bind nonBlank? <;> rfl

theorem later?_self (new : Option String) : later? new new = new := by
  cases new with
  | none => rfl
  | some s => simp [later?]

theorem merge_merge (r r' : Edit) (e : Endpoint) :
    r'.merge (r.merge e) = (r.followedBy r').merge e := by
  simp only [merge, followedBy, given_later?, nonBlank_later?, Option.or_assoc]

theorem followedBy_self (r : Edit) : r.followedBy r = r := by
  simp only [followedBy, later?_self, Option.or_self]

/-! ### Edits that are made -/

theorem changesProvider_eq_false_iff {r : Edit} {e : Endpoint} :
    r.changesProvider e = false ↔ ∀ t ∈ r.provider, t = e.provider := by
  unfold changesProvider
  cases r.provider <;> simp

theorem apply_eq_error_iff {r : Edit} {e : Endpoint} :
    (∃ why, r.apply e = .error why) ↔
      (∃ t, r.provider = some t ∧ t ≠ e.provider) ∨ (r.merge e).refusal? ≠ none := by
  rw [← changesProvider_iff]
  unfold apply
  cases r.changesProvider e with
  | true => simp
  | false => cases (r.merge e).refusal? <;> simp

theorem apply_eq_ok_iff {r : Edit} {e e' : Endpoint} : r.apply e = .ok e' ↔
    (∀ t ∈ r.provider, t = e.provider) ∧ e' = r.merge e ∧ e'.refusal? = none := by
  rw [← changesProvider_eq_false_iff]
  constructor
  · intro applied
    refine ⟨Bool.eq_false_iff.mpr fun changes => ?_, (eq_merge_of_apply applied).1,
      refusal_of_apply applied⟩
    simp [apply, changes] at applied
  · rintro ⟨same, rfl, valid⟩
    simp [apply, same, valid]

/-- Two edits that are made one after the other are made by one that says the same of the
provider, or nothing. -/
theorem apply_followedBy {r r' : Edit} {e e' e'' : Endpoint} (applied : r.apply e = .ok e')
    (applied' : r'.apply e' = .ok e'') {t : Option Provider} (kept : ∀ u ∈ t, u = e.provider) :
    { r.followedBy r' with provider := t }.apply e = .ok e'' := by
  obtain ⟨-, rfl, -⟩ := apply_eq_ok_iff.mp applied
  obtain ⟨-, rfl, valid⟩ := apply_eq_ok_iff.mp applied'
  exact apply_eq_ok_iff.mpr ⟨kept, merge_merge r r' e, valid⟩

theorem provider_followedBy {r r' : Edit} {e e' e'' : Endpoint} (applied : r.apply e = .ok e')
    (applied' : r'.apply e' = .ok e'') : ∀ u ∈ (r.followedBy r').provider, u = e.provider := by
  obtain ⟨first, rfl, -⟩ := apply_eq_ok_iff.mp applied
  obtain ⟨second, -, -⟩ := apply_eq_ok_iff.mp applied'
  intro u hu
  rcases Option.or_eq_some_iff.mp hu with hu | ⟨-, hu⟩
  · exact second u hu
  · exact first u hu

theorem apply_again {r : Edit} {e e' : Endpoint} (applied : r.apply e = .ok e') :
    r.apply e' = .ok e' := by
  obtain ⟨kept, rfl, valid⟩ := apply_eq_ok_iff.mp applied
  refine apply_eq_ok_iff.mpr ⟨kept, ?_, valid⟩
  rw [merge_merge, followedBy_self]

/-- What an edit comes to, for every record and whether it meets the rules or not. The edit is
refused exactly if it names another provider or what it makes of the record breaks a rule. One that
is made gives that record, which meets the rules; made again it gives the same record, and with the
edit that is made next it is as good as the two in one, as long as that names no other provider. -/
theorem edits_settle (r : Edit) (e : Endpoint) :
    ∃ m, (∀ e', Merged r e e' ↔ e' = m) ∧
      ((∃ why, r.apply e = .error why) ↔
        (∃ t, r.provider = some t ∧ t ≠ e.provider) ∨ m.refusal? ≠ none) ∧
      ∀ e', r.apply e = .ok e' → Merged r e e' ∧ e'.refusal? = none ∧ r.apply e' = .ok e' ∧
        ∀ r' e'', r'.apply e' = .ok e'' → (r.followedBy r').apply e = .ok e'' ∧
          ∀ t, (∀ u ∈ t, u = e.provider) →
            { r.followedBy r' with provider := t }.apply e = .ok e'' := by
  refine ⟨r.merge e, fun e' => merged_iff, apply_eq_error_iff, fun e' applied => ?_⟩
  obtain ⟨-, merged, valid⟩ := apply_eq_ok_iff.mp applied
  refine ⟨merged_iff.mpr merged, valid, apply_again applied, fun r' e'' applied' => ⟨?_, ?_⟩⟩
  · exact apply_followedBy applied applied' (provider_followedBy applied applied')
  · exact fun t kept => apply_followedBy applied applied' kept

def unnamed : Endpoint where
  id := "m"
  name := ""
  provider := .openai
  model := "gpt"
  apiBase := none
  apiKey := "key"
  isDefault := true

/-- The record is given a name and then a place, with a blank name that changes nothing. -/
theorem edits_settle_unnamed : ∃ e' e'',
    unnamed.refusal? ≠ none ∧
    (⟨none, some " alias", some "", none, none⟩ : Edit).apply unnamed = .ok e' ∧
    (⟨some .openai, some "\t", none, some "http://host", none⟩ : Edit).apply e' = .ok e'' ∧
    (⟨none, some " alias", some "", none, none⟩ : Edit).apply e' = .ok e' ∧
    (⟨none, some " alias", some "", some "http://host", none⟩ : Edit).apply unnamed = .ok e'' := by
  obtain ⟨m, -, -, settles⟩ := edits_settle ⟨none, some " alias", some "", none, none⟩ unnamed
  obtain ⟨-, -, again, composed⟩ := settles _ rfl
  have both := (composed ⟨some .openai, some "\t", none, some "http://host", none⟩ _ rfl).2
    none (fun u hu => by cases hu)
  exact ⟨_, _, by decide, rfl, rfl, again, both⟩

end Edit
end EndpointHealth
