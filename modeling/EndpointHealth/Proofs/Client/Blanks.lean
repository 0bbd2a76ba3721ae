import EndpointHealth.Client.RegistryTester
import EndpointHealth.Proofs.Http.Validity
import Mathlib.Data.List.DropRight
set_option autoImplicit false

/-!
Fields of white space. To the rules for endpoints they are as good as missing, and neither a
registration nor an edit brings them into the registry; but seeds are stored as they are, and a
client takes a field for missing only if it is empty.

Main statement: an endpoint in the registry is asked where and for what it would be without its
blank fields, exactly if none of them is of white space, and those that are of white space come from
seeds (`blanks_count_iff`).
-/

namespace EndpointHealth

open Text (isBlank nonBlank? isSpace)

/-- A text of white space, and some of it. -/
def IsWhite (s : String) : Prop := s ≠ "" ∧ isBlank s = true

/-- An endpoint without its blank fields. -/
def Endpoint.tidy (e : Endpoint) : Endpoint :=
  { e with model := (nonBlank? e.model).getD "", apiBase := e.apiBase.bind nonBlank? }

/-- An endpoint with a field of white space that it could do without. -/
def Endpoint.HasWhite (e : Endpoint) : Prop := IsWhite e.model ∨ ∃ s ∈ e.apiBase, IsWhite s

/-! ### Texts -/

theorem not_isWhite_of_filled {s : String} (filled : isBlank s = false) : ¬ IsWhite s := fun h => by
  rw [h.2] at filled
  cases filled

theorem not_isWhite_of_given {new : Option String} {s : String}
    (given : new.bind nonBlank? = some s) : ¬ IsWhite s := by
  obtain ⟨t, -, filled⟩ := Option.bind_eq_some_iff.mp given
  unfold nonBlank? at filled
  split at filled
  · cases filled
  · rename_i h
    cases filled
    exact not_isWhite_of_filled (by simpa using h)

theorem dropWhile_eq_nil_of_all {cs : List Char}
    (h : (cs.dropWhile isSpace).all isSpace = true) : cs.dropWhile isSpace = [] := by
  rw [← List.dropWhile_idempotent]
  exact (Text.dropWhile_eq_nil_iff_all isSpace _).mpr h

theorem not_isWhite_trim (s : String) : ¬ IsWhite (Text.trim s) := by
  rintro ⟨filled, blank⟩
  refine filled ?_
  have blank : (Text.trimChars s.toList).all isSpace = true := by
    rwa [isBlank, Text.trim, String.toList_ofList] at blank
  unfold Text.trimChars at blank
  rw [List.all_reverse] at blank
  rw [Text.trim, Text.trimChars, dropWhile_eq_nil_of_all blank]
  rfl

/-! ### The aim of a client -/

theorem filter_of_filled {s : String} (filled : s ≠ "") :
    (some s).filter (· ≠ "") = some s := by
  rw [Option.filter_some, if_pos (decide_eq_true filled)]

theorem bind_nonBlank_of_clean {base : Option String} (clean : ∀ s ∈ base, ¬ IsWhite s) :
    base.bind nonBlank? = base.filter (· ≠ "") := by
  cases base with
  | none => rfl
  | some s =>
    have clean := clean s rfl
    show nonBlank? s = (some s).filter (· ≠ "")
    unfold nonBlank?
    by_cases empty : s = ""
    · subst empty
      rfl
    · have filled : isBlank s = false := by
        by_contra blank
        exact clean ⟨empty, by simpa using blank⟩
      rw [filter_of_filled empty, filled]
      rfl

theorem isBlank_targetModel_iff {e : Endpoint} (valid : e.refusal? = none) :
    isBlank e.targetModel = true ↔ IsWhite e.model := by
  obtain ⟨name, -⟩ := (refusal?_eq_none_iff e).mp valid
  unfold Endpoint.targetModel IsWhite
  by_cases empty : e.model = ""
  · simp [empty, name]
  · simp [empty]

theorem targetModel_tidy_iff {e : Endpoint} (valid : e.refusal? = none) :
    e.tidy.targetModel = e.targetModel ↔ ¬ IsWhite e.model := by
  obtain ⟨name, -⟩ := (refusal?_eq_none_iff e).mp valid
  constructor
  · intro same white
    have blank := (isBlank_targetModel_iff valid).mpr white
    rw [← same] at blank
    have tidied : e.tidy.targetModel = e.name := by
      simp [Endpoint.targetModel, Endpoint.tidy, nonBlank?, white.2]
    rw [tidied, name] at blank
    cases blank
  · intro clean
    by_cases blank : isBlank e.model = true
    · have empty : e.model = "" := by
        by_contra filled
        exact clean ⟨filled, blank⟩
      have none : (nonBlank? "").getD "" = "" := rfl
      simp [Endpoint.targetModel, Endpoint.tidy, empty, none]
    · simp [Endpoint.targetModel, Endpoint.tidy, nonBlank?, blank]

theorem needsApiBase_of_white {e : Endpoint} (valid : e.refusal? = none) {s : String}
    (base : e.apiBase = some s) (white : IsWhite s) : e.provider.needsApiBase = false := by
  by_contra needed
  obtain ⟨-, -, needs, -⟩ := (refusal?_eq_none_iff e).mp valid
  obtain ⟨t, given⟩ := needs (by simpa using needed)
  rw [base, show (some s).bind nonBlank? = none from if_pos white.2] at given
  cases given

namespace Client

variable {ν : Type}

/-- Where a client asks for what an endpoint is said to be. -/
def address (e : Endpoint) : String :=
  if e.provider = .anthropic then Messages.address e else Chat.address e

/-- What an endpoint decides of a call apart from its key: where it goes, and the model that it asks
for. -/
def aim (e : Endpoint) : String × String := (address e, e.targetModel)

theorem address_tidy {e : Endpoint} (clean : ∀ s ∈ e.apiBase, ¬ IsWhite s)
    (model : e.tidy.targetModel = e.targetModel) : address e.tidy = address e := by
  have base : e.tidy.apiBase = e.apiBase.filter (· ≠ "") := bind_nonBlank_of_clean clean
  have filtered : e.tidy.apiBase.filter (· ≠ "") = e.apiBase.filter (· ≠ "") := by
    rw [base, Option.filter_filter]
    simp
  have kept : e.tidy.apiBase.getD "" = e.apiBase.getD "" := by
    rw [base]
    cases e.apiBase with
    | none => rfl
    | some s =>
      by_cases empty : s = ""
      · rw [empty]
        rfl
      · rw [filter_of_filled empty]
  have azure : Chat.isAzure e.tidy = Chat.isAzure e := rfl
  unfold address Messages.address Chat.address
  rw [filtered, kept, model, azure]
  rfl

/-! ### White addresses -/

theorem mem_of_mem_dropRepeated {p cs : List Char} {c : Char} (h : c ∈ dropRepeated p cs) :
    c ∈ cs := by
  fun_induction dropRepeated p cs with
  | case1 cs _ ih => exact List.mem_of_mem_drop (ih h)
  | case2 => exact h

theorem mem_of_mem_dropRepeatedEnd {p cs : List Char} {c : Char}
    (h : c ∈ dropRepeatedEnd p cs) : c ∈ cs := by
  unfold dropRepeatedEnd at h
  simpa using mem_of_mem_dropRepeated (List.mem_reverse.mp h)

theorem no_colon_of_white {s : String} (white : IsWhite s) : ':' ∉ s.toList := fun h => by
  cases (List.all_eq_true.mp white.2 _ h : isSpace ':' = true)

theorem isAzure_of_dispensable {e : Endpoint} (dispensable : e.provider.needsApiBase = false) :
    Chat.isAzure e = false := by
  unfold Chat.isAzure
  cases same : e.provider <;> simp_all [Provider.needsApiBase]

/-- Below a base that is white there is no scheme. -/
theorem no_colon_in_address {e : Endpoint} (valid : e.refusal? = none) {s : String}
    (base : e.apiBase = some s) (white : IsWhite s) : ':' ∉ (address e).toList := by
  have dispensable := needsApiBase_of_white valid base white
  have kept : e.apiBase.filter (· ≠ "") = some s := by rw [base, filter_of_filled white.1]
  have colon := no_colon_of_white white
  have other := isAzure_of_dispensable dispensable
  unfold address Messages.address Chat.address
  rw [kept, other]
  split
  · have version : ':' ∉ "/v1/messages".toList := by decide
    intro h
    unfold Messages.addressBelow at h
    rw [String.toList_append, String.toList_ofList] at h
    rcases List.mem_append.mp h with h | h
    · exact colon (mem_of_mem_dropRepeatedEnd (mem_of_mem_dropRepeatedEnd h))
    · exact version h
  · have suffix : ':' ∉ "/chat/completions".toList := by decide
    intro h
    rcases List.mem_append.mp (String.toList_append ▸ h) with h | h
    · exact colon h
    · exact suffix h

theorem colon_in_address {e : Endpoint} (usual : e.apiBase = none)
    (dispensable : e.provider.needsApiBase = false) : ':' ∈ (address e).toList := by
  have messages : ':' ∈ Messages.usualAddress.toList := by decide
  have chat : ':' ∈ (Chat.usualBase ++ "/chat/completions").toList := by decide
  have other := isAzure_of_dispensable dispensable
  unfold address Messages.address Chat.address
  rw [usual, other]
  split
  · exact messages
  · exact chat

theorem ofText?_of_no_colon {s : String} (colon : ':' ∉ s.toList) : Url.ofText? s = none := by
  have kept : ':' ∉ Url.cleaned s.toList := fun h => colon <| by
    unfold Url.cleaned at h
    have h := List.mem_reverse.mp (List.mem_filter.mp h).1
    have h := List.mem_reverse.mp ((List.dropWhile_sublist _).mem h)
    exact (List.dropWhile_sublist _).mem h
  have none : Url.scheme? (Url.cleaned s.toList) = none := by
    have rest : (Url.cleaned s.toList).dropWhile (· ≠ ':') = [] :=
      List.dropWhile_eq_nil_iff.mpr fun c hc => decide_eq_true fun same => kept (same ▸ hc)
    unfold Url.scheme? Url.cut
    rw [rest]
    cases Url.cleaned s.toList <;> rfl
  unfold Url.ofText?
  rw [none]
  rfl

/-! ### Asking -/

theorem complete_tidy {e : Endpoint} (same : aim e.tidy = aim e) (n : Network ν) (r : TestRequest)
    (start : Nat) (s : ν) : complete n e.tidy r start s = complete n e r start s := by
  obtain ⟨place, model⟩ := Prod.mk.inj same
  have provider : e.tidy.provider = e.provider := rfl
  unfold complete
  unfold address at place
  rw [provider] at place ⊢
  split
  · rename_i messages
    rw [if_pos messages, if_pos messages] at place
    have call : Messages.call e.tidy r = Messages.call e r := by
      unfold Messages.call Messages.body
      rw [place, model]
      rfl
    unfold Messages.ask
    rw [call]
  · rename_i chat
    rw [if_neg chat, if_neg chat] at place
    have call : Chat.call e.tidy r = Chat.call e r := by
      unfold Chat.call Chat.body
      rw [place, model]
      rfl
    unfold Chat.ask
    rw [call]
    rfl

theorem complete_of_no_url {e : Endpoint} (unplaced : Url.ofText? (address e) = none)
    (n : Network ν) (r : TestRequest) (start : Nat) (s : ν) : (complete n e r start s).2 = s := by
  have unlocated : locate (address e) = .error (.notBuilt none) := by
    unfold locate
    rw [unplaced]
  unfold complete
  unfold address at unlocated
  split
  · rename_i messages
    rw [if_pos messages] at unlocated
    have call : Messages.call e r = .error (.notBuilt none) := by
      unfold Messages.call
      rw [unlocated]
      rfl
    unfold Messages.ask
    rw [call]
  · rename_i chat
    rw [if_neg chat] at unlocated
    have call : Chat.call e r = .error (.notBuilt none) := by
      unfold Chat.call
      rw [unlocated]
      rfl
    unfold Chat.ask
    rw [call]
    split <;> rfl

/-- A client aims where it would without the blank fields, exactly if none of them is white. -/
theorem aim_tidy_iff {e : Endpoint} (valid : e.refusal? = none) :
    aim e.tidy = aim e ↔ ¬ e.HasWhite := by
  constructor
  · rintro same (white | ⟨s, base, white⟩)
    · exact (targetModel_tidy_iff valid).mp (congrArg Prod.snd same) white
    · have base : e.apiBase = some s := base
      have usual : e.tidy.apiBase = none := by
        show e.apiBase.bind nonBlank? = none
        rw [base]
        exact if_pos white.2
      have dispensable : e.provider.needsApiBase = false := needsApiBase_of_white valid base white
      have colon : ':' ∈ (address e.tidy).toList := colon_in_address usual dispensable
      rw [show address e.tidy = address e from congrArg Prod.fst same] at colon
      exact no_colon_in_address valid base white colon
  · intro clean
    have model := (targetModel_tidy_iff valid).mpr fun white => clean (.inl white)
    have place := address_tidy (fun s hs white => clean (.inr ⟨s, hs, white⟩)) model
    exact Prod.ext place model

end Client

/-! ### Where white fields come from -/

/-- A field of an endpoint has been seeded as it is. -/
def Chronicle.Seeded {α : Type} (h : Chronicle) (field : Endpoint → α) (e : Endpoint) : Prop :=
  ∃ seeds, .started seeds ∈ h ∧ ∃ f ∈ Book.accepted seeds, f.id = e.id ∧ field f = field e

/-- All white fields of an endpoint have been seeded as they are. -/
structure Chronicle.SeedsWhite (h : Chronicle) (e : Endpoint) : Prop where
  model : IsWhite e.model → h.Seeded (·.model) e
  base : ∀ s ∈ e.apiBase, IsWhite s → h.Seeded (·.apiBase) e

theorem Chronicle.seedsWhite_merge {h : Chronicle} {e : Endpoint} (seeded : h.SeedsWhite e)
    (req : Edit) : h.SeedsWhite (req.merge e) where
  model white := by
    have model : (req.merge e).model = (req.model.bind nonBlank?).getD e.model := rfl
    cases given : req.model.bind nonBlank? with
    | some s =>
      rw [model, given] at white
      exact absurd white (not_isWhite_of_given given)
    | none =>
      have model : (req.merge e).model = e.model := by rw [model, given]; rfl
      obtain ⟨seeds, done, f, accepted, same, hf⟩ := seeded.model (model ▸ white)
      exact ⟨seeds, done, f, accepted, same, hf.trans model.symm⟩
  base s base white := by
    have bases : (req.merge e).apiBase = (req.apiBase.bind nonBlank?).or e.apiBase := rfl
    cases given : req.apiBase.bind nonBlank? with
    | some t =>
      rw [bases, given] at base
      cases base
      exact absurd white (not_isWhite_of_given given)
    | none =>
      have bases : (req.merge e).apiBase = e.apiBase := by rw [bases, given]; rfl
      obtain ⟨seeds, done, f, accepted, same, hf⟩ := seeded.base s (bases ▸ base) white
      exact ⟨seeds, done, f, accepted, same, hf.trans bases.symm⟩

/-- Neither a registration nor an edit makes a field white. -/
theorem Chronicle.seedsWhite_records (h : Chronicle) : ∀ e ∈ h.book.records, h.SeedsWhite e := by
  refine forall_records (fun seeds done e accepted => ?_) (fun id req _ => ?_)
    fun req e seeded => seedsWhite_merge seeded req
  · exact ⟨fun _ => ⟨seeds, done, e, accepted, rfl, rfl⟩,
      fun _ _ _ => ⟨seeds, done, e, accepted, rfl, rfl⟩⟩
  · exact ⟨fun white => absurd white (not_isWhite_trim req.model),
      fun s given white => absurd white (not_isWhite_of_given given)⟩

namespace Client

open Service (Confined)
open Http (Served)

variable {τ : Type} {p : Service.Prober τ} {w : Service.State τ} {h : Chronicle}

/-- To a client a blank field of an endpoint in the registry is as good as none, exactly if it is
not white. Below a white base nothing can be sent; and what is white has been seeded. -/
theorem blanks_count_iff (confined : Confined p) (served : Served p h w) :
    ∃ es, w.env.registry.list = .ok es ∧ ∀ e ∈ es,
      (aim e.tidy = aim e ↔ ¬ e.HasWhite) ∧
      (isBlank e.targetModel = true ↔ IsWhite e.model) ∧
      (¬ e.HasWhite → ∀ (ν : Type) (n : Network ν) r start s,
        complete n e.tidy r start s = complete n e r start s) ∧
      (∀ t ∈ e.apiBase, IsWhite t → Url.ofText? (address e) = none ∧
        ∀ (ν : Type) (n : Network ν) r start s, (complete n e r start s).2 = s) ∧
      h.SeedsWhite e := by
  obtain ⟨lawful, holds⟩ := Http.holds_of_served confined served
  refine ⟨h.book.list, by rw [holds.registry, Book.list_registry], fun e he => ?_⟩
  obtain ⟨old, hold, rfl⟩ := List.mem_map.mp he
  have valid : (h.book.shown old).refusal? = none := Chronicle.valid_records lawful old hold
  have seeded : h.SeedsWhite old := Chronicle.seedsWhite_records h old hold
  refine ⟨aim_tidy_iff valid, isBlank_targetModel_iff valid, fun clean ν n r start s => ?_,
    fun t base white => ?_, ⟨seeded.model, seeded.base⟩⟩
  · exact complete_tidy ((aim_tidy_iff valid).mpr clean) n r start s
  · have unplaced := ofText?_of_no_colon (no_colon_in_address valid base white)
    exact ⟨unplaced, fun ν n r start s => complete_of_no_url unplaced n r start s⟩

def blankEndpoint (blank : String) : Endpoint :=
  { claimant "a" with model := blank, apiBase := some blank }

/-- Empty fields are as good as none. -/
theorem blanks_count_iff_empty : ∃ w, Served Http.slow [.started [blankEndpoint ""]] w ∧
    w.env.registry.list = .ok [blankEndpoint ""] ∧
    (blankEndpoint "").tidy ≠ blankEndpoint "" ∧
    aim (blankEndpoint "").tidy = aim (blankEndpoint "") := by
  have started := (Served.empty (p := Http.slow) ()).started [blankEndpoint ""] rfl () []
  obtain ⟨es, listed, count⟩ := blanks_count_iff Http.confined_slow started
  cases (show Except.ok [blankEndpoint ""] = Except.ok es from listed)
  refine ⟨_, started, rfl, by decide, (count _ (List.mem_singleton_self _)).1.mpr ?_⟩
  rintro (white | ⟨s, base, white⟩)
  · exact white.1 rfl
  · cases base
    exact white.1 rfl

/-- A blank is stored as it is seeded, and a client takes it for a base and for a model. -/
theorem blank_seed_counts : ∃ w, Served Http.slow [.started [blankEndpoint " "]] w ∧
    w.env.registry.list = .ok [blankEndpoint " "] ∧
    aim (blankEndpoint " ") = (" /chat/completions", " ") ∧
    aim (blankEndpoint " ").tidy = ("https://api.openai.com/v1/chat/completions", "alias") := by
  have started := (Served.empty (p := Http.slow) ()).started [blankEndpoint " "] rfl () []
  exact ⟨_, started, rfl, by decide, by decide⟩

end Client
end EndpointHealth
