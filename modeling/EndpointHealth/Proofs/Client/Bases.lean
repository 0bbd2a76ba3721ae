import EndpointHealth.Proofs.Client.Blanks
set_option autoImplicit false

/-!
Bases of the messages interface. What stands at the end of a base is dropped before the address is
built below it: first all slashes, then all versions, and neither is looked for again. A base should
so lose every slash and every version at its end, but a slash in front of a version stays.

Main statement: the address is built below a stem without slashes and versions at its end exactly if
the base has no version behind two slashes there; further slashes make no difference to the address,
and a further version makes none exactly if the base has no slash at its end
(`address_normal_iff`).
-/

namespace EndpointHealth.Client

def repeated (p : List Char) (n : ℕ) : List Char :=
  (List.replicate n p).flatten

variable {p cs : List Char}

theorem repeated_succ (p : List Char) (n : ℕ) : repeated p (n + 1) = p ++ repeated p n := by
  rw [repeated, List.replicate_succ, List.flatten_cons]
  rfl

theorem reverse_repeated (p : List Char) (n : ℕ) :
    (repeated p n).reverse = repeated p.reverse n := by
  unfold repeated
  rw [List.reverse_flatten, List.map_replicate, List.reverse_replicate]

/-! ### Taking away at the front -/

theorem eq_repeated_append_dropRepeated (p cs : List Char) :
    ∃ n, cs = repeated p n ++ dropRepeated p cs := by
  fun_induction dropRepeated p cs with
  | case1 cs found ih =>
    obtain ⟨n, rest⟩ := ih
    have front : cs = p ++ cs.drop p.length :=
      List.prefix_iff_eq_append.mp (List.isPrefixOf_iff_prefix.mp found.2) |>.symm
    refine ⟨n + 1, ?_⟩
    rw [repeated_succ, List.append_assoc, ← rest]
    exact front
  | case2 cs _ => exact ⟨0, rfl⟩

theorem not_prefix_dropRepeated (filled : p ≠ []) (cs : List Char) :
    ¬ p <+: dropRepeated p cs := by
  fun_induction dropRepeated p cs with
  | case1 cs _ ih => exact ih
  | case2 cs done => exact fun front => done ⟨filled, List.isPrefixOf_iff_prefix.mpr front⟩

theorem dropRepeated_of_not_prefix (done : ¬ p <+: cs) : dropRepeated p cs = cs := by
  rw [dropRepeated, dif_neg]
  exact fun found => done (List.isPrefixOf_iff_prefix.mp found.2)

theorem dropRepeated_repeated_append (filled : p ≠ []) (n : ℕ) (cs : List Char) :
    dropRepeated p (repeated p n ++ cs) = dropRepeated p cs := by
  induction n with
  | zero => rfl
  | succ n ih =>
    have found : p.isPrefixOf (p ++ (repeated p n ++ cs)) :=
      List.isPrefixOf_iff_prefix.mpr (List.prefix_append _ _)
    rw [repeated_succ, List.append_assoc, dropRepeated, dif_pos ⟨filled, found⟩,
      List.drop_left, ih]

/-! ### Taking away at the end -/

theorem eq_dropRepeatedEnd_append_repeated (p cs : List Char) :
    ∃ n, cs = dropRepeatedEnd p cs ++ repeated p n := by
  obtain ⟨n, front⟩ := eq_repeated_append_dropRepeated p.reverse cs.reverse
  refine ⟨n, ?_⟩
  have back := congrArg List.reverse front
  rwa [List.reverse_reverse, List.reverse_append, reverse_repeated, List.reverse_reverse] at back

theorem not_suffix_dropRepeatedEnd (filled : p ≠ []) (cs : List Char) :
    ¬ p <:+ dropRepeatedEnd p cs := by
  have front := not_prefix_dropRepeated (mt List.reverse_eq_nil_iff.mp filled) cs.reverse
  rwa [← List.reverse_suffix, List.reverse_reverse] at front

theorem dropRepeatedEnd_of_not_suffix (done : ¬ p <:+ cs) : dropRepeatedEnd p cs = cs := by
  rw [← List.reverse_prefix] at done
  rw [dropRepeatedEnd, dropRepeated_of_not_prefix done, List.reverse_reverse]

theorem dropRepeatedEnd_append_repeated (filled : p ≠ []) (n : ℕ) (cs : List Char) :
    dropRepeatedEnd p (cs ++ repeated p n) = dropRepeatedEnd p cs := by
  unfold dropRepeatedEnd
  rw [List.reverse_append, reverse_repeated,
    dropRepeated_repeated_append (mt List.reverse_eq_nil_iff.mp filled)]

namespace Messages

def slash : List Char := ['/']

/-- The version, as it stands at the end of a base. -/
def version : List Char := "/v1".toList

/-- The rest of a base is made up of slashes and versions. -/
def Tailed (base stem : List Char) : Prop :=
  ∃ parts : List (List Char), (∀ x ∈ parts, x = slash ∨ x = version) ∧
    base = stem ++ parts.flatten

/-- What a base should be cut down to: all slashes and versions at its end are gone. -/
structure Normal (base stem : List Char) : Prop where
  no_slash : ¬ slash <:+ stem
  no_version : ¬ version <:+ stem
  tailed : Tailed base stem

/-- A version behind two slashes, with further versions and then slashes at the end. -/
def Doubled (base : List Char) : Prop :=
  ∃ (front : List Char) (m n : ℕ),
    base = front ++ slash ++ repeated version (m + 1) ++ repeated slash n

/-- What an address is built below. -/
def stem (base : List Char) : List Char :=
  dropRepeatedEnd version (dropRepeatedEnd slash base)

/-! ### The stem of a base -/

theorem not_slash_of_version {cs : List Char} (h : version <:+ cs) : ¬ slash <:+ cs := by
  obtain ⟨front, rfl⟩ := h
  rintro ⟨other, same⟩
  have last := congrArg List.getLast? same
  simp [slash, version] at last

theorem not_suffix_version_append_slash (cs : List Char) : ¬ version <:+ cs ++ slash :=
  fun h => not_slash_of_version h (List.suffix_append _ _)

theorem suffix_version_repeated (front : List Char) (m : ℕ) :
    version <:+ front ++ repeated version (m + 1) := by
  have swap : repeated version (m + 1) = repeated version m ++ version := by
    unfold repeated
    rw [List.replicate_succ', List.flatten_append, List.flatten_cons, List.flatten_nil,
      List.append_nil]
  rw [swap, ← List.append_assoc]
  exact List.suffix_append _ _

theorem not_version_stem (base : List Char) : ¬ version <:+ stem base :=
  not_suffix_dropRepeatedEnd (by decide) _

/-- A base, its stem and what was dropped behind it. The slashes went first, so that there was none
at the end when the versions were dropped. -/
theorem eq_stem_append (base : List Char) :
    ∃ m n, base = stem base ++ repeated version m ++ repeated slash n ∧
      ¬ slash <:+ stem base ++ repeated version m := by
  obtain ⟨n, slashes⟩ := eq_dropRepeatedEnd_append_repeated slash base
  obtain ⟨m, versions⟩ := eq_dropRepeatedEnd_append_repeated version (dropRepeatedEnd slash base)
  have bare := not_suffix_dropRepeatedEnd (p := slash) (by decide) base
  rw [versions] at bare slashes
  exact ⟨m, n, slashes, bare⟩

theorem tailed_stem (base : List Char) : Tailed base (stem base) := by
  obtain ⟨m, n, parts, -⟩ := eq_stem_append base
  refine ⟨List.replicate m version ++ List.replicate n slash, ?_, ?_⟩
  · intro x hx
    rcases List.mem_append.mp hx with hx | hx
    · exact .inr (List.eq_of_mem_replicate hx)
    · exact .inl (List.eq_of_mem_replicate hx)
  · rw [List.flatten_append, ← List.append_assoc]
    exact parts

theorem stem_of_parts {front : List Char} {m : ℕ} (bare : ¬ slash <:+ front ++ repeated version m)
    (done : ¬ version <:+ front) (n : ℕ) :
    stem (front ++ repeated version m ++ repeated slash n) = front := by
  rw [stem, dropRepeatedEnd_append_repeated (by decide), dropRepeatedEnd_of_not_suffix bare,
    dropRepeatedEnd_append_repeated (by decide), dropRepeatedEnd_of_not_suffix done]

theorem stem_of_doubled (front : List Char) (m n : ℕ) :
    stem (front ++ slash ++ repeated version (m + 1) ++ repeated slash n) = front ++ slash :=
  stem_of_parts (not_slash_of_version (suffix_version_repeated (front ++ slash) m))
    (not_suffix_version_append_slash front) n

theorem slash_stem_iff (base : List Char) : slash <:+ stem base ↔ Doubled base := by
  constructor
  · rintro ⟨front, ends⟩
    obtain ⟨m, n, parts, bare⟩ := eq_stem_append base
    cases m with
    | zero =>
      have ends : slash <:+ stem base ++ repeated version 0 :=
        ⟨front, ends.trans (List.append_nil _).symm⟩
      exact absurd ends bare
    | succ m => exact ⟨front, m, n, by rw [ends]; exact parts⟩
  · rintro ⟨front, m, n, rfl⟩
    rw [stem_of_doubled]
    exact List.suffix_append _ _

theorem stem_append_slashes (base : List Char) (n : ℕ) :
    stem (base ++ repeated slash n) = stem base := by
  rw [stem, dropRepeatedEnd_append_repeated (by decide)]
  rfl

/-- A version more is dropped again, but it keeps the slashes in front of it. -/
theorem stem_append_version (base : List Char) :
    stem (base ++ version) = dropRepeatedEnd version base := by
  have kept := not_slash_of_version (List.suffix_append base version)
  have once : base ++ version = base ++ repeated version 1 := rfl
  rw [stem, dropRepeatedEnd_of_not_suffix kept, once, dropRepeatedEnd_append_repeated (by decide)]

theorem stem_append_version_iff (base : List Char) :
    stem (base ++ version) = stem base ↔ ¬ slash <:+ base := by
  rw [stem_append_version]
  constructor
  · rintro same ends
    have kept : dropRepeatedEnd version base = base :=
      dropRepeatedEnd_of_not_suffix fun h => not_slash_of_version h ends
    have whole : base = stem base := kept.symm.trans same
    -- So the stem ends in a slash, but then there is a version behind it that was dropped.
    rw [whole] at ends
    obtain ⟨front, m, n, parts⟩ := (slash_stem_iff base).mp ends
    have stem_eq : stem base = front ++ slash := by rw [parts, stem_of_doubled]
    have grown : front ++ slash =
        front ++ slash ++ (repeated version (m + 1) ++ repeated slash n) := by
      rw [← List.append_assoc, ← parts, whole, stem_eq]
    have nothing := List.append_eq_nil_iff.mp (List.self_eq_append_right.mp grown)
    rw [repeated_succ] at nothing
    exact absurd (List.append_eq_nil_iff.mp nothing.1).1 (by decide)
  · intro bare
    rw [stem, dropRepeatedEnd_of_not_suffix bare]

/-! ### Addresses -/

theorem address_of_base {e : Endpoint} {base : String} (given : e.apiBase = some base)
    (filled : base ≠ "") :
    (address e).toList = stem base.toList ++ "/v1/messages".toList := by
  unfold address
  rw [given, filter_of_filled filled]
  show (addressBelow base).toList = _
  rw [addressBelow, String.toList_append, String.toList_ofList]
  rfl

theorem address_eq_iff {e e' : Endpoint} {base base' : String} (given : e.apiBase = some base)
    (given' : e'.apiBase = some base') (filled : base ≠ "") (filled' : base' ≠ "") :
    address e' = address e ↔ stem base'.toList = stem base.toList := by
  rw [← String.toList_inj, address_of_base given filled, address_of_base given' filled',
    List.append_left_inj]

theorem filled_append {base : String} (filled : base ≠ "") (more : String) : base ++ more ≠ "" :=
  fun empty => filled (String.append_eq_empty_iff.mp empty).1

/-- The stem that the address of a base is built below is free of slashes and versions at its end
exactly if there is no version behind two slashes at the end of the base. More slashes at the end
change nothing, and one more version does so only behind a slash. -/
theorem address_normal_iff {e : Endpoint} {base : String} (given : e.apiBase = some base)
    (filled : base ≠ "") :
    (∃ p, (address e).toList = p ++ "/v1/messages".toList ∧
      ¬ version <:+ p ∧ Tailed base.toList p) ∧
    ((∃ p, (address e).toList = p ++ "/v1/messages".toList ∧ Normal base.toList p) ↔
      ¬ Doubled base.toList) ∧
    (∀ n, address { e with apiBase := some (base ++ String.ofList (repeated slash n)) } =
      address e) ∧
    (address { e with apiBase := some (base ++ String.ofList version) } = address e ↔
      ¬ slash <:+ base.toList) := by
  have below := address_of_base given filled
  refine ⟨⟨_, below, not_version_stem _, tailed_stem _⟩, ?_, fun n => ?_, ?_⟩
  · rw [← slash_stem_iff]
    constructor
    · rintro ⟨p, built, normal⟩
      have same : p = stem base.toList := List.append_cancel_right (built.symm.trans below)
      rw [← same]
      exact normal.no_slash
    · exact fun free => ⟨_, below, free, not_version_stem _, tailed_stem _⟩
  · rw [address_eq_iff given rfl filled (filled_append filled _), String.toList_append,
      String.toList_ofList]
    exact stem_append_slashes _ n
  · rw [address_eq_iff given rfl filled (filled_append filled _), String.toList_append,
      String.toList_ofList]
    exact stem_append_version_iff _

def gateway (base : String) : Endpoint :=
  { id := "m", name := "alias", provider := .anthropic, model := "claude", apiBase := some base
    apiKey := "key", isDefault := false }

theorem address_normal_iff_slashed :
    address (gateway "https://gateway.local/v1/") = "https://gateway.local/v1/messages" ∧
    (∃ p, (address (gateway "https://gateway.local/v1/")).toList = p ++ "/v1/messages".toList ∧
      Normal "https://gateway.local/v1/".toList p) ∧
    address (gateway "https://gateway.local/v1//") = "https://gateway.local/v1/messages" := by
  have cut : stem "https://gateway.local/v1/".toList = "https://gateway.local".toList := by
    have bare : ¬ slash <:+ "https://gateway.local".toList ++ repeated version 1 := by decide
    exact stem_of_parts bare (by decide) 1
  have built : address (gateway "https://gateway.local/v1/") =
      "https://gateway.local/v1/messages" := by
    rw [← String.toList_inj, address_of_base rfl (by decide), cut]
    rfl
  obtain ⟨-, normal, slashes, -⟩ :=
    address_normal_iff (e := gateway "https://gateway.local/v1/") rfl (by decide)
  refine ⟨built, normal.mpr ?_, (slashes 1).trans built⟩
  rw [← slash_stem_iff, cut]
  decide

/-- The slash in front of a version stays, so that no address is built below the normal stem, and
one version more behind a slash gives another address. -/
theorem slash_kept_before_version :
    address (gateway "https://gateway.local//v1") = "https://gateway.local//v1/messages" ∧
    address (gateway "https://gateway.local/") = "https://gateway.local/v1/messages" ∧
    ¬ ∀ (e : Endpoint) (base : String), e.apiBase = some base → base ≠ "" →
      ∃ p, (address e).toList = p ++ "/v1/messages".toList ∧ Normal base.toList p := by
  have cut : stem "https://gateway.local//v1".toList = "https://gateway.local/".toList :=
    stem_of_doubled "https://gateway.local".toList 0 0
  have built : (address (gateway "https://gateway.local//v1")).toList =
      "https://gateway.local/".toList ++ "/v1/messages".toList := by
    rw [address_of_base rfl (by decide), cut]
  refine ⟨String.toList_inj.mp built, ?_, fun every => ?_⟩
  · have cut : stem "https://gateway.local/".toList = "https://gateway.local".toList := by
      have bare : ¬ slash <:+ "https://gateway.local".toList ++ repeated version 0 := by decide
      exact stem_of_parts bare (by decide) 1
    rw [← String.toList_inj, address_of_base rfl (by decide), cut]
    rfl
  · obtain ⟨p, other, normal⟩ := every (gateway "https://gateway.local//v1") _ rfl (by decide)
    have same : p = "https://gateway.local/".toList :=
      List.append_cancel_right (other.symm.trans built)
    rw [same] at normal
    exact absurd normal.no_slash (by decide)

end Messages
end EndpointHealth.Client
