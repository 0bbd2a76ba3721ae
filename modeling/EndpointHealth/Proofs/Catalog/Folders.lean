import EndpointHealth.Proofs.Catalog.Documents
import Mathlib.Data.List.Perm.Basic
set_option autoImplicit false

/-!
Catalogs of folders: all JSON files are read one after the other, and then their endpoints are
merged (`ofFolder_eq`).

Main statement: if no two documents have an id in common, it does not matter in which order a folder
gives its entries, and files that are not JSON files never matter (`ofFolder_any_order`).
-/

namespace EndpointHealth

/-! ### Files in another order -/

namespace FileTree

variable {α : Type}

theorem entryAt?_isSome (name : String) (es : List (String × FileTree α)) :
    (entryAt? name es).isSome ↔ name ∈ es.map (·.1) := by
  induction es with
  | nil => simp [entryAt?]
  | cons e es ih =>
    by_cases h : e.1 = name
    · simp [entryAt?, h]
    · simp [entryAt?, h, Ne.symm h, ih]

/-- The same files, in folders that give their entries in any order. -/
inductive Rearranged : FileTree α → FileTree α → Prop
  | file (content : Bytes) : Rearranged (.file content) (.file content)
  | store (content : α) : Rearranged (.store content) (.store content)
  | folder {es fs : List (String × FileTree α)} (names : (es.map (·.1)).Perm (fs.map (·.1)))
      (entries : ∀ name t u, entryAt? name es = some t → entryAt? name fs = some u →
        Rearranged t u) : Rearranged (.folder es) (.folder fs)

theorem mem_of_entryAt? {name : String} {es : List (String × FileTree α)} {t : FileTree α}
    (h : entryAt? name es = some t) : (name, t) ∈ es := by
  induction es with
  | nil => cases h
  | cons e es ih =>
    obtain ⟨n, u⟩ := e
    unfold entryAt? at h
    split at h
    · rename_i same
      cases h
      exact same ▸ List.mem_cons_self ..
    · exact List.mem_cons_of_mem _ (ih h)

theorem Rearranged.refl : (t : FileTree α) → Rearranged t t
  | .file content => .file content
  | .store content => .store content
  | .folder es => .folder (.refl _) fun name t u here there => by
      have inside := mem_of_entryAt? here
      cases here.symm.trans there
      exact Rearranged.refl t
termination_by t => sizeOf t
decreasing_by
  have smaller := List.sizeOf_lt_of_mem inside
  simp only [Prod.mk.sizeOf_spec, folder.sizeOf_spec] at smaller ⊢
  omega

theorem rearranged_of_perm {es fs : List (String × FileTree α)} (perm : es.Perm fs)
    (nodup : (es.map (·.1)).Nodup) : Rearranged (.folder es) (.folder fs) := by
  refine .folder (perm.map _) fun name t u here there => ?_
  have same := List.inj_on_of_nodup_map nodup (mem_of_entryAt? here)
    (perm.mem_iff.mpr (mem_of_entryAt? there)) rfl
  cases same
  exact .refl t

/-- Two looks at files fail alike, or find the same files. -/
def Alike (x y : Except FileFault (FileTree α)) : Prop :=
  (∃ f, x = .error f ∧ y = .error f) ∨ ∃ t u, x = .ok t ∧ y = .ok u ∧ Rearranged t u

theorem alike_error (f : FileFault) : Alike (α := α) (.error f) (.error f) := .inl ⟨f, rfl, rfl⟩

theorem alike_ok {t u : FileTree α} (same : Rearranged t u) : Alike (.ok t) (.ok u) :=
  .inr ⟨t, u, rfl, rfl, same⟩

/-- Names lead to the same files, from any place and back up. -/
theorem follow_alike {t u : FileTree α} (same : Rearranged t u) {above above' : List (FileTree α)}
    (outer : List.Forall₂ Rearranged above above') (names : List String) :
    Alike (follow names t above) (follow names u above') := by
  induction names generalizing t u above above' with
  | nil => exact alike_ok same
  | cons name rest ih =>
    cases same with
    | file | store => exact alike_error _
    | @folder es fs names entries =>
      have here := Rearranged.folder names entries
      unfold follow
      split
      · exact ih here outer
      split
      · cases outer with
        | nil => exact ih here .nil
        | cons first outer => exact ih first outer
      split
      · exact alike_error _
      · have held := (entryAt?_isSome name es).trans (names.mem_iff.trans
          (entryAt?_isSome name fs).symm)
        cases hes : entryAt? name es with
        | none =>
          cases hfs : entryAt? name fs with
          | none => exact alike_error _
          | some w => simp [hes, hfs] at held
        | some v =>
          cases hfs : entryAt? name fs with
          | none => simp [hes, hfs] at held
          | some w => exact ih (entries name v w hes hfs) (.cons here outer)

variable {tree tree' : FileTree α}

theorem find_alike (same : Rearranged tree tree') (path : String) :
    Alike (tree.find path) (tree'.find path) := by
  unfold find
  split
  · exact alike_error _
  split
  · exact alike_error _
  split
  · exact alike_error _
  split
  · exact alike_error _
  · exact follow_alike same .nil _

theorem Rearranged.readText (same : Rearranged tree tree') (path : String) :
    tree.readText path = tree'.readText path := by
  unfold FileTree.readText
  rcases find_alike same path with ⟨f, here, there⟩ | ⟨t, u, here, there, same⟩
  · rw [here, there]
  · rw [here, there]
    cases same <;> rfl

theorem list_rearranged (same : Rearranged tree tree') {path : String} {names : List String}
    (listed : tree.list path = .ok names) :
    ∃ names', tree'.list path = .ok names' ∧ names.Perm names' := by
  unfold list at listed ⊢
  rcases find_alike same path with ⟨f, here, there⟩ | ⟨t, u, here, there, same⟩
  · rw [here] at listed
    cases listed
  · rw [here] at listed
    rw [there]
    cases same with
    | file | store => cases listed
    | folder names =>
      cases listed
      exact ⟨_, rfl, names⟩

theorem Rearranged.symm {t u : FileTree α} (same : Rearranged t u) : Rearranged u t := by
  induction same with
  | file content => exact .file content
  | store content => exact .store content
  | folder names _ ih => exact .folder names.symm fun name t u hfs hes => ih name u t hes hfs

end FileTree

/-! ### Folders -/

theorem mapM_eq_ok_iff {ε β γ : Type} {f : β → Except ε γ} {xs : List β} {ys : List γ} :
    xs.mapM f = .ok ys ↔ List.Forall₂ (fun x y => f x = .ok y) xs ys := by
  induction xs generalizing ys with
  | nil => exact ⟨fun h => by cases h; exact .nil, fun h => by cases h; rfl⟩
  | cons x xs ih =>
    rw [List.mapM_cons]
    constructor
    · intro h
      obtain ⟨y, hy, h⟩ := ok_of_bind h
      obtain ⟨ys, hys, h⟩ := ok_of_bind h
      cases h
      exact .cons hy (ih.mp hys)
    · rintro (_ | ⟨hy, hys⟩)
      rw [hy, ih.mpr hys]
      rfl

namespace Catalog

variable {α : Type} {tree tree' : FileTree α} {folder : String} {names names' : List String}
  {docs : List (List Endpoint)} {c : Catalog}

def documentNames (names : List String) : List String :=
  names.filter fun name => FileTree.extension? name = some "json"

def documentAt (tree : FileTree α) (path : String) : Except SettingsError (List Endpoint) :=
  match tree.readText path with
  | .error f => .error (.file path f)
  | .ok doc =>
    match endpointsOfDocument doc with
    | .error f => .error (.document (f.message doc))
    | .ok es => .ok es

def documentsAt (tree : FileTree α) (folder : String) (names : List String) :
    Except SettingsError (List (List Endpoint)) :=
  (documentNames names).mapM fun name => documentAt tree (FileTree.join folder name)

/-- The endpoints of the documents in a folder, document by document. -/
def documentsIn (tree : FileTree α) (folder : String) :
    Except SettingsError (List (List Endpoint)) :=
  match tree.list folder with
  | .error f => .error (.file folder f)
  | .ok names => documentsAt tree folder names

theorem documentsAt_cons (tree : FileTree α) (folder name : String) (names : List String) :
    documentsAt tree folder (name :: names) =
      if FileTree.extension? name = some "json" then do
        let es ← documentAt tree (FileTree.join folder name)
        let docs ← documentsAt tree folder names
        .ok (es :: docs)
      else documentsAt tree folder names := by
  unfold documentsAt documentNames
  rw [List.filter_cons]
  by_cases json : FileTree.extension? name = some "json"
  · rw [if_pos json, if_pos (decide_eq_true json), List.mapM_cons]
    rfl
  · rw [if_neg json, if_neg (mt of_decide_eq_true json)]

theorem extendFrom_eq (c : Catalog) (names : List String) :
    c.extendFrom tree folder names =
      (documentsAt tree folder names).map fun docs => docs.foldl merge c := by
  induction names generalizing c with
  | nil => rfl
  | cons name names ih =>
    unfold extendFrom
    rw [List.foldlM_cons, documentsAt_cons]
    by_cases json : FileTree.extension? name = some "json"
    · rw [if_pos json, if_pos json, documentAt]
      dsimp only
      cases tree.readText (FileTree.join folder name) with
      | error f => rfl
      | ok doc =>
        dsimp only
        rw [extend]
        cases endpointsOfDocument doc with
        | error f => rfl
        | ok es =>
          show extendFrom tree folder (c.merge es) names = _
          rw [ih]
          cases documentsAt tree folder names <;> rfl
    · rw [if_neg json, if_neg json]
      exact ih c

/-- The catalog of a folder is what is merged of its documents, one after the other. -/
theorem ofFolder_eq (tree : FileTree α) (folder : String) :
    ofFolder tree folder = (documentsIn tree folder).map fun docs => docs.foldl merge empty := by
  unfold ofFolder documentsIn
  cases tree.list folder with
  | error f => rfl
  | ok names => exact extendFrom_eq empty names

theorem ofFolder_ofEndpoints (h : ofFolder tree folder = .ok c) : ∃ es, c = ofEndpoints es := by
  rw [ofFolder_eq] at h
  obtain ⟨docs, -, rfl⟩ := ok_of_map h
  exact ⟨docs.flatten, (merge_flatten empty docs).symm⟩

theorem documentsAt_congr (texts : ∀ name ∈ documentNames names,
      tree.readText (FileTree.join folder name) = tree'.readText (FileTree.join folder name)) :
    documentsAt tree folder names = documentsAt tree' folder names := by
  have each : (documentNames names).map (fun name => documentAt tree (FileTree.join folder name)) =
      (documentNames names).map fun name => documentAt tree' (FileTree.join folder name) := by
    refine List.map_congr_left fun name h => ?_
    rw [documentAt, documentAt, texts name h]
  rw [documentsAt, documentsAt, ← Function.id_comp fun name => documentAt tree _,
    ← Function.id_comp fun name => documentAt tree' _, ← List.mapM_map, ← List.mapM_map, each]

theorem documentsAt_perm (perm : (documentNames names).Perm (documentNames names'))
    (read : documentsAt tree folder names = .ok docs) :
    ∃ docs', documentsAt tree folder names' = .ok docs' ∧ docs.Perm docs' := by
  obtain ⟨docs', each, same⟩ := List.perm_comp_forall₂ perm.symm (mapM_eq_ok_iff.mp read)
  exact ⟨docs', mapM_eq_ok_iff.mpr each, same.symm⟩

/-- The documents of a folder are read in every order or in none. -/
theorem documentsIn_rearranged (same : tree.Rearranged tree')
    (read : documentsIn tree folder = .ok docs) :
    ∃ docs', documentsIn tree' folder = .ok docs' ∧ docs.Perm docs' := by
  unfold documentsIn at read ⊢
  cases listed : tree.list folder with
  | error f =>
    rw [listed] at read
    cases read
  | ok names =>
    rw [listed] at read
    obtain ⟨names', listed', perm⟩ := FileTree.list_rearranged same listed
    rw [listed']
    dsimp only at read ⊢
    rw [documentsAt_congr fun name _ => same.readText _] at read
    exact documentsAt_perm (perm.filter _) read

/-- The order in which folders give their entries does not matter to the catalog of a folder whose
documents have no id in common; and files that are not JSON files never matter. -/
theorem ofFolder_any_order (folder : String) (tree tree' : FileTree α) :
    (tree.Rearranged tree' →
      (∀ docs, documentsIn tree folder = .ok docs → docs.Pairwise Apart) →
      (ofFolder tree folder).toOption = (ofFolder tree' folder).toOption) ∧
    ∀ names names', tree.list folder = .ok names → tree'.list folder = .ok names' →
      documentNames names = documentNames names' →
      (∀ name ∈ documentNames names, tree.readText (FileTree.join folder name) =
        tree'.readText (FileTree.join folder name)) →
      ofFolder tree folder = ofFolder tree' folder := by
  refine ⟨fun same apart => ?_, fun names names' here there json texts => ?_⟩
  · rw [ofFolder_eq, ofFolder_eq]
    cases read : documentsIn tree folder with
    | ok docs =>
      -- The same documents are read in another order, which does not matter to the merge.
      obtain ⟨docs', read', perm⟩ := documentsIn_rearranged same read
      rw [read']
      exact congrArg some (foldl_merge_perm perm (apart docs read) inOrder_empty)
    | error why =>
      cases read' : documentsIn tree' folder with
      | error why' => rfl
      | ok docs' =>
        obtain ⟨docs, found, -⟩ := documentsIn_rearranged same.symm read'
        rw [read] at found
        cases found
  · have same : documentsIn tree folder = documentsIn tree' folder := by
      rw [documentsIn, documentsIn, here, there]
      dsimp only
      rw [documentsAt_congr texts, documentsAt, documentsAt, json]
    rw [ofFolder_eq, ofFolder_eq, same]

/-- The document of an endpoint, with its key. -/
def seedDocument (id name key : String) : Bytes :=
  Text.Utf8.ofText ("\x7b\"model_id\":\"" ++ id ++ "\",\"model_name\":\"" ++ name ++
    "\",\"model_type\":\"OPENAI\",\"api_key\":\"" ++ key ++ "\"\x7d")

def seedFiles : List (String × FileTree Unit) :=
  [("b.json", .file (seedDocument "b" "B" "")), ("a.Json", .file [0xFF]),
    ("a.json", .file (seedDocument "a" "A" ""))]

/-- The two documents may be read in either order, and the third file may be missing. -/
theorem ofFolder_any_order_reversed :
    (ofFolder (.folder seedFiles) ".").toOption =
      some ⟨[brief "a" "A" false, brief "b" "B" false]⟩ ∧
    (ofFolder (.folder seedFiles.reverse) ".").toOption =
      some ⟨[brief "a" "A" false, brief "b" "B" false]⟩ ∧
    ofFolder (.folder (seedFiles.eraseIdx 1)) "." = ofFolder (.folder seedFiles) "." := by
  have read : documentsIn (.folder seedFiles) "." =
      .ok [[brief "b" "B" false], [brief "a" "A" false]] := by
    decide +kernel
  have gathered : (ofFolder (.folder seedFiles) ".").toOption =
      some ⟨[brief "a" "A" false, brief "b" "B" false]⟩ := by
    rw [ofFolder_eq, read]
    rfl
  have same : (FileTree.folder seedFiles).Rearranged (.folder seedFiles.reverse) :=
    FileTree.rearranged_of_perm (List.reverse_perm _).symm (by decide)
  have apart : ∀ docs, documentsIn (.folder seedFiles) "." = .ok docs → docs.Pairwise Apart := by
    intro docs h
    cases read.symm.trans h
    simp [Apart, brief]
  have reversed := (ofFolder_any_order "." _ _).1 same apart
  refine ⟨gathered, reversed.symm.trans gathered, ?_⟩
  exact (ofFolder_any_order "." _ _).2 ["b.json", "a.json"] ["b.json", "a.Json", "a.json"]
    (by decide +kernel) (by decide +kernel) (by decide +kernel) (by decide +kernel)

end Catalog
end EndpointHealth
