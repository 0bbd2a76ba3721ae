import EndpointHealth.Proofs.Registry.Ids
set_option autoImplicit false

/-!
Keys. All that the registry and the rules for endpoints ever make of a key is whether it is blank.

Main statements: what is done with hidden keys is what is done with the keys themselves, as far as
it can be seen with the keys hidden (`refusal?_hide`, `apply_hide`, `store_hide`, `edit_hide`,
`list_hide` and others).
-/

namespace EndpointHealth

/-- A key of which nothing is left but whether it is blank. -/
def hideKey (key : String) : String := if Text.isBlank key then "" else "*"

theorem isBlank_hideKey (key : String) : Text.isBlank (hideKey key) = Text.isBlank key := by
  unfold hideKey
  split
  · rename_i blank
    rw [blank]
    decide
  · rename_i given
    rw [Bool.eq_false_iff.mpr given]
    decide

theorem hideKey_eq_iff (key key' : String) :
    hideKey key = hideKey key' ↔ Text.isBlank key = Text.isBlank key' := by
  constructor
  · intro same
    rw [← isBlank_hideKey key, same, isBlank_hideKey]
  · intro same
    rw [hideKey, hideKey, same]

/-! ### Records -/

namespace Endpoint

def hide (e : Endpoint) : Endpoint := { e with apiKey := hideKey e.apiKey }

theorem refusal?_hide (e : Endpoint) : e.hide.refusal? = e.refusal? := by
  unfold refusal? hide
  dsimp only
  rw [isBlank_hideKey]

end Endpoint

def Registration.hide (req : Registration) : Registration :=
  { req with apiKey := hideKey req.apiKey }

theorem Registration.endpoint_hide (req : Registration) (id : EndpointId) :
    req.hide.endpoint id = (req.endpoint id).hide := rfl

/-- Two registrations that are the same but for the key, which is blank in both or in neither. -/
structure Registration.Alike (req req' : Registration) : Prop where
  others : { req' with apiKey := req.apiKey } = req
  blank : Text.isBlank req'.apiKey = Text.isBlank req.apiKey

theorem Registration.Alike.hide_eq {req req' : Registration} (alike : req.Alike req') :
    req'.hide = req.hide := by
  have others := congrArg (fun r : Registration => { r with apiKey := hideKey req'.apiKey })
    alike.others
  have blank := (hideKey_eq_iff _ _).mpr alike.blank
  exact others.trans (by rw [blank, Registration.hide])

namespace Edit

/-- A blank key is as good as none. -/
def hide (req : Edit) : Edit :=
  { req with apiKey := (req.apiKey.bind Text.nonBlank?).map hideKey }

theorem given_hideKey (new : Option String) (old : String) :
    given ((new.bind Text.nonBlank?).map hideKey) (hideKey old) = hideKey (given new old) := by
  unfold given
  cases new with
  | none => rfl
  | some key =>
    show ((Option.map hideKey (Text.nonBlank? key)).bind Text.nonBlank?).getD (hideKey old) =
      hideKey ((Text.nonBlank? key).getD old)
    unfold Text.nonBlank?
    by_cases blank : Text.isBlank key = true
    · simp [blank]
    · simp [blank, isBlank_hideKey]

/-- Two edits that are the same but for the key, which is given and not blank in both or in
neither. -/
structure Alike (req req' : Edit) : Prop where
  others : { req' with apiKey := req.apiKey } = req
  blank : (req'.apiKey.bind Text.nonBlank?).isSome = (req.apiKey.bind Text.nonBlank?).isSome

theorem hidden_of_blank {key key' : Option String}
    (blank : (key'.bind Text.nonBlank?).isSome = (key.bind Text.nonBlank?).isSome) :
    (key'.bind Text.nonBlank?).map hideKey = (key.bind Text.nonBlank?).map hideKey := by
  have hidden (key : Option String) : (key.bind Text.nonBlank?).map hideKey =
      if (key.bind Text.nonBlank?).isSome then some "*" else none := by
    cases key with
    | none => rfl
    | some key =>
      show (Text.nonBlank? key).map hideKey = if (Text.nonBlank? key).isSome then some "*" else none
      unfold Text.nonBlank?
      by_cases given : Text.isBlank key = true
      · simp [given]
      · simp [given, hideKey]
  rw [hidden, hidden, blank]

theorem Alike.hide_eq {req req' : Edit} (alike : req.Alike req') : req'.hide = req.hide := by
  have others := congrArg
    (fun r : Edit => { r with apiKey := (req'.apiKey.bind Text.nonBlank?).map hideKey })
    alike.others
  exact others.trans (by rw [hidden_of_blank alike.blank, hide])

theorem merge_hide (req : Edit) (e : Endpoint) : req.hide.merge e.hide = (req.merge e).hide := by
  unfold merge Endpoint.hide
  dsimp only
  rw [hide, given_hideKey]

theorem apply_hide (req : Edit) (e : Endpoint) :
    req.hide.apply e.hide = (req.apply e).map Endpoint.hide := by
  unfold apply
  have changes : req.hide.changesProvider e.hide = req.changesProvider e := rfl
  rw [changes, merge_hide, Endpoint.refusal?_hide]
  split
  · rfl
  · split <;> rfl

end Edit

def Row.hide (row : Row) : Row := { row with apiKey := hideKey row.apiKey }

theorem Row.endpoint_hide (row : Row) : row.hide.endpoint = row.endpoint.map Endpoint.hide := by
  unfold Row.endpoint Row.hide
  dsimp only
  split
  · rfl
  · rfl

/-! ### The registry -/

namespace Registry

def hide (r : Registry) : Registry := ⟨r.rows?.map (·.map Row.hide)⟩

theorem rowsFor_hide (r : Registry) (task : RegistryTask) :
    r.hide.rowsFor task = (r.rowsFor task).map (·.map Row.hide) := by
  obtain ⟨rows?⟩ := r
  cases rows? <;> rfl

theorem readFor_hide (task : RegistryTask) (row : Row) :
    readFor task row.hide = (readFor task row).map Endpoint.hide := by
  unfold readFor
  rw [Row.endpoint_hide]
  cases row.endpoint <;> rfl

theorem list_hide (r : Registry) : r.hide.list = r.list.map (·.map Endpoint.hide) := by
  have read (rows : List Row) : (rows.map Row.hide).mapM (readFor .readRow) =
      (rows.mapM (readFor .readRow)).map (·.map Endpoint.hide) := by
    induction rows with
    | nil => rfl
    | cons row rows ih =>
      rw [List.map_cons, List.mapM_cons, List.mapM_cons, ih, readFor_hide]
      cases readFor .readRow row with
      | error f => rfl
      | ok e => cases rows.mapM (readFor .readRow) <;> rfl
  unfold list
  rw [rowsFor_hide]
  cases r.rowsFor .list with
  | error f => rfl
  | ok rows => exact read rows

theorem find?_hide (task : RegistryTask) (rows : List Row) (p : Row → Bool)
    (keyless : ∀ row, p row.hide = p row) :
    ((rows.map Row.hide).find? p).mapM (readFor task) =
      ((rows.find? p).mapM (readFor task)).map (Option.map Endpoint.hide) := by
  have same : p ∘ Row.hide = p := funext keyless
  rw [List.find?_map, same]
  cases rows.find? p with
  | none => rfl
  | some row =>
    show (readFor task row.hide).map some = ((readFor task row).map some).map _
    rw [readFor_hide]
    cases readFor task row <;> rfl

theorem get_hide (r : Registry) (id : EndpointId) :
    r.hide.get id = (r.get id).map (Option.map Endpoint.hide) := by
  obtain ⟨rows?⟩ := r
  cases rows? with
  | none => rfl
  | some rows =>
    show get ⟨some (rows.map Row.hide)⟩ id = _
    rw [get_rows, get_rows]
    exact find?_hide .load rows (·.id = id) fun _ => rfl

theorem getDefault_hide (r : Registry) :
    r.hide.getDefault = r.getDefault.map (Option.map Endpoint.hide) := by
  obtain ⟨rows?⟩ := r
  cases rows? with
  | none => rfl
  | some rows =>
    show getDefault ⟨some (rows.map Row.hide)⟩ = _
    rw [getDefault_rows, getDefault_rows]
    exact find?_hide .loadDefault rows (·.flag = 1) fun _ => rfl

theorem count_hide (r : Registry) : r.hide.count = r.count := by
  unfold count
  rw [rowsFor_hide]
  cases r.rowsFor .count with
  | error f => rfl
  | ok rows => exact congrArg Except.ok (List.length_map ..)

theorem any_hide (rows : List Row) (id : EndpointId) :
    (rows.map Row.hide).any (·.id = id) = rows.any (·.id = id) := by
  rw [List.any_map]
  rfl

theorem insert_hide (r : Registry) (e : Endpoint) :
    r.hide.insert e.hide = (r.insert e).map hide := by
  obtain ⟨rows?⟩ := r
  cases rows? with
  | none => rfl
  | some rows =>
    unfold insert addRow hide
    dsimp only [Option.map_some]
    rw [any_hide, show (Row.ofEndpoint e.hide).id = (Row.ofEndpoint e).id from rfl]
    by_cases taken : rows.any (·.id = (Row.ofEndpoint e).id) = true
    · simp only [if_pos taken, Except.map]
    · simp only [if_neg taken, Except.map, Option.map_some, List.map_append]
      rfl

theorem update_hide (r : Registry) (e : Endpoint) :
    r.hide.update e.hide = (r.update e).map hide := by
  unfold update
  rw [rowsFor_hide]
  cases r.rowsFor .update with
  | error f => rfl
  | ok rows =>
    refine congrArg (fun rows => Except.ok (⟨some rows⟩ : Registry)) ?_
    simp only [List.map_map]
    refine List.map_congr_left fun row _ => ?_
    show (if row.id = e.id then editedRow e.hide row.hide else row.hide) =
      (if row.id = e.id then editedRow e row else row).hide
    split <;> rfl

theorem delete_hide (r : Registry) (id : EndpointId) :
    r.hide.delete id = (r.delete id).map fun (found, r) => (found, r.hide) := by
  unfold delete
  rw [rowsFor_hide]
  cases r.rowsFor .delete with
  | error f => rfl
  | ok rows =>
    show Except.ok ((rows.map Row.hide).any (·.id = id),
      (⟨some ((rows.map Row.hide).filter (·.id ≠ id))⟩ : Registry)) = _
    rw [any_hide, List.filter_map]
    rfl

theorem setDefault_hide (r : Registry) (id : EndpointId) :
    r.hide.setDefault id = (r.setDefault id).map fun (found, r) => (found, r.hide) := by
  unfold setDefault
  rw [rowsFor_hide]
  cases r.rowsFor .find with
  | error f => rfl
  | ok rows =>
    show (if (rows.map Row.hide).any (·.id = id) = true then _ else _) = _
    rw [any_hide]
    show _ = (if rows.any (·.id = id) = true then _ else _ : Except _ _).map _
    split
    · refine congrArg (fun rows => Except.ok (true, (⟨some rows⟩ : Registry))) ?_
      simp only [List.map_map]
      rfl
    · rfl

theorem setDefault?_hide (r : Registry) (e : Option Endpoint) :
    r.hide.setDefault? (e.map Endpoint.hide) =
      (r.setDefault? e).map fun (r, notices) => (r.hide, notices) := by
  cases e with
  | none => rfl
  | some e =>
    show (r.hide.setDefault e.id >>= _) = (r.setDefault e.id >>= _ : Except _ _).map _
    rw [setDefault_hide]
    cases r.setDefault e.id <;> rfl

end Registry
namespace Service

def Change.hide {α β : Type} (f : α → β) (c : Change α) : Change β :=
  ⟨f c.result, c.registry.hide, c.notices⟩

theorem store_hide (e : Endpoint) (makeDefault : Bool) (r : Registry) :
    store e.hide makeDefault r.hide = (store e makeDefault r).map (Change.hide id) := by
  unfold store
  rw [Registry.count_hide, Registry.insert_hide]
  cases r.count with
  | error f => rfl
  | ok n =>
    cases r.insert e with
    | error f => rfl
    | ok r' =>
      show (if (decide (n = 0) || makeDefault) = true then _ else _) =
        (if (decide (n = 0) || makeDefault) = true then _ else _ : Except _ _).map _
      split
      · show (r'.hide.setDefault? ((some e).map Endpoint.hide) >>= _) = _
        rw [Registry.setDefault?_hide]
        cases r'.setDefault? (some e) <;> rfl
      · rfl

theorem edit_hide (id : EndpointId) (req : Edit) (r : Registry) :
    edit id req.hide r.hide =
      (edit id req r).map (Change.hide (Except.map Endpoint.hide)) := by
  unfold edit
  rw [Registry.get_hide]
  cases r.get id with
  | error f => rfl
  | ok stored =>
    cases stored with
    | none => rfl
    | some stored =>
      have applied := req.apply_hide stored
      cases h : req.apply stored with
      | error why =>
        rw [h] at applied
        simp only [bind, Except.bind, Except.map, Option.map_some, applied, h]
        rfl
      | ok e =>
        rw [h] at applied
        simp only [bind, Except.bind, Except.map, Option.map_some, applied, h]
        rw [Registry.update_hide]
        cases r.update e <;> rfl

theorem takeOut_hide (id : EndpointId) (r : Registry) :
    takeOut id r.hide = (takeOut id r).map (Change.hide fun found => found) := by
  unfold takeOut
  rw [Registry.delete_hide]
  cases r.delete id <;> rfl

theorem choose_hide (id : EndpointId) (r : Registry) :
    choose id r.hide = (choose id r).map (Change.hide fun found => found) := by
  unfold choose
  rw [Registry.setDefault_hide]
  cases r.setDefault id <;> rfl

end Service
end EndpointHealth
