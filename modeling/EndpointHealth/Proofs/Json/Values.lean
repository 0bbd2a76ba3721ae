import EndpointHealth.Proofs.Json.Shapes
set_option autoImplicit false

/-!
Values of any form, read back from what is written of them. Main statement: a value without numbers
is read back as it was (`readValue_write`), so the text of such a value reads as the value
(`ofDocument_toText`).
-/

namespace EndpointHealth.Json

open EndpointHealth.Text

/-- Values without numbers, in which lists and records go less than `depth` deep. -/
inductive Wordy : Nat → Value → Prop
  | null (depth : Nat) : Wordy (depth + 1) .null
  | flag (depth : Nat) (b : Bool) : Wordy (depth + 1) (.flag b)
  | text (depth : Nat) (s : String) : Wordy (depth + 1) (.text s)
  | list {depth : Nat} {items : List Value} (each : ∀ v ∈ items, Wordy (depth + 1) v) :
      Wordy (depth + 2) (.list items)
  | record {depth : Nat} {members : List (String × Value)}
      (each : ∀ m ∈ members, Wordy (depth + 1) m.2) : Wordy (depth + 2) (.record members)

theorem writeItems_eq_intercalate (vs : List Value) :
    Value.writeItems vs = [','].intercalate (vs.map Value.write) := by
  induction vs with
  | nil => rfl
  | cons v vs ih =>
    cases vs with
    | nil => simp [Value.writeItems]
    | cons w vs => simp [Value.writeItems, ih]

theorem list_toText (vs : List Value) :
    (Value.list vs).toText = "[" ++ ",".intercalate (vs.map Value.toText) ++ "]" := by
  have texts : (vs.map Value.toText).map String.toList = vs.map Value.write := by
    rw [List.map_map]
    exact List.map_congr_left fun v _ => String.toList_ofList
  refine String.toList_injective ?_
  rw [Value.toText, String.toList_ofList, Value.write, writeItems_eq_intercalate]
  simp only [String.toList_append, String.toList_intercalate, texts]
  rfl

/-- How a member of a record is added to those before it. -/
def addMember (depth : Nat) (key : String) (ms : List (String × Value)) (r : Bytes) :
    Reading (List (String × Value) × Bytes) :=
  inside (.key key) do
    let (v, r) ← colon r >>= readValue depth
    .ok (ms ++ [(key, v)], r)

theorem gathers_members {depth : Nat} {ms : List (String × Value)}
    (each : ∀ m ∈ ms, ∀ rest,
      readValue depth (Utf8.encode m.2.write ++ rest) = .ok (m.2, rest))
    (before : List (String × Value)) : Gathers (addMember depth) before ms (before ++ ms) := by
  induction ms generalizing before with
  | nil =>
    rw [List.append_nil]
    exact .done _
  | cons m ms ih =>
    have later : Gathers (addMember depth) (before ++ [m]) ms (before ++ m :: ms) := by
      have := ih (fun m' hm => each m' (List.mem_cons_of_mem _ hm)) (before ++ [m])
      rwa [List.append_assoc] at this
    refine .member (fun rest _ => ?_) later
    have next : colon (Utf8.encode (':' :: m.2.write) ++ rest) =
        .ok (Utf8.encode m.2.write ++ rest) := rfl
    have value := each m (List.mem_cons_self ..) rest
    simp only [addMember, next, value, bind, Except.bind, inside]

/-- What is written of a value without numbers is read back, whatever comes after it. -/
theorem readValue_write {depth : Nat} {v : Value} (wordy : Wordy depth v) (rest : Bytes) :
    readValue depth (Utf8.encode v.write ++ rest) = .ok (v, rest) := by
  induction wordy generalizing rest with
  | null depth => rfl
  | flag depth b => cases b <;> rfl
  | text depth s =>
    have bytes : Utf8.encode (Value.text s).write ++ rest =
        0x22 :: (Utf8.encode (s.toList.flatMap escapeChar) ++ 0x22 :: rest) := by
      rw [Value.write, writeText, Utf8.encode_append, Utf8.encode_cons, List.append_assoc]
      rfl
    rw [bytes, readValue, skipSpace_cons rfl]
    show (readText _ >>= _) = _
    rw [readText_write]
    rfl
  | @list depth items each ih =>
    have bytes : Utf8.encode (Value.list items).write ++ rest =
        0x5B :: (Utf8.encode (Value.writeItems items) ++ 0x5D :: rest) := by
      rw [Value.write, Utf8.encode_append, Utf8.encode_cons, List.append_assoc]
      rfl
    have enough : items.length <
        (Utf8.encode (Value.writeItems items) ++ 0x5D :: rest).length + 1 := by
      have := length_writeItems items
      simp only [List.length_append] at this ⊢
      omega
    have each (v : Value) (hv : v ∈ items) (rest : Bytes) (_ : Stops rest) :
        readValue (depth + 1) (Utf8.encode (id v).write ++ rest) = .ok (v, rest) := ih v hv rest
    have read := readItems_write each enough rest
    rw [List.map_id] at read
    rw [bytes, readValue, skipSpace_cons rfl]
    show (readItems (readValue (depth + 1)) _ 0 _ >>= _) = _
    rw [read]
    rfl
  | @record depth members each ih =>
    have bytes : Utf8.encode (Value.record members).write ++ rest =
        0x7B :: (Utf8.encode (Value.writeMembers members) ++ 0x7D :: rest) := by
      rw [Value.write, Utf8.encode_append, Utf8.encode_cons, List.append_assoc]
      rfl
    have enough : members.length <
        (Utf8.encode (Value.writeMembers members) ++ 0x7D :: rest).length + 1 := by
      have := length_writeMembers members
      simp only [List.length_append]
      omega
    have read := readMembers_write (gathers_members (fun m hm rest => ih m hm rest) []) enough rest
    rw [bytes, readValue, skipSpace_cons rfl]
    show (readMembers (addMember (depth + 1)) _ false [] _ >>= _) = _
    rw [read]
    rfl

theorem ofDocument_toText {v : Value} (wordy : Wordy depthLimit v) :
    Value.ofDocument (Utf8.ofText v.toText) = .ok v := by
  have read := readValue_write wordy []
  rw [List.append_nil] at read
  rw [Value.ofDocument, readDocument, Value.toText, Utf8.ofText, String.toList_ofList, read]
  rfl

end EndpointHealth.Json
