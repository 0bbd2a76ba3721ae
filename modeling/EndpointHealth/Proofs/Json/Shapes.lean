import EndpointHealth.Proofs.Json.Words
set_option autoImplicit false

/-!
What is written of a shape is read back.

Main statement: a reader of a shape takes what the shape writes, gives the same and leaves what
comes after (`Shape.read_write`). It is about shapes whose documents are not ambiguous, and about
values whose numbers in single precision read back.
-/

namespace EndpointHealth.Json

open EndpointHealth.Text

/-- The text of a number in single precision is read to its end, as that number. -/
def ReadsBack (x : Number.Floating) : Prop :=
  Shape.single.read depthLimit (Utf8.encode (Number.Format.single.write singleStyle x)) =
    .ok (x, [])

instance (x : Number.Floating) : Decidable (ReadsBack x) :=
  inferInstanceAs (Decidable (_ = _))

def Value.isNull : Value → Bool
  | .null => true
  | .number (.float x) => !Number.Format.double.isFinite x.magnitude
  | .single x => !Number.Format.single.isFinite x.magnitude
  | _ => false

namespace Shape

def isOptional : Shape → Bool
  | .optional _ => true
  | _ => false

end Shape

def Fields.names : Fields → List String
  | .done => []
  | .field _ name _ rest => name :: rest.names

mutual

/-- A shape whose documents can be told apart: names differ, and of two things that may be null
none is directly inside the other. -/
def Shape.isPlain : Shape → Bool
  | .choice names => names.Nodup
  | .optional s => !s.isOptional && s.isPlain
  | .list s => s.isPlain
  | .record _ fs => fs.isPlain
  | _ => true

def Fields.isPlain : Fields → Bool
  | .done => true
  | .field p name s rest =>
    !(p = .nullable && s.isOptional) && name ∉ rest.names && s.isPlain && rest.isPlain

end

mutual

/-- How many lists and records are in each other at most. -/
def Shape.depth : Shape → Nat
  | .optional s => s.depth
  | .list s => s.depth + 1
  | .record _ fs => fs.depth + 1
  | _ => 0

def Fields.depth : Fields → Nat
  | .done => 0
  | .field _ _ s rest => max s.depth rest.depth

end

/-- What a record holds for a field is so, if it holds anything. -/
def Presence.Each {α : Type} (P : α → Prop) : (p : Presence) → p.Slot α → Prop
  | .required, x => P x
  | .nullable, x => ∀ y ∈ x, P y
  | .defaulted, x => ∀ y ∈ x, P y

mutual

/-- All numbers in single precision are finite and read back. -/
def Shape.Legible : (s : Shape) → s.Carrier → Prop
  | .single, x => Number.Format.single.isFinite x.magnitude = true ∧ ReadsBack x
  | .optional s, x => ∀ y ∈ x, s.Legible y
  | .list s, xs => ∀ x ∈ xs, s.Legible x
  | .record _ fs, x => fs.Legible x
  | .text, _ | .flag, _ | .byte, _ | .word32, _ | .word64, _ | .choice _, _ => True

def Fields.Legible : (fs : Fields) → fs.Carrier → Prop
  | .done, () => True
  | .field p _ s rest, (x, others) => p.Each s.Legible x ∧ rest.Legible others

end

/-- The draft of which a record is made, if what it holds for its fields was read. -/
def Presence.draw {α : Type} : (p : Presence) → p.Slot α → Option (p.Read α)
  | .required, x => some x
  | .nullable, x => some x
  | .defaulted, x => x

def Fields.draw : (fs : Fields) → fs.Carrier → fs.Draft
  | .done, () => ()
  | .field p _ _ rest, (x, others) => (p.draw x, rest.draw others)

theorem Fields.close_draw : (fs : Fields) → (x : fs.Carrier) → fs.close (fs.draw x) = .ok x
  | .done, () => rfl
  | .field p _ _ rest, (x, others) => by
    have first : p.close (p.draw x) = some x := by cases p <;> rfl
    simp [draw, close, first, close_draw rest others, Except.map]

/-! ### First bytes -/

theorem skipSpace_cons {b : UInt8} (other : isSpace b = false) (r : Bytes) :
    skipSpace (b :: r) = b :: r := by
  simp [skipSpace, other]

theorem not_isSpace_of_isDigit {b : UInt8} (digit : isDigit b = true) : isSpace b = false := by
  simp only [isDigit, Bool.and_eq_true, decide_eq_true_eq, UInt8.le_iff_toNat_le] at digit
  simp only [isSpace, ← UInt8.toNat_inj, Bool.or_eq_false_iff, decide_eq_false_iff_not]
  simp at digit ⊢
  omega

theorem toDigits_first (k : Nat) : ∃ c cs, Nat.toDigits 10 k = c :: cs ∧ c.isDigit = true := by
  cases h : Nat.toDigits 10 k with
  | nil => exact absurd h Nat.toDigits_ne_nil
  | cons c cs =>
    exact ⟨c, cs, rfl, Nat.isDigit_of_mem_toDigits (b := 10) (n := k) (by decide) (by decide)
      (h ▸ List.mem_cons_self ..)⟩

theorem layout_first (style : Number.DecimalStyle) (d : Number.Decimal) :
    ∃ c cs, style.layout d = c :: cs ∧ c.isDigit = true := by
  obtain ⟨c, cs, digits, digit⟩ := toDigits_first d.digits
  unfold Number.DecimalStyle.layout
  rw [digits]
  dsimp only
  split
  · split
    · exact ⟨'0', _, rfl, rfl⟩
    split
    · exact ⟨c, _, rfl, digit⟩
    · rename_i place _
      obtain ⟨k, hk⟩ : ∃ k, (((c :: cs).length : Int) + d.exponent).toNat = k + 1 :=
        ⟨(((c :: cs).length : Int) + d.exponent).toNat - 1, by omega⟩
      rw [hk]
      exact ⟨c, _, rfl, digit⟩
  · exact ⟨c, _, rfl, digit⟩

theorem format_first (f : Number.Format) (style : Number.DecimalStyle) (x : Number.Floating) :
    ∃ c cs, f.write style x = c :: cs ∧ (c = '-' ∨ c.isDigit = true) := by
  unfold Number.Format.write
  dsimp only
  split
  · exact ⟨'-', _, rfl, .inl rfl⟩
  split
  · exact ⟨'0', _, rfl, .inr rfl⟩
  · obtain ⟨c, cs, text, digit⟩ := layout_first style (f.shortest x.magnitude)
    exact ⟨c, cs, text, .inr digit⟩

theorem writeInt_first (i : Int) : ∃ c cs, writeInt i = c :: cs ∧ (c = '-' ∨ c.isDigit = true) := by
  unfold writeInt
  split
  · exact ⟨'-', _, rfl, .inl rfl⟩
  · obtain ⟨c, cs, text, digit⟩ := toDigits_first i.natAbs
    exact ⟨c, cs, text, .inr digit⟩

/-- What a value may begin with: only null begins with its letter. -/
def Begins (null : Bool) (b : UInt8) : Prop :=
  isSpace b = false ∧ b ≠ 0x5D ∧ (b = 0x6E → null = true)

theorem begins_number {c : Char} {null : Bool} (number : c = '-' ∨ c.isDigit = true) :
    c.toNat < 0x80 ∧ Begins null (asciiByte c) := by
  rcases number with rfl | digit
  · exact ⟨by decide, by decide, by decide, by intro h; cases h⟩
  · obtain ⟨low, high⟩ := toNat_lt_of_isDigit digit
    have value : (asciiByte c).toNat = c.toNat := Utf8.toNat_ofNat_lt (by omega)
    refine ⟨by omega, ?_⟩
    simp only [Begins, isSpace, ne_eq, ← UInt8.toNat_inj, value, Bool.or_eq_false_iff,
      decide_eq_false_iff_not]
    simp
    omega

theorem encode_number {cs : List Char} {null : Bool}
    (text : ∃ c r, cs = c :: r ∧ (c = '-' ∨ c.isDigit = true)) :
    ∃ b r, Utf8.encode cs = b :: r ∧ Begins null b := by
  obtain ⟨c, r, rfl, first⟩ := text
  obtain ⟨ascii, begins⟩ : _ ∧ Begins null (asciiByte c) := begins_number first
  refine ⟨asciiByte c, Utf8.encode r, ?_, begins⟩
  rw [Utf8.encode_cons, Utf8.encodeChar_of_ascii ascii]
  rfl

theorem writeFloating_first (f : Number.Format) (style : Number.DecimalStyle)
    (x : Number.Floating) :
    ∃ b r, Utf8.encode (writeFloating f style x) = b :: r ∧ Begins (!f.isFinite x.magnitude) b := by
  unfold writeFloating
  split
  · exact encode_number (format_first f style x)
  · rename_i infinite
    exact ⟨0x6E, _, rfl, by decide, by decide, fun _ => by simp [infinite]⟩

theorem Value.write_first (v : Value) :
    ∃ b r, Utf8.encode v.write = b :: r ∧ Begins v.isNull b := by
  have other {b : UInt8} {null : Bool}
      (h : isSpace b = false ∧ b ≠ 0x5D ∧ b ≠ 0x6E) : Begins null b :=
    ⟨h.1, h.2.1, fun eq => absurd eq h.2.2⟩
  cases v with
  | null => exact ⟨0x6E, _, rfl, by decide, by decide, fun _ => rfl⟩
  | flag b =>
    cases b with
    | false => exact ⟨0x66, _, rfl, other (by decide)⟩
    | true => exact ⟨0x74, _, rfl, other (by decide)⟩
  | number n =>
    cases n with
    | integer i => exact encode_number (writeInt_first i)
    | float x => exact writeFloating_first .double doubleStyle x
  | single x => exact writeFloating_first .single singleStyle x
  | text s => exact ⟨0x22, _, rfl, other (by decide)⟩
  | list items => exact ⟨0x5B, _, rfl, other (by decide)⟩
  | record members => exact ⟨0x7B, _, rfl, other (by decide)⟩

/-! ### Single values -/

variable {rest : Bytes} {expected : String}

theorem readTextValue_write (s : String) (rest : Bytes) :
    readTextValue expected (Utf8.encode (writeText s) ++ rest) = .ok (s, rest) := by
  have bytes : Utf8.encode (writeText s) ++ rest =
      0x22 :: (Utf8.encode (s.toList.flatMap escapeChar) ++ 0x22 :: rest) := by
    rw [writeText, Utf8.encode_append, Utf8.encode_cons, List.append_assoc]
    rfl
  rw [bytes]
  exact readText_write s rest

theorem readFlag_write (b : Bool) (rest : Bytes) :
    readFlag (Utf8.encode (Value.flag b).write ++ rest) = .ok (b, rest) := by
  cases b <;> rfl

theorem unexpected_ne {α : Type} (bs : Bytes) (x : α) : unexpected expected bs ≠ .ok x := by
  have never {β : Type} (m : Reading β) (c : β → Cause) (left : β → Bytes) :
      (m >>= fun a => fault (c a) (left a)) ≠ (.ok x : Reading α) := by
    cases m <;> exact fun read => nomatch read
  unfold unexpected
  cases bs with
  | nil => exact fun read => nomatch read
  | cons b r =>
    dsimp only
    split
    · exact never _ _ _
    split
    · exact never _ _ _
    split
    · exact never _ _ _
    split
    · exact never _ _ _
    split
    · exact never _ _ _
    split
    · exact never _ _ _
    split
    · exact fun read => nomatch read
    split
    · exact fun read => nomatch read
    · exact fun read => nomatch read

theorem skipSpace_append {bs : Bytes} (more : skipSpace bs ≠ []) (rest : Bytes) :
    skipSpace (bs ++ rest) = skipSpace bs ++ rest := by
  unfold skipSpace at more ⊢
  induction bs with
  | nil => exact absurd rfl more
  | cons b bs ih =>
    cases h : isSpace b with
    | false => simp [h]
    | true => simpa [h] using ih (by simpa [h] using more)

def readSigned (b : UInt8) (r : Bytes) : Reading (Numeral × Bytes) :=
  if b = 0x2D then readNumber true r else readNumber false (b :: r)

theorem readSigned_append (stops : Stops rest) {b : UInt8} {bs r : Bytes} {n : Numeral}
    (read : readSigned b bs = .ok (n, r)) : readSigned b (bs ++ rest) = .ok (n, r ++ rest) := by
  unfold readSigned at read ⊢
  split
  · rename_i minus
    rw [if_pos minus] at read
    exact readNumber_append stops read
  · rename_i minus
    rw [if_neg minus] at read
    exact readNumber_append stops read

theorem readNumeral_cons {α : Type} {take : Numeral → Except Cause α} {bs r : Bytes} {b : UInt8}
    (first : skipSpace bs = b :: r) (number : b = 0x2D ∨ isDigit b = true) :
    readNumeral expected take bs = readSigned b r >>= fun (n, left) =>
      match take n with
      | .ok x => .ok (x, left)
      | .error c => fault c left := by
  unfold readNumeral readSigned
  rw [first]
  dsimp only
  rw [if_pos number]
  split <;> rfl

theorem number_of_readNumeral {α : Type} {take : Numeral → Except Cause α} {bs r : Bytes} {x : α}
    (read : readNumeral expected take bs = .ok (x, r)) :
    ∃ b t, skipSpace bs = b :: t ∧ (b = 0x2D ∨ isDigit b = true) := by
  unfold readNumeral at read
  cases h : skipSpace bs with
  | nil => rw [h] at read; cases read
  | cons b t =>
    rw [h] at read
    dsimp only at read
    split at read
    · exact ⟨b, t, rfl, by assumption⟩
    · exact absurd read (unexpected_ne _ _)

/-- What is made of a number in a document does not depend on what comes after it. -/
theorem readNumeral_append {α : Type} {take : Numeral → Except Cause α} {bs r : Bytes} {x : α}
    (stops : Stops rest) (read : readNumeral expected take bs = .ok (x, r)) :
    readNumeral expected take (bs ++ rest) = .ok (x, r ++ rest) := by
  obtain ⟨b, t, first, number⟩ := number_of_readNumeral read
  have longer : skipSpace (bs ++ rest) = b :: (t ++ rest) := by
    rw [skipSpace_append (by simp [first]), first, List.cons_append]
  rw [readNumeral_cons first number] at read
  rw [readNumeral_cons longer number]
  cases signed : readSigned b t with
  | error f => rw [signed] at read; cases read
  | ok pair =>
    obtain ⟨n, left⟩ := pair
    rw [signed] at read
    rw [readSigned_append stops signed]
    simp only [bind, Except.bind] at read ⊢
    cases taken : take n with
    | error c => rw [taken] at read; cases read
    | ok y => rw [taken] at read; cases read; rfl

theorem readNumeral_toDigits {α : Type} {take : Numeral → Except Cause α} {k : Nat} {x : α}
    (fits : k < wordLimit) (taken : take (.integer k) = .ok x) (stops : Stops rest) :
    readNumeral expected take (Utf8.encode (Value.ofNat k).write ++ rest) = .ok (x, rest) := by
  have text : (Value.ofNat k).write = Nat.toDigits 10 k := by
    simp [Value.ofNat, Value.ofInt, Value.write, writeInt]
  have read := readNumber_toDigits fits stops
  obtain ⟨c, cs, digits, digit⟩ := toDigits_first k
  obtain ⟨low, high⟩ := toNat_lt_of_isDigit digit
  have first := isDigit_asciiByte digit
  rw [text]
  rw [digits, Utf8.encode_cons, Utf8.encodeChar_of_ascii (by omega)] at read ⊢
  change readNumber false (asciiByte c :: (Utf8.encode cs ++ rest)) = _ at read
  change readNumeral expected take (asciiByte c :: (Utf8.encode cs ++ rest)) = _
  have other : asciiByte c ≠ 0x2D := fun same => by rw [same] at first; cases first
  rw [readNumeral_cons (skipSpace_cons (not_isSpace_of_isDigit first) _) (.inr first), readSigned,
    if_neg other, read]
  simp [taken, bind, Except.bind]

theorem below_word {limit k : Nat} (small : k < limit) :
    (Numeral.integer k).below limit expected = .ok k := by
  simp [Numeral.below, small]

theorem indexOf_get {names : List String} (distinct : names.Nodup) (i : Fin names.length) :
    indexOf? (names.get i) names = some i := by
  induction names with
  | nil => exact i.elim0
  | cons n ns ih =>
    obtain ⟨fresh, later⟩ := List.nodup_cons.mp distinct
    cases i using Fin.cases with
    | zero => simp [indexOf?]
    | succ i =>
      have other : n ≠ ns.get i := fun same => fresh (same ▸ List.get_mem ns i)
      have inner := ih later i
      simp_all [indexOf?]

theorem readChoice_write {names : List String} (distinct : names.Nodup) (i : Fin names.length)
    (depth : Nat) (rest : Bytes) :
    readChoice names depth (Utf8.encode (writeText (names.get i)) ++ rest) = .ok (i, rest) := by
  have read : readName names (Utf8.encode (writeText (names.get i)) ++ rest) = .ok (i, rest) := by
    simp only [readName, readTextValue_write, bind, Except.bind, indexOf_get distinct]
  unfold readChoice
  have bytes : Utf8.encode (writeText (names.get i)) ++ rest =
      0x22 :: (Utf8.encode ((names.get i).toList.flatMap escapeChar ++ ['"']) ++ rest) := by
    rw [writeText, List.cons_append, Utf8.encode_cons]
    rfl
  rw [bytes] at read ⊢
  rw [skipSpace_cons rfl]
  exact read

/-- Null is told from other values by its first letter. -/
theorem readOptional_write {α : Type} {read : Bytes → Reading (α × Bytes)} {write : α → Value}
    {x : Option α} (other : ∀ y ∈ x, (write y).isNull = false)
    (inner : ∀ y ∈ x, read (Utf8.encode (write y).write ++ rest) = .ok (y, rest)) :
    readOptional read (Utf8.encode (Value.ofOption write x).write ++ rest) = .ok (x, rest) := by
  cases x with
  | none => rfl
  | some y =>
    obtain ⟨b, r, bytes, space, -, letter⟩ := (write y).write_first
    have same : b ≠ 0x6E := fun h => by simpa [other y rfl] using letter h
    have inside := inner y rfl
    rw [bytes] at inside
    rw [List.cons_append] at inside
    rw [Value.ofOption, bytes, List.cons_append, readOptional, skipSpace_cons space]
    simp [same, inside, bind, Except.bind]

/-! ### Lists -/

theorem stops_comma (r : Bytes) : Stops (0x2C :: r) := .inl rfl
theorem stops_bracket (r : Bytes) : Stops (0x5D :: r) := .inr (.inl rfl)
theorem stops_brace (r : Bytes) : Stops (0x7D :: r) := .inr (.inr rfl)

/-- What stands after the first items of a list. -/
def laterItems (vs : List Value) : List Char := vs.flatMap fun v => ',' :: v.write

theorem writeItems_cons (v : Value) (vs : List Value) :
    Value.writeItems (v :: vs) = v.write ++ laterItems vs := by
  induction vs generalizing v with
  | nil => simp [Value.writeItems, laterItems]
  | cons w vs ih => rw [Value.writeItems, ih]; simp [laterItems]

theorem stops_later (vs : List Value) (rest : Bytes) :
    Stops (Utf8.encode (laterItems vs) ++ 0x5D :: rest) := by
  cases vs with
  | nil => exact stops_bracket rest
  | cons v vs => exact stops_comma _

variable {α : Type} {read : Bytes → Reading (α × Bytes)} {write : α → Value} {xs : List α}

theorem nextItem_first (v : Value) (rest : Bytes) :
    nextItem false (Utf8.encode v.write ++ rest) = .ok (true, Utf8.encode v.write ++ rest) := by
  obtain ⟨b, r, bytes, space, bracket, -⟩ := v.write_first
  rw [bytes, List.cons_append, nextItem, skipSpace_cons space]
  simp [bracket]

theorem nextItem_later (v : Value) (rest : Bytes) :
    nextItem true (0x2C :: (Utf8.encode v.write ++ rest)) =
      .ok (true, Utf8.encode v.write ++ rest) := by
  obtain ⟨b, r, bytes, space, bracket, -⟩ := v.write_first
  rw [bytes, List.cons_append, nextItem, skipSpace_cons rfl]
  simp [skipSpace_cons space, bracket]

theorem readItems_cons {fuel i : Nat} {bs tail r : Bytes} {x : α}
    (next : nextItem (i != 0) bs = .ok (true, Utf8.encode (write x).write ++ tail))
    (item : read (Utf8.encode (write x).write ++ tail) = .ok (x, tail))
    (others : readItems read fuel (i + 1) tail = .ok (xs, r)) :
    readItems read (fuel + 1) i bs = .ok (x :: xs, r) := by
  simp [readItems, next, item, others, inside, bind, Except.bind]

theorem readItems_later (items : ∀ x ∈ xs, ∀ rest, Stops rest →
      read (Utf8.encode (write x).write ++ rest) = .ok (x, rest))
    {fuel i : Nat} (enough : xs.length < fuel) (later : i ≠ 0) (rest : Bytes) :
    readItems read fuel i (Utf8.encode (laterItems (xs.map write)) ++ 0x5D :: rest) =
      .ok (xs, 0x5D :: rest) := by
  induction xs generalizing fuel i with
  | nil =>
    obtain ⟨fuel, rfl⟩ : ∃ k, fuel = k + 1 := ⟨fuel - 1, by simp at enough; omega⟩
    rfl
  | cons x xs ih =>
    obtain ⟨fuel, rfl⟩ : ∃ k, fuel = k + 1 := ⟨fuel - 1, by simp at enough; omega⟩
    have others := ih (fun y hy => items y (List.mem_cons_of_mem _ hy))
      (Nat.lt_of_succ_lt_succ enough) (Nat.succ_ne_zero i)
    refine readItems_cons ?_ (items x (List.mem_cons_self ..) _ (stops_later _ rest)) others
    have bytes : Utf8.encode (laterItems ((x :: xs).map write)) ++ 0x5D :: rest =
        0x2C :: (Utf8.encode (write x).write ++
          (Utf8.encode (laterItems (xs.map write)) ++ 0x5D :: rest)) := by
      rw [laterItems, List.map_cons, List.flatMap_cons, List.cons_append, Utf8.encode_cons,
        Utf8.encode_append]
      simp only [List.append_assoc]
      rfl
    rw [show (i != 0) = true by simpa using later, bytes]
    exact nextItem_later _ _

/-- The items of a list are read up to its closing bracket. -/
theorem readItems_write (items : ∀ x ∈ xs, ∀ rest, Stops rest →
      read (Utf8.encode (write x).write ++ rest) = .ok (x, rest))
    {fuel : Nat} (enough : xs.length < fuel) (rest : Bytes) :
    readItems read fuel 0 (Utf8.encode (Value.writeItems (xs.map write)) ++ 0x5D :: rest) =
      .ok (xs, 0x5D :: rest) := by
  obtain ⟨fuel, rfl⟩ : ∃ k, fuel = k + 1 := ⟨fuel - 1, by omega⟩
  cases xs with
  | nil => rfl
  | cons x xs =>
    have others := readItems_later (fun y hy => items y (List.mem_cons_of_mem _ hy))
      (Nat.lt_of_succ_lt_succ enough) (Nat.succ_ne_zero 0) rest
    refine readItems_cons ?_ (items x (List.mem_cons_self ..) _ (stops_later _ rest)) others
    rw [List.map_cons, writeItems_cons, Utf8.encode_append, List.append_assoc]
    exact nextItem_first _ _

theorem length_laterItems (vs : List Value) :
    vs.length ≤ (Utf8.encode (laterItems vs)).length := by
  induction vs with
  | nil => exact Nat.le_refl _
  | cons v vs ih =>
    have comma := Utf8.encodeChar_length_pos ','
    rw [laterItems, List.flatMap_cons, List.cons_append, Utf8.encode_cons, Utf8.encode_append]
    rw [laterItems] at ih
    simp only [List.length_append, List.length_cons]
    omega

theorem length_writeItems (vs : List Value) :
    vs.length ≤ (Utf8.encode (Value.writeItems vs)).length := by
  cases vs with
  | nil => exact Nat.zero_le _
  | cons v vs =>
    obtain ⟨b, r, bytes, -⟩ := v.write_first
    have others := length_laterItems vs
    rw [writeItems_cons, Utf8.encode_append, bytes]
    simp only [List.length_append, List.length_cons]
    omega

/-! ### Records -/

/-- Members, read one after the other, take what has been gathered from one state to another. -/
inductive Gathers {σ : Type} (step : String → σ → Bytes → Reading (σ × Bytes)) :
    σ → List (String × Value) → σ → Prop
  | done (g : σ) : Gathers step g [] g
  | member {g g' last : σ} {m : String × Value} {ms : List (String × Value)}
      (read : ∀ rest, Stops rest →
        step m.1 g (Utf8.encode (':' :: m.2.write) ++ rest) = .ok (g', rest))
      (later : Gathers step g' ms last) : Gathers step g (m :: ms) last

def writeMember (m : String × Value) : List Char := writeText m.1 ++ ':' :: m.2.write

/-- What stands after the first members of a record. -/
def laterMembers (ms : List (String × Value)) : List Char :=
  ms.flatMap fun m => ',' :: writeMember m

theorem writeMembers_cons (m : String × Value) (ms : List (String × Value)) :
    Value.writeMembers (m :: ms) = writeMember m ++ laterMembers ms := by
  induction ms generalizing m with
  | nil => simp [Value.writeMembers, laterMembers, writeMember]
  | cons w ms ih => rw [Value.writeMembers, ih]; simp [laterMembers, writeMember]

theorem stops_laterMembers (ms : List (String × Value)) (rest : Bytes) :
    Stops (Utf8.encode (laterMembers ms) ++ 0x7D :: rest) := by
  cases ms with
  | nil => exact stops_brace rest
  | cons m ms => exact stops_comma _

variable {σ : Type} {step : String → σ → Bytes → Reading (σ × Bytes)} {g last : σ}
  {ms : List (String × Value)}

theorem encode_writeMember (m : String × Value) (rest : Bytes) :
    Utf8.encode (writeMember m) ++ rest =
      0x22 :: (Utf8.encode (m.1.toList.flatMap escapeChar) ++
        0x22 :: (Utf8.encode (':' :: m.2.write) ++ rest)) := by
  rw [writeMember, writeText, Utf8.encode_append, Utf8.encode_append, Utf8.encode_cons]
  simp only [List.append_assoc]
  rfl

theorem readMembers_cons {fuel : Nat} {later : Bool} {bs tail r : Bytes} {m : String × Value}
    {g' : σ} (next : nextMember later bs = .ok (true, Utf8.encode (writeMember m) ++ tail))
    (member : step m.1 g (Utf8.encode (':' :: m.2.write) ++ tail) = .ok (g', tail))
    (others : readMembers step fuel true g' tail = .ok (last, r)) :
    readMembers step (fuel + 1) later g bs = .ok (last, r) := by
  rw [encode_writeMember] at next
  simp only [readMembers, next, bind, Except.bind, if_true, List.drop_succ_cons, List.drop_zero,
    readText_write, member, others]

theorem readMembers_later (gathers : Gathers step g ms last) {fuel : Nat}
    (enough : ms.length < fuel) (rest : Bytes) :
    readMembers step fuel true g (Utf8.encode (laterMembers ms) ++ 0x7D :: rest) =
      .ok (last, 0x7D :: rest) := by
  induction gathers generalizing fuel with
  | done g =>
    obtain ⟨fuel, rfl⟩ : ∃ k, fuel = k + 1 := ⟨fuel - 1, by simp at enough; omega⟩
    rfl
  | @member g g' last m ms read later ih =>
    obtain ⟨fuel, rfl⟩ : ∃ k, fuel = k + 1 := ⟨fuel - 1, by simp at enough; omega⟩
    refine readMembers_cons ?_ (read _ (stops_laterMembers ms rest))
      (ih (Nat.lt_of_succ_lt_succ enough))
    have bytes : Utf8.encode (laterMembers (m :: ms)) ++ 0x7D :: rest =
        0x2C :: (Utf8.encode (writeMember m) ++
          (Utf8.encode (laterMembers ms) ++ 0x7D :: rest)) := by
      rw [laterMembers, List.flatMap_cons, List.cons_append, Utf8.encode_cons, Utf8.encode_append]
      simp only [List.append_assoc]
      rfl
    rw [bytes, encode_writeMember]
    rfl

/-- The members of a record are read up to its closing brace. -/
theorem readMembers_write (gathers : Gathers step g ms last) {fuel : Nat}
    (enough : ms.length < fuel) (rest : Bytes) :
    readMembers step fuel false g (Utf8.encode (Value.writeMembers ms) ++ 0x7D :: rest) =
      .ok (last, 0x7D :: rest) := by
  obtain ⟨fuel, rfl⟩ : ∃ k, fuel = k + 1 := ⟨fuel - 1, by omega⟩
  cases gathers with
  | done => rfl
  | member read later =>
    refine readMembers_cons ?_ (read _ (stops_laterMembers _ rest))
      (readMembers_later later (Nat.lt_of_succ_lt_succ enough) rest)
    rw [writeMembers_cons, Utf8.encode_append, List.append_assoc, encode_writeMember]
    rfl

theorem length_laterMembers (ms : List (String × Value)) :
    ms.length ≤ (Utf8.encode (laterMembers ms)).length := by
  induction ms with
  | nil => exact Nat.le_refl _
  | cons m ms ih =>
    have comma := Utf8.encodeChar_length_pos ','
    rw [laterMembers, List.flatMap_cons, List.cons_append, Utf8.encode_cons, Utf8.encode_append]
    rw [laterMembers] at ih
    simp only [List.length_append, List.length_cons]
    omega

theorem length_writeMembers (ms : List (String × Value)) :
    ms.length ≤ (Utf8.encode (Value.writeMembers ms)).length := by
  cases ms with
  | nil => exact Nat.zero_le _
  | cons m ms =>
    have first := congrArg List.length (encode_writeMember m [])
    have others := length_laterMembers ms
    rw [writeMembers_cons, Utf8.encode_append]
    simp only [List.length_append, List.length_cons] at first ⊢
    omega

/-! ### Fields -/

theorem isNull_toValue {s : Shape} (required : s.isOptional = false) {x : s.Carrier}
    (legible : s.Legible x) : (s.toValue x).isNull = false := by
  cases s with
  | single => simpa [Shape.toValue, Value.isNull] using legible.1
  | optional s => cases required
  | _ => rfl

/-- Members of other names leave a field as it is. -/
theorem gathers_beside {p : Presence} {name : String} {s : Shape} {fs : Fields} {depth : Nat}
    {d d' : fs.Draft} {ms : List (String × Value)} (x : Option (p.Read s.Carrier))
    (other : ∀ m ∈ ms, m.1 ≠ name) (gathers : Gathers (fs.readMember depth) d ms d') :
    Gathers ((Fields.field p name s fs).readMember depth) (x, d) ms (x, d') := by
  induction gathers with
  | done g => exact .done _
  | @member g g' last m ms read later ih =>
    refine .member (fun rest stops => ?_) (ih fun m hm => other m (List.mem_cons_of_mem _ hm))
    simp only [Fields.readMember, if_neg (other m (List.mem_cons_self ..)), read rest stops, bind,
      Except.bind]

theorem name_of_mem_toMembers : (fs : Fields) → (x : fs.Carrier) →
    ∀ m ∈ fs.toMembers x, m.1 ∈ fs.names
  | .done, () => fun m hm => nomatch hm
  | .field p name s rest, (x, others) => by
    have first {v : Value} {m : String × Value}
        (hm : m ∈ (name, v) :: rest.toMembers others) : m.1 ∈ name :: rest.names := by
      rcases List.mem_cons.mp hm with rfl | hm
      · exact List.mem_cons_self ..
      · exact List.mem_cons_of_mem _ (name_of_mem_toMembers rest others m hm)
    intro m hm
    cases p with
    | required => exact first hm
    | nullable => exact first hm
    | defaulted =>
      cases x with
      | none => exact List.mem_cons_of_mem _ (name_of_mem_toMembers rest others m hm)
      | some y => exact first hm

theorem readMember_name {p : Presence} {name : String} {s : Shape} {fs : Fields} {depth : Nat}
    {d : fs.Draft} {v : Value} {y : p.Read s.Carrier} {rest : Bytes}
    (read : p.read (s.read depth) (Utf8.encode v.write ++ rest) = .ok (y, rest)) :
    (Fields.field p name s fs).readMember depth name (none, d)
      (Utf8.encode (':' :: v.write) ++ rest) = .ok ((some y, d), rest) := by
  have next :
      colon (Utf8.encode (':' :: v.write) ++ rest) = .ok (Utf8.encode v.write ++ rest) := rfl
  simp only [Fields.readMember, if_true, next, bind, Except.bind, read, Option.isSome_none,
    Bool.false_eq_true, if_false, inside]

mutual

theorem Shape.read_write : (s : Shape) → (plain : s.isPlain = true) → (x : s.Carrier) →
    (legible : s.Legible x) → (depth : Nat) → (shallow : s.depth < depth) → (rest : Bytes) →
    (stops : Stops rest) →
    s.read depth (Utf8.encode (s.toValue x).write ++ rest) = .ok (x, rest)
  | .text, _, x, _, _, _, rest, _ => by
    rw [Shape.read, Shape.toValue, Value.write]
    exact readTextValue_write x rest
  | .flag, _, x, _, _, _, rest, _ => by
    rw [Shape.read, Shape.toValue]
    exact readFlag_write x rest
  | .single, _, x, legible, _, _, rest, stops => by
    have alone : readNumeral "f32" (fun n => .ok n.toSingle)
        (Utf8.encode (Number.Format.single.write singleStyle x)) = .ok (x, []) := legible.2
    rw [Shape.read, Shape.toValue, Value.write, writeFloating, if_pos legible.1]
    exact readNumeral_append stops alone
  | .byte, _, x, _, _, _, rest, stops => by
    rw [Shape.read, Shape.toValue]
    refine readNumeral_toDigits (lt_trans x.toNat_lt (by decide)) ?_ stops
    rw [below_word x.toNat_lt, Except.map, UInt8.ofNat_toNat]
  | .word32, _, x, _, _, _, rest, stops => by
    rw [Shape.read, Shape.toValue]
    refine readNumeral_toDigits (lt_trans x.toNat_lt (by decide)) ?_ stops
    rw [below_word x.toNat_lt, Except.map, UInt32.ofNat_toNat]
  | .word64, _, x, _, _, _, rest, stops => by
    rw [Shape.read, Shape.toValue]
    refine readNumeral_toDigits x.toNat_lt ?_ stops
    rw [below_word x.toNat_lt, Except.map, UInt64.ofNat_toNat]
  | .choice names, plain, i, _, depth, _, rest, _ => by
    rw [Shape.read, Shape.toValue, Value.write]
    exact readChoice_write (by simpa [Shape.isPlain] using plain) i depth rest
  | .optional s, plain, x, legible, depth, shallow, rest, stops => by
    obtain ⟨required, inner⟩ : s.isOptional = false ∧ s.isPlain = true := by
      simpa [Shape.isPlain] using plain
    have value : (Shape.optional s).toValue x = Value.ofOption s.toValue x := by cases x <;> rfl
    rw [Shape.read, value]
    exact readOptional_write (fun y hy => isNull_toValue required (legible y hy)) fun y hy =>
      s.read_write inner y (legible y hy) depth shallow rest stops
  | .list s, plain, xs, legible, depth, shallow, rest, _ => by
    have items : ∀ x ∈ xs, ∀ rest, Stops rest →
        s.read (depth - 1) (Utf8.encode (s.toValue x).write ++ rest) = .ok (x, rest) :=
      fun x hx rest stops => s.read_write plain x (legible x hx) (depth - 1)
        (Nat.lt_sub_of_add_lt shallow) rest stops
    have bytes : Utf8.encode ((Shape.list s).toValue xs).write ++ rest =
        0x5B :: (Utf8.encode (Value.writeItems (xs.map s.toValue)) ++ 0x5D :: rest) := by
      rw [Shape.toValue, Value.write, Utf8.encode_append, Utf8.encode_cons, List.append_assoc]
      rfl
    have enough : xs.length <
        (Utf8.encode (Value.writeItems (xs.map s.toValue)) ++ 0x5D :: rest).length + 1 := by
      -- Each item takes a byte at least, so the steps of the reader last for all of them.
      have := length_writeItems (xs.map s.toValue)
      simp only [List.length_map, List.length_append] at this ⊢
      omega
    have deep : ¬ depth ≤ 1 := by simp only [Shape.depth] at shallow; omega
    rw [bytes, Shape.read, skipSpace_cons rfl]
    simp only [if_true, if_neg deep, readItems_write items enough rest, bind, Except.bind]
    rfl
  | .record name fs, plain, x, legible, depth, shallow, rest, _ => by
    have members := fs.gathers plain x legible (depth - 1) (Nat.lt_sub_of_add_lt shallow)
    have bytes : Utf8.encode ((Shape.record name fs).toValue x).write ++ rest =
        0x7B :: (Utf8.encode (Value.writeMembers (fs.toMembers x)) ++ 0x7D :: rest) := by
      rw [Shape.toValue, Value.write, Utf8.encode_append, Utf8.encode_cons, List.append_assoc]
      rfl
    have enough : (fs.toMembers x).length <
        (Utf8.encode (Value.writeMembers (fs.toMembers x)) ++ 0x7D :: rest).length + 1 := by
      have := length_writeMembers (fs.toMembers x)
      simp only [List.length_append]
      omega
    have deep : ¬ depth ≤ 1 := by simp only [Shape.depth] at shallow; omega
    rw [bytes, Shape.read, skipSpace_cons rfl]
    simp only [if_true, if_neg deep, readMembers_write members enough rest, bind, Except.bind,
      fs.close_draw]
    rfl

theorem Fields.gathers : (fs : Fields) → (plain : fs.isPlain = true) → (x : fs.Carrier) →
    (legible : fs.Legible x) → (depth : Nat) → (shallow : fs.depth < depth) →
    Gathers (fs.readMember depth) fs.blank (fs.toMembers x) (fs.draw x)
  | .done, _, _, _, _, _ => .done _
  | .field p name s fs, plain, (x, others), legible, depth, shallow => by
    simp only [Fields.isPlain, Bool.and_eq_true, decide_eq_true_eq, Bool.not_eq_true'] at plain
    obtain ⟨⟨⟨apart, fresh⟩, first⟩, later⟩ := plain
    obtain ⟨low, lower⟩ : s.depth < depth ∧ fs.depth < depth := Nat.max_lt.mp shallow
    have value (y : s.Carrier) (held : s.Legible y) (rest : Bytes) (stops : Stops rest) :=
      s.read_write first y held depth low rest stops
    have other : ∀ m ∈ fs.toMembers others, m.1 ≠ name := fun m hm same =>
      fresh (same ▸ name_of_mem_toMembers fs others m hm)
    have beside (z : Option (p.Read s.Carrier)) :=
      gathers_beside (p := p) (s := s) z other (fs.gathers later others legible.2 depth lower)
    cases p with
    | required =>
      exact .member (fun rest stops => readMember_name (value x legible.1 rest stops)) (beside _)
    | nullable =>
      have written : (Fields.field .nullable name s fs).toMembers (x, others) =
          (name, Value.ofOption s.toValue x) :: fs.toMembers others := by cases x <;> rfl
      have required : s.isOptional = false := by simpa using apart
      rw [written]
      exact .member (fun rest stops => readMember_name (readOptional_write
        (fun y hy => isNull_toValue required (legible.1 y hy))
        fun y hy => value y (legible.1 y hy) rest stops)) (beside _)
    | defaulted =>
      cases x with
      | none => exact beside none
      | some y =>
        exact .member (fun rest stops => readMember_name (value y (legible.1 y rfl) rest stops))
          (beside _)

end

/-- A document that a shape writes is read back. -/
theorem Shape.ofDocument_write {s : Shape} (plain : s.isPlain = true)
    (shallow : s.depth < depthLimit) {x : s.Carrier} (legible : s.Legible x) :
    s.ofDocument (Utf8.ofText (s.toValue x).toText) = .ok x := by
  have read := s.read_write plain x legible depthLimit shallow [] trivial
  rw [List.append_nil] at read
  rw [Shape.ofDocument, readDocument, Value.toText, Utf8.ofText, String.toList_ofList, read]
  rfl

end EndpointHealth.Json
