import EndpointHealth.Json.Shape
import Mathlib.Data.List.TakeWhile
set_option autoImplicit false

/-!
Words of a JSON document read back: texts, whole numbers, and numbers followed by something else.

Main statements: a text is read from its escaped form (`readText_write`), a word of at most
sixty-four bits from its digits (`readNumber_toDigits`), and what a reader makes of a number does
not depend on what comes after it (`readNumber_append`).
-/

namespace EndpointHealth.Json

open EndpointHealth.Text

/-! ### Texts -/

/-- A byte that stands for itself within a text. -/
def isPlain (b : UInt8) : Bool := b ≠ 0x22 && b ≠ 0x5C && !(b < 0x20)

theorem textBytes_plain {bs r out rest : Bytes} (plain : ∀ b ∈ bs, isPlain b = true)
    (read : textBytes .plain r = .ok (out, rest)) :
    textBytes .plain (bs ++ r) = .ok (bs ++ out, rest) := by
  induction bs with
  | nil => exact read
  | cons b bs ih =>
    have first := plain b (List.mem_cons_self ..)
    simp only [isPlain, Bool.and_eq_true, decide_eq_true_eq, ne_eq, Bool.not_eq_true',
      decide_eq_false_iff_not] at first
    have later := ih fun a ha => plain a (List.mem_cons_of_mem _ ha)
    rw [List.cons_append, textBytes, if_neg (by simp [first.1.1])]
    simp [TextState.step, first.1.2, first.2, later, bind, Except.bind]

theorem textBytes_short {b c : UInt8} {r out rest : Bytes} (short : shortEscape? b = some c)
    (read : textBytes .plain r = .ok (out, rest)) :
    textBytes .plain (0x5C :: b :: r) = .ok (c :: out, rest) := by
  have other : b ≠ 0x75 := by rintro rfl; cases short
  simp [textBytes, TextState.step, short, other, read, bind, Except.bind]

theorem encodeChar_lower {n : Nat} (h : n < 16) :
    Utf8.encodeChar (Hex.lower n) = [UInt8.ofNat (Hex.lower n).toNat] := by
  have digits : ∀ k : Fin 16,
      Utf8.encodeChar (Hex.lower k) = [UInt8.ofNat (Hex.lower k).toNat] := by decide
  exact digits ⟨n, h⟩

theorem textBytes_control {c : Char} (small : c.toNat < 0x20) {r out rest : Bytes}
    (read : textBytes .plain r = .ok (out, rest)) :
    textBytes .plain (Utf8.encode ['\\', 'u', '0', '0', Hex.lower (c.toNat / 16),
      Hex.lower (c.toNat % 16)] ++ r) = .ok (Utf8.encodeChar c ++ out, rest) := by
  have bytes : Utf8.encode ['\\', 'u', '0', '0', Hex.lower (c.toNat / 16),
      Hex.lower (c.toNat % 16)] =
      [0x5C, 0x75, 0x30, 0x30] ++ (Utf8.encodeChar (Hex.lower (c.toNat / 16)) ++
        (Utf8.encodeChar (Hex.lower (c.toNat % 16)) ++ [])) := rfl
  have number : Hex.number? [0x30, 0x30, UInt8.ofNat (Hex.lower (c.toNat / 16)).toNat,
      UInt8.ofNat (Hex.lower (c.toNat % 16)).toNat] = some c.toNat := by
    have zero : Hex.digit? 0x30 = some 0 := rfl
    simp [Hex.number?, zero, Hex.digit_lower (show c.toNat / 16 < 16 by omega),
      Hex.digit_lower (show c.toNat % 16 < 16 by omega)]
    omega
  rw [bytes, encodeChar_lower (by omega), encodeChar_lower (by omega)]
  simp [textBytes, TextState.step, number, closeHex, codePoint, read, bind, Except.bind,
    show ¬ (0xDC00 ≤ c.toNat) by omega, show ¬ (0xD800 ≤ c.toNat) by omega]

theorem isPlain_ofNat {n : Nat} (small : n < 256) (printed : 0x20 ≤ n) (quote : n ≠ 0x22)
    (backslash : n ≠ 0x5C) : isPlain (UInt8.ofNat n) = true := by
  have value : (UInt8.ofNat n).toNat = n := Utf8.toNat_ofNat_lt small
  simp [isPlain, ← UInt8.toNat_inj, UInt8.lt_iff_toNat_lt, value, quote, backslash, printed]

theorem isPlain_encodeChar {c : Char} (quote : c ≠ '"') (backslash : c ≠ '\\')
    (printed : ¬ c.toNat < 0x20) : ∀ b ∈ Utf8.encodeChar c, isPlain b = true := by
  have other {d : Char} (different : c ≠ d) : c.toNat ≠ d.toNat := fun h =>
    different (Char.toNat_inj.mp h)
  have high {n : Nat} (small : n < 256) (large : 0x80 ≤ n) : isPlain (UInt8.ofNat n) = true :=
    isPlain_ofNat small (by omega) (by omega) (by omega)
  have limit := Utf8.toNat_lt c
  intro b hb
  unfold Utf8.encodeChar Utf8.follow at hb
  dsimp only at hb
  split at hb
  · cases List.mem_singleton.mp hb
    exact isPlain_ofNat (by omega) (by omega) (other quote) (other backslash)
  split at hb
  · simp only [List.mem_cons, List.not_mem_nil, or_false] at hb
    rcases hb with rfl | rfl <;> exact high (by omega) (by omega)
  split at hb
  · simp only [List.mem_cons, List.not_mem_nil, or_false] at hb
    rcases hb with rfl | rfl | rfl <;> exact high (by omega) (by omega)
  · simp only [List.mem_cons, List.not_mem_nil, or_false] at hb
    rcases hb with rfl | rfl | rfl | rfl <;> exact high (by omega) (by omega)

theorem textBytes_escapeChar (c : Char) {r out rest : Bytes}
    (read : textBytes .plain r = .ok (out, rest)) :
    textBytes .plain (Utf8.encode (escapeChar c) ++ r) = .ok (Utf8.encodeChar c ++ out, rest) := by
  unfold escapeChar
  iterate 7
    split
    · rename_i h; subst h; exact textBytes_short rfl read
  split
  · exact textBytes_control (by assumption) read
  · rename_i quote backslash _ _ _ _ _ printed
    simpa using textBytes_plain (isPlain_encodeChar quote backslash printed) read

theorem textBytes_write (cs : List Char) (r : Bytes) :
    textBytes .plain (Utf8.encode (cs.flatMap escapeChar) ++ 0x22 :: r) =
      .ok (Utf8.encode cs, r) := by
  induction cs with
  | nil => rfl
  | cons c cs ih =>
    rw [List.flatMap_cons, Utf8.encode_append, List.append_assoc]
    exact textBytes_escapeChar c ih

theorem readText_write (s : String) (r : Bytes) :
    readText (Utf8.encode (s.toList.flatMap escapeChar) ++ 0x22 :: r) = .ok (s, r) := by
  have content : Utf8.text? (Utf8.encode s.toList) = some s := Utf8.text_ofText s
  simp [readText, textBytes_write, content, bind, Except.bind]

/-! ### Numbers -/

/-- What may come after a value in a document without white space. -/
def Stops : Bytes → Prop
  | [] => True
  | b :: _ => b = 0x2C ∨ b = 0x5D ∨ b = 0x7D

variable {bs rest : Bytes} {negative : Bool} {s : Nat} {e : Int} {n : Numeral}

theorem Stops.takeWhile_append (stops : Stops rest) (bs : Bytes) :
    (bs ++ rest).takeWhile isDigit = bs.takeWhile isDigit := by
  induction bs with
  | nil =>
    cases rest with
    | nil => rfl
    | cons b r => rcases stops with rfl | rfl | rfl <;> rfl
  | cons b bs ih => cases h : isDigit b <;> simp [h, ih]

theorem Stops.dropWhile_append (stops : Stops rest) (bs : Bytes) :
    (bs ++ rest).dropWhile isDigit = bs.dropWhile isDigit ++ rest := by
  induction bs with
  | nil =>
    cases rest with
    | nil => rfl
    | cons b r => rcases stops with rfl | rfl | rfl <;> rfl
  | cons b bs ih => cases h : isDigit b <;> simp [h, ih]

theorem exponentDigits_append (stops : Stops rest) (k : Nat) (bs : Bytes) :
    exponentDigits k (bs ++ rest) =
      ((exponentDigits k bs).1, (exponentDigits k bs).2 ++ rest) := by
  induction bs generalizing k with
  | nil =>
    cases rest with
    | nil => rfl
    | cons b r => rcases stops with rfl | rfl | rfl <;> rfl
  | cons b bs ih =>
    rw [List.cons_append, exponentDigits, exponentDigits]
    split
    · dsimp only
      split
      · exact ih _
      · rfl
    · rfl

theorem readExponent_append (stops : Stops rest) {r : Bytes}
    (read : readExponent negative s e bs = .ok (n, r)) :
    readExponent negative s e (bs ++ rest) = .ok (n, r ++ rest) := by
  unfold readExponent at read ⊢
  split at read
  rename_i down digits signed
  split
  rename_i down' digits' signed'
  cases bs with
  | nil => cases signed; cases read
  | cons b bs =>
    obtain ⟨rfl, rfl⟩ : down' = down ∧ digits' = digits ++ rest := by
      split at signed <;> cases signed <;> simp_all
    cases digits with
    | nil => cases read
    | cons d ds =>
      rw [List.cons_append]
      dsimp only at read ⊢
      rw [← List.cons_append, exponentDigits_append stops]
      cases digit : isDigit d with
      | false => rw [digit] at read; cases read
      | true =>
        rw [digit] at read
        generalize exponentDigits 0 (d :: ds) = split at read ⊢
        obtain ⟨value, left⟩ := split
        simp only [if_true] at read ⊢
        cases value with
        | none =>
          dsimp only at read ⊢
          split at read
          · cases read
          · rename_i vanishes
            cases read
            rw [if_neg vanishes, stops.dropWhile_append]
        | some value =>
          dsimp only at read ⊢
          split at read
          · cases read; rfl
          · cases read

/-- An exponent begins with a letter. -/
theorem closeNumber_eq (r : Bytes) :
    closeNumber negative s e r =
      if r.head? = some 0x65 ∨ r.head? = some 0x45 then readExponent negative s e r.tail
      else match fromParts s e with
        | some m => .ok (.float ⟨negative, m⟩, r)
        | none => fault .numberTooBig r := by
  unfold closeNumber
  split
  · rfl
  · rfl
  · rename_i small capital
    refine (if_neg ?_).symm
    cases r <;> simp_all

theorem closeNumber_append (stops : Stops rest) {r : Bytes}
    (read : closeNumber negative s e bs = .ok (n, r)) :
    closeNumber negative s e (bs ++ rest) = .ok (n, r ++ rest) := by
  rw [closeNumber_eq] at read ⊢
  split at read
  · rename_i letter
    cases bs with
    | nil => simp at letter
    | cons b bs =>
      rw [if_pos (by exact letter)]
      exact readExponent_append stops read
  · rename_i other
    rw [if_neg]
    · split at read
      · cases read; rfl
      · cases read
    · cases bs with
      | nil =>
        cases rest with
        | nil => simp
        | cons c t => rcases stops with rfl | rfl | rfl <;> simp
      | cons b bs => exact other

theorem readFraction_append (stops : Stops rest) {r : Bytes}
    (read : readFraction negative s e bs = .ok (n, r)) :
    readFraction negative s e (bs ++ rest) = .ok (n, r ++ rest) := by
  unfold readFraction at read ⊢
  rw [stops.takeWhile_append, stops.dropWhile_append]
  dsimp only at read ⊢
  split at read
  · cases read
  · rename_i digits
    rw [if_neg digits]
    exact closeNumber_append stops read

/-- An integer ends with its digits, if they fit in a word. -/
theorem endNumber_append (stops : Stops rest) {r : Bytes}
    (read : (if e = 0 then .ok (integral negative s, bs) else closeNumber negative s e bs) =
      (.ok (n, r) : Reading (Numeral × Bytes))) :
    (if e = 0 then .ok (integral negative s, bs ++ rest)
      else closeNumber negative s e (bs ++ rest)) =
        (.ok (n, r ++ rest) : Reading (Numeral × Bytes)) := by
  split at read
  · rename_i whole
    cases read
    exact if_pos whole
  · rename_i whole
    rw [if_neg whole]
    exact closeNumber_append stops read

/-- What is made of a number does not depend on what comes after it. -/
theorem readNumber_append (stops : Stops rest) {r : Bytes}
    (read : readNumber negative bs = .ok (n, r)) :
    readNumber negative (bs ++ rest) = .ok (n, r ++ rest) := by
  cases bs with
  | nil => cases read
  | cons b bs =>
    rw [List.cons_append]
    unfold readNumber at read ⊢
    dsimp only at read ⊢
    cases digit : isDigit b with
    | false => rw [digit] at read; cases read
    | true =>
      rw [digit] at read
      have left : (if b = 0x30 then bs ++ rest else (b :: (bs ++ rest)).dropWhile isDigit) =
          (if b = 0x30 then bs else (b :: bs).dropWhile isDigit) ++ rest := by
        split
        · rfl
        · exact stops.dropWhile_append (b :: bs)
      rw [left, ← List.cons_append, stops.takeWhile_append]
      generalize (if b = 0x30 then [b] else (b :: bs).takeWhile isDigit) = digits at read ⊢
      generalize (if b = 0x30 then bs else (b :: bs).dropWhile isDigit) = after at read ⊢
      generalize absorb 0 digits = absorbed at read ⊢
      simp only [if_true] at read ⊢
      cases after with
      | nil =>
        cases rest with
        | nil => simpa using read
        | cons c t =>
          -- What comes after the value could not be more of the number.
          have other : ¬ (b = 0x30 ∧ isDigit c = true) ∧ c ≠ 0x2E ∧ ¬ (c = 0x65 ∨ c = 0x45) := by
            rcases stops with rfl | rfl | rfl <;> simp [isDigit]
          rw [List.nil_append]
          dsimp only at read ⊢
          rw [if_neg other.1, if_neg other.2.1, if_neg other.2.2]
          exact endNumber_append stops read
      | cons c t =>
        rw [List.cons_append]
        dsimp only at read ⊢
        split at read
        · cases read
        rename_i led
        rw [if_neg led]
        split at read
        · rename_i point
          rw [if_pos point]
          exact readFraction_append stops read
        rename_i point
        rw [if_neg point]
        split at read
        · rename_i letter
          rw [if_pos letter]
          exact closeNumber_append stops read
        rename_i letter
        rw [if_neg letter]
        exact endNumber_append stops read

def asciiByte (c : Char) : UInt8 := UInt8.ofNat c.toNat

theorem toNat_lt_of_isDigit {c : Char} (digit : c.isDigit = true) :
    48 ≤ c.toNat ∧ c.toNat ≤ 57 := by
  simpa [Char.isDigit, UInt32.le_iff_toNat_le] using digit

theorem isDigit_asciiByte {c : Char} (digit : c.isDigit = true) : isDigit (asciiByte c) = true := by
  obtain ⟨low, high⟩ := toNat_lt_of_isDigit digit
  have value : (asciiByte c).toNat = c.toNat := Utf8.toNat_ofNat_lt (by omega)
  simp [isDigit, UInt8.le_iff_toNat_le, value, low, high]

theorem digitValue_asciiByte {c : Char} (digit : c.isDigit = true) :
    digitValue (asciiByte c) = c.toNat - '0'.toNat := by
  obtain ⟨low, high⟩ := toNat_lt_of_isDigit digit
  have value : (asciiByte c).toNat = c.toNat := Utf8.toNat_ofNat_lt (by omega)
  rw [digitValue, value]
  rfl

theorem le_ofDigitChars (cs : List Char) (k : Nat) : k ≤ Nat.ofDigitChars 10 cs k := by
  induction cs generalizing k with
  | nil => simp
  | cons c cs ih =>
    rw [Nat.ofDigitChars_cons]
    exact le_trans (by omega) (ih _)

theorem absorb_digits {cs : List Char} (digits : ∀ c ∈ cs, c.isDigit = true) (k : Nat)
    (fits : Nat.ofDigitChars 10 cs k < wordLimit) :
    absorb k (cs.map asciiByte) = (Nat.ofDigitChars 10 cs k, cs.length) := by
  induction cs generalizing k with
  | nil => simp [absorb]
  | cons c cs ih =>
    have first := digitValue_asciiByte (digits c (List.mem_cons_self ..))
    have later := ih (fun d hd => digits d (List.mem_cons_of_mem _ hd))
    rw [Nat.ofDigitChars_cons, Nat.mul_comm] at fits ⊢
    have bound := lt_of_le_of_lt (le_ofDigitChars cs _) fits
    rw [List.map_cons, absorb, first]
    dsimp only
    rw [if_pos bound, later _ fits]
    rfl

/-- Only zero begins with a zero. -/
theorem toDigits_zero_first {k : Nat} {cs : List Char} (h : Nat.toDigits 10 k = '0' :: cs) :
    k = 0 := by
  induction k using Nat.strongRecOn generalizing cs with
  | ind k ih =>
    by_cases small : k < 10
    · rw [Nat.toDigits_of_lt_base small] at h
      have first : Nat.digitChar k = '0' := (List.cons.inj h).1
      simpa using first
    · rw [Nat.toDigits_of_base_le (by omega) (by omega)] at h
      cases more : Nat.toDigits 10 (k / 10) with
      | nil => exact absurd more Nat.toDigits_ne_nil
      | cons d ds =>
        rw [more, List.cons_append] at h
        obtain ⟨rfl, -⟩ := List.cons.inj h
        have := ih (k / 10) (by omega) more
        omega

theorem readNumber_toDigits {k : Nat} (fits : k < wordLimit) (stops : Stops rest) :
    readNumber false (Utf8.encode (Nat.toDigits 10 k) ++ rest) = .ok (.integer k, rest) := by
  refine readNumber_append stops (r := []) ?_
  have digits : ∀ c ∈ Nat.toDigits 10 k, c.isDigit = true := fun c hc =>
    Nat.isDigit_of_mem_toDigits (by decide) (by decide) hc
  have whole : Nat.ofDigitChars 10 (Nat.toDigits 10 k) 0 = k := Nat.ofDigitChars_ten_toDigits
  have absorbed := absorb_digits digits 0 (by rwa [whole])
  rw [whole] at absorbed
  have bytes : ∀ b ∈ (Nat.toDigits 10 k).map asciiByte, isDigit b = true := fun b hb => by
    obtain ⟨c, hc, rfl⟩ := List.mem_map.mp hb
    exact isDigit_asciiByte (digits c hc)
  rw [Utf8.encode_of_ascii fun c hc => by
    have := toNat_lt_of_isDigit (digits c hc)
    omega]
  change readNumber false ((Nat.toDigits 10 k).map asciiByte) = _
  by_cases zero : k = 0
  · subst zero; rfl
  cases h : Nat.toDigits 10 k with
  | nil => exact absurd h Nat.toDigits_ne_nil
  | cons c cs =>
    rw [h] at absorbed bytes digits
    have first : asciiByte c ≠ 0x30 := fun same => by
      have value := digitValue_asciiByte (digits c (List.mem_cons_self ..))
      have limits := toNat_lt_of_isDigit (digits c (List.mem_cons_self ..))
      rw [same] at value
      have zeroDigit : c = '0' := Char.toNat_inj.mp (by
        have : digitValue 0x30 = 0 := rfl
        have : '0'.toNat = 48 := rfl
        omega)
      exact zero (toDigits_zero_first (zeroDigit ▸ h))
    rw [List.map_cons] at bytes absorbed ⊢
    unfold readNumber
    dsimp only
    rw [if_pos (bytes _ (List.mem_cons_self ..)), if_neg first, if_neg first,
      List.takeWhile_eq_self_iff.mpr bytes, List.dropWhile_eq_nil_iff.mpr bytes, absorbed]
    simp [integral]

end EndpointHealth.Json
