set_option autoImplicit false

/-!
The UTF-8 form of texts, as lists of bytes.

Main statement: reading undoes writing (`decode_encode`).
-/

namespace EndpointHealth

abbrev Bytes := List UInt8

namespace Text.Utf8

def follow (n : Nat) : UInt8 := UInt8.ofNat (0x80 + n % 64)

def encodeChar (c : Char) : Bytes :=
  let n := c.toNat
  if n < 0x80 then [UInt8.ofNat n]
  else if n < 0x800 then [UInt8.ofNat (0xC0 + n / 64), follow n]
  else if n < 0x10000 then [UInt8.ofNat (0xE0 + n / 4096), follow (n / 64), follow n]
  else [UInt8.ofNat (0xF0 + n / 262144), follow (n / 4096), follow (n / 64), follow n]

def encode (cs : List Char) : Bytes := cs.flatMap encodeChar

@[simp] theorem encode_nil : encode [] = [] := rfl
@[simp] theorem encode_cons (c : Char) (cs : List Char) :
    encode (c :: cs) = encodeChar c ++ encode cs := rfl
@[simp] theorem encode_append (cs ds : List Char) : encode (cs ++ ds) = encode cs ++ encode ds := by
  simp [encode]

def bits? (b : UInt8) : Option Nat :=
  if 0x80 ≤ b.toNat ∧ b.toNat < 0xC0 then some (b.toNat - 0x80) else none

/-- The character with this code point, if it lies in `low` and above and is a scalar value. -/
def scalar? (low n : Nat) : Option Char :=
  if h : n.isValidChar then if low ≤ n then some (Char.ofNatAux n h) else none else none

/-- The first character of a list of bytes, if they start with a shortest well-formed form. -/
def decodeChar? : Bytes → Option (Char × Bytes)
  | [] => none
  | a :: r =>
    let n := a.toNat
    if n < 0x80 then (scalar? 0 n).map (·, r)
    else match r with
      | [] => none
      | b :: r => do
        let x ← bits? b
        if 0xC0 ≤ n ∧ n < 0xE0 then (scalar? 0x80 ((n - 0xC0) * 64 + x)).map (·, r)
        else match r with
          | [] => none
          | c :: r => do
            let y ← bits? c
            if 0xE0 ≤ n ∧ n < 0xF0 then
              (scalar? 0x800 ((n - 0xE0) * 4096 + x * 64 + y)).map (·, r)
            else match r with
              | [] => none
              | d :: r => do
                let z ← bits? d
                if 0xF0 ≤ n then
                  (scalar? 0x10000 ((n - 0xF0) * 262144 + x * 4096 + y * 64 + z)).map (·, r)
                else none

def decodeUpTo : Nat → Bytes → Option (List Char)
  | _, [] => some []
  | 0, _ :: _ => none
  | fuel + 1, bs => do
    let (c, r) ← decodeChar? bs
    (decodeUpTo fuel r).map (c :: ·)

def decode (bs : Bytes) : Option (List Char) := decodeUpTo bs.length bs

def ofText (s : String) : Bytes := encode s.toList

def text? (bs : Bytes) : Option String := (decode bs).map String.ofList

theorem toNat_ofNat_lt {n : Nat} (h : n < 256) : (UInt8.ofNat n).toNat = n := by
  simp; omega

theorem bits_follow (n : Nat) : bits? (follow n) = some (n % 64) := by
  have h : (follow n).toNat = 0x80 + n % 64 := toNat_ofNat_lt (by omega)
  simp only [bits?, h]
  exact (if_pos (by omega)).trans (congrArg some (by omega))

theorem scalar_toNat (c : Char) {low n : Nat} (hn : n = c.toNat) (h : low ≤ c.toNat) :
    scalar? low n = some c := by
  subst hn
  have hv : c.toNat.isValidChar := c.valid
  rw [scalar?, dif_pos hv, if_pos h]
  rfl

theorem toNat_lt (c : Char) : c.toNat < 0x110000 := by
  have : c.toNat.isValidChar := c.valid
  rcases this with h | h <;> omega

theorem decodeChar_encodeChar (c : Char) (r : Bytes) :
    decodeChar? (encodeChar c ++ r) = some (c, r) := by
  have hlt := toNat_lt c
  unfold encodeChar
  simp only
  split
  · rename_i h
    have ha : (UInt8.ofNat c.toNat).toNat = c.toNat := toNat_ofNat_lt (by omega)
    simp only [List.cons_append, List.nil_append, decodeChar?, ha]
    rw [if_pos h, scalar_toNat c rfl (by omega)]
    rfl
  split
  · rename_i h0 h
    have ha : (UInt8.ofNat (0xC0 + c.toNat / 64)).toNat = 0xC0 + c.toNat / 64 :=
      toNat_ofNat_lt (by omega)
    simp only [List.cons_append, List.nil_append, decodeChar?, ha, bits_follow]
    rw [if_neg (by omega)]
    simp only [Option.bind_eq_bind, Option.bind_some]
    rw [if_pos (by omega), scalar_toNat c (by omega) (by omega)]
    rfl
  split
  · rename_i h0 h1 h
    have ha : (UInt8.ofNat (0xE0 + c.toNat / 4096)).toNat = 0xE0 + c.toNat / 4096 :=
      toNat_ofNat_lt (by omega)
    simp only [List.cons_append, List.nil_append, decodeChar?, ha, bits_follow]
    rw [if_neg (by omega)]
    simp only [Option.bind_eq_bind, Option.bind_some]
    rw [if_neg (by omega), if_pos (by omega), scalar_toNat c (by omega) (by omega)]
    rfl
  · rename_i h0 h1 h
    have ha : (UInt8.ofNat (0xF0 + c.toNat / 262144)).toNat = 0xF0 + c.toNat / 262144 :=
      toNat_ofNat_lt (by omega)
    simp only [List.cons_append, List.nil_append, decodeChar?, ha, bits_follow]
    rw [if_neg (by omega)]
    simp only [Option.bind_eq_bind, Option.bind_some]
    rw [if_neg (by omega), if_neg (by omega), if_pos (by omega),
      scalar_toNat c (by omega) (by omega)]
    rfl

theorem encodeChar_length_pos (c : Char) : 0 < (encodeChar c).length := by
  unfold encodeChar
  dsimp only
  split
  · simp
  split
  · simp
  split <;> simp

theorem decodeUpTo_encode (cs : List Char) (fuel : Nat) (h : (encode cs).length ≤ fuel) :
    decodeUpTo fuel (encode cs) = some cs := by
  induction cs generalizing fuel with
  | nil => simp [decodeUpTo]
  | cons c cs ih =>
    have hpos := encodeChar_length_pos c
    rw [encode_cons, List.length_append] at h
    obtain ⟨a, as, ha⟩ := List.exists_cons_of_length_pos hpos
    obtain ⟨f, rfl⟩ : ∃ f, fuel = f + 1 := ⟨fuel - 1, by omega⟩
    have hd := decodeChar_encodeChar c (encode cs)
    rw [encode_cons]
    rw [ha, List.cons_append] at hd ⊢
    rw [decodeUpTo, hd]
    · simp [ih f (by omega)]
    · simp

theorem decode_encode (cs : List Char) : decode (encode cs) = some cs :=
  decodeUpTo_encode cs _ (Nat.le_refl _)

theorem text_ofText (s : String) : text? (ofText s) = some s := by
  simp [text?, ofText, decode_encode]

theorem encodeChar_of_ascii {c : Char} (ascii : c.toNat < 0x80) :
    encodeChar c = [UInt8.ofNat c.toNat] := by
  unfold encodeChar
  simp [ascii]

theorem encode_of_ascii {cs : List Char} (ascii : ∀ c ∈ cs, c.toNat < 0x80) :
    encode cs = cs.map fun c => UInt8.ofNat c.toNat := by
  induction cs with
  | nil => rfl
  | cons c cs ih =>
    rw [encode_cons, encodeChar_of_ascii (ascii c (List.mem_cons_self ..)),
      ih fun d hd => ascii d (List.mem_cons_of_mem _ hd)]
    rfl

/-- How many bytes from the front belong to no character but could have begun one: they are
replaced together. -/
def brokenLength : Bytes → Nat
  | a :: b :: r =>
    let n := a.toNat
    let m := b.toNat
    let fits :=
      (n == 0xE0 && 0xA0 ≤ m && m < 0xC0) || (n == 0xED && 0x80 ≤ m && m < 0xA0)
        || (0xE1 ≤ n && n ≤ 0xEF && n != 0xED && 0x80 ≤ m && m < 0xC0)
        || (n == 0xF0 && 0x90 ≤ m && m < 0xC0) || (0xF1 ≤ n && n ≤ 0xF3 && 0x80 ≤ m && m < 0xC0)
        || (n == 0xF4 && 0x80 ≤ m && m < 0x90)
    if fits then
      match r with
      | c :: _ => if 0xF0 ≤ n && (bits? c).isSome then 3 else 2
      | [] => 2
    else 1
  | _ => 1

def decodeLossyUpTo : Nat → Bytes → List Char
  | 0, _ => []
  | _, [] => []
  | fuel + 1, bs =>
    match decodeChar? bs with
    | some (c, r) => c :: decodeLossyUpTo fuel r
    | none => '\uFFFD' :: decodeLossyUpTo fuel (bs.drop (brokenLength bs))

def decodeLossy (bs : Bytes) : List Char := decodeLossyUpTo bs.length bs

end Text.Utf8
end EndpointHealth
