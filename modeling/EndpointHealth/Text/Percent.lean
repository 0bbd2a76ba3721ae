import EndpointHealth.Text.Hex
set_option autoImplicit false

/-!
Percent coding of bytes.

Main statement: decoding undoes encoding whenever the percent sign itself is encoded
(`decode_encode`).
-/

namespace EndpointHealth.Text.Percent

/-- Bytes in the set are written as a percent sign and two upper-case digits, the others as they
are. -/
def encode (set : UInt8 → Bool) : Bytes → List Char
  | [] => []
  | b :: r =>
    if set b then '%' :: Hex.upper (b.toNat / 16) :: Hex.upper (b.toNat % 16) :: encode set r
    else Char.ofNat b.toNat :: encode set r

/-- A percent sign that two digits do not follow stays as it is. -/
def decode : Bytes → Bytes
  | 0x25 :: a :: b :: r =>
    match Hex.digit? a, Hex.digit? b with
    | some x, some y => UInt8.ofNat (16 * x + y) :: decode r
    | _, _ => 0x25 :: decode (a :: b :: r)
  | a :: r => a :: decode r
  | [] => []

theorem decode_cons_of_ne {a : UInt8} (r : Bytes) (h : a ≠ 0x25) :
    decode (a :: r) = a :: decode r := by
  rw [decode]
  simp_all

theorem decode_encode (set : UInt8 → Bool) (hset : set 0x25 = true)
    (hascii : ∀ b, set b = false → b.toNat < 0x80) (bs : Bytes) :
    decode ((encode set bs).map fun c => UInt8.ofNat c.toNat) = bs := by
  induction bs with
  | nil => rfl
  | cons b r ih =>
    have hb : b.toNat < 256 := b.toNat_lt
    rw [encode]
    split
    · simp only [List.map_cons]
      rw [show UInt8.ofNat '%'.toNat = 0x25 from rfl, decode, Hex.digit_upper (by omega),
        Hex.digit_upper (by omega), ih]
      simp only [List.cons.injEq, and_true]
      rw [show 16 * (b.toNat / 16) + b.toNat % 16 = b.toNat by omega]
      exact UInt8.ofNat_toNat
    · rename_i hs
      have hne : b ≠ 0x25 := fun h => hs (h ▸ hset)
      have hlt := hascii b (by simpa using hs)
      have hc : (Char.ofNat b.toNat).toNat = b.toNat := by
        rw [Char.ofNat, dif_pos (Or.inl (by omega))]
        rfl
      rw [List.map_cons, hc, UInt8.ofNat_toNat, decode_cons_of_ne _ hne, ih]

end EndpointHealth.Text.Percent
