import EndpointHealth.Text.Utf8
import Mathlib.Data.String.Basic
set_option autoImplicit false

/-!
The order of texts. Main statement: texts compare by their characters as their UTF-8 forms do by
their bytes (`ofText_lt_ofText`).
-/

namespace EndpointHealth.Text.Utf8

theorem ofNat_lt_iff {m n : Nat} (hm : m < 256) (hn : n < 256) :
    UInt8.ofNat m < UInt8.ofNat n ↔ m < n := by
  rw [UInt8.lt_iff_toNat_lt, toNat_ofNat_lt hm, toNat_ofNat_lt hn]

theorem ofNat_inj_iff {m n : Nat} (hm : m < 256) (hn : n < 256) :
    UInt8.ofNat m = UInt8.ofNat n ↔ m = n := by
  rw [← UInt8.toNat_inj, toNat_ofNat_lt hm, toNat_ofNat_lt hn]

theorem follow_lt_iff (m n : Nat) : follow m < follow n ↔ m % 64 < n % 64 := by
  rw [follow, follow, ofNat_lt_iff (by omega) (by omega)]
  omega

theorem follow_inj_iff (m n : Nat) : follow m = follow n ↔ m % 64 = n % 64 := by
  rw [follow, follow, ofNat_inj_iff (by omega) (by omega)]
  omega

/-- The form of a higher character is higher, whatever comes after either of them. -/
theorem encodeChar_lt {c d : Char} (h : c < d) (r r' : Bytes) :
    encodeChar c ++ r < encodeChar d ++ r' := by
  have lower : c.toNat < d.toNat := h
  have hd := toNat_lt d
  unfold encodeChar
  dsimp only
  generalize c.toNat = m at *
  generalize d.toNat = n at *
  -- The longer of two forms begins with the higher byte; in forms of one length, bits follow bits.
  repeat' split
  all_goals
    simp (disch := omega) only [List.cons_append, List.nil_append, List.cons_lt_cons_iff,
      ofNat_lt_iff, ofNat_inj_iff, follow_lt_iff, follow_inj_iff]
    omega

theorem encode_lt {cs ds : List Char} (h : cs < ds) : encode cs < encode ds := by
  induction h with
  | @nil d ds =>
    obtain ⟨b, bs, bytes⟩ := List.exists_cons_of_length_pos (encodeChar_length_pos d)
    rw [encode_nil, encode_cons, bytes]
    exact List.Lex.nil
  | rel lower => exact encodeChar_lt lower _ _
  | cons _ ih => exact List.append_left_lt ih

theorem encode_lt_encode (cs ds : List Char) : encode cs < encode ds ↔ cs < ds := by
  refine ⟨fun h => ?_, encode_lt⟩
  rcases lt_trichotomy cs ds with lower | rfl | higher
  · exact lower
  · exact absurd h (List.lt_irrefl _)
  · exact absurd h (List.lt_asymm (encode_lt higher))

theorem ofText_lt_ofText (s t : String) : ofText s < ofText t ↔ s < t :=
  (encode_lt_encode _ _).trans String.lt_iff_toList_lt.symm

end EndpointHealth.Text.Utf8
