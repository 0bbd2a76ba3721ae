import EndpointHealth.Text.Utf8
set_option autoImplicit false

/-!
Hexadecimal digits: single digits, bytes written as pairs of digits, and numbers.
-/

namespace EndpointHealth.Text.Hex

def digit? (b : UInt8) : Option Nat :=
  let n := b.toNat
  if 0x30 ≤ n ∧ n ≤ 0x39 then some (n - 0x30)
  else if 0x41 ≤ n ∧ n ≤ 0x46 then some (n - 0x41 + 10)
  else if 0x61 ≤ n ∧ n ≤ 0x66 then some (n - 0x61 + 10)
  else none

/-- The number that hexadecimal digits write, none if one of the bytes is no digit. -/
def number? (bs : Bytes) : Option Nat :=
  bs.foldl (fun acc b => acc.bind fun n => (digit? b).map (16 * n + ·)) (some 0)

def bytes? : Bytes → Option Bytes
  | [] => some []
  | [_] => none
  | a :: b :: r => do
    let x ← digit? a
    let y ← digit? b
    (bytes? r).map (UInt8.ofNat (16 * x + y) :: ·)

def lower (n : Nat) : Char := Char.ofNat (if n < 10 then 0x30 + n else 0x61 + (n - 10))

def upper (n : Nat) : Char := Char.ofNat (if n < 10 then 0x30 + n else 0x41 + (n - 10))

def ofNat (n : Nat) : List Char := Nat.toDigits 16 n

theorem digit_lower {n : Nat} (h : n < 16) : digit? (UInt8.ofNat (lower n).toNat) = some n := by
  have : ∀ k : Fin 16, digit? (UInt8.ofNat (lower k).toNat) = some k.val := by decide
  exact this ⟨n, h⟩

theorem digit_upper {n : Nat} (h : n < 16) : digit? (UInt8.ofNat (upper n).toNat) = some n := by
  have : ∀ k : Fin 16, digit? (UInt8.ofNat (upper k).toNat) = some k.val := by decide
  exact this ⟨n, h⟩

end EndpointHealth.Text.Hex
