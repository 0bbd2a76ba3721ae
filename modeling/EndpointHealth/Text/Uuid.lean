import EndpointHealth.Text.Hex
set_option autoImplicit false

/-!
Random identifiers: thirty-two hexadecimal digits in five groups, of which one digit is fixed and
another is one of four.

Main statement: the length of what is written (`length_ofWords`).
-/

namespace EndpointHealth.Text.Uuid

def digitAt (n place : Nat) : Nat :=
  let d := n / Nat.pow 16 (31 - place) % 16
  if place = 12 then 4 else if place = 16 then 8 + d % 4 else d

def group (n start size : Nat) : List Char :=
  (List.range size).map fun i => Hex.lower (digitAt n (start + i))

/-- The identifier that two random words give. -/
def ofWords (high low : UInt64) : List Char :=
  let n := high.toNat * UInt64.size + low.toNat
  group n 0 8 ++ '-' :: group n 8 4 ++ '-' :: group n 12 4 ++ '-' :: group n 16 4
    ++ '-' :: group n 20 12

theorem length_ofWords (high low : UInt64) : (ofWords high low).length = 36 := by
  simp [ofWords, group]

end EndpointHealth.Text.Uuid
