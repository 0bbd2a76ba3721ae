set_option autoImplicit false

/-!
Binary floating-point numbers in exact arithmetic: two formats, rounding of a quotient to the
nearest number, and the operations that reading a decimal needs.
-/

namespace EndpointHealth.Number

/-- A binary format: the bits of a significand, its leading one included, and the exponent field
that stands for infinity. -/
structure Format where
  precision : Nat
  topField : Nat
  deriving DecidableEq, Repr

namespace Format

def single : Format := ⟨24, 255⟩
def double : Format := ⟨53, 2047⟩

def lead (f : Format) : Nat := Nat.pow 2 (f.precision - 1)

def unitExponent (f : Format) : Int := 2 - (f.topField / 2 : Nat) - f.precision

/-- The magnitude of infinity; greater magnitudes are not numbers. -/
def infinity (f : Format) : Nat := f.topField * f.lead

end Format

/-- A number of some format: its sign, and exponent field and trailing significand read as one
natural number. In this form magnitudes are ordered like the numbers they stand for. -/
structure Floating where
  negative : Bool
  magnitude : Nat
  deriving DecidableEq, Repr

def scaled (m : Nat) (e : Int) : Nat × Nat := (m * Nat.pow 2 e.toNat, Nat.pow 2 (-e).toNat)

/-- The nearest natural number to a quotient, of two the even one. -/
def roundEven (num den : Nat) : Nat :=
  let q := num / den
  let r := num % den
  if den < 2 * r ∨ (den = 2 * r ∧ q % 2 = 1) then q + 1 else q

namespace Format

def parts (f : Format) (m : Nat) : Nat × Int :=
  let field := m / f.lead
  if field = 0 then (m, f.unitExponent)
  else (m % f.lead + f.lead, f.unitExponent + (field - 1 : Nat))

def quotient (f : Format) (m : Nat) : Nat × Nat :=
  let (s, e) := f.parts m
  scaled s e

def lastExponent (f : Format) (num den : Nat) : Int :=
  let e : Int := (num.log2 : Int) - den.log2 - (f.precision - 1 : Nat)
  let (n, d) := scaled f.lead e
  let e := if num * d < n * den then e - 1 else e
  max e f.unitExponent

/-- The magnitude nearest to a quotient, of two the even one; infinity beyond the greatest. -/
def nearest (f : Format) (num den : Nat) : Nat :=
  if num = 0 then 0
  else
    let e := f.lastExponent num den
    let (n, d) := scaled 1 e
    min ((e - f.unitExponent).toNat * f.lead + roundEven (num * d) (den * n)) f.infinity

def isFinite (f : Format) (m : Nat) : Bool := m < f.infinity

def ofInt (f : Format) (i : Int) : Floating := ⟨i < 0, f.nearest i.natAbs 1⟩

def convert (f g : Format) (x : Floating) : Floating :=
  if f.isFinite x.magnitude then
    let (n, d) := f.quotient x.magnitude
    ⟨x.negative, g.nearest n d⟩
  else ⟨x.negative, g.infinity + (if x.magnitude = f.infinity then 0 else 1)⟩

def mul (f : Format) (a b : Nat) : Nat :=
  let (n, d) := f.quotient a
  let (n', d') := f.quotient b
  f.nearest (n * n') (d * d')

def div (f : Format) (a b : Nat) : Nat :=
  let (n, d) := f.quotient a
  let (n', d') := f.quotient b
  f.nearest (n * d') (d * n')

def powerOfTen (f : Format) (k : Nat) : Nat := f.nearest (Nat.pow 10 k) 1

end Format

/-- The numbers 0 and 0.1 and such, by decimal digits and exponent, rounded once. -/
def Format.ofDecimal (f : Format) (digits : Nat) (exponent : Int) : Floating :=
  ⟨false, f.nearest (digits * Nat.pow 10 exponent.toNat) (Nat.pow 10 (-exponent).toNat)⟩

example : Format.single.nearest 1 10 = 0x3DCCCCCD := by decide
example : Format.double.nearest 1 10 = 0x3FB999999999999A := by decide
example : Format.single.nearest 2 1 = 0x40000000 := by decide
example : Format.single.nearest 16777217 1 = Format.single.nearest 16777216 1 := by decide

end EndpointHealth.Number
