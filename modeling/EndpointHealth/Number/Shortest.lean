import EndpointHealth.Number.Binary
set_option autoImplicit false

/-!
Decimal texts of floating-point numbers: the fewest digits that read back as the number, of those
the nearest, laid out by a style.
-/

namespace EndpointHealth.Number

structure Decimal where
  digits : Nat
  exponent : Int
  deriving DecidableEq, Repr

/-- The reals that round to a magnitude, in quarters of its last bit `unit / den`. -/
structure Interval where
  low : Nat
  middle : Nat
  high : Nat
  ends : Bool
  unit : Nat
  den : Nat

def Format.interval (f : Format) (m : Nat) : Interval :=
  let (s, e) := f.parts m
  let (unit, den) := scaled 1 e
  let atLead := s == f.lead && f.lead * 2 ≤ m
  { low := 4 * s - (if atLead then 1 else 2), middle := 4 * s, high := 4 * s + 2
    ends := s % 2 == 0, unit := unit, den := 4 * den }

def Interval.compared (i : Interval) (d : Nat) (e : Int) (quarters : Nat) : Nat × Nat :=
  (d * Nat.pow 10 e.toNat * i.den, quarters * i.unit * Nat.pow 10 (-e).toNat)

def Interval.contains (i : Interval) (d : Nat) (e : Int) : Bool :=
  let (x, lo) := i.compared d e i.low
  let (y, hi) := i.compared d e i.high
  if i.ends then lo ≤ x && y ≤ hi else lo < x && y < hi

def pointPlace (num den : Nat) : Int :=
  if den ≤ num then (Nat.toDigits 10 (num / den)).length
  else
    let l := (Nat.toDigits 10 (den / num)).length
    if num * Nat.pow 10 (l - 1) = den then 2 - (l : Int) else 1 - (l : Int)

/-- The decimal with last place `e` that rounds to the magnitude and is nearest to it, of two the
even one. -/
def Interval.onGrid (i : Interval) (e : Int) : Option Nat :=
  let (one, v) := i.compared 1 e i.middle
  let d := v / one
  let below := i.contains d e && 0 < d
  let above := i.contains (d + 1) e
  match below, above with
  | true, true => some (roundEven v one)
  | true, false => some d
  | false, true => some (d + 1)
  | false, false => none

def Interval.search (i : Interval) : Nat → Int → Option Decimal
  | 0, _ => none
  | count + 1, e =>
    match i.onGrid e with
    | some d => some ⟨d, e⟩
    | none => i.search count (e - 1)

def Decimal.normalize : Nat → Decimal → Decimal
  | 0, d => d
  | fuel + 1, d =>
    if d.digits % 10 = 0 then Decimal.normalize fuel ⟨d.digits / 10, d.exponent + 1⟩ else d

/-- The shortest decimal that reads back as a finite magnitude above zero. -/
def Format.shortest (f : Format) (m : Nat) : Decimal :=
  let i := f.interval m
  let (n, d) := f.quotient m
  ((i.search 17 (pointPlace n d - 1)).getD ⟨0, 0⟩).normalize 20

/-- Where digits are written in place, as opposed to with an exponent: the point comes after more
than `above` and at most `upTo` places, counted from the first digit. -/
structure DecimalStyle where
  above : Int
  upTo : Int
  deriving DecidableEq, Repr

/-- The text of a decimal: at least one digit on both sides of a point in place; otherwise a
signed exponent after one digit, or one digit, a point and the rest. -/
def DecimalStyle.layout (style : DecimalStyle) (d : Decimal) : List Char :=
  let ds := Nat.toDigits 10 d.digits
  let place : Int := ds.length + d.exponent
  if style.above < place ∧ place ≤ style.upTo then
    if place ≤ 0 then '0' :: '.' :: List.replicate (-place).toNat '0' ++ ds
    else if ds.length ≤ place then ds ++ List.replicate (place - ds.length).toNat '0' ++ ['.', '0']
    else ds.take place.toNat ++ '.' :: ds.drop place.toNat
  else
    let x := place - 1
    let sign := if x < 0 then '-' else '+'
    ds.take 1 ++ (if ds.length = 1 then [] else '.' :: ds.drop 1)
      ++ 'e' :: sign :: Nat.toDigits 10 x.natAbs

def Format.write (f : Format) (style : DecimalStyle) (x : Floating) : List Char :=
  let body :=
    if x.magnitude = 0 then ['0', '.', '0'] else style.layout (f.shortest x.magnitude)
  if x.negative then '-' :: body else body

end EndpointHealth.Number
