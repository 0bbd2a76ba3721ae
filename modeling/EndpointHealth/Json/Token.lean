import EndpointHealth.Json.Fault
set_option autoImplicit false

/-!
The words of a JSON document: white space, texts, numbers and the three literals.
-/

namespace EndpointHealth.Json

def isSpace (b : UInt8) : Bool := b = 0x20 || b = 0x0A || b = 0x09 || b = 0x0D

def skipSpace (bs : Bytes) : Bytes := bs.dropWhile isSpace

def isDigit (b : UInt8) : Bool := 0x30 ≤ b && b ≤ 0x39

def digitValue (b : UInt8) : Nat := b.toNat - 0x30

def literal : Bytes → Bytes → Reading Bytes
  | [], r => .ok r
  | _ :: _, [] => fault .endsInValue []
  | w :: ws, b :: r => if w = b then literal ws r else fault .noWord r

def ofNull : Bytes := [0x75, 0x6C, 0x6C]
def ofTrue : Bytes := [0x72, 0x75, 0x65]
def ofFalse : Bytes := [0x61, 0x6C, 0x73, 0x65]

/-! ### Texts -/

/-- Where the reader of a text stands after some of its bytes. -/
inductive TextState where
  | plain
  | escape
  /-- Inside four hexadecimal digits, after those given; the first half of a surrogate pair, if
  there is one, waits for this second one. -/
  | hex (high : Option Nat) (digits : Bytes)
  /-- After the first half of a surrogate pair. -/
  | half (high : Nat)
  | halfEscape (high : Nat)
  deriving DecidableEq, Repr

def codePoint (n : Nat) : Bytes := Text.Utf8.encodeChar (Char.ofNat n)

def closeHex (high : Option Nat) (n : Nat) : Except Cause (Bytes × TextState) :=
  match high with
  | none =>
    if 0xDC00 ≤ n ∧ n ≤ 0xDFFF then .error .loneSurrogate
    else if 0xD800 ≤ n ∧ n ≤ 0xDBFF then .ok ([], .half n)
    else .ok (codePoint n, .plain)
  | some h =>
    if 0xDC00 ≤ n ∧ n ≤ 0xDFFF then
      .ok (codePoint ((h - 0xD800) * 0x400 + (n - 0xDC00) + 0x10000), .plain)
    else .error .loneSurrogate

def shortEscape? (b : UInt8) : Option UInt8 :=
  if b = 0x22 ∨ b = 0x5C ∨ b = 0x2F then some b
  else if b = 0x62 then some 0x08
  else if b = 0x66 then some 0x0C
  else if b = 0x6E then some 0x0A
  else if b = 0x72 then some 0x0D
  else if b = 0x74 then some 0x09
  else none

def TextState.step (s : TextState) (b : UInt8) : Except Cause (Bytes × TextState) :=
  match s with
  | .plain =>
    if b = 0x5C then .ok ([], .escape)
    else if b < 0x20 then .error .control
    else .ok ([b], .plain)
  | .escape =>
    if b = 0x75 then .ok ([], .hex none [])
    else match shortEscape? b with
      | some c => .ok ([c], .plain)
      | none => .error .badEscape
  | .hex high digits =>
    let digits := digits ++ [b]
    if digits.length < 4 then .ok ([], .hex high digits)
    else match Text.Hex.number? digits with
      | some n => closeHex high n
      | none => .error .badEscape
  | .half high => if b = 0x5C then .ok ([], .halfEscape high) else .error .halfEscape
  | .halfEscape high => if b = 0x75 then .ok ([], .hex (some high) []) else .error .halfEscape

def textBytes : TextState → Bytes → Reading (Bytes × Bytes)
  | _, [] => fault .endsInText []
  | s, b :: r =>
    if s = .plain ∧ b = 0x22 then .ok ([], r)
    else match s.step b with
      | .error c => fault c r
      | .ok (out, s') => do
        let (rest, r') ← textBytes s' r
        .ok (out ++ rest, r')

def readText (bs : Bytes) : Reading (String × Bytes) := do
  let (content, r) ← textBytes .plain bs
  match Text.Utf8.text? content with
  | some s => .ok (s, r)
  | none => fault .notUtf8 r

/-- Where the reader of a text that nobody wants stands: of an escape only its extent matters. -/
inductive SkipState where
  | plain
  | escape
  | hex (digits : Bytes)
  deriving DecidableEq, Repr

def skipText : SkipState → Bytes → Reading Bytes
  | _, [] => fault .endsInText []
  | .plain, b :: r =>
    if b = 0x22 then .ok r
    else if b = 0x5C then skipText .escape r
    else if b < 0x20 then fault .control (b :: r)
    else skipText .plain r
  | .escape, b :: r =>
    if b = 0x75 then skipText (.hex []) r
    else if (shortEscape? b).isSome then skipText .plain r
    else fault .badEscape r
  | .hex digits, b :: r =>
    let digits := digits ++ [b]
    if digits.length < 4 then skipText (.hex digits) r
    else if (Text.Hex.number? digits).isSome then skipText .plain r
    else fault .badEscape r

/-! ### Numbers -/

/-- A number as a document writes it: an integer that sixty-four bits hold, or a float. -/
inductive Numeral where
  | integer (i : Int)
  | float (x : Number.Floating)
  deriving DecidableEq, Repr

def wordLimit : Nat := UInt64.size

def absorb : Nat → Bytes → Nat × Nat
  | s, [] => (s, 0)
  | s, d :: ds =>
    let s' := s * 10 + digitValue d
    if s' < wordLimit then
      let (t, n) := absorb s' ds
      (t, n + 1)
    else (s, 0)

def scaleDown : Nat → Nat → Nat → Nat × Nat
  | 0, m, e => (m, e)
  | fuel + 1, m, e =>
    if e ≤ 308 ∨ m = 0 then (m, e)
    else
      let f := Number.Format.double
      scaleDown fuel (f.div m (f.powerOfTen 308)) (e - 308)

/-- The double for a significand and a power of ten, rounded after each operation; none if it is
too big. -/
def fromParts (s : Nat) (e : Int) : Option Nat :=
  let f := Number.Format.double
  let m := f.nearest s 1
  if 0 ≤ e then
    if m = 0 then some 0
    else if 308 < e then none
    else
      let x := f.mul m (f.powerOfTen e.toNat)
      if f.isFinite x then some x else none
  else
    let (m, k) := scaleDown 4 m e.natAbs
    if m = 0 ∨ 308 < k then some 0 else some (f.div m (f.powerOfTen k))

def exponentLimit : Nat := 2147483648

/-- Reads the digits of an exponent: its value, or nothing and the bytes after the digit that
carries it past thirty-one bits. -/
def exponentDigits : Nat → Bytes → Option Nat × Bytes
  | n, [] => (some n, [])
  | n, b :: r =>
    if isDigit b then
      let n' := n * 10 + digitValue b
      if n' < exponentLimit then exponentDigits n' r else (none, r)
    else (some n, b :: r)

def readExponent (negative : Bool) (s : Nat) (e : Int) (bs : Bytes) : Reading (Numeral × Bytes) :=
  let (down, r) := match bs with
    | 0x2B :: r => (false, r)
    | 0x2D :: r => (true, r)
    | r => (false, r)
  match r with
  | [] => fault .endsInValue []
  | b :: r' =>
    if isDigit b then
      match exponentDigits 0 r with
      | (some n, r') =>
        match fromParts s (if down then e - n else e + n) with
        | some m => .ok (.float ⟨negative, m⟩, r')
        | none => fault .numberTooBig r'
      | (none, r') =>
        if s ≠ 0 ∧ ¬ down then fault .numberTooBig r'
        else .ok (.float ⟨negative, 0⟩, r'.dropWhile isDigit)
    else fault .badNumber r'

def closeNumber (negative : Bool) (s : Nat) (e : Int) (r : Bytes) : Reading (Numeral × Bytes) :=
  match r with
  | 0x65 :: r' => readExponent negative s e r'
  | 0x45 :: r' => readExponent negative s e r'
  | _ =>
    match fromParts s e with
    | some m => .ok (.float ⟨negative, m⟩, r)
    | none => fault .numberTooBig r

def readFraction (negative : Bool) (s : Nat) (e : Int) (bs : Bytes) : Reading (Numeral × Bytes) :=
  let digits := bs.takeWhile isDigit
  let r := bs.dropWhile isDigit
  let (s, n) := absorb s digits
  if digits = [] then faultAt (if r = [] then .endsInValue else .badNumber) r
  else closeNumber negative s (e - n) r

/-- The numeral of an integer: zero has a sign only as a float, and so have integers below the
range of sixty-four bits. -/
def integral (negative : Bool) (s : Nat) : Numeral :=
  if negative then
    if s = 0 ∨ wordLimit / 2 < s then .float ⟨true, Number.Format.double.nearest s 1⟩
    else .integer (-(s : Int))
  else .integer s

def readNumber (negative : Bool) (bs : Bytes) : Reading (Numeral × Bytes) :=
  match bs with
  | [] => fault .endsInValue []
  | b :: r =>
    if isDigit b then
      let digits := if b = 0x30 then [b] else bs.takeWhile isDigit
      let rest := if b = 0x30 then r else bs.dropWhile isDigit
      let (s, n) := absorb 0 digits
      let e : Int := (digits.length - n : Nat)
      match rest with
      | [] => if e = 0 then .ok (integral negative s, rest) else closeNumber negative s e rest
      | c :: rest' =>
        if b = 0x30 ∧ isDigit c then faultAt .badNumber rest
        else if c = 0x2E then readFraction negative s e rest'
        else if c = 0x65 ∨ c = 0x45 then closeNumber negative s e rest
        else if e = 0 then .ok (integral negative s, rest)
        else closeNumber negative s e rest
    else fault .badNumber r

def skipExponent (bs : Bytes) : Reading Bytes :=
  let r := match bs with
    | 0x2B :: r => r
    | 0x2D :: r => r
    | r => r
  match r with
  | [] => fault .badNumber []
  | b :: r' => if isDigit b then .ok (r'.dropWhile isDigit) else fault .badNumber r'

def skipAfterDigits (fraction : Bool) (r : Bytes) : Reading Bytes :=
  match r with
  | [] => .ok []
  | c :: r' =>
    if c = 0x65 ∨ c = 0x45 then skipExponent r'
    else if c = 0x2E ∧ fraction then
      let after := r'.dropWhile isDigit
      if after.length = r'.length then faultAt .badNumber r'
      else match after with
        | [] => .ok []
        | c :: r'' => if c = 0x65 ∨ c = 0x45 then skipExponent r'' else .ok after
    else .ok r

def skipNumber (bs : Bytes) : Reading Bytes :=
  match bs with
  | [] => fault .badNumber []
  | b :: r =>
    if b = 0x30 then
      match r with
      | c :: _ => if isDigit c then faultAt .badNumber r else skipAfterDigits true r
      | [] => .ok []
    else if isDigit b then skipAfterDigits true (r.dropWhile isDigit)
    else fault .badNumber r

/-! ### Separators -/

/-- Whether a list goes on with another item, and the rest from it or from the closing bracket.
The second argument tells whether an item came before. -/
def nextItem (later : Bool) (bs : Bytes) : Reading (Bool × Bytes) :=
  match skipSpace bs with
  | [] => fault .endsInList []
  | b :: r =>
    if b = 0x5D then .ok (false, b :: r)
    else if later then
      if b = 0x2C then
        match skipSpace r with
        | [] => fault .endsInValue []
        | c :: r' => if c = 0x5D then faultAt .commaAtEnd (c :: r') else .ok (true, c :: r')
      else faultAt .noCommaOrBracket (b :: r)
    else .ok (true, b :: r)

/-- Whether a record goes on with another member, and the rest from its key's quotation mark or
from the closing brace. -/
def nextMember (later : Bool) (bs : Bytes) : Reading (Bool × Bytes) :=
  match skipSpace bs with
  | [] => fault .endsInRecord []
  | b :: r =>
    if b = 0x7D then .ok (false, b :: r)
    else if later then
      if b = 0x2C then
        match skipSpace r with
        | [] => fault .endsInValue []
        | c :: r' =>
          if c = 0x22 then .ok (true, c :: r')
          else faultAt (if c = 0x7D then .commaAtEnd else .keyNotText) (c :: r')
      else faultAt .noCommaOrBrace (b :: r)
    else if b = 0x22 then .ok (true, b :: r)
    else faultAt .keyNotText (b :: r)

def colon (bs : Bytes) : Reading Bytes :=
  match skipSpace bs with
  | [] => fault .endsInRecord []
  | b :: r => if b = 0x3A then .ok r else faultAt .noColon (b :: r)

def closeList (bs : Bytes) : Reading Bytes :=
  match skipSpace bs with
  | [] => fault .endsInList []
  | b :: r =>
    if b = 0x5D then .ok r
    else if b = 0x2C then
      match skipSpace r with
      | [] => fault .trailing []
      | c :: r' => faultAt (if c = 0x5D then .commaAtEnd else .trailing) (c :: r')
    else faultAt .trailing (b :: r)

def closeDocument (bs : Bytes) : Reading Unit :=
  match skipSpace bs with
  | [] => .ok ()
  | b :: r => faultAt .trailing (b :: r)

end EndpointHealth.Json
