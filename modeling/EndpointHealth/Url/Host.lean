import EndpointHealth.Text.Percent
set_option autoImplicit false

/-!
Hosts of URLs: names, and addresses of four bytes or eight words. Names are ASCII.
-/

namespace EndpointHealth

inductive Host where
  /-- No name, as for files on the same machine. -/
  | empty
  | name (s : String)
  | four (address : UInt32)
  | eight (words : List UInt16)
  deriving DecidableEq, Repr

namespace Host

def digit? (base : Nat) (c : Char) : Option Nat :=
  if c.toNat < 0x80 then (Text.Hex.digit? (UInt8.ofNat c.toNat)).filter (· < base) else none

def positional? (base : Nat) (cs : List Char) : Option Nat :=
  cs.foldl (fun n c => n.bind fun n => (digit? base c).map (base * n + ·)) (some 0)

/-! ### Addresses of four bytes -/

/-- A part of an address: in base sixteen after `0x`, in base eight after another zero, and in base
ten otherwise. -/
def part? : List Char → Option Nat
  | [] => none
  | '0' :: 'x' :: r => positional? 16 r
  | '0' :: 'X' :: r => positional? 16 r
  | '0' :: c :: r => positional? 8 (c :: r)
  | cs => positional? 10 cs

def dotted (cs : List Char) : List (List Char) :=
  let ps := cs.splitOn '.'
  if 1 < ps.length ∧ ps.getLast? = some [] then ps.dropLast else ps

def endsInNumber (cs : List Char) : Bool :=
  match (dotted cs).getLast? with
  | none => false
  | some p => (p ≠ [] && p.all Char.isDigit) || (part? p).isSome

/-- The last of at most four parts stands for all bytes that are left. -/
def ofParts? : Nat → List Nat → Option Nat
  | _, [] => none
  | bytes, [n] => if n < Nat.pow 256 bytes then some n else none
  | bytes, n :: r =>
    if n < 256 ∧ 0 < bytes then
      (ofParts? (bytes - 1) r).map (n * Nat.pow 256 (bytes - 1) + ·)
    else none

def four? (cs : List Char) : Option Host := do
  let ps := dotted cs
  if 4 < ps.length then none
  else
    let ns ← ps.mapM part?
    (ofParts? 4 ns).map fun n => .four (UInt32.ofNat n)

/-! ### Addresses of eight words -/

def word? (cs : List Char) : Option UInt16 :=
  if cs = [] ∨ 4 < cs.length then none else (positional? 16 cs).map UInt16.ofNat

def byte? (cs : List Char) : Option Nat :=
  if cs = [] ∨ (cs.head? = some '0' ∧ 1 < cs.length) then none
  else (positional? 10 cs).filter (· < 256)

def lastWords? (cs : List Char) : Option (List UInt16) :=
  match (cs.splitOn '.').mapM byte? with
  | some [a, b, c, d] => some [UInt16.ofNat (256 * a + b), UInt16.ofNat (256 * c + d)]
  | _ => none

/-- The words between colons. The last of them may be four bytes if `mayEnd`. -/
def words? (mayEnd : Bool) : List (List Char) → Option (List UInt16)
  | [] => some []
  | [p] => if mayEnd && p.contains '.' then lastWords? p else (word? p).map fun w => [w]
  | p :: q :: r => do
    let w ← word? p
    let ws ← words? mayEnd (q :: r)
    some (w :: ws)

def group? (mayEnd : Bool) (cs : List Char) : Option (List UInt16) :=
  if cs = [] then some [] else words? mayEnd (cs.splitOn ':')

def atGap : List Char → List Char × Option (List Char)
  | ':' :: ':' :: r => ([], some r)
  | c :: r =>
    let (before, after) := atGap r
    (c :: before, after)
  | [] => ([], none)

/-- A pair of colons stands for one or more words of zero. -/
def eight? (cs : List Char) : Option Host := do
  match atGap cs with
  | (_, none) =>
    let ws ← group? true cs
    if ws.length = 8 then some (.eight ws) else none
  | (before, some after) =>
    let xs ← group? false before
    let ys ← group? true after
    let n := xs.length + ys.length
    if n ≤ 7 then some (.eight (xs ++ List.replicate (8 - n) 0 ++ ys)) else none

/-! ### Names -/

def isForbidden (c : Char) : Bool := "\x00\t\n\r #/:<>?@[\\]^|".toList.contains c

def isForbiddenInName (c : Char) : Bool :=
  isForbidden c || c.toNat ≤ 0x1F || c = '%' || c.toNat = 0x7F

def isControl (b : UInt8) : Bool := b < 0x20 || 0x7E < b

def ofName? (cs : List Char) : Option Host := do
  let decoded ← Text.Utf8.decode (Text.Percent.decode (Text.Utf8.encode cs))
  let name := decoded.map Char.toLower
  if name = [] ∨ name.any (fun c => isForbiddenInName c || 0x7F < c.toNat) then none
  else if endsInNumber name then four? name
  else some (.name (String.ofList name))

def ofText? (network : Bool) (cs : List Char) : Option Host :=
  match cs with
  | '[' :: r => if r.getLast? = some ']' then eight? r.dropLast else none
  | _ =>
    if network then ofName? cs
    else if cs = [] then some .empty
    else if cs.any isForbidden then none
    else some (.name (String.ofList (Text.Percent.encode isControl (Text.Utf8.encode cs))))

/-! ### Writing -/

def zeros (ws : List UInt16) : Nat := (ws.takeWhile (· = 0)).length

def gap? (ws : List UInt16) : Option (Nat × Nat) :=
  (List.range ws.length).foldl
    (fun best i =>
      let n := zeros (ws.drop i)
      if (best.map (·.2)).getD 1 < n then some (i, n) else best)
    none

def wordsText (ws : List UInt16) : List Char :=
  [':'].intercalate (ws.map fun w => Text.Hex.ofNat w.toNat)

def eightText (ws : List UInt16) : List Char :=
  match gap? ws with
  | none => wordsText ws
  | some (i, n) => wordsText (ws.take i) ++ ':' :: ':' :: wordsText (ws.drop (i + n))

def fourText (a : UInt32) : List Char :=
  let n := a.toNat
  ['.'].intercalate
    ([n / 16777216, n / 65536 % 256, n / 256 % 256, n % 256].map (Nat.toDigits 10))

def toText : Host → String
  | .empty => ""
  | .name s => s
  | .four a => String.ofList (fourText a)
  | .eight ws => String.ofList ('[' :: eightText ws ++ [']'])

end Host
end EndpointHealth
