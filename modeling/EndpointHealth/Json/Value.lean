import EndpointHealth.Json.Token
set_option autoImplicit false

/-!
JSON values of any form: reading them from a document, and writing them without white space.
-/

namespace EndpointHealth.Json

/-- A JSON value. Single-precision numbers are only written; reading gives doubles. -/
inductive Value where
  | null
  | flag (b : Bool)
  | number (n : Numeral)
  | single (x : Number.Floating)
  | text (s : String)
  | list (items : List Value)
  | record (members : List (String × Value))

namespace Value

def ofInt (i : Int) : Value := .number (.integer i)
def ofNat (n : Nat) : Value := ofInt n

def ofOption {α : Type} (f : α → Value) : Option α → Value
  | some a => f a
  | none => .null

/-- The value of the last member with this name. -/
def member? (name : String) : Value → Option Value
  | .record ms => (ms.reverse.find? (·.1 = name)).map (·.2)
  | _ => none

end Value

/-! ### Writing -/

def escapeChar (c : Char) : List Char :=
  if c = '"' then ['\\', '"']
  else if c = '\\' then ['\\', '\\']
  else if c = '\x08' then ['\\', 'b']
  else if c = '\x0c' then ['\\', 'f']
  else if c = '\n' then ['\\', 'n']
  else if c = '\r' then ['\\', 'r']
  else if c = '\t' then ['\\', 't']
  else if c.toNat < 0x20 then
    ['\\', 'u', '0', '0', Text.Hex.lower (c.toNat / 16), Text.Hex.lower (c.toNat % 16)]
  else [c]

def writeText (s : String) : List Char := '"' :: s.toList.flatMap escapeChar ++ ['"']

def writeInt (i : Int) : List Char :=
  if i < 0 then '-' :: Nat.toDigits 10 i.natAbs else Nat.toDigits 10 i.natAbs

def ofWord (s : String) : List Char := s.toList

/-- A number of a format; infinities and what is no number are null. -/
def writeFloating (f : Number.Format) (style : Number.DecimalStyle) (x : Number.Floating) :
    List Char :=
  if f.isFinite x.magnitude then f.write style x else ofWord "null"

mutual

def Value.write : Value → List Char
  | .null => ofWord "null"
  | .flag true => ofWord "true"
  | .flag false => ofWord "false"
  | .number (.integer i) => writeInt i
  | .number (.float x) => writeFloating .double doubleStyle x
  | .single x => writeFloating .single singleStyle x
  | .text s => writeText s
  | .list items => '[' :: Value.writeItems items ++ [']']
  | .record members => '\x7b' :: Value.writeMembers members ++ ['\x7d']

def Value.writeItems : List Value → List Char
  | [] => []
  | [v] => v.write
  | v :: w :: r => v.write ++ ',' :: Value.writeItems (w :: r)

def Value.writeMembers : List (String × Value) → List Char
  | [] => []
  | [(k, v)] => writeText k ++ ':' :: v.write
  | (k, v) :: m :: r => writeText k ++ ':' :: v.write ++ ',' :: Value.writeMembers (m :: r)

end

def Value.toText (v : Value) : String := String.ofList v.write

/-! ### Reading -/

/-- Reads the items of a list up to its closing bracket, at most `fuel` of them. A fault in an item
or before it names the item. -/
def readItems {α : Type} (read : Bytes → Reading (α × Bytes)) :
    Nat → Nat → Bytes → Reading (List α × Bytes)
  | 0, _, bs => fault .endsInList bs
  | fuel + 1, i, bs => do
    let (more, r) ← inside (.index i) (nextItem (i != 0) bs)
    if more then
      let (x, r) ← inside (.index i) (read r)
      let (xs, r) ← readItems read fuel (i + 1) r
      .ok (x :: xs, r)
    else .ok ([], r)

/-- Reads the members of a record up to its closing brace, at most `fuel` of them. What follows a
key is read by `step`, which carries along what has been gathered. -/
def readMembers {σ : Type} (step : String → σ → Bytes → Reading (σ × Bytes)) :
    Nat → Bool → σ → Bytes → Reading (σ × Bytes)
  | 0, _, _, bs => fault .endsInRecord bs
  | fuel + 1, later, gathered, bs => do
    let (more, r) ← nextMember later bs
    if more then
      let (key, r) ← readText (r.drop 1)
      let (gathered, r) ← step key gathered r
      readMembers step fuel true gathered r
    else .ok (gathered, r)

def depthLimit : Nat := 128

/-- Reads a value; lists and records may go less than `depth` deep. -/
def readValue : Nat → Bytes → Reading (Value × Bytes)
  | 0, bs => faultAt .tooDeep bs
  | depth + 1, bs =>
    match skipSpace bs with
    | [] => fault .endsInValue []
    | b :: r =>
      if b = 0x6E then do .ok (.null, ← literal ofNull r)
      else if b = 0x74 then do .ok (.flag true, ← literal ofTrue r)
      else if b = 0x66 then do .ok (.flag false, ← literal ofFalse r)
      else if b = 0x2D then do
        let (n, r) ← readNumber true r
        .ok (.number n, r)
      else if isDigit b then do
        let (n, r) ← readNumber false (b :: r)
        .ok (.number n, r)
      else if b = 0x22 then do
        let (s, r) ← readText r
        .ok (.text s, r)
      else if b = 0x5B then
        if depth = 0 then faultAt .tooDeep (b :: r)
        else do
          let (items, r) ← readItems (readValue depth) (r.length + 1) 0 r
          .ok (.list items, ← closeList r)
      else if b = 0x7B then
        if depth = 0 then faultAt .tooDeep (b :: r)
        else do
          let member (key : String) (ms : List (String × Value)) (r : Bytes) :=
            inside (.key key) do
              let (v, r) ← colon r >>= readValue depth
              .ok (ms ++ [(key, v)], r)
          let (members, r) ← readMembers member (r.length + 1) false [] r
          .ok (.record members, r.drop 1)
      else faultAt .noValue (b :: r)

def readDocument {α : Type} (read : Bytes → Reading (α × Bytes)) (doc : Bytes) : Reading α := do
  let (x, r) ← read doc
  closeDocument r
  .ok x

def Value.ofDocument (doc : Bytes) : Reading Value := readDocument (readValue depthLimit) doc

end EndpointHealth.Json
