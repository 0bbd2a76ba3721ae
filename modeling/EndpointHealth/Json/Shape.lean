import EndpointHealth.Json.Skip
import EndpointHealth.Json.Value
set_option autoImplicit false

/-!
Shapes of JSON values. A shape says which values a reader takes and what it makes of them, so one
reader, one writer and one conversion from values serve every record of this library.

A record may be written as an object, whose unknown members are passed over, or as a list of its
fields in order.
-/

namespace EndpointHealth.Json

/-- Whether a field may be missing: never; in an object, where it then counts as null; or anywhere,
where the record's owner puts in a default. -/
inductive Presence where
  | required | nullable | defaulted
  deriving DecidableEq, Repr

mutual

inductive Shape where
  | text
  | flag
  | single
  | byte
  | word32
  | word64
  /-- One of some names, written as a text or as an object with that name for null. -/
  | choice (names : List String)
  | optional (inner : Shape)
  | list (item : Shape)
  | record (name : String) (fields : Fields)

inductive Fields where
  | done
  | field (presence : Presence) (name : String) (shape : Shape) (rest : Fields)

end

@[reducible] def Presence.Read (p : Presence) (α : Type) : Type :=
  match p with
  | .required => α
  | .nullable => Option α
  | .defaulted => α

@[reducible] def Presence.Slot (p : Presence) (α : Type) : Type :=
  match p with
  | .required => α
  | .nullable => Option α
  | .defaulted => Option α

mutual

/-- What a value of a shape is read as. -/
@[reducible] def Shape.Carrier : Shape → Type
  | .text => String
  | .flag => Bool
  | .single => Number.Floating
  | .byte => UInt8
  | .word32 => UInt32
  | .word64 => UInt64
  | .choice names => Fin names.length
  | .optional s => Option s.Carrier
  | .list s => List s.Carrier
  | .record _ fs => fs.Carrier

@[reducible] def Fields.Carrier : Fields → Type
  | .done => Unit
  | .field p _ s rest => p.Slot s.Carrier × rest.Carrier

end

@[reducible] def Fields.Draft : Fields → Type
  | .done => Unit
  | .field p _ s rest => Option (p.Read s.Carrier) × rest.Draft

namespace Fields

def size : Fields → Nat
  | .done => 0
  | .field _ _ _ rest => rest.size + 1

def blank : (fs : Fields) → fs.Draft
  | .done => ()
  | .field _ _ _ rest => (none, rest.blank)

end Fields

def Presence.close {α : Type} : (p : Presence) → Option (p.Read α) → Option (p.Slot α)
  | .required, x => x
  | .nullable, x => some (x.getD none)
  | .defaulted, x => some x

def Presence.fill {α : Type} : (p : Presence) → p.Read α → p.Slot α
  | .required, x => x
  | .nullable, x => x
  | .defaulted, x => some x

/-- What a record holds for a field beyond the end of its list form. -/
def Presence.absent? {α : Type} : (p : Presence) → Option (p.Slot α)
  | .defaulted => some none
  | _ => none

def Fields.close : (fs : Fields) → fs.Draft → Except String fs.Carrier
  | .done, () => .ok ()
  | .field p name _ rest, (x, draft) =>
    match p.close x with
    | none => .error name
    | some v => (rest.close draft).map (v, ·)

def Fields.expectedLength (name : String) (n : Nat) : String :=
  "struct " ++ name ++ " with " ++ toString n ++ (if n = 1 then " element" else " elements")

/-! ### Reading from a document -/

def Numeral.found : Numeral → Found
  | .integer i => .integer i
  | .float x => .float x

/-- The fault of a value of another type than expected. Its own faults come first. -/
def unexpected {α : Type} (expected : String) (bs : Bytes) : Reading α :=
  match bs with
  | [] => fault .endsInValue []
  | b :: r =>
    if b = 0x6E then do fault (.wrongType .null expected) (← literal ofNull r)
    else if b = 0x74 then do fault (.wrongType (.flag true) expected) (← literal ofTrue r)
    else if b = 0x66 then do fault (.wrongType (.flag false) expected) (← literal ofFalse r)
    else if b = 0x2D then do
      let (n, r) ← readNumber true r
      fault (.wrongType n.found expected) r
    else if isDigit b then do
      let (n, r) ← readNumber false (b :: r)
      fault (.wrongType n.found expected) r
    else if b = 0x22 then do
      let (s, r) ← readText r
      fault (.wrongType (.text s) expected) r
    else if b = 0x5B then fault (.wrongType .list expected) (b :: r)
    else if b = 0x7B then fault (.wrongType .record expected) (b :: r)
    else faultAt .noValue (b :: r)

def readTextValue (expected : String) (bs : Bytes) : Reading (String × Bytes) :=
  match skipSpace bs with
  | [] => fault .endsInValue []
  | b :: r => if b = 0x22 then readText r else unexpected expected (b :: r)

def readFlag (bs : Bytes) : Reading (Bool × Bytes) :=
  match skipSpace bs with
  | [] => fault .endsInValue []
  | b :: r =>
    if b = 0x74 then do .ok (true, ← literal ofTrue r)
    else if b = 0x66 then do .ok (false, ← literal ofFalse r)
    else unexpected "a boolean" (b :: r)

def readNumeral {α : Type} (expected : String) (take : Numeral → Except Cause α) (bs : Bytes) :
    Reading (α × Bytes) :=
  match skipSpace bs with
  | [] => fault .endsInValue []
  | b :: r =>
    if b = 0x2D ∨ isDigit b then do
      let (n, r) ← if b = 0x2D then readNumber true r else readNumber false (b :: r)
      match take n with
      | .ok x => .ok (x, r)
      | .error c => fault c r
    else unexpected expected (b :: r)

/-- A natural number below `limit`; other integers are wrong values, floats wrong types. -/
def Numeral.below (limit : Nat) (expected : String) : Numeral → Except Cause Nat
  | .integer i =>
    if 0 ≤ i ∧ i < limit then .ok i.toNat else .error (.wrongValue (.integer i) expected)
  | .float x => .error (.wrongType (.float x) expected)

/-- Integers are rounded once, other numbers by way of double precision. -/
def Numeral.toSingle : Numeral → Number.Floating
  | .integer i => Number.Format.single.ofInt i
  | .float x => Number.Format.double.convert .single x

def indexOf? (name : String) : (names : List String) → Option (Fin names.length)
  | [] => none
  | n :: ns => if n = name then some ⟨0, Nat.succ_pos _⟩ else (indexOf? name ns).map Fin.succ

def readName (names : List String) (bs : Bytes) : Reading (Fin names.length × Bytes) := do
  let (s, r) ← readTextValue "variant identifier" bs
  match indexOf? s names with
  | some i => .ok (i, r)
  | none => fault (.unknownName s names) r

def readNull (bs : Bytes) : Reading Bytes :=
  match skipSpace bs with
  | [] => fault .endsInValue []
  | b :: r => if b = 0x6E then literal ofNull r else unexpected "unit" (b :: r)

def readChoice (names : List String) (depth : Nat) (bs : Bytes) :
    Reading (Fin names.length × Bytes) :=
  match skipSpace bs with
  | [] => fault .endsInValue []
  | b :: r =>
    if b = 0x22 then readName names (b :: r)
    else if b = 0x7B then
      if depth ≤ 1 then faultAt .tooDeep (b :: r)
      else do
        let (i, r) ← readName names r
        let r ← colon r
        let r ← inside (.variant (names.get i)) (readNull r)
        match skipSpace r with
        | [] => fault .endsInRecord []
        | b :: r => if b = 0x7D then .ok (i, r) else fault .noValue (b :: r)
    else faultAt .noValue (b :: r)

def readOptional {α : Type} (read : Bytes → Reading (α × Bytes)) (bs : Bytes) :
    Reading (Option α × Bytes) :=
  match skipSpace bs with
  | [] => do
    let (x, r) ← read []
    .ok (some x, r)
  | b :: r =>
    if b = 0x6E then do .ok (none, ← literal ofNull r)
    else do
      let (x, r) ← read (b :: r)
      .ok (some x, r)

def Presence.read {α : Type} (read : Bytes → Reading (α × Bytes)) :
    (p : Presence) → Bytes → Reading (p.Read α × Bytes)
  | .required => read
  | .nullable => readOptional read
  | .defaulted => read

def skipBrace (bs : Bytes) : Bytes :=
  match skipSpace bs with
  | [] => []
  | b :: r => if b = 0x7D then r else b :: r

mutual

/-- Reads a value of a shape; lists, records and variants may go less than `depth` deep. -/
def Shape.read : (s : Shape) → (depth : Nat) → Bytes → Reading (s.Carrier × Bytes)
  | .text, _, bs => readTextValue "a string" bs
  | .flag, _, bs => readFlag bs
  | .single, _, bs => readNumeral "f32" (fun n => .ok n.toSingle) bs
  | .byte, _, bs =>
    readNumeral "u8" (fun n => (n.below UInt8.size "u8").map UInt8.ofNat) bs
  | .word32, _, bs =>
    readNumeral "u32" (fun n => (n.below UInt32.size "u32").map UInt32.ofNat) bs
  | .word64, _, bs =>
    readNumeral "u64" (fun n => (n.below UInt64.size "u64").map UInt64.ofNat) bs
  | .choice names, depth, bs => readChoice names depth bs
  | .optional s, depth, bs => readOptional (s.read depth) bs
  | .list s, depth, bs =>
    match skipSpace bs with
    | [] => fault .endsInValue []
    | b :: r =>
      if b = 0x5B then
        if depth ≤ 1 then faultAt .tooDeep (b :: r)
        else do
          let (items, r) ← readItems (s.read (depth - 1)) (r.length + 1) 0 r
          .ok (items, ← closeList r)
      else unexpected "a sequence" (b :: r)
  | .record name fs, depth, bs =>
    match skipSpace bs with
    | [] => fault .endsInValue []
    | b :: r =>
      if b = 0x7B then
        if depth ≤ 1 then faultAt .tooDeep (b :: r)
        else do
          let (draft, r) ← readMembers (fs.readMember (depth - 1)) (r.length + 1) false fs.blank r
          match fs.close draft with
          | .ok x => .ok (x, r.drop 1)
          | .error field => fault (.missingField field) (r.drop 1)
      else if b = 0x5B then
        if depth ≤ 1 then faultAt .tooDeep (b :: r)
        else do
          let (x, r) ← fs.readInOrder (depth - 1) (Fields.expectedLength name fs.size) 0 r
          .ok (x, ← closeList r)
      else unexpected ("struct " ++ name) (b :: r)

def Fields.readMember :
    (fs : Fields) → (depth : Nat) → String → fs.Draft → Bytes → Reading (fs.Draft × Bytes)
  | .done, _, key, (), r => inside (.key key) do .ok ((), ← colon r >>= skipValue)
  | .field p name s rest, depth, key, (x, draft), r =>
    if key = name then
      if x.isSome then fault (.duplicateField name) (skipBrace r)
      else inside (.key key) do
        let (v, r) ← colon r >>= p.read (s.read depth)
        .ok ((some v, draft), r)
    else do
      let (draft, r) ← rest.readMember depth key draft r
      .ok ((x, draft), r)

def Fields.readInOrder :
    (fs : Fields) → (depth : Nat) → String → Nat → Bytes → Reading (fs.Carrier × Bytes)
  | .done, _, _, _, r => .ok ((), r)
  | .field p _ s rest, depth, expected, i, bs => do
    let (more, r) ← inside (.index i) (nextItem (i != 0) bs)
    if more then
      let (v, r) ← inside (.index i) (p.read (s.read depth) r)
      let (vs, r) ← rest.readInOrder depth expected (i + 1) r
      .ok ((p.fill v, vs), r)
    else
      match p.absent? with
      | some v => do
        let (vs, r) ← rest.readInOrder depth expected i r
        .ok ((v, vs), r)
      | none => fault (.wrongLength i expected) (r.drop 1)

end

def Shape.ofDocument (s : Shape) (doc : Bytes) : Reading s.Carrier :=
  readDocument (s.read depthLimit) doc

/-! ### Reading from a value -/

def valuesOf (name : String) (ms : List (String × Value)) : List Value :=
  (ms.filter (·.1 = name)).map (·.2)

def choiceOf? (names : List String) : Value → Option (Fin names.length)
  | .text s => indexOf? s names
  | .record [(s, .null)] => indexOf? s names
  | _ => none

def numberBelow? (limit : Nat) : Value → Option Nat
  | .number n => (n.below limit "").toOption
  | _ => none

def optionalOf? {α : Type} (take : Value → Option α) : Value → Option (Option α)
  | .null => some none
  | v => (take v).map some

def Presence.take {α : Type} (take : Value → Option α) :
    (p : Presence) → Value → Option (p.Read α)
  | .required => take
  | .nullable => optionalOf? take
  | .defaulted => take

mutual

def Shape.ofValue? : (s : Shape) → Value → Option s.Carrier
  | .text, .text s => some s
  | .flag, .flag b => some b
  | .single, .number n => some n.toSingle
  | .byte, v => (numberBelow? UInt8.size v).map UInt8.ofNat
  | .word32, v => (numberBelow? UInt32.size v).map UInt32.ofNat
  | .word64, v => (numberBelow? UInt64.size v).map UInt64.ofNat
  | .choice names, v => choiceOf? names v
  | .optional s, v => optionalOf? s.ofValue? v
  | .list s, .list items => items.mapM s.ofValue?
  | .record _ fs, .record ms => fs.ofMembers? ms
  | .record _ fs, .list items => fs.ofItems? items
  | _, _ => none

/-- The fields of a record, from its members; none may come twice. -/
def Fields.ofMembers? : (fs : Fields) → List (String × Value) → Option fs.Carrier
  | .done, _ => some ()
  | .field p name s rest, ms => do
    let x ← match valuesOf name ms with
      | [] => some none
      | [v] => (p.take s.ofValue? v).map some
      | _ => none
    let slot ← p.close x
    let others ← rest.ofMembers? ms
    some (slot, others)

def Fields.ofItems? : (fs : Fields) → List Value → Option fs.Carrier
  | .done, [] => some ()
  | .done, _ => none
  | .field p _ _ rest, [] => do
    let slot ← p.absent?
    let others ← rest.ofItems? []
    some (slot, others)
  | .field p _ s rest, v :: vs => do
    let x ← p.take s.ofValue? v
    let others ← rest.ofItems? vs
    some (p.fill x, others)

end

/-! ### Writing -/

mutual

/-- The value that writes something of a shape. Fields left to their defaults are not written. -/
def Shape.toValue : (s : Shape) → s.Carrier → Value
  | .text, x => .text x
  | .flag, x => .flag x
  | .single, x => .single x
  | .byte, x => .ofNat x.toNat
  | .word32, x => .ofNat x.toNat
  | .word64, x => .ofNat x.toNat
  | .choice names, i => .text (names.get i)
  | .optional _, none => .null
  | .optional s, some x => s.toValue x
  | .list s, xs => .list (xs.map s.toValue)
  | .record _ fs, x => .record (fs.toMembers x)

def Fields.toMembers : (fs : Fields) → fs.Carrier → List (String × Value)
  | .done, () => []
  | .field .required name s rest, (x, others) => (name, s.toValue x) :: rest.toMembers others
  | .field .nullable name s rest, (x, others) =>
    (name, match x with
      | none => .null
      | some y => s.toValue y) :: rest.toMembers others
  | .field .defaulted name s rest, (x, others) =>
    match x with
    | none => rest.toMembers others
    | some y => (name, s.toValue y) :: rest.toMembers others

end

end EndpointHealth.Json
