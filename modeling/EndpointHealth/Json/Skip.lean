import EndpointHealth.Json.Token
set_option autoImplicit false

/-!
Passing over a value that nobody wants. Its form is checked; how deep it goes, which numbers it
holds and which characters its texts write are not.
-/

namespace EndpointHealth.Json

inductive Bracket where
  | list | record
  deriving DecidableEq, Repr

namespace Bracket

def closing : Bracket → UInt8
  | .list => 0x5D
  | .record => 0x7D

def ending : Bracket → Cause
  | .list => .endsInList
  | .record => .endsInRecord

def noComma : Bracket → Cause
  | .list => .noCommaOrBracket
  | .record => .noCommaOrBrace

def beforeValue : Bracket → Bytes → Reading Bytes
  | .list, bs => .ok bs
  | .record, bs =>
    match skipSpace bs with
    | [] => fault .endsInRecord []
    | b :: r => if b = 0x22 then skipText .plain r >>= colon else faultAt .keyNotText (b :: r)

end Bracket

/-- Where the passing stands: before a value, or after one; or just after a bracket opened. -/
inductive Stage where
  | value | after | opened
  deriving DecidableEq, Repr

/-- Passes over the rest of the brackets that are open, innermost first. Every second step takes a
byte. -/
def skipOpen : Nat → Stage → List Bracket → Bytes → Reading Bytes
  | 0, _, _, bs => fault .endsInValue bs
  | fuel + 1, .value, opens, bs =>
    match skipSpace bs with
    | [] => fault .endsInValue []
    | b :: r =>
      if b = 0x6E then literal ofNull r >>= skipOpen fuel .after opens
      else if b = 0x74 then literal ofTrue r >>= skipOpen fuel .after opens
      else if b = 0x66 then literal ofFalse r >>= skipOpen fuel .after opens
      else if b = 0x2D then skipNumber r >>= skipOpen fuel .after opens
      else if isDigit b then skipNumber (b :: r) >>= skipOpen fuel .after opens
      else if b = 0x22 then skipText .plain r >>= skipOpen fuel .after opens
      else if b = 0x5B then skipOpen fuel .opened (.list :: opens) r
      else if b = 0x7B then skipOpen fuel .opened (.record :: opens) r
      else faultAt .noValue (b :: r)
  | _ + 1, _, [], bs => .ok bs
  | fuel + 1, stage, bracket :: opens, bs =>
    match skipSpace bs with
    | [] => fault bracket.ending []
    | b :: r =>
      if b = 0x2C ∧ stage = .after then
        bracket.beforeValue r >>= skipOpen fuel .value (bracket :: opens)
      else if b = bracket.closing then skipOpen fuel .after opens r
      else if stage = .after then faultAt bracket.noComma (b :: r)
      else bracket.beforeValue (b :: r) >>= skipOpen fuel .value (bracket :: opens)

def skipValue (bs : Bytes) : Reading Bytes := skipOpen (2 * bs.length + 2) .value [] bs

end EndpointHealth.Json
