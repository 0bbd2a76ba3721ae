import EndpointHealth.Text.Quoted
import EndpointHealth.Number.Shortest
set_option autoImplicit false

/-!
Why a JSON document is not read: the cause, what was left unread when it arose, and the place in
the value that was being read. A fault's position in the document is worked out from what was left.
-/

namespace EndpointHealth.Json

/-- Positional from a millionth, exclusive, up to ten to the thirteen. -/
def singleStyle : Number.DecimalStyle := ⟨-6, 13⟩

/-- Positional from a hundred-thousandth up to ten to the sixteen. -/
def doubleStyle : Number.DecimalStyle := ⟨-5, 16⟩

inductive Found where
  | null
  | flag (b : Bool)
  | integer (i : Int)
  | float (x : Number.Floating)
  | text (s : String)
  | list
  | record
  deriving DecidableEq, Repr

def Found.describe : Found → String
  | .null => "null"
  | .flag b => "boolean `" ++ (if b then "true" else "false") ++ "`"
  | .integer i => "integer `" ++ toString i ++ "`"
  | .float x =>
    "floating point `" ++ String.ofList (Number.Format.double.write doubleStyle x) ++ "`"
  | .text s => "string " ++ Text.quoted s
  | .list => "sequence"
  | .record => "map"

inductive Cause where
  | endsInValue | endsInText | endsInList | endsInRecord
  | noValue | noWord | noColon | noCommaOrBrace | noCommaOrBracket
  | keyNotText | commaAtEnd | trailing
  | badNumber | numberTooBig
  | badEscape | control | loneSurrogate | halfEscape | notUtf8
  | tooDeep
  | wrongType (found : Found) (expected : String)
  | wrongValue (found : Found) (expected : String)
  | unknownName (name : String) (known : List String)
  | wrongLength (length : Nat) (expected : String)
  | missingField (name : String)
  | duplicateField (name : String)
  | noAlternative (name : String)
  deriving DecidableEq, Repr

/-- Causes that lie in the form of the document, causes that lie in its having ended, and causes
that lie in the value it writes. -/
inductive Category where
  | form | ending | content
  deriving DecidableEq, Repr

def Cause.category : Cause → Category
  | .endsInValue | .endsInText | .endsInList | .endsInRecord => .ending
  | .wrongType .. | .wrongValue .. | .unknownName .. | .wrongLength .. | .missingField ..
  | .duplicateField .. | .noAlternative .. => .content
  | _ => .form

/-- Names in backticks: one, two with "or" between them, or a list after "one of". -/
def oneOf : List String → String
  | [] => "there are no variants"
  | [a] => "`" ++ a ++ "`"
  | [a, b] => "`" ++ a ++ "` or `" ++ b ++ "`"
  | names => "one of " ++ ", ".intercalate (names.map fun n => "`" ++ n ++ "`")

def Cause.message : Cause → String
  | .endsInValue => "EOF while parsing a value"
  | .endsInText => "EOF while parsing a string"
  | .endsInList => "EOF while parsing a list"
  | .endsInRecord => "EOF while parsing an object"
  | .noValue => "expected value"
  | .noWord => "expected ident"
  | .noColon => "expected `:`"
  | .noCommaOrBrace => "expected `,` or `\x7d`"
  | .noCommaOrBracket => "expected `,` or `]`"
  | .keyNotText => "key must be a string"
  | .commaAtEnd => "trailing comma"
  | .trailing => "trailing characters"
  | .badNumber => "invalid number"
  | .numberTooBig => "number out of range"
  | .badEscape => "invalid escape"
  | .control => "control character (\\u0000-\\u001F) found while parsing a string"
  | .loneSurrogate => "lone leading surrogate in hex escape"
  | .halfEscape => "unexpected end of hex escape"
  | .notUtf8 => "invalid unicode code point"
  | .tooDeep => "recursion limit exceeded"
  | .wrongType found expected => "invalid type: " ++ found.describe ++ ", expected " ++ expected
  | .wrongValue found expected => "invalid value: " ++ found.describe ++ ", expected " ++ expected
  | .unknownName name known => "unknown variant `" ++ name ++ "`, expected " ++ oneOf known
  | .wrongLength n expected => "invalid length " ++ toString n ++ ", expected " ++ expected
  | .missingField name => "missing field `" ++ name ++ "`"
  | .duplicateField name => "duplicate field `" ++ name ++ "`"
  | .noAlternative name => "data did not match any variant of untagged enum " ++ name

inductive Segment where
  | key (name : String)
  | index (i : Nat)
  | variant (name : String)
  deriving DecidableEq, Repr

def Segment.text : Segment → String
  | .key n => n
  | .index i => "[" ++ toString i ++ "]"
  | .variant n => n

def Segment.laterText : Segment → String
  | .index i => Segment.text (.index i)
  | s => "." ++ s.text

def Segment.path : List Segment → String
  | [] => ""
  | s :: r => s.text ++ String.join (r.map Segment.laterText)

/-- A cause, the bytes not yet read when it arose, and the steps to the value that holds it. -/
structure Fault where
  cause : Cause
  unread : Bytes
  place : List Segment
  deriving DecidableEq, Repr

abbrev Reading := Except Fault

def fault {α : Type} (c : Cause) (r : Bytes) : Reading α := .error ⟨c, r, []⟩

/-- The fault of having looked at the first byte of `r`, which counts as read. -/
def faultAt {α : Type} (c : Cause) (r : Bytes) : Reading α := .error ⟨c, r.drop 1, []⟩

def inside {α : Type} (s : Segment) : Reading α → Reading α
  | .ok x => .ok x
  | .error f => .error { f with place := s :: f.place }

/-- Line and column of a position: lines count from one, columns count the bytes since the line
began. -/
def lineAndColumn : Bytes → Nat × Nat :=
  List.foldl (fun (line, column) b => if b = 0x0A then (line + 1, 0) else (line, column + 1)) (1, 0)

def Fault.message (f : Fault) (doc : Bytes) : String :=
  match f.cause with
  | .noAlternative _ => f.cause.message
  | c =>
    let (line, column) := lineAndColumn (doc.take (doc.length - f.unread.length))
    c.message ++ " at line " ++ toString line ++ " column " ++ toString column

end EndpointHealth.Json
