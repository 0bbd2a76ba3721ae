import EndpointHealth.Text.Utf8
set_option autoImplicit false

/-!
Media types, as far as telling JSON from anything else needs them.
-/

namespace EndpointHealth.Http.MediaType

def isTokenChar (c : Char) : Bool :=
  c.isAlphanum || "!#$%&'*+-.^_`|~".toList.contains c

def isQuotable (c : Char) : Bool := 0x20 ≤ c.toNat && c.toNat != 0x7F

def quotedValue? : List Char → Option (List Char)
  | [] => none
  | '"' :: r => some r
  | ['\\'] => none
  | '\\' :: c :: r => if isQuotable c then quotedValue? r else none
  | c :: r => if isQuotable c then quotedValue? r else none

/-- Whether the characters are parameters, each a name, an equals sign and a value, with semicolons
between them. At most `fuel` parameters are read. -/
def areParameters : Nat → List Char → Bool
  | _, [] => true
  | 0, _ => false
  | fuel + 1, cs =>
    let cs := cs.dropWhile (· = ' ')
    let name := cs.takeWhile isTokenChar
    match cs.dropWhile isTokenChar with
    | [] => name = []
    | c :: r =>
      if c ≠ '=' ∨ name = [] then false
      else match r with
        | '"' :: r =>
          match quotedValue? r with
          | none => false
          | some r =>
            match r.dropWhile (· = ' ') with
            | [] => true
            | c :: r => c = ';' && areParameters fuel r
        | r =>
          match r.dropWhile isTokenChar with
          | [] => true
          | c :: after => c = ';' && !(r.takeWhile isTokenChar).isEmpty && areParameters fuel after

def splitSuffix (cs : List Char) : List Char × Option (List Char) :=
  let after := (cs.reverse.takeWhile (· ≠ '+')).reverse
  if after.length + 1 < cs.length then (cs.take (cs.length - after.length - 1), some after)
  else (cs, none)

def lower (cs : List Char) : List Char := cs.map Char.toLower

/-- Whether a content type says JSON: `application/json` or `application/` and a subtype that ends
in `+json`, in either case, with or without parameters. -/
def isJson (header : List Char) : Bool :=
  let kind := header.takeWhile isTokenChar
  match header.dropWhile isTokenChar with
  | '/' :: r =>
    let subtype := r.takeWhile isTokenChar
    let (name, suffix) := splitSuffix subtype
    let wellFormed :=
      match r.dropWhile isTokenChar with
      | [] => true
      | c :: ps => c = ';' && subtype ≠ [] && areParameters (ps.length + 1) ps
    lower kind = "application".toList && wellFormed
      && (lower name = "json".toList || suffix.map lower = some "json".toList)
  | _ => false

example : isJson "application/json".toList = true := by decide
example : isJson "application/vnd.api+json; charset=utf-8".toList = true := by decide
example : isJson "application/json;;".toList = false := by decide
example : isJson "text/json".toList = false := by decide

end EndpointHealth.Http.MediaType
