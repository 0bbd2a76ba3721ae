import EndpointHealth.Url.Path
set_option autoImplicit false

/-!
URLs: reading them from texts that need not be tidy, and writing them.

Blanks and controls at the ends are dropped, tabs and line ends anywhere; schemes of the network
take a backslash for a slash, and any number of slashes before the host.
-/

namespace EndpointHealth

structure Url where
  scheme : String
  /-- Encoded, and empty if there is none; so is the password. -/
  user : String
  password : String
  host : Option Host
  /-- The number after the host's colon, unless it is the usual one of the scheme. -/
  portNumber : Option Nat
  path : Path
  query : Option String
  fragment : Option String
  deriving DecidableEq, Repr

namespace Url

def usualPortNumber? (scheme : String) : Option Nat :=
  if scheme = "http" ∨ scheme = "ws" then some 80
  else if scheme = "https" ∨ scheme = "wss" then some 443
  else if scheme = "ftp" then some 21
  else none

def isNetwork (scheme : String) : Bool := (usualPortNumber? scheme).isSome

def isSlash (c : Char) : Bool := c = '/' || c = '\\'

def cleaned (cs : List Char) : List Char :=
  let isEdge (c : Char) : Bool := c.toNat ≤ 0x20
  ((cs.dropWhile isEdge).reverse.dropWhile isEdge).reverse.filter
    fun c => c ≠ '\t' && c ≠ '\n' && c ≠ '\r'

def cut (mark : Char) (cs : List Char) : List Char × Option (List Char) :=
  match cs.dropWhile (· ≠ mark) with
  | [] => (cs, none)
  | _ :: r => (cs.takeWhile (· ≠ mark), some r)

def cutLast (mark : Char) (cs : List Char) : Option (List Char) × List Char :=
  match cut mark cs.reverse with
  | (after, before) => (before.map List.reverse, after.reverse)

def scheme? (cs : List Char) : Option (String × List Char) :=
  match cut ':' cs with
  | (c :: s, some r) =>
    if c.isAlpha && s.all fun c => c.isAlphanum || "+-.".toList.contains c then
      some (String.ofList ((c :: s).map Char.toLower), r)
    else none
  | _ => none

/-- A host, and what comes after a colon that is not in brackets. -/
def cutPortNumber (bracketed : Bool) : List Char → List Char × Option (List Char)
  | [] => ([], none)
  | c :: r =>
    if c = ':' ∧ !bracketed then ([], some r)
    else
      let (host, number) := cutPortNumber (c = '[' || (c ≠ ']' && bracketed)) r
      (c :: host, number)

def portNumber? (scheme : String) (cs : List Char) : Option (Option Nat) :=
  if cs = [] then some none
  else
    match Host.positional? 10 cs with
    | none => none
    | some n =>
      if 65535 < n then none else some (if usualPortNumber? scheme = some n then none else some n)

def withAuthority? (scheme : String) (authority : List Char) (path : Path) : Option Url := do
  let (credentials, place) := cutLast '@' authority
  if credentials.isSome ∧ place = [] then none
  else
    let (user, password) := cut ':' (credentials.getD [])
    let (hostText, numberText) := cutPortNumber false place
    if hostText = [] ∧ (isNetwork scheme ∨ numberText.isSome) then none
    else
      let host ← Host.ofText? (isNetwork scheme) hostText
      let portNumber ← portNumber? scheme (numberText.getD [])
      some
        { scheme, host := some host, portNumber, path, query := none, fragment := none
          user := Path.encode Path.inCredentials user
          password := Path.encode Path.inCredentials (password.getD []) }

def withoutAuthority (scheme : String) (host : Option Host) (path : Path) : Url :=
  { scheme, user := "", password := "", host, portNumber := none, path, query := none
    fragment := none }

def ofFile? (body : List Char) : Option Url :=
  let (host, rest) :=
    match body with
    | a :: b :: r =>
      if isSlash a && isSlash b then (r.takeWhile (!isSlash ·), r.dropWhile (!isSlash ·))
      else ([], body)
    | _ => ([], body)
  let path := Path.ofText isSlash (match rest with
    | [] => []
    | c :: r => if isSlash c then r else c :: r)
  if host = [] then some (withoutAuthority "file" (some .empty) path)
  else
    (Host.ofText? true host).map fun h =>
      withoutAuthority "file" (some (if h = .name "localhost" then .empty else h)) path

def ofBody? (scheme : String) (body : List Char) : Option Url :=
  if scheme = "file" then ofFile? body
  else if isNetwork scheme then
    let rest := body.dropWhile isSlash
    withAuthority? scheme (rest.takeWhile (!isSlash ·))
      (.ofText isSlash ((rest.dropWhile (!isSlash ·)).drop 1))
  else
    match body with
    | '/' :: '/' :: r =>
      withAuthority? scheme (r.takeWhile (· ≠ '/'))
        (match r.dropWhile (· ≠ '/') with
          | [] => .segments []
          | _ :: path => .ofText (· = '/') path)
    | '/' :: r => some (withoutAuthority scheme none (.ofText (· = '/') r))
    | _ => some (withoutAuthority scheme none (.plain (Path.encode Host.isControl body)))

def ofText? (s : String) : Option Url := do
  let (scheme, rest) ← scheme? (cleaned s.toList)
  let (rest, fragment) := cut '#' rest
  let (body, query) := cut '?' rest
  let u ← ofBody? scheme body
  let set := if scheme = "file" ∨ isNetwork scheme then Path.inNetworkQuery else Path.inQuery
  some
    { u with
      query := query.map (Path.encode set)
      fragment := fragment.map (Path.encode Path.inFragment) }

def hasHost (u : Url) : Bool :=
  match u.host with
  | none => false
  | some h => h ≠ .empty

def authorityText (u : Url) : String :=
  match u.host with
  | none => ""
  | some h =>
    let password := if u.password = "" then "" else ":" ++ u.password
    let credentials := if u.user ++ password = "" then "" else u.user ++ password ++ "@"
    let number := match u.portNumber with
      | none => ""
      | some n => ":" ++ toString n
    "//" ++ credentials ++ h.toText ++ number

def toText (u : Url) : String :=
  let after (mark : String) (s : Option String) : String := (s.map (mark ++ ·)).getD ""
  u.scheme ++ ":" ++ u.authorityText ++ u.path.toText u.host.isSome ++ after "?" u.query
    ++ after "#" u.fragment

/-- Adds fields to the query. A query that stays empty is dropped. -/
def addQuery (u : Url) (fields : List (String × String)) : Url :=
  let old := (u.query.filter (· ≠ "")).toList
  match old ++ fields.map fun (k, v) => k ++ "=" ++ v with
  | [] => { u with query := none }
  | parts => { u with query := some ("&".intercalate parts) }

structure Credentials where
  user : String
  password : String
  deriving DecidableEq, Repr

/-- Takes the name and the password out of a URL, if there are any and the name is a text. -/
def takeCredentials (u : Url) : Option Credentials × Url :=
  let decoded (s : String) := Text.Utf8.text? (Text.Percent.decode (Text.Utf8.ofText s))
  match decoded u.user with
  | none => (none, u)
  | some user =>
    let password := (decoded u.password).getD ""
    if user = "" ∧ password = "" then (none, u)
    else (some ⟨user, password⟩, { u with user := "", password := "" })

def maxLength : Nat := 65534

def isHttp (u : Url) : Bool := u.scheme = "http" || u.scheme = "https"

def fitsRequest (u : Url) : Bool :=
  u.toText.utf8ByteSize ≤ maxLength
    && !(((u.host.map Host.toText).getD "").toList.any fun c =>
      [0x22, 0x60, 0x7B, 0x7D].contains c.toNat)

end Url
end EndpointHealth
