import EndpointHealth.Url.Host
set_option autoImplicit false

/-!
Paths of URLs. One dot stands for the place itself and two dots for the place above it, so neither
is left in a path.

Main statement: no segment that is read stands for a place (`isPlace_of_mem_resolve`).
-/

namespace EndpointHealth

inductive Path where
  | plain (text : String)
  | segments (names : List String)
  deriving DecidableEq, Repr

namespace Path

/-! ### What is encoded -/

def inFragment (b : UInt8) : Bool :=
  Host.isControl b || [0x20, 0x22, 0x3C, 0x3E, 0x60].contains b

def inQuery (b : UInt8) : Bool := Host.isControl b || [0x20, 0x22, 0x23, 0x3C, 0x3E].contains b

def inNetworkQuery (b : UInt8) : Bool := inQuery b || b = 0x27

def inSegment (b : UInt8) : Bool := inQuery b || [0x3F, 0x5E, 0x60, 0x7B, 0x7D].contains b

def inCredentials (b : UInt8) : Bool :=
  inSegment b || [0x2F, 0x3A, 0x3B, 0x3D, 0x40, 0x5B, 0x5C, 0x5D, 0x7C].contains b

def encode (set : UInt8 → Bool) (cs : List Char) : String :=
  String.ofList (Text.Percent.encode set (Text.Utf8.encode cs))

/-! ### Reading -/

/-- Whether a segment is a number of dots, which may be encoded. -/
def isDots : Nat → List Char → Bool
  | 0, cs => cs = []
  | n + 1, '.' :: r => isDots n r
  | n + 1, '%' :: '2' :: 'e' :: r => isDots n r
  | n + 1, '%' :: '2' :: 'E' :: r => isDots n r
  | _, _ => false

def isPlace (cs : List Char) : Bool := isDots 1 cs || isDots 2 cs

/-- Adds segments to a path. If the last one stands for a place the path ends in a slash. -/
def resolve (path : List (List Char)) : List (List Char) → List (List Char)
  | [] => path
  | s :: r =>
    let path := if isDots 2 s then path.dropLast else path
    let named := if isPlace s then (if r = [] then [[]] else []) else [s]
    resolve (path ++ named) r

def ofText (isSlash : Char → Bool) (cs : List Char) : Path :=
  .segments ((resolve [] (cs.splitOnP isSlash)).map (encode inSegment))

/-! ### Writing -/

/-- A path that begins with two slashes is kept apart from a host by a dot. -/
def toText (hasAuthority : Bool) : Path → String
  | .plain text => text
  | .segments ss =>
    let text := String.join (ss.map ("/" ++ ·))
    if !hasAuthority ∧ 1 < ss.length ∧ ss.head? = some "" then "/." ++ text else text

theorem isPlace_of_mem_resolve (path ss : List (List Char))
    (h : ∀ s ∈ path, isPlace s = false) : ∀ s ∈ resolve path ss, isPlace s = false := by
  induction ss generalizing path with
  | nil => exact h
  | cons t r ih =>
    refine ih _ fun s hs => ?_
    rcases List.mem_append.1 hs with hs | hs
    · split at hs
      · exact h s ((List.dropLast_sublist path).subset hs)
      · exact h s hs
    · split at hs
      · split at hs
        · simp_all [isPlace, isDots]
        · simp at hs
      · simp_all

end Path
end EndpointHealth
