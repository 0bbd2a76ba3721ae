set_option autoImplicit false

/-!
White space in texts: the characters with the property `White_Space`, trimming, and texts that
hold nothing else.

Main statement: a text is blank exactly when trimming leaves nothing (`isBlank_iff_trim`).
-/

namespace EndpointHealth.Text

/-- The characters with the Unicode property `White_Space`. -/
def isSpace (c : Char) : Bool :=
  let n := c.toNat
  (9 ≤ n && n ≤ 13) || n == 0x20 || n == 0x85 || n == 0xA0 || n == 0x1680
    || (0x2000 ≤ n && n ≤ 0x200A) || n == 0x2028 || n == 0x2029 || n == 0x202F
    || n == 0x205F || n == 0x3000

def trimChars (cs : List Char) : List Char :=
  ((cs.dropWhile isSpace).reverse.dropWhile isSpace).reverse

def trim (s : String) : String := String.ofList (trimChars s.toList)

def isBlank (s : String) : Bool := s.toList.all isSpace

def nonBlank? (s : String) : Option String := if isBlank s then none else some s

theorem dropWhile_eq_nil_iff_all {α : Type} (p : α → Bool) (xs : List α) :
    xs.dropWhile p = [] ↔ xs.all p = true := by
  induction xs with
  | nil => simp
  | cons x xs ih => by_cases h : p x <;> simp [h, ih]

theorem trimChars_eq_nil_iff (cs : List Char) : trimChars cs = [] ↔ cs.all isSpace = true := by
  rw [trimChars, List.reverse_eq_nil_iff, dropWhile_eq_nil_iff_all, List.all_reverse]
  induction cs with
  | nil => simp
  | cons c cs ih => by_cases h : isSpace c <;> simp_all

theorem isBlank_iff_trim (s : String) : isBlank s = true ↔ trim s = "" := by
  rw [isBlank, ← trimChars_eq_nil_iff, trim]
  constructor
  · intro h; rw [h]
  · intro h
    have := congrArg String.toList h
    simpa using this

end EndpointHealth.Text
