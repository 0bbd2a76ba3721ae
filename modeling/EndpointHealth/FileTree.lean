import EndpointHealth.Text.Utf8
set_option autoImplicit false

/-!
Files in folders, as far as reading settings and keeping a registry needs them: looking up a path,
reading a text, listing a folder, making folders. All paths start at the folder that holds the
tree.

There are no permissions and no devices that fail: whatever is there can be opened and written. Nor
are there entries that a listing comes upon and cannot read. Whoever lists a folder passes over
them, so that a tree has only to hold the others.
-/

namespace EndpointHealth

/-- Files hold bytes; some hold a store of another kind instead. -/
inductive FileTree (α : Type) where
  | file (content : Bytes)
  | store (content : α)
  | folder (entries : List (String × FileTree α))

inductive FileFault where
  | missing | exists | notFolder | isFolder | nameTooLong | notUtf8 | nulInName
  deriving DecidableEq, Repr

def FileFault.message : FileFault → String
  | .missing => "No such file or directory (os error 2)"
  | .exists => "File exists (os error 17)"
  | .notFolder => "Not a directory (os error 20)"
  | .isFolder => "Is a directory (os error 21)"
  | .nameTooLong => "File name too long (os error 36)"
  | .notUtf8 => "stream did not contain valid UTF-8"
  | .nulInName => "file name contained an unexpected NUL byte"

namespace FileTree

variable {α : Type}

def maxName : Nat := 255

def names (path : String) : List String :=
  (path.toList.splitOn '/').map String.ofList

def entryAt? (name : String) : List (String × FileTree α) → Option (FileTree α)
  | [] => none
  | (n, t) :: r => if n = name then some t else entryAt? name r

/-- Follows names from a place, below the folders given, innermost first. -/
def follow : List String → FileTree α → List (FileTree α) → Except FileFault (FileTree α)
  | [], here, _ => .ok here
  | name :: rest, .folder entries, above =>
    if name = "" ∨ name = "." then follow rest (.folder entries) above
    else if name = ".." then
      match above with
      | [] => follow rest (.folder entries) []
      | outer :: above => follow rest outer above
    else if maxName < name.utf8ByteSize then .error .nameTooLong
    else match entryAt? name entries with
      | some t => follow rest t (.folder entries :: above)
      | none => .error .missing
  | _ :: _, _, _ => .error .notFolder

def find (tree : FileTree α) (path : String) : Except FileFault (FileTree α) :=
  if path = "" then .error .missing
  else if path.toList.contains '\x00' then .error .nulInName
  else if 4096 ≤ path.utf8ByteSize then .error .nameTooLong
  else if path.toList.head? = some '/' then .error .missing
  else follow (names path) tree []

def readText (tree : FileTree α) (path : String) : Except FileFault Bytes := do
  match ← tree.find path with
  | .file content => if (Text.Utf8.decode content).isSome then .ok content else .error .notUtf8
  | .store _ => .error .notUtf8
  | .folder _ => .error .isFolder

def list (tree : FileTree α) (path : String) : Except FileFault (List String) := do
  match ← tree.find path with
  | .folder entries => .ok (entries.map (·.1))
  | _ => .error .notFolder

def isFolder (tree : FileTree α) (path : String) : Bool :=
  match tree.find path with
  | .ok (.folder _) => true
  | _ => false

def setEntry (name : String) (t : FileTree α) :
    List (String × FileTree α) → List (String × FileTree α)
  | [] => [(name, t)]
  | (n, u) :: r => if n = name then (n, t) :: r else (n, u) :: setEntry name t r

def put (t : FileTree α) : List String → FileTree α → FileTree α
  | [], _ => t
  | name :: rest, .folder entries =>
    .folder (setEntry name (put t rest ((entryAt? name entries).getD (.folder []))) entries)
  | name :: rest, _ => .folder [(name, put t rest (.folder []))]

/-- The names that matter in a path: without empty ones, and without points except in front. -/
def components (path : String) : List String :=
  match (names path).filter (· ≠ "") with
  | [] => []
  | n :: r => n :: r.filter (· ≠ ".")

def resolved (path : String) : List String :=
  ((components path).filter (· ≠ ".")).foldl
    (fun acc n => if n = ".." then acc.dropLast else acc ++ [n]) []

def makeFolder (tree : FileTree α) (path : String) : Except FileFault (FileTree α) :=
  match tree.find path with
  | .ok (.folder _) => .ok tree
  | .ok _ => .error .exists
  | .error .missing => .ok (put (.folder []) (resolved path) tree)
  | .error f => .error f

/-- Makes the folders that lead to a path's last name, those that are missing, from the outermost
on. -/
def makeParents (tree : FileTree α) (path : String) : Except FileFault (FileTree α) :=
  let parent := (components path).dropLast
  let text (n : Nat) := "/".intercalate (parent.take n)
  match tree.find (text parent.length) with
  | .error .missing =>
    (List.range parent.length).foldlM (fun tree n => tree.makeFolder (text (n + 1))) tree
  | _ => tree.makeFolder (text parent.length)

/-- The part of a name after its last point, unless the name starts with that point. -/
def extension? (name : String) : Option String :=
  let cs := name.toList
  let after := (cs.reverse.takeWhile (· ≠ '.')).reverse
  if after.length + 1 < cs.length ∧ name ≠ ".." then some (String.ofList after) else none

def join (folder name : String) : String :=
  if folder.toList.getLast? = some '/' then folder ++ name else folder ++ "/" ++ name

end FileTree
end EndpointHealth
