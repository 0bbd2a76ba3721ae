import EndpointHealth.Settings
set_option autoImplicit false

/-!
Catalogs of endpoints for seeding a registry, gathered from JSON documents. A document holds one
endpoint or a list of them; a later endpoint replaces an earlier one of the same id. Catalogs are
ordered by id.

A folder with a document that cannot be read has no catalog. Here such a document is a folder, or no
text, or has too long a path; one that may not be opened would be another, and does not occur in a
tree of files.
-/

namespace EndpointHealth

structure Catalog where
  endpoints : List Endpoint
  deriving Repr

namespace Catalog

def empty : Catalog := ⟨[]⟩

def insertInto (e : Endpoint) : List Endpoint → List Endpoint
  | [] => [e]
  | f :: r =>
    if e.id = f.id then e :: r
    else if e.id < f.id then e :: f :: r
    else f :: insertInto e r

def insert (c : Catalog) (e : Endpoint) : Catalog := ⟨insertInto e c.endpoints⟩

def get? (c : Catalog) (id : EndpointId) : Option Endpoint := c.endpoints.find? (·.id = id)

def size (c : Catalog) : Nat := c.endpoints.length

/-- The endpoints of a value: one endpoint if it can be read as one, or else a list. -/
def endpointsOf? (v : Json.Value) : Option (List Endpoint) :=
  match Endpoint.ofValue? v with
  | some e => some [e]
  | none =>
    ((Json.Shape.list Endpoint.shape).ofValue? v).map fun rs => rs.map Endpoint.ofRecord

/-- The endpoints of a document. Its value is read first, whatever it is, and what follows it is
looked at last. -/
def endpointsOfDocument (doc : Bytes) : Json.Reading (List Endpoint) := do
  let (v, rest) ← Json.readValue Json.depthLimit doc
  match endpointsOf? v with
  | none => Json.fault (.noAlternative "SeedFile") rest
  | some es =>
    Json.closeDocument rest
    .ok es

def extend (c : Catalog) (doc : Bytes) : Except SettingsError Catalog :=
  match endpointsOfDocument doc with
  | .error f => .error (.document (f.message doc))
  | .ok es => .ok (es.foldl insert c)

def extendFrom {α : Type} (tree : FileTree α) (folder : String) (c : Catalog)
    (names : List String) : Except SettingsError Catalog :=
  names.foldlM
    (fun c name =>
      if FileTree.extension? name = some "json" then
        let path := FileTree.join folder name
        match tree.readText path with
        | .error f => .error (.file path f)
        | .ok doc => c.extend doc
      else .ok c)
    c

def ofFolder {α : Type} (tree : FileTree α) (folder : String) : Except SettingsError Catalog :=
  match tree.list folder with
  | .error f => .error (.file folder f)
  | .ok names => empty.extendFrom tree folder names

end Catalog
end EndpointHealth
