import EndpointHealth.Service
set_option autoImplicit false

/-!
Starting the service: reading the settings, opening the registry, seeding it if it is empty, and
probing every endpoint in it.
-/

namespace EndpointHealth.Startup

abbrev Files := FileTree Registry

inductive Fault where
  | settings (path : String) (why : SettingsError)
  | folder (why : FileFault)
  | nulInPath (position : Nat)
  | notOpened (path : String)
  | notRegistry
  | registry (why : RegistryFault)
  deriving DecidableEq, Repr

def Fault.message : Fault → String
  | .settings path why => "failed to load config '" ++ path ++ "': " ++ why.chain
  | .folder why => "failed to create db directory: " ++ why.message
  | .nulInPath n =>
    let why := "nul byte found in provided data at position: " ++ toString n
    "failed to open database: " ++ why ++ ": " ++ why
  | .notOpened path =>
    "failed to open database: unable to open database file: " ++ path
      ++ ": Error code 14: Unable to open the database file"
  | .notRegistry =>
    "failed to create table: file is not a database: "
      ++ "Error code 26: File opened that is not a database file"
  | .registry why => why.message

def settingsVariable : String := "MODELWATCH_CONFIG"

def settings (environment : String → Option String) (files : Files) : Except Fault Settings :=
  match environment settingsVariable with
  | none => .ok (Settings.standard.override environment)
  | some path =>
    match Settings.ofFile files path with
    | .error why => .error (.settings path why)
    | .ok s => .ok (s.override environment)

def settingsNotices (environment : String → Option String) : List Notice :=
  match environment settingsVariable with
  | none => []
  | some path => [.loadingSettings path]

/-- Paths that name no file: registries opened there are gone when they are closed. -/
def isPassing (path : String) : Bool := path = "" || path = ":memory:"

/-- The registry at a path, with its table. A file that is missing or empty holds an empty one. -/
def findRegistry (files : Files) (path : String) : Except Fault Registry :=
  if isPassing path then .ok .empty
  else if path.toList.contains '\x00' then
    .error (.nulInPath (Text.Utf8.encode (path.toList.takeWhile (· ≠ '\x00'))).length)
  else match files.find path with
    | .ok (.store r) => .ok r.withTable
    | .ok (.file []) => .ok .empty
    | .ok (.file _) => .error .notRegistry
    | .ok (.folder _) => .error (.notOpened path)
    | .error .missing =>
      if path.toList.getLast? = some '/' then .error (.notOpened path) else .ok .empty
    | .error _ => .error (.notOpened path)

def keep (path : String) (r : Registry) (files : Files) : Files :=
  if isPassing path then files else FileTree.put (.store r) (FileTree.resolved path) files

def openRegistry (files : Files) (path : String) : Except Fault (Registry × Files) :=
  match files.makeParents path with
  | .error f => .error (.folder f)
  | .ok files =>
    match findRegistry files path with
    | .error f => .error f
    | .ok r => .ok (r, keep path r files)

/-- Seeds a registry from a folder, if there is one. Documents that cannot be read keep it as it
is. -/
def seed (files : Files) (folder : String) (r : Registry) :
    Except Fault (Registry × List Notice) :=
  if files.isFolder folder then
    match Catalog.ofFolder files folder with
    | .error why => .ok (r, [.seedsFailed why.message])
    | .ok c =>
      match r.seed c with
      | .error f => .error (.registry f)
      | .ok s => .ok (s.registry, s.notices)
  else .ok (r, [])

def listing (es : List Endpoint) : List Notice :=
  .loaded es.length :: es.map fun e => .listed e.name e.id e.provider

variable {τ : Type}

structure Launch (τ : Type) where
  state : Except Fault (Service.State τ)
  files : Files
  notices : List Notice

def launch (s : Settings) (tester : Prober.Tester (Backend τ)) (provider : τ) (files : Files) :
    Launch τ :=
  let path := s.server.database
  match openRegistry files path with
  | .error f => ⟨.error f, files, []⟩
  | .ok (r, files) =>
    let ready := [Notice.registryReady path]
    match seed files s.server.seeds r with
    | .error f => ⟨.error f, files, ready⟩
    | .ok (r, seeded) =>
      let files := keep path r files
      match r.list with
      | .error f => ⟨.error (.registry f), files, ready ++ seeded⟩
      | .ok es =>
        let notices := ready ++ seeded ++ listing es
        let p : Service.Prober τ := ⟨s.probe, tester⟩
        let w := (Prober.World.start ⟨r, false, provider⟩).note notices
        ⟨.ok (p.observe (es.map (·.id)) w), files, notices⟩

end EndpointHealth.Startup
