import EndpointHealth.FileTree
import EndpointHealth.Policy
set_option autoImplicit false

/-!
The settings of the service: where it listens, where it keeps its registry and its seeds, and how
it probes. Every setting has a default.
-/

namespace EndpointHealth

structure ServerSettings where
  bindAddress : String
  database : String
  /-- The folder of seed documents; nothing is seeded if there is no such folder. -/
  seeds : String
  deriving DecidableEq, Repr

namespace ServerSettings

def standard : ServerSettings := ⟨"0.0.0.0:8000", "data/models.db", "models"⟩

def shape : Json.Shape :=
  .record "ServerConfig"
    (.field .defaulted "bind_addr" .text
    (.field .defaulted "database_url" .text
    (.field .defaulted "models_dir" .text .done)))

def ofRecord : shape.Carrier → ServerSettings
  | (address, database, seeds, ()) =>
    ⟨address.getD standard.bindAddress, database.getD standard.database,
      seeds.getD standard.seeds⟩

def toRecord (s : ServerSettings) : shape.Carrier :=
  (some s.bindAddress, some s.database, some s.seeds, ())

theorem ofRecord_toRecord (s : ServerSettings) : ofRecord s.toRecord = s := by
  simp [ofRecord, toRecord]

def toText (s : ServerSettings) : String := (shape.toValue s.toRecord).toText

def ofDocument (doc : Bytes) : Json.Reading ServerSettings := (shape.ofDocument doc).map ofRecord

end ServerSettings

structure Settings where
  server : ServerSettings
  probe : Policy
  deriving DecidableEq, Repr

inductive SettingsError where
  | file (path : String) (fault : FileFault)
  | document (why : String)
  | outOfRange (setting : OutOfRange)
  deriving DecidableEq, Repr

def SettingsError.message : SettingsError → String
  | .file path f => "Failed to read config file '" ++ path ++ "': " ++ f.message
  | .document why => "Failed to parse config: " ++ why
  | .outOfRange s => "Invalid config value '" ++ s.field ++ "': " ++ s.rule

/-- The message, then that of the error underneath, if there is one. -/
def SettingsError.chain : SettingsError → String
  | .file path f => SettingsError.message (.file path f) ++ ": " ++ f.message
  | .document why => SettingsError.message (.document why) ++ ": " ++ why
  | e => e.message

namespace Settings

def standard : Settings := ⟨.standard, .standard⟩

def shape : Json.Shape :=
  .record "AppConfig"
    (.field .defaulted "server" ServerSettings.shape
    (.field .defaulted "probe" Policy.shape .done))

def ofRecord : shape.Carrier → Settings
  | (server, probe, ()) =>
    { server := (server.map ServerSettings.ofRecord).getD .standard
      probe := (probe.map Policy.ofRecord).getD .standard }

def toRecord (s : Settings) : shape.Carrier :=
  (some s.server.toRecord, some s.probe.toRecord, ())

theorem ofRecord_toRecord (s : Settings) : ofRecord s.toRecord = s := by
  simp [ofRecord, toRecord, ServerSettings.ofRecord_toRecord, Policy.ofRecord_toRecord]

def toText (s : Settings) : String := (shape.toValue s.toRecord).toText

def ofDocument (doc : Bytes) : Except SettingsError Settings :=
  match shape.ofDocument doc with
  | .error f => .error (.document (f.message doc))
  | .ok r =>
    let s := ofRecord r
    match s.probe.outOfRange? with
    | some o => .error (.outOfRange o)
    | none => .ok s

def ofFile {α : Type} (tree : FileTree α) (path : String) : Except SettingsError Settings :=
  match tree.readText path with
  | .error f => .error (.file path f)
  | .ok doc => ofDocument doc

def override (s : Settings) (lookup : String → Option String) : Settings :=
  { s with
    server :=
      { bindAddress := (lookup "BIND_ADDR").getD s.server.bindAddress
        database := (lookup "DATABASE_URL").getD s.server.database
        seeds := (lookup "MODELS_DIR").getD s.server.seeds } }

end Settings
end EndpointHealth
