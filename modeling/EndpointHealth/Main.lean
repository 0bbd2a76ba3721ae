import EndpointHealth.Client.RegistryTester
import EndpointHealth.Http.Router
import EndpointHealth.Startup
import EndpointHealth.Text.Uuid
set_option autoImplicit false

/-!
The service at a terminal. It takes its settings from the environment and files below the working
directory, keeps its registry in memory, and answers one request a line, written as the method, the
target and the body with blanks between them. No provider can be reached from here.
-/

namespace EndpointHealth.Terminal

def requestOf (line : List Char) : Http.Request :=
  let word (cs : List Char) :=
    (String.ofList (cs.takeWhile (· ≠ ' ')), (cs.dropWhile (· ≠ ' ')).drop 1)
  let (method, rest) := word (line.filter (· ≠ '\n'))
  let (target, body) := word rest
  { method, target, contentType := some "application/json", body := Text.Utf8.encode body }

def bodyText : Http.Body → String
  | .empty => ""
  | .text s => s
  | .json v => v.toText

def tester : Prober.Tester (Backend Unit) := Client.registryTester Client.Network.silent

def withFile (files : Startup.Files) (path : String) : IO Startup.Files := do
  try
    let content ← IO.FS.readBinFile path
    return FileTree.put (.file content.toList) (FileTree.resolved path) files
  catch _ => return files

def withFolder (files : Startup.Files) (path : String) : IO Startup.Files := do
  let place := (← IO.currentDir) / path
  if path = "" || !(← place.isDir) then return files
  let mut files := FileTree.put (.folder []) (FileTree.resolved path) files
  for entry in ← place.readDir do
    files ← withFile files (FileTree.join path entry.fileName)
  return files

def report (ns : List Notice) : IO Unit := do
  for n in ns do
    if n.level ≠ .debug then IO.eprintln (n.level.name ++ " " ++ n.message)

def fresh : IO EndpointId := do
  let word : IO UInt64 := return UInt64.ofNat (← IO.rand 0 (UInt64.size - 1))
  return String.ofList (Text.Uuid.ofWords (← word) (← word))

/-- Answers requests until there are none. -/
partial def serve (p : Service.Prober Unit) (begun : Nat) (w : Service.State Unit) : IO Unit := do
  let line ← (← IO.getStdin).getLine
  if line.isEmpty then return
  let w := p.advance ((← IO.monoMsNow) - begun - w.now) { w with notices := [] }
  let (response, w) := Http.handle p (← fresh) (requestOf line.toList) w
  let w := match response with
    | .now _ => w
    | .later number => p.await number w
  report w.notices
  match Http.answer? response w with
  | some a => IO.println (toString a.status ++ " " ++ bodyText a.body)
  | none => IO.println "no answer"
  serve p begun w

def run : IO UInt32 := do
  let names := [Startup.settingsVariable, "BIND_ADDR", "DATABASE_URL", "MODELS_DIR"]
  let values ← names.mapM fun name => do return (name, ← IO.getEnv name)
  let environment (name : String) : Option String := (values.lookup name).join
  let files ← withFile (.folder []) ((environment Startup.settingsVariable).getD "")
  report (Startup.settingsNotices environment)
  match Startup.settings environment files with
  | .error why =>
    IO.eprintln why.message
    return 1
  | .ok s =>
    let launch := Startup.launch s tester () (← withFolder files s.server.seeds)
    match launch.state with
    | .error why =>
      report launch.notices
      IO.eprintln why.message
      return 1
    | .ok w =>
      report w.notices
      serve ⟨s.probe, tester⟩ (← IO.monoMsNow) w
      return 0

end EndpointHealth.Terminal

def main : IO UInt32 := EndpointHealth.Terminal.run
