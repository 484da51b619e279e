import DocExcerpt.CommandLine.Help
import DocExcerpt.CommandLine.Parser
import DocExcerpt.CommandLine.Run
/-!
# The program

Reads the command line, takes from the disk what the command can ask for, runs the command on that, and does
on the disk what it did there.  Every decision is made by `Command.run`; this module only fetches and prints.
-/
namespace DocExcerpt
namespace Disk

def pathText (names : List Text) : String := String.ofList ('/' :: Text.join ['/'] names)

/-- What stands on the disk under the given names, if it can be read. -/
def find? (names : List Text) : IO (Option Entry) := do
  let path := (← IO.currentDir) / pathText names
  try
    match (← path.metadata).type with
    | .dir => return some .directory
    | .file => return some (.file (← IO.FS.readBinFile path).toList)
    | _ => return none
  catch _ => return none

def fetch (s : Storage) (names : List Text) : IO Storage := do
  match ← find? names with
  | some e => return s.put names e
  | none => return s

/-- Takes everything on the way from a directory along some path parts into the storage. -/
def fetchParts (s : Storage) (here : List Text) : List Text → IO Storage
  | [] => return s
  | part :: rest => do
    if Path.isVoid part then fetchParts s here rest
    else if part = ['.', '.'] then fetchParts s here.dropLast rest
    else
      let there := here ++ [part]
      let s ← if (s.get? there).isSome then pure s else fetch s there
      match s.get? there with
      | some .directory => fetchParts s there rest
      | _ => return s

def fetchPath (s : Storage) (p : Path) : IO Storage :=
  fetchParts s (s.origin p) (Text.pieces '/' p.text)

def fetchPaths (s : Storage) (ps : List Path) : IO Storage := ps.foldlM fetchPath s

/-- The files of a directory that rule which of its entries are visited. -/
def rulePaths : List Path :=
  [".ignore", ".gitignore", ".git/info/exclude", ".jj"].map (fun t => ⟨t.toList⟩)

def fetchRules (s : Storage) (dir : List Text) : IO Storage :=
  rulePaths.foldlM (fun s p => fetchParts s dir (Text.pieces '/' p.text)) s

/-- Takes the file with the rules for every repository, and what leads to it, into the storage. -/
def fetchGlobalRules (s : Storage) : IO Storage := do
  let s ← fetchPaths s (GlobalRules.settingsFiles s.home)
  fetchPaths s (GlobalRules.path? s).toList

/-- Takes the source files below a directory into the storage, as far as a scan visits them. -/
partial def fetchSources (config : Config) (skipped : List Glob) (root : Path) (top below : List Text) (s : Storage) :
    IO Storage := do
  let mut s ← fetchRules s (top ++ below)
  let filter : Sources.Filter := ⟨IgnoreLevel.all s, .ofStorage s, skipped, config.showHidden⟩
  let entries ← try ((← IO.currentDir) / pathText (top ++ below)).readDir catch _ => pure #[]
  for e in entries do
    let names := below ++ [e.fileName.toList]
    let data ← e.path.symlinkMetadata
    match data.type with
    | .dir =>
      if filter.visits root top names true then
        s ← fetchSources config skipped root top names (s.put (top ++ names) .directory)
    | .file =>
      let wanted := Sources.hasExtension config.scan.extensions ⟨e.fileName.toList⟩
      if wanted && data.byteSize.toNat ≤ Scan.defaultMaxSize && filter.visits root top names false then
        s ← fetch s (top ++ names)
    | _ => pure ()
  return s

def fetchConfig (s : Storage) (env : Environment) (start : Path) : IO Storage := do
  let s ← fetchPaths s (Config.userFile? env).toList
  let s ← fetchPaths s (start.ancestors.map (·.join ⟨".git".toList⟩))
  fetchPath s (Config.workspaceFile s start)

def fetchTag (s : Storage) (base : Path) (suffix : Text) (source? : Option Path) (value : Text) : IO Storage :=
  match Tag.parse value (source?.map (Example.defaultPath suffix)) with
  | .ok tag => fetchPaths s (Example.candidates base source? tag.path)
  | .error _ => return s

/-- Takes what a scan of `root` can ask for into the storage. -/
def fetchScan (s : Storage) (config : Config) (template? : Option Text) (root : Path) : IO Storage := do
  let s ← fetchPaths s [root, root.join ⟨Skip.ignoreFileName⟩]
  let s ← fetchPaths s ((template? <|> config.render.template?).map Path.mk).toList
  match s.resolve root, Skip.globs s root config.ignore with
  | .ok names, .ok skipped =>
    let s ← ((List.range names.length).map names.take).foldlM fetchRules s
    let s ← fetchGlobalRules s
    let s ← fetchSources config skipped root names [] s
    match Sources.collect s config Scan.defaultMaxSize root with
    | .error _ => return s
    | .ok files =>
      files.foldlM (fun s below => do
        let source := Sources.pathBelow root below
        match s.readText source with
        | .error _ => return s
        | .ok content =>
          (DocComment.requests config.defaults.tag content).foldlM
            (fun s r => fetchTag s root config.defaults.exampleSuffix (some source) r.value) s) s
  | _, _ => return s

def fetchFor (s : Storage) (env : Environment) : Command → IO Storage
  | .resolve _ _ _ => return s
  | .completions _ => return s
  | .show tag source? _ _ => do
    let s ← fetchConfig s env s.workingPath
    match Config.load s env s.workingPath with
    | .ok config => fetchTag s s.workingPath config.defaults.exampleSuffix source? tag
    | .error _ => return s
  | .scan root? _ template? output? _ => do
    let root := root?.getD s.workingPath
    let s ← fetchPaths s output?.toList
    let s ← fetchConfig s env root
    match Config.load s env root with
    | .ok config => fetchScan s config template? root
    | .error _ => return s

/-- Makes on the disk what a storage holds and an older one does not. -/
def apply (old new : Storage) : IO Unit :=
  new.entries.forM (fun (names, e) => do
    if old.get? names != some e then
      let path := (← IO.currentDir) / pathText names
      match e with
      | .directory => IO.FS.createDirAll path
      | .file bytes => IO.FS.writeBinFile path ⟨bytes.toArray⟩)

end Disk

def environmentText? (name : String) : IO (Option Text) := return (← IO.getEnv name).map String.toList

/-- The directory for settings in a home directory. -/
def settingsBelow (home : Path) : Path := home.join ⟨".config".toList⟩

def Home.read : IO Home := do
  let home? := (← environmentText? "HOME").map Path.mk
  let configHome? := ((← environmentText? "XDG_CONFIG_HOME").filter (fun t => !t.isEmpty)).map Path.mk
  return ⟨home?, configHome? <|> home?.map settingsBelow⟩

def Environment.read : IO Environment := do
  let home? := (← environmentText? "HOME").map Path.mk
  let configHome? := (← environmentText? "XDG_CONFIG_HOME").map Path.mk
  let directory? := configHome?.filter Path.isAbsolute <|> home?.map settingsBelow
  return ⟨directory?, ← environmentText? "EXCERPT_TAG", ← environmentText? "EXCERPT_FORMAT"⟩

def Invocation.run (i : Invocation) : IO UInt32 := do
  let env ← Environment.read
  let here : Path := ⟨(← IO.currentDir).toString.toList⟩
  let s ← Disk.fetchPath { Storage.empty here.components with home := ← Home.read } here
  let s ← Disk.fetchFor s env i.command
  match LogLevel.ofVerbosity i.verbosity with
  | .debug | .trace => IO.eprintln (toString s.entries.length ++ " entries read")
  | _ => pure ()
  let outcome := Command.run s env i.command
  Disk.apply s outcome.storage
  IO.print (String.ofList outcome.printed)
  match outcome.error? with
  | none => return 0
  | some e =>
    IO.eprintln ("Error: " ++ String.ofList e.message)
    return 1

end DocExcerpt

open DocExcerpt in
/-- The program: 0 for success, 1 for a command that fails, 2 for a command line that is not run. -/
def main (arguments : List String) : IO UInt32 := do
  match CommandLine.parse (arguments.map String.toList) with
  | .ok i =>
    try i.run
    catch e =>
      IO.eprintln ("Error: " ++ toString e)
      return 1
  | .error e =>
    let message := String.ofList e.message
    match e with
    | .help | .version =>
      IO.print message
      return 0
    | _ =>
      IO.eprint message
      return 2
