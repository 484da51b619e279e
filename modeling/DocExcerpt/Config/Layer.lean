import DocExcerpt.Config.Decode
import DocExcerpt.Sorted
import DocExcerpt.Storage.Basic
/-!
# Layers of configuration

The settings of a run come from the built-in layer, the user's file, the file of the scanned workspace and the
environment, each over the ones before it (`merge`, `load`).  Paths and globs to ignore add up; any other
setting is taken from the upper layer, except that a text or list of extensions there that equals its default
counts as not set.
-/
namespace DocExcerpt
namespace Config

/-- The upper value, unless it is the default. -/
def choose {α : Type} [DecidableEq α] (lower upper default : α) : α := if upper = default then lower else upper

def Defaults.merge (lower upper : Defaults) : Defaults where
  tag := choose lower.tag upper.tag defaultTag
  exampleSuffix := choose lower.exampleSuffix upper.exampleSuffix defaultSuffix
  heading := choose lower.heading upper.heading defaultHeading
  showHidden? := upper.showHidden? <|> lower.showHidden?

def Scan.merge (lower upper : Scan) : Scan where
  extensions := choose lower.extensions upper.extensions defaultExtensions

/-- The members of both lists, in order and each once. -/
def union (lower upper : List Text) : List Text := sortedSet Text.le (lower ++ upper)

theorem mem_union {lower upper : List Text} {t : Text} : t ∈ union lower upper ↔ t ∈ lower ∨ t ∈ upper := by
  rw [union, mem_sortedSet, List.mem_append]

theorem pairwise_union (lower upper : List Text) :
    (union lower upper).Pairwise (fun s t => Text.le s t = true ∧ s ≠ t) :=
  pairwise_sortedSet Text.le (fun _ _ _ => Text.le_trans) Text.le_total (fun _ _ => Text.le_antisymm) _

/-- Everything that either layer ignores. -/
def Ignore.merge (lower upper : Ignore) : Ignore where
  paths := union lower.paths upper.paths
  globs := union lower.globs upper.globs

def Render.merge (lower upper : Render) : Render where
  format? := upper.format? <|> lower.format?
  template? := upper.template? <|> lower.template?
  fenceLanguage? := upper.fenceLanguage? <|> lower.fenceLanguage?
  lineNumbers? := upper.lineNumbers? <|> lower.lineNumbers?

/-- `upper` over `lower`. -/
def merge (lower upper : Config) : Config where
  defaults := lower.defaults.merge upper.defaults
  scan := lower.scan.merge upper.scan
  ignore := lower.ignore.merge upper.ignore
  render := lower.render.merge upper.render

/-- The built-in layer with further layers over it, the lowest first. -/
def ofLayers (layers : List Config) : Config := layers.foldl merge builtIn

end Config

structure Environment where
  /-- The directory of the user's configuration files. -/
  configDirectory? : Option Path
  tag? : Option Text
  format? : Option Text

namespace Config

inductive LoadError where
  | unreadable (path : Path) (cause : IoError)
  | malformed (path : Path)
  deriving DecidableEq

def LoadError.message : LoadError → Text
  | .unreadable path cause =>
    "failed to read config file: ".toList ++ path.text ++ ": ".toList ++ cause.message
  | .malformed path => "invalid config file: ".toList ++ path.text ++ ": failed to parse TOML config".toList

/-- The configuration with the settings of the environment. -/
def override (c : Config) (env : Environment) : Config where
  defaults := { c.defaults with tag := env.tag?.getD c.defaults.tag }
  scan := c.scan
  ignore := c.ignore
  render := { c.render with format? := env.format? <|> c.render.format? }

/-- The nearest directory from `start` upwards that is the top of a repository. -/
def repositoryRoot? (s : Storage) (start : Path) : Option Path :=
  start.ancestors.find? (fun dir => s.exists? (dir.join ⟨".git".toList⟩))

/-- The configuration file of the workspace that `start` lies in. -/
def workspaceFile (s : Storage) (start : Path) : Path :=
  ((repositoryRoot? s start).getD start).join ⟨".excerpt/config.toml".toList⟩

def userFile? (env : Environment) : Option Path :=
  env.configDirectory?.map (·.join ⟨"excerpt/config.toml".toList⟩)

def readFile (s : Storage) (path : Path) : Except LoadError Config :=
  match s.readUtf8 path with
  | .error e => .error (.unreadable path e)
  | .ok t =>
    match parse? t with
    | some c => .ok c
    | none => .error (.malformed path)

/-- The configuration of a run in `start`: every layer that is there, and the environment. -/
def load (s : Storage) (env : Environment) (start : Path) : Except LoadError Config := do
  let files := (userFile? env).toList ++ [workspaceFile s start]
  let layers ← (files.filter s.exists?).mapM (readFile s)
  return (ofLayers layers).override env

end Config
end DocExcerpt
