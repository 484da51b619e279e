import DocExcerpt.DocComment
import DocExcerpt.Example
import DocExcerpt.Sources
/-!
# Scanning a tree

A scan reads the source files below a root and resolves every include tag in their documentation comments.
Each tag is either an include with its example or a failure with a message; a file that cannot be read is one
failure.  Both lists follow the order of the files and, within a file, of the lines.

A tag of any length is looked for.  Where the name of the tag is so long that a pattern for it goes over the size limit
for patterns, a scan fails as a whole; this is left out.
-/
namespace DocExcerpt

/-- A tag with the example that it names. -/
structure Include where
  source : Text
  request : Request
  content : Example
  deriving DecidableEq

/-- A tag that names no example, or a file that cannot be read. -/
structure Failure where
  source : Text
  request : Request
  message : Text
  deriving DecidableEq

structure Report where
  root : Path
  filesScanned : Nat
  includes : List Include
  failures : List Failure
  deriving DecidableEq

def Report.isClean (r : Report) : Bool := r.failures.isEmpty

namespace Scan

/-- What one source file adds to a report. -/
structure Findings where
  includes : List Include
  failures : List Failure

def resolveRequest (s : Storage) (config : Config) (root source : Path) (shown : Text) (r : Request) :
    Failure ⊕ Include :=
  match Example.load s root config.defaults.exampleSuffix (some source) r.value with
  | .ok e => .inr ⟨shown, r, e⟩
  | .error e => .inl ⟨shown, r, e.message⟩

/-- The findings in the file with the given names below the root. -/
def scanFile (s : Storage) (config : Config) (root : Path) (below : List Text) : Findings :=
  let source := Sources.pathBelow root below
  let shown := Text.join ['/'] below
  match s.readText source with
  | .error e => ⟨[], [⟨shown, ⟨0, []⟩, e.message⟩]⟩
  | .ok content =>
    let outcomes := (DocComment.requests config.defaults.tag content).map (resolveRequest s config root source shown)
    ⟨outcomes.filterMap Sum.getRight?, outcomes.filterMap Sum.getLeft?⟩

def defaultMaxSize : Nat := 1024 * 1024

def run (s : Storage) (config : Config) (maxSize : Nat) (root : Path) : Except SkipError Report := do
  let files ← Sources.collect s config maxSize root
  let findings := files.map (scanFile s config root)
  return ⟨root, files.length, findings.flatMap (·.includes), findings.flatMap (·.failures)⟩

end Scan
end DocExcerpt
