import DocExcerpt.Ignore.Global
import DocExcerpt.Ignore.Skip
import DocExcerpt.Storage.TextFile
/-!
# Source files

Which files of a tree are scanned.  A file counts when it and every directory on the way to it are visited
(`visits`), and when it is a source by its extension, size and first bytes (`isSource`).
-/
namespace DocExcerpt
namespace Sources

def pathBelow (root : Path) (below : List Text) : Path :=
  match below with
  | [] => root
  | names => root.join ⟨Text.join ['/'] names⟩

structure Filter where
  levels : List IgnoreLevel
  globalRules : GlobalRules
  skipped : List Glob
  showHidden : Bool

/-- What the ignore files say of an entry below `root`, which leads to the directory `names`.  The rules for every
repository come last, and only inside of one. -/
def Filter.decide? (f : Filter) (root : Path) (names below : List Text) (isDirectory : Bool) : Option Verdict :=
  IgnoreLevel.decide? f.levels (names ++ below) isDirectory
    <|> (if IgnoreLevel.inRepository f.levels (names ++ below) then
          f.globalRules.decide? (pathBelow root below) isDirectory
        else none)

/-- Whether an entry is visited, once the directory it lies in is.  The ignore files decide first; where they
are silent, a name that starts with a dot is hidden. -/
def Filter.visits (f : Filter) (root : Path) (names below : List Text) (isDirectory : Bool) : Bool :=
  let ignored := match f.decide? root names below isDirectory with
    | some .leaveOut => true
    | some .keep => false
    | none => !f.showHidden && Text.startsWith ['.'] (below.getLast?.getD [])
  !ignored && !Skip.covers f.skipped (Text.join ['/'] below)

/-- The starts of a list of names that lead to an entry, from the first directory to the entry itself. -/
def waysDown (below : List Text) : List (List Text) :=
  (List.range' 1 below.length).map (fun n => below.take n)

/-- Whether a path can be opened when it leads somewhere: it is not too long. -/
def opens (path : Path) : Bool := (Storage.checkPath path).toBool

/-- Whether a walk from `root`, which leads to the directory `names`, comes to a file.  Directories are opened by their
paths from the root as it is written. -/
def Filter.reaches (f : Filter) (root : Path) (names below : List Text) : Bool :=
  (waysDown below).all (fun way =>
    let isDirectory := decide (way.length < below.length)
    f.visits root names way isDirectory && (!isDirectory || opens (pathBelow root way)))

def hasExtension (extensions : List Text) (path : Path) : Bool :=
  match path.extension? with
  | some e => extensions.any (Text.sameIgnoringCase e)
  | none => false

/-- What a walk sees of the bytes of a file: none when it cannot open the file. -/
def seenBytes (path : Path) (bytes : List UInt8) : List UInt8 := if opens path then bytes else []

def isSource (extensions : List Text) (maxSize : Nat) (path : Path) (bytes : List UInt8) : Bool :=
  hasExtension extensions path && decide (bytes.length ≤ maxSize) && !Storage.looksBinary bytes

/-- Whether a walk takes its root for standard input: by its components it is a single dash. -/
def isStandardInput (root : Path) : Bool := root.anchor.isEmpty && root.components == [['-']]

/-- The files to scan below `root`, by their names from it and in the order of these.  A root that is a file is
scanned itself; one that is not there, or is standard input, has no files. -/
def collect (s : Storage) (config : Config) (maxSize : Nat) (root : Path) :
    Except SkipError (List (List Text)) := do
  let skipped ← Skip.globs s root config.ignore
  let isWanted (below : List Text) (bytes : List UInt8) : Bool :=
    let path := pathBelow root below
    isSource config.scan.extensions maxSize path (seenBytes path bytes)
  if isStandardInput root then return []
  match s.resolve root with
  | .error _ => return []
  | .ok names =>
    match s.get? names with
    | none => return []
    | some (.file bytes) => return if isWanted [] bytes then [[]] else []
    | some .directory =>
      let filter : Filter := ⟨IgnoreLevel.all s, .ofStorage s, skipped, config.showHidden⟩
      let files := (s.filesBelow names).filter (fun file => isWanted file.1 file.2 && filter.reaches root names file.1)
      return (files.map (·.1)).mergeSort Path.componentsLe

end Sources
end DocExcerpt
