import DocExcerpt.Path
import DocExcerpt.Text.Utf8
/-!
# Storage

The files and directories that a run sees, as a value: names from the root to entries, the directory that
relative paths start from, and those that the user's settings lie in.  A path is followed part by part, so `..`
leads out of a directory that exists and `a/` names only a directory.
-/
namespace DocExcerpt

inductive Entry where
  | file (bytes : List UInt8)
  | directory
  deriving DecidableEq

inductive IoError where
  | notFound
  | alreadyExists
  | notDirectory
  | isDirectory
  | nameTooLong
  | nulInPath
  | notText
  deriving DecidableEq

def IoError.message : IoError → Text
  | .notFound => "No such file or directory (os error 2)".toList
  | .alreadyExists => "File exists (os error 17)".toList
  | .notDirectory => "Not a directory (os error 20)".toList
  | .isDirectory => "Is a directory (os error 21)".toList
  | .nameTooLong => "File name too long (os error 36)".toList
  | .nulInPath => "file name contained an unexpected NUL byte".toList
  | .notText => "stream did not contain valid UTF-8".toList

/-- The user's own directory, and the one that programs keep their settings in. -/
structure Home where
  directory? : Option Path
  settings? : Option Path
  deriving DecidableEq

/-- Entries by their names from the root.  The root is a directory and has no entry of its own. -/
structure Storage where
  entries : List (List Text × Entry)
  workingDirectory : List Text
  /-- No name stands for two entries. -/
  distinct : (entries.map Prod.fst).Nodup
  home : Home := ⟨none, none⟩

namespace Storage

def empty (workingDirectory : List Text) : Storage where
  entries := []
  workingDirectory := workingDirectory
  distinct := List.nodup_nil

def get? (s : Storage) (names : List Text) : Option Entry :=
  if names.isEmpty then some .directory else (s.entries.find? (fun e => e.1 == names)).map (·.2)

def maxName : Nat := 255

def maxPath : Nat := 4096

/-- The names that some path parts lead to from a directory.  The last one need not be there. -/
def follow (s : Storage) : List Text → List Text → Except IoError (List Text)
  | here, [] => .ok here
  | here, part :: rest =>
    match s.get? here with
    | none => .error .notFound
    | some (.file _) => .error .notDirectory
    | some .directory =>
      if Path.isVoid part then follow s here rest
      else if part = ['.', '.'] then follow s here.dropLast rest
      else if maxName < (Utf8.encode part).length then .error .nameTooLong
      else follow s (here ++ [part]) rest

/-- The path of the working directory. -/
def workingPath (s : Storage) : Path := ⟨'/' :: Text.join ['/'] s.workingDirectory⟩

def origin (s : Storage) (p : Path) : List Text := if p.isAbsolute then [] else s.workingDirectory

/-- Refuses the paths that no lookup is made for. -/
def checkPath (p : Path) : Except IoError Unit :=
  if p.text.contains (Char.ofNat 0) then .error .nulInPath
  else if p.text.isEmpty then .error .notFound
  else if maxPath ≤ (Utf8.encode p.text).length then .error .nameTooLong
  else .ok ()

def resolve (s : Storage) (p : Path) : Except IoError (List Text) := do
  checkPath p
  s.follow (s.origin p) (Text.pieces '/' p.text)

def lookup (s : Storage) (p : Path) : Except IoError Entry := do
  match s.get? (← s.resolve p) with
  | some e => return e
  | none => .error .notFound

def exists? (s : Storage) (p : Path) : Bool :=
  match s.lookup p with
  | .ok _ => true
  | .error _ => false

def isFile (s : Storage) (p : Path) : Bool :=
  match s.lookup p with
  | .ok (.file _) => true
  | _ => false

def isDirectory (s : Storage) (p : Path) : Bool :=
  match s.lookup p with
  | .ok .directory => true
  | _ => false

def read (s : Storage) (p : Path) : Except IoError (List UInt8) := do
  match ← s.lookup p with
  | .file bytes => return bytes
  | .directory => .error .isDirectory

/-- The content of a file that has to be text. -/
def readUtf8 (s : Storage) (p : Path) : Except IoError Text := do
  match Utf8.decode (← s.read p) with
  | .ok t => return t
  | .error _ => .error .notText

/-- The names after `dir`, when `names` lie below it. -/
def below? : List Text → List Text → Option (List Text)
  | [], names => some names
  | _ :: _, [] => none
  | d :: ds, n :: ns => if d = n then below? ds ns else none

/-- The files below a directory, by their names from it. -/
def filesBelow (s : Storage) (dir : List Text) : List (List Text × List UInt8) :=
  s.entries.filterMap (fun e =>
    match e.2 with
    | .file bytes => (below? dir e.1).map (fun names => (names, bytes))
    | .directory => none)

end Storage
end DocExcerpt
