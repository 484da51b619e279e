import DocExcerpt.Ignore.Rule
import DocExcerpt.Storage.Basic
/-!
# Ignore files of a tree

Every directory above an entry may hold ignore files.  `.ignore` is always read; `.gitignore` and
`.git/info/exclude` count only inside a repository, and only up to its top.  A nearer file wins over one
further up, and `.ignore` over the others at any distance.
-/
namespace DocExcerpt

structure IgnoreLevel where
  directory : List Text
  ignore : List IgnoreRule
  gitignore : List IgnoreRule
  exclude : List IgnoreRule
  isRepository : Bool

namespace IgnoreLevel

/-- The bytes before the first line that is no text; rules are read up to there. -/
def readablePart (bytes : List UInt8) : Text :=
  match Utf8.decode bytes with
  | .ok t => t
  | .error count =>
    match Utf8.decode (bytes.take count) with
    | .error _ => []
    | .ok t => (t.reverse.dropWhile (fun c => !(c == '\n'))).reverse

def rulesAt (s : Storage) (names : List Text) : List IgnoreRule :=
  match s.get? names with
  | some (.file bytes) => IgnoreRule.parseFile (readablePart bytes)
  | _ => []

/-- The names that one entry of a repository has. -/
def repositoryNames : List Text := [".git".toList, ".jj".toList]

def ofDirectory (s : Storage) (dir : List Text) : IgnoreLevel where
  directory := dir
  ignore := rulesAt s (dir ++ [".ignore".toList])
  gitignore := rulesAt s (dir ++ [".gitignore".toList])
  exclude := rulesAt s (dir ++ [".git".toList, "info".toList, "exclude".toList])
  isRepository := repositoryNames.any (fun name => (s.get? (dir ++ [name])).isSome)

/-- The names of files and directories that make a directory count. -/
def markers : List Text := [".ignore".toList, ".gitignore".toList] ++ repositoryNames

/-- The levels of all directories that have an ignore file or are repositories. -/
def all (s : Storage) : List IgnoreLevel :=
  ((s.entries.filter (fun e => (e.1.getLast?.map markers.contains).getD false)).map (·.1.dropLast)).eraseDups.map
    (ofDirectory s)

/-- The levels that a path passes through on its way down, innermost first, each with the rest of the path
from there. -/
def above (levels : List IgnoreLevel) (names : List Text) : List (IgnoreLevel × Text) :=
  let passed := levels.filterMap (fun l =>
    match Storage.below? l.directory names with
    | some (n :: rest) => some (l, Text.join ['/'] (n :: rest))
    | _ => none)
  passed.mergeSort (fun a b => b.1.directory.length ≤ a.1.directory.length)

def uptoRepository : List (IgnoreLevel × Text) → List (IgnoreLevel × Text)
  | [] => []
  | l :: outer => if l.1.isRepository then [l] else l :: uptoRepository outer

/-- Whether one of the directories that an entry lies in is a repository. -/
def inRepository (levels : List IgnoreLevel) (names : List Text) : Bool := (above levels names).any (·.1.isRepository)

/-- What the ignore files above an entry say of it. -/
def decide? (levels : List IgnoreLevel) (names : List Text) (isDirectory : Bool) : Option Verdict :=
  let passed := above levels names
  let first (rules : IgnoreLevel → List IgnoreRule) (ls : List (IgnoreLevel × Text)) : Option Verdict :=
    ls.findSome? (fun l => IgnoreRule.decide? (rules l.1) l.2 isDirectory)
  first (·.ignore) passed
    <|> (if inRepository levels names then first (·.gitignore) (uptoRepository passed)
          <|> first (·.exclude) (uptoRepository passed)
        else none)

end IgnoreLevel
end DocExcerpt
