import DocExcerpt.Config.Basic
import DocExcerpt.Glob.Parser
import DocExcerpt.Storage.Basic
import DocExcerpt.Text.Blank
import DocExcerpt.Text.Line
/-!
# Skipped paths

Which paths a scan passes over by its own settings: the paths and globs of the configuration, and the paths in
the `.excerptignore` file of the scanned directory.  A path to skip covers the entry itself and all below it,
at any depth.
-/
namespace DocExcerpt

inductive SkipSource where
  | configPaths
  | configGlobs
  | ignoreFile
  deriving DecidableEq

inductive SkipError where
  | badGlob (source : SkipSource) (cause : Glob.GlobError)
  | unread (cause : IoError)
  deriving DecidableEq

def SkipError.message : SkipError → Text
  | .badGlob .configPaths _ => "invalid ignore path pattern".toList
  | .badGlob .configGlobs _ => "invalid ignore glob".toList
  | .badGlob .ignoreFile _ => "invalid .excerptignore pattern".toList
  | .unread cause => cause.message

namespace Skip

/-- A path without the blanks and then the slashes around it. -/
def bare (path : Text) : Text :=
  let isSlash (c : Char) : Bool := c == '/'
  (((Text.trim path).dropWhile isSlash).reverse.dropWhile isSlash).reverse

def globTexts (path : Text) : List Text :=
  let p := bare path
  if p.isEmpty then []
  else
    [p, p ++ "/**".toList, "**/".toList ++ p, "**/".toList ++ p ++ "/**".toList]

/-- Reads globs; the first that cannot be read is the error. -/
def parseGlobs (source : SkipSource) (texts : List Text) : Except SkipError (List Glob) :=
  texts.mapM (fun t => (Glob.parse true t).mapError (SkipError.badGlob source))

def ignoreFileName : Text := ".excerptignore".toList

/-- The paths listed in a file: its trimmed rows without the blank ones and the comments. -/
def listedPaths (content : Text) : List Text :=
  ((Text.rows content).map Text.trim).filter (fun row => !row.isEmpty && !Text.startsWith ['#'] row)

/-- The paths listed in the ignore file of a directory, none if it has no such file. -/
def ofIgnoreFile (s : Storage) (root : Path) : Except SkipError (List Text) :=
  let path := root.join ⟨ignoreFileName⟩
  if s.exists? path then (s.readUtf8 path).map listedPaths |>.mapError SkipError.unread else .ok []

/-- The globs of everything that a scan of `root` skips. -/
def globs (s : Storage) (root : Path) (ignore : Config.Ignore) : Except SkipError (List Glob) := do
  let fromPaths ← parseGlobs .configPaths (ignore.paths.flatMap globTexts)
  let fromGlobs ← parseGlobs .configGlobs ignore.globs
  let listed ← ofIgnoreFile s root
  let fromFile ← parseGlobs .ignoreFile (listed.flatMap globTexts)
  return fromPaths ++ fromGlobs ++ fromFile

def covers (globs : List Glob) (path : Text) : Bool := globs.any (·.matches path)

end Skip
end DocExcerpt
