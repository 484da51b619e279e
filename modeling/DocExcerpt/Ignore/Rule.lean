import DocExcerpt.Glob.Parser
import DocExcerpt.Text.Blank
import DocExcerpt.Text.Line
/-!
# Ignore rules

A line of an ignore file is a glob that leaves entries out, or with `!` in front keeps them.  A rule with a
slash inside is tied to the directory of its file, any other holds at every depth, and a slash at the end
restricts it to directories.  Of several rules that match, the last one decides.
-/
namespace DocExcerpt

inductive Verdict where
  | leaveOut
  | keep
  deriving DecidableEq

structure IgnoreRule where
  glob : Glob
  verdict : Verdict
  directoriesOnly : Bool
  deriving DecidableEq

namespace IgnoreRule

/-- A line without the blanks at its end, unless the last one is escaped. -/
def trimLine (line : Text) : Text :=
  if Text.endsWith ['\\', ' '] line then line else Text.trimEnd line

/-- The glob of a rule, to be matched against the whole path from the directory of its file. -/
def globText (anchored : Bool) (body : Text) : Text :=
  let body :=
    if anchored || body.contains '/' || body == ['*', '*'] then body
    else ['*', '*', '/'] ++ body
  if Text.endsWith ['/', '*', '*'] body then body ++ ['/', '*'] else body

/-- The rule on a line.  Blank lines, comments and lines that are no glob have none. -/
def parse? (line : Text) : Option IgnoreRule :=
  if Text.startsWith ['#'] line then none
  else
    let line := trimLine line
    if line.isEmpty then none
    else
      let escaped := Text.startsWith ['\\', '!'] line || Text.startsWith ['\\', '#'] line
      let kept := !escaped && Text.startsWith ['!'] line
      let body := if escaped || kept then line.tail else line
      let anchored := !escaped && Text.startsWith ['/'] body
      let body := if anchored then body.tail else body
      let directoriesOnly := Text.endsWith ['/'] body
      let body := if directoriesOnly then body.dropLast else body
      let body := if directoriesOnly then (Text.before? ['\\'] body).getD body else body
      match Glob.parse false (globText anchored body) with
      | .ok glob => some ⟨glob, if kept then .keep else .leaveOut, directoriesOnly⟩
      | .error _ => none

/-- The rules of an ignore file.  A byte order mark at its start is passed over. -/
def parseFile (content : Text) : List IgnoreRule :=
  let content := content.dropWhile (· == '\uFEFF')
  (Text.rows content).filterMap parse?

def applies (r : IgnoreRule) (path : Text) (isDirectory : Bool) : Bool :=
  (isDirectory || !r.directoriesOnly) && r.glob.matches path

def decide? (rules : List IgnoreRule) (path : Text) (isDirectory : Bool) : Option Verdict :=
  (rules.reverse.find? (fun r => r.applies path isDirectory)).map (·.verdict)

end IgnoreRule
end DocExcerpt
