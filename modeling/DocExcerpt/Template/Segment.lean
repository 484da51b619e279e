import DocExcerpt.Template.Basic
import DocExcerpt.Text.Blank
/-!
# Segments of a template

The text of a template between its markers.  A tag or a comment on a line of its own leaves no trace of that
line: the blanks before it and one line end after it are dropped.
-/
namespace DocExcerpt
namespace Template

/-- A stretch of text, or what stands between markers. -/
inductive Segment where
  | text (t : Text)
  | output (body : Text)
  | tag (body : Text)
  | comment
  deriving DecidableEq

inductive Marker where
  | output
  | tag
  | comment
  deriving DecidableEq

def marker? : Text → Option (Marker × Text)
  | '\x7b' :: '\x7b' :: rest => some (.output, rest)
  | '\x7b' :: '%' :: rest => some (.tag, rest)
  | '\x7b' :: '#' :: rest => some (.comment, rest)
  | _ => none

def Marker.closing : Marker → Text
  | .output => ['\x7d', '\x7d']
  | .tag => ['%', '\x7d']
  | .comment => ['#', '\x7d']

def Marker.segment : Marker → Text → Segment
  | .output, body => .output body
  | .tag, body => .tag body
  | .comment, _ => .comment

/-- Cuts a text at its first marker, after the characters already passed, latest first. -/
def cutAtMarker? (passed : Text) : Text → Option (Text × Marker × Text)
  | [] => none
  | c :: cs =>
    match marker? (c :: cs) with
    | some (m, rest) => some (passed.reverse, m, rest)
    | none => cutAtMarker? (c :: passed) cs

def isLineEnd (c : Char) : Bool := c == '\n' || c == '\r'

def isInlineBlank (c : Char) : Bool := isBlank c && !isLineEnd c

/-- The text before a tag without the blanks of its last line, when there is nothing else on that line.
`atLineStart` tells whether the text begins a line. -/
def dropIndent (atLineStart : Bool) (t : Text) : Text :=
  let rest := t.reverse.dropWhile isInlineBlank
  match rest with
  | [] => if atLineStart then [] else t
  | c :: _ => if isLineEnd c then rest.reverse else t

def startsWithLineEnd (t : Text) : Bool := (t.head?.map isLineEnd).getD false

def dropLineEnd : Text → Text
  | '\r' :: '\n' :: rest => rest
  | '\r' :: rest => rest
  | '\n' :: rest => rest
  | t => t

/-- The segments of a text, in at most `steps` markers. -/
def segmentsUpTo? : Nat → Bool → Text → Option (List Segment)
  | 0, _, _ => none
  | steps + 1, atLineStart, t =>
    match cutAtMarker? [] t with
    | none => some [.text t]
    | some (lead, m, rest) => do
      let (body, rest) ← Text.cutAt? m.closing rest
      if m = .output then
        let segments ← segmentsUpTo? steps false rest
        return .text lead :: m.segment body :: segments
      else
        let segments ← segmentsUpTo? steps (startsWithLineEnd rest) (dropLineEnd rest)
        return .text (dropIndent atLineStart lead) :: m.segment body :: segments

def withoutLastBreak (t : Text) : Text :=
  let t := (Text.before? ['\n'] t).getD t
  (Text.before? ['\r'] t).getD t

/-- The segments of a template; none when a marker is not closed.  One line end at the end of the template is
not part of it. -/
def segments? (t : Text) : Option (List Segment) :=
  segmentsUpTo? (t.length + 1) true (withoutLastBreak t)

end Template
end DocExcerpt
