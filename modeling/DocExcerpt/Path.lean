import DocExcerpt.Text.Basic
/-!
# Paths

A path is kept as it was written, because messages and reports show it so; its components are what the file
system sees.  A path is an anchor (`/`, a leading `.`, or nothing) and a body of parts between slashes, of
which the empty ones and the `.` name nothing.
-/
namespace DocExcerpt

structure Path where
  text : Text
  deriving DecidableEq

namespace Path

def isVoid (part : Text) : Bool := part.isEmpty || part == ['.']

def isAbsolute (p : Path) : Bool := Text.startsWith ['/'] p.text

/-- The start of the path that no component takes away: the root, or a leading `.`. -/
def anchor (p : Path) : Text :=
  match p.text with
  | '/' :: _ => ['/']
  | ['.'] => ['.']
  | '.' :: '/' :: _ => ['.']
  | _ => []

def parts (p : Path) : List Text := Text.pieces '/' (p.text.drop p.anchor.length)

def ofParts (anchor : Text) (parts : List Text) : Path := ⟨anchor ++ Text.join ['/'] parts⟩

/-- The parts that name something, `..` among them, in order. -/
def components (p : Path) : List Text := p.parts.filter (fun part => !isVoid part)

/-- The parts up to the last one that names something, latest first. -/
def partsBack (p : Path) : List Text := p.parts.reverse.dropWhile isVoid

/-- The path without its last component; the anchor counts as one when nothing follows it. -/
def parent? (p : Path) : Option Path :=
  match p.partsBack with
  | _ :: before => some (ofParts p.anchor (before.dropWhile isVoid).reverse)
  | [] => if p.anchor = ['.'] then some ⟨[]⟩ else none

/-- The last component, when it is a name and not `..`. -/
def fileName? (p : Path) : Option Text :=
  match p.partsBack with
  | name :: _ => if name = ['.', '.'] then none else some name
  | [] => none

/-- A file name cut before its last dot: the stem, and the extension if the dot is not the first character. -/
def splitName (name : Text) : Text × Option Text :=
  match Text.cutLast? '.' name with
  | none => (name, none)
  | some ([], _) => (name, none)
  | some (stem, extension) => (stem, some extension)

def stem? (p : Path) : Option Text := p.fileName?.map (fun name => (splitName name).1)

def extension? (p : Path) : Option Text := p.fileName?.bind (fun name => (splitName name).2)

/-- The path `q` seen from the directory `p`. -/
def join (p q : Path) : Path :=
  if q.isAbsolute then q
  else if p.text.isEmpty || Text.endsWith ['/'] p.text then ⟨p.text ++ q.text⟩
  else ⟨p.text ++ '/' :: q.text⟩

/-- The path with another file name; a path without one takes the name as a further component. -/
def withFileName (p : Path) (name : Text) : Path :=
  match p.fileName?, p.parent? with
  | some _, some dir => dir.join ⟨name⟩
  | _, _ => p.join ⟨name⟩

/-- `ancestors` of a path with at most `depth` components. -/
def ancestorsUpTo : Nat → Path → List Path
  | 0, p => [p]
  | depth + 1, p =>
    match p.parent? with
    | some dir => p :: ancestorsUpTo depth dir
    | none => [p]

/-- The path and the directories above it that its text shows, innermost first. -/
def ancestors (p : Path) : List Path := ancestorsUpTo (p.components.length + 1) p

/-- Order of component lists: by the first component that differs. -/
def componentsLe : List Text → List Text → Bool
  | [], _ => true
  | _ :: _, [] => false
  | a :: as, b :: bs => if a = b then componentsLe as bs else Text.le a b

end Path
end DocExcerpt
