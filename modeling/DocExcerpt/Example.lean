import DocExcerpt.Excerpt
import DocExcerpt.Storage.TextFile
import DocExcerpt.Tag
/-!
# Example files

From the value of an include tag to the excerpt it names.  The path of a tag is looked for in the base
directory and then beside the source file that carries the tag; a tag without a path names the example file of
its source (`defaultPath`).
-/
namespace DocExcerpt

structure Example where
  path : Path
  excerpt : Excerpt
  deriving DecidableEq

inductive ExampleError where
  | tag (e : TagError)
  | notFound (path : Path)
  | read (e : ReadError)
  | lines (path : Path) (e : OutOfRange)
  deriving DecidableEq

def ExampleError.message : ExampleError → Text
  | .tag e => e.message
  | .notFound path => "example file not found: ".toList ++ path.text
  | .read e => e.message
  | .lines path e => "in example ".toList ++ path.text ++ ": ".toList ++ e.message

namespace Example

/-- The language of a code fence: the extension of the file. -/
def language? (e : Example) : Option Text := e.path.extension?

/-- The example file that belongs to a source: its name with the suffix before the extension. -/
def defaultPath (suffix : Text) (source : Path) : Path :=
  let stem := source.stem?.getD [] ++ '.' :: suffix
  source.withFileName (match source.extension? with
    | some extension => stem ++ '.' :: extension
    | none => stem)

/-- Where the path of a tag may lead, the preferred place first. -/
def candidates (base : Path) (source? : Option Path) (path : Path) : List Path :=
  base.join path :: ((source?.bind Path.parent?).map (·.join path)).toList

def locate (s : Storage) (base : Path) (source? : Option Path) (path : Path) : Except ExampleError Path :=
  match (candidates base source? path).find? s.isFile with
  | some file => .ok file
  | none => .error (.notFound path)

def load (s : Storage) (base : Path) (suffix : Text) (source? : Option Path) (value : Text) :
    Except ExampleError Example := do
  let tag ← (Tag.parse value (source?.map (defaultPath suffix))).mapError ExampleError.tag
  let path ← locate s base source? tag.path
  let content ← (s.readText path).mapError ExampleError.read
  let excerpt ← (Excerpt.ofContent content tag.selector?).mapError (ExampleError.lines path)
  return ⟨path, excerpt⟩

end Example
end DocExcerpt
