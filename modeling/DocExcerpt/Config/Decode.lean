import DocExcerpt.Config.Basic
import DocExcerpt.Toml.Parser
/-!
# Reading a configuration

A configuration is a TOML document with the sections `defaults`, `scan`, `ignore` and `render`.  A section that
is absent and a section that is there without some key have defaults of their own; keys without a meaning are
passed over, and a value of another type is refused.  A section may also be an array of its values in order.
-/
namespace DocExcerpt
namespace Config

open Toml (Value)

/-- The value of a setting, by its key in a section or by its place in an array. -/
def setting? (section? : Value) (key : String) (place : Nat) : Option Value :=
  match section? with
  | .table _ entries => Toml.Table.get? entries key.toList
  | .array items => items[place]?
  | .tables elements => elements[place]?
  | _ => none

def isSection : Value → Bool
  | .table _ _ => true
  | .array _ => true
  | .tables _ => true
  | _ => false

def text? : Value → Option Text
  | .string t => some t
  | _ => none

def bool? : Value → Option Bool
  | .boolean b => some b
  | _ => none

def texts? : Value → Option (List Text)
  | .array items => items.mapM text?
  | .tables elements => elements.mapM text?
  | _ => none

/-- A setting that has a default; fails when a value is there that cannot be read. -/
def orDefault {α : Type} (read : Value → Option α) (default : α) : Option Value → Option α
  | none => some default
  | some v => read v

/-- A setting that may be left unset; fails when a value is there that cannot be read. -/
def orUnset {α : Type} (read : Value → Option α) : Option Value → Option (Option α)
  | none => some none
  | some v => (read v).map some

/-- A section of the document, or its value when it is absent. -/
def readSection {α : Type} (read : Value → Option α) (absent : α) : Option Value → Option α
  | none => some absent
  | some v => if isSection v then read v else none

def Defaults.ofValue? (v : Value) : Option Defaults := do
  let tag ← orDefault text? defaultTag (setting? v "tag" 0)
  let exampleSuffix ← orDefault text? defaultSuffix (setting? v "example_suffix" 1)
  let heading ← orDefault text? defaultHeading (setting? v "heading" 2)
  let showHidden? ← orUnset bool? (setting? v "show_hidden" 3)
  return ⟨tag, exampleSuffix, heading, showHidden?⟩

def Scan.ofValue? (v : Value) : Option Scan := do
  return ⟨← orDefault texts? defaultExtensions (setting? v "extensions" 0)⟩

def Ignore.ofValue? (v : Value) : Option Ignore := do
  return ⟨← orDefault texts? [] (setting? v "paths" 0), ← orDefault texts? [] (setting? v "globs" 1)⟩

def Render.ofValue? (v : Value) : Option Render := do
  let format? ← orUnset text? (setting? v "format" 0)
  let template? ← orUnset text? (setting? v "template" 1)
  let fenceLanguage? ← orUnset bool? (setting? v "fence_language" 2)
  let lineNumbers? ← orUnset bool? (setting? v "line_numbers" 3)
  return ⟨format?, template?, fenceLanguage?, lineNumbers?⟩

/-- The configuration in a document; none when a setting has a value of another type. -/
def ofTable? (t : Toml.Table) : Option Config := do
  let defaults ← readSection Defaults.ofValue? Defaults.absent (Toml.Table.get? t "defaults".toList)
  let scan ← readSection Scan.ofValue? Scan.absent (Toml.Table.get? t "scan".toList)
  let ignore ← readSection Ignore.ofValue? Ignore.absent (Toml.Table.get? t "ignore".toList)
  let render ← readSection Render.ofValue? Render.absent (Toml.Table.get? t "render".toList)
  return ⟨defaults, scan, ignore, render⟩

/-- The configuration written in a text; none when it is no TOML or sets something wrongly. -/
def parse? (t : Text) : Option Config := (Toml.parse t).bind ofTable?

end Config
end DocExcerpt
