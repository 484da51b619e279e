import DocExcerpt.Text.Basic
/-!
# Configuration

What a user can set: the tag and how examples are named, which files are scanned, what is ignored, and how a
report is rendered.  Settings of the last kind, and whether hidden files are scanned, may be left unset; the
functions after the structures give their value then.
-/
namespace DocExcerpt
namespace Config

/-- The tag, and the names derived for examples. -/
structure Defaults where
  tag : Text
  exampleSuffix : Text
  heading : Text
  showHidden? : Option Bool
  deriving DecidableEq

structure Scan where
  extensions : List Text
  deriving DecidableEq

structure Ignore where
  paths : List Text
  globs : List Text
  deriving DecidableEq

structure Render where
  format? : Option Text
  template? : Option Text
  fenceLanguage? : Option Bool
  lineNumbers? : Option Bool
  deriving DecidableEq

end Config

structure Config where
  defaults : Config.Defaults
  scan : Config.Scan
  ignore : Config.Ignore
  render : Config.Render
  deriving DecidableEq

namespace Config

def defaultTag : Text := "@includeExample".toList

def defaultSuffix : Text := "example".toList

def defaultHeading : Text := "Example".toList

def defaultExtensions : List Text :=
  ["ts", "tsx", "mts", "cts", "js", "jsx", "mjs", "cjs", "rs"].map String.toList

/-- The settings of the first section when it is absent. -/
def Defaults.absent : Defaults := ⟨defaultTag, defaultSuffix, defaultHeading, some false⟩

def Scan.absent : Scan := ⟨defaultExtensions⟩

def Ignore.absent : Ignore where
  paths := ["target/", "node_modules/", "dist/", ".git/"].map String.toList
  globs := ["*.min.js", "*.d.ts"].map String.toList

def Render.absent : Render := ⟨none, none, none, none⟩

/-- The lowest layer: what holds without any configuration file. -/
def builtIn : Config where
  defaults := Defaults.absent
  scan := Scan.absent
  ignore := Ignore.absent
  render := ⟨some "markdown".toList, none, some true, some false⟩

def showHidden (c : Config) : Bool := c.defaults.showHidden?.getD false

def format (c : Config) : Text := c.render.format?.getD "markdown".toList

def fenceLanguage (c : Config) : Bool := c.render.fenceLanguage?.getD true

def lineNumbers (c : Config) : Bool := c.render.lineNumbers?.getD false

end Config
end DocExcerpt
