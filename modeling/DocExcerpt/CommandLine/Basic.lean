import DocExcerpt.Report.Format
import DocExcerpt.Text.Digit
/-!
# The command line

The commands of the program, the arguments that each of them takes, and what can be wrong with a command line.
-/
namespace DocExcerpt

inductive Shell where
  | bash
  | elvish
  | fish
  | powershell
  | zsh
  deriving DecidableEq

def Shell.name : Shell → Text
  | bash => "bash".toList
  | elvish => "elvish".toList
  | fish => "fish".toList
  | powershell => "powershell".toList
  | zsh => "zsh".toList

def Shell.ofName? (t : Text) : Option Shell :=
  [bash, elvish, fish, powershell, zsh].find? (fun s => s.name == t)

inductive Command where
  /-- Print the lines that a selector picks from a file of `total` lines. -/
  | resolve (selector : Text) (total : Nat) (json : Bool)
  /-- Print the excerpt that the value of a tag names. -/
  | show (tag : Text) (source? : Option Path) (lineNumbers block : Bool)
  /-- Resolve the tags below a directory and print a report. -/
  | scan (root? : Option Path) (format? : Option ReportFormat) (template? : Option Text) (output? : Option Path)
      (lineNumbers : Bool)
  | completions (shell : Shell)
  deriving DecidableEq

structure Invocation where
  verbosity : Nat
  command : Command
  deriving DecidableEq

inductive LogLevel where
  | warn
  | info
  | debug
  | trace
  deriving DecidableEq

/-- The log level for a number of `-v`. -/
def LogLevel.ofVerbosity : Nat → LogLevel
  | 0 => warn
  | 1 => info
  | 2 => debug
  | _ => trace

def LogLevel.name : LogLevel → Text
  | warn => "warn".toList
  | info => "info".toList
  | debug => "debug".toList
  | trace => "trace".toList

inductive UsageError where
  | help
  | nothingAsked
  | version
  | unknownArgument
  | unknownCommand
  | missingCommand
  | missingArgument
  | invalidValue
  | unreadableValue
  | unneededValue
  | repeatedArgument
  deriving DecidableEq

namespace CommandLine

inductive ValueKind where
  | text
  | path
  | count
  | format
  | shell
  deriving DecidableEq

/-- The largest count, exclusive. -/
def countLimit : Nat := 0x10000000000000000

/-- The number that a count denotes; it may have a plus sign. -/
def count? (t : Text) : Option Nat :=
  let digits := (Text.after? ['+'] t).getD t
  if Text.isNumeral digits ∧ Text.ofDigits digits < countLimit then some (Text.ofDigits digits) else none

def ValueKind.check : ValueKind → Text → Except UsageError Unit
  | .text, _ => .ok ()
  | .path, t => if t.isEmpty then .error .invalidValue else .ok ()
  | .count, t => if (count? t).isSome then .ok () else .error .unreadableValue
  | .format, t => if (ReportFormat.ofName? t).isSome then .ok () else .error .invalidValue
  | .shell, t => if (Shell.ofName? t).isSome then .ok () else .error .invalidValue

/-- An argument; a switch has no kind of value. -/
structure Argument where
  name : Text
  kind? : Option ValueKind
  required : Bool
  deriving DecidableEq

/-- The arguments of a command: one without a name in front, and options. -/
structure Signature where
  name : Text
  positional : Argument
  options : List Argument
  deriving DecidableEq

def option (name : String) (kind : ValueKind) : Argument := ⟨name.toList, some kind, false⟩

def switch (name : String) : Argument := ⟨name.toList, none, false⟩

def signatures : List Signature :=
  [⟨"resolve".toList, ⟨"selector".toList, some .text, true⟩,
      [⟨"lines".toList, some .count, true⟩, switch "json"]⟩,
    ⟨"show".toList, ⟨"tag".toList, some .text, true⟩,
      [option "source" .path, switch "line-numbers", switch "block"]⟩,
    ⟨"scan".toList, ⟨"root".toList, some .path, false⟩,
      [option "format" .format, option "template" .text, option "output" .path, switch "line-numbers"]⟩,
    ⟨"completions".toList, ⟨"shell".toList, some .shell, true⟩, []⟩]

/-- The command that lists the others. -/
def helpName : Text := "help".toList

def signature? (name : Text) : Option Signature := signatures.find? (fun g => g.name == name)

end CommandLine
end DocExcerpt
