import DocExcerpt.CommandLine.Basic
/-!
# Help

What is shown when a command line asks for help or cannot be run.
-/
namespace DocExcerpt

def CommandLine.versionText : Text := "excerpt 0.1.0\n".toList

namespace CommandLine

def Argument.usage (a : Argument) : Text :=
  let t := ['-', '-'] ++ a.name ++ (if a.kind?.isSome then " <".toList ++ a.name ++ ">".toList else [])
  if a.required then t else '[' :: (t ++ [']'])

def Signature.usage (g : Signature) : Text :=
  let positional := '<' :: (g.positional.name ++ ['>'])
  let positional := if g.positional.required then positional else '[' :: (positional ++ [']'])
  Text.join [' '] ("  excerpt".toList :: g.name :: positional :: g.options.map Argument.usage)

def helpText : Text :=
  "Extract documentation-ready code excerpts with line selectors\n\nUsage:\n".toList
    ++ Text.join ['\n'] (signatures.map Signature.usage)
    ++ "\n\nOptions: --verbose (-v, may be repeated), --help (-h), --version (-V)\n".toList

end CommandLine

def UsageError.message : UsageError → Text
  | .help => CommandLine.helpText
  | .nothingAsked => CommandLine.helpText
  | .version => CommandLine.versionText
  | .unknownArgument => "error: unexpected argument\n".toList
  | .unknownCommand => "error: unrecognized command\n".toList
  | .missingCommand => "error: a command is required\n".toList
  | .missingArgument => "error: a required argument is missing\n".toList
  | .invalidValue => "error: an option has no value, or one that it cannot have\n".toList
  | .unreadableValue => "error: a value cannot be read\n".toList
  | .unneededValue => "error: a switch takes no value\n".toList
  | .repeatedArgument => "error: an argument cannot be used multiple times\n".toList

end DocExcerpt
