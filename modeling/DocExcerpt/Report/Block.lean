import DocExcerpt.Example
import DocExcerpt.Report.Format
/-!
# Example blocks

An example in a documentation comment: a heading and a code fence.
-/
namespace DocExcerpt

def exampleBlock (heading : Text) (language? : Option Text) (text : Text) : Text :=
  "\n\n### ".toList ++ heading ++ "\n```".toList ++ language?.getD [] ++ "\n".toList ++ text ++ "\n```".toList

namespace Example

/-- The text of an example, with line numbers if they are wanted. -/
def contents (e : Example) (options : ReportOptions) : Text :=
  if options.lineNumbers then e.excerpt.gutter else e.excerpt.text

def block (e : Example) (options : ReportOptions) : Text :=
  exampleBlock options.heading (if options.fenceLanguage then e.language? else none) (e.contents options)

end Example
end DocExcerpt
