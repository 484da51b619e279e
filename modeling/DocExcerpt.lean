import DocExcerpt.Main
import DocExcerpt.Proofs.CommandLine.Delivery
import DocExcerpt.Proofs.Config.Precedence
import DocExcerpt.Proofs.Report.Faithful
import DocExcerpt.Proofs.Scan.Accounting
import DocExcerpt.Proofs.Scan.DefaultExample
import DocExcerpt.Proofs.Selector.Grammar
import DocExcerpt.Proofs.Selector.Meaning
import DocExcerpt.Proofs.DocComment.Blocks
import DocExcerpt.Proofs.DocComment.TagPattern
import DocExcerpt.Proofs.Path.OfNames
import DocExcerpt.Proofs.Example.Sources
import DocExcerpt.Proofs.CommandLine.Agreement
import DocExcerpt.Proofs.Glob.Matching
import DocExcerpt.Proofs.Glob.Literal
import DocExcerpt.Proofs.Ignore.LiteralPaths
import DocExcerpt.Proofs.Ignore.Level
import DocExcerpt.Proofs.Scan.Pruning
import DocExcerpt.Proofs.Tag.Brackets
import DocExcerpt.Proofs.Selector.Bounds
import DocExcerpt.Proofs.Text.Lines
import DocExcerpt.Proofs.Excerpt.Kept
import DocExcerpt.Proofs.Excerpt.Gutter
import DocExcerpt.Proofs.Selector.Faults
import DocExcerpt.Proofs.Selector.Dashes
import DocExcerpt.Proofs.Tag.ColonForm
import DocExcerpt.Proofs.Report.BuiltIn
import DocExcerpt.Proofs.Selector.Words
import DocExcerpt.Proofs.Selector.FromEnd
import DocExcerpt.Proofs.Storage.Reading
import DocExcerpt.Proofs.Config.Merging
import DocExcerpt.Proofs.Scan.SiblingNames
