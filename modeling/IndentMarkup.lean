import IndentMarkup.CommandLine.Call
import IndentMarkup.Line.Stream
import IndentMarkup.Main
import IndentMarkup.Proofs.Markup.Compact
import IndentMarkup.Proofs.Template.RoundTrip
import IndentMarkup.Proofs.Token.Precedence
import IndentMarkup.Proofs.Line.Alike
import IndentMarkup.Proofs.Line.Seam
import IndentMarkup.Proofs.Statement.Alike
import IndentMarkup.Proofs.Line.Nesting
import IndentMarkup.Proofs.Line.Levels
import IndentMarkup.Proofs.Template.Siblings
import IndentMarkup.Proofs.Template.Similar
import IndentMarkup.Proofs.Line.Margin
import IndentMarkup.Proofs.Template.Body
import IndentMarkup.Proofs.Template.Append
import IndentMarkup.Proofs.Template.Reindent
import IndentMarkup.Proofs.Template.Outline
import IndentMarkup.Proofs.Markup.Pieces
import IndentMarkup.Proofs.Markup.Node
import IndentMarkup.Proofs.Markup.Unambiguous
import IndentMarkup.Proofs.Statement.Origin
import IndentMarkup.Proofs.Template.Kept
import IndentMarkup.Proofs.Line.Lexed
import IndentMarkup.Proofs.Template.Blame
import IndentMarkup.Proofs.Template.WellFormed
import IndentMarkup.Proofs.Markup.Walk
import IndentMarkup.Proofs.Line.Splitting
import IndentMarkup.Proofs.CommandLine.Check
import IndentMarkup.Proofs.Line.FinalFeed
import IndentMarkup.Proofs.Statement.LastDot
import IndentMarkup.Proofs.Statement.WholeLine
import IndentMarkup.Proofs.Template.BlankLines
import IndentMarkup.Proofs.Template.FinalFeed
import IndentMarkup.Proofs.Template.Trailing
import IndentMarkup.Proofs.Template.TagLines
import IndentMarkup.Proofs.Token.Translation
import IndentMarkup.Proofs.Template.Parts
import IndentMarkup.Proofs.Template.Branches
import IndentMarkup.Proofs.Template.Verbatim
import IndentMarkup.Proofs.Template.Shift
import IndentMarkup.Proofs.Markup.Calls
import IndentMarkup.Proofs.Token.Exhaustion
import IndentMarkup.Proofs.Template.Shorthand
import IndentMarkup.Proofs.Cursor.Frame
import IndentMarkup.Proofs.Cursor.Located
import IndentMarkup.Proofs.Markup.StartTags
import IndentMarkup.Proofs.CommandLine.Build
import IndentMarkup.Proofs.Template.InPlace
