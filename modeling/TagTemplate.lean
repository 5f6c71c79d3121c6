import TagTemplate.Document.Census
import TagTemplate.Document.RoundTrip
import TagTemplate.Document.Trace
import TagTemplate.FileStore
import TagTemplate.Main
import TagTemplate.Proofs.Number.Nearest
import TagTemplate.Proofs.Number.Literal
import TagTemplate.Proofs.Number.Printing
import TagTemplate.Proofs.Text.Run
import TagTemplate.Proofs.Token.Spelling
import TagTemplate.Proofs.Token.Scan
import TagTemplate.Proofs.Token.Decomposition
import TagTemplate.Proofs.Token.Lexing
import TagTemplate.Proofs.Token.Seam
import TagTemplate.Proofs.Document.Reading
import TagTemplate.Proofs.Document.Grammar
import TagTemplate.Proofs.Document.Equality
import TagTemplate.Proofs.Document.WellFormed
import TagTemplate.Proofs.Document.Spelling
import TagTemplate.Proofs.Document.Rendering
import TagTemplate.Proofs.Document.RoundTrip
import TagTemplate.Proofs.Document.MergedTexts
import TagTemplate.Proofs.Document.Formatting
import TagTemplate.Proofs.Document.Concatenation
import TagTemplate.Proofs.Token.Step
import TagTemplate.Proofs.Document.Calls
import TagTemplate.Proofs.Token.Contract
import TagTemplate.Proofs.Document.Failures
import TagTemplate.Proofs.Document.Misplaced
import TagTemplate.Proofs.Document.Nesting
import TagTemplate.Proofs.Document.Balance
import TagTemplate.Proofs.Document.Outlining
import TagTemplate.Proofs.Command.Agreement
import TagTemplate.Proofs.Command.Overwriting
import TagTemplate.Proofs.Token.Places
import TagTemplate.Proofs.Document.Visits
import TagTemplate.Proofs.Document.Sameness
import TagTemplate.Proofs.Number.Reading
import TagTemplate.Proofs.Token.Numbers
import TagTemplate.Proofs.Document.Parts
import TagTemplate.Proofs.Token.Causes
import TagTemplate.Proofs.Document.Effects
import TagTemplate.Proofs.Document.Leftmost
import TagTemplate.Proofs.Text.Quoting
import TagTemplate.Proofs.Document.OutlineDepth
import TagTemplate.Proofs.Document.OutlineLines
import TagTemplate.Proofs.Token.ProtectedBraces
import TagTemplate.Proofs.Document.ZeroSigns
import TagTemplate.Proofs.Command.Listing
import TagTemplate.Proofs.Document.OutlineTree
import TagTemplate.Proofs.Document.Linearisation
