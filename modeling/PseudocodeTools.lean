import PseudocodeTools.Text.Basic
import PseudocodeTools.Text.Blank
import PseudocodeTools.Text.Alphanumeric
import PseudocodeTools.Text.Lowercase
import PseudocodeTools.Text.Quoted
import PseudocodeTools.Token
import PseudocodeTools.Block.Fold
import PseudocodeTools.Indent
import PseudocodeTools.Typing
import PseudocodeTools.Binary64.Digits
import PseudocodeTools.Json.Basic
import PseudocodeTools.JsonText.Value
import PseudocodeTools.JsonText.Printer
import PseudocodeTools.Tree.Build
import PseudocodeTools.Tree.Decode
import PseudocodeTools.Tree.Encode
import PseudocodeTools.Tree.Equality
import PseudocodeTools.EditorSettings
import PseudocodeTools.Grading.Request
import PseudocodeTools.Grading.Verdict
import PseudocodeTools.Server.Wire
import PseudocodeTools.Main
import PseudocodeTools.Proofs.Json.Members
import PseudocodeTools.Proofs.Binary64.Finite
import PseudocodeTools.Proofs.JsonText.Canonical
import PseudocodeTools.Proofs.Tree.Relocation
import PseudocodeTools.Proofs.Tree.Leaf
import PseudocodeTools.Proofs.Tree.Reading
import PseudocodeTools.Proofs.Tree.Writing
import PseudocodeTools.Proofs.Tree.RoundTrip
import PseudocodeTools.Proofs.Tree.Conformance
import PseudocodeTools.Proofs.Tree.Normal
import PseudocodeTools.Proofs.Lexeme.Extent
import PseudocodeTools.Proofs.Lexeme.Quoted
import PseudocodeTools.Proofs.Lexeme.Reserved
import PseudocodeTools.Proofs.Lexeme.Longest
import PseudocodeTools.Proofs.Lexeme.Munch
import PseudocodeTools.Proofs.Lexeme.Shape
import PseudocodeTools.Proofs.Lexeme.Scan
import PseudocodeTools.Proofs.Lexeme.Cover
import PseudocodeTools.Proofs.Block.Closer
import PseudocodeTools.Proofs.Block.Stack
import PseudocodeTools.Proofs.Server.Position
import PseudocodeTools.Proofs.Lexeme.Tokens
import PseudocodeTools.Proofs.Server.Highlight
import PseudocodeTools.Proofs.Server.Inspection
import PseudocodeTools.Proofs.Text.Blank
import PseudocodeTools.Proofs.Indent
import PseudocodeTools.Proofs.Server.Run
import PseudocodeTools.Proofs.Server.Store
import PseudocodeTools.Proofs.Server.Published
import PseudocodeTools.Proofs.Server.LineBreak
import PseudocodeTools.Proofs.Tree.PathText
import PseudocodeTools.Proofs.Tree.Faults
import PseudocodeTools.Proofs.Tree.FaultPlace
import PseudocodeTools.Proofs.Tree.Roles
import PseudocodeTools.Proofs.Codec.Laws
import PseudocodeTools.Proofs.Codec.Record
import PseudocodeTools.Proofs.Grading.Bundles
import PseudocodeTools.Proofs.Grading.Validation
import PseudocodeTools.Proofs.Lexeme.Locality
import PseudocodeTools.Proofs.Block.Depth
import PseudocodeTools.Proofs.Block.LineEnds
import PseudocodeTools.Proofs.Block.Crossing
import PseudocodeTools.Proofs.Block.Strategies
import PseudocodeTools.Proofs.Block.Surroundings
import PseudocodeTools.Proofs.Server.Conversion
import PseudocodeTools.Proofs.Grading.Spellings
import PseudocodeTools.Proofs.Lexeme.WholeWords
import PseudocodeTools.Proofs.Block.Openers
import PseudocodeTools.Proofs.Text.Decimal
import PseudocodeTools.Proofs.Grading.Answers
import PseudocodeTools.Proofs.Tree.FirstFault
import PseudocodeTools.Proofs.Tree.Change
import PseudocodeTools.Proofs.Tree.UnknownMembers
import PseudocodeTools.Proofs.JsonText.Scalar
import PseudocodeTools.Proofs.JsonText.Printed
import PseudocodeTools.Proofs.Tree.TextDepth
import PseudocodeTools.Proofs.Tree.NodeCount
import PseudocodeTools.Proofs.Server.CopiedBlanks
import PseudocodeTools.Proofs.Text.Returns
import PseudocodeTools.Proofs.Lexeme.Returns
import PseudocodeTools.Proofs.Block.Marks
import PseudocodeTools.Proofs.Server.Folding
import PseudocodeTools.Proofs.Server.Returns
import PseudocodeTools.Proofs.Server.CodeUnits
import PseudocodeTools.Proofs.Server.Changes
import PseudocodeTools.Proofs.Codec.FreeMember
import PseudocodeTools.Proofs.Grading.AttachedTree
import PseudocodeTools.Proofs.Typing
import PseudocodeTools.Proofs.Text.Case
import PseudocodeTools.Proofs.Lexeme.Case
import PseudocodeTools.Proofs.Block.Case
import PseudocodeTools.Proofs.Block.Search
import PseudocodeTools.Proofs.CommandLine.Blocks
