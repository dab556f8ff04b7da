import SwiftTree.Main
import SwiftTree.Proofs.Grammar.Progress
import SwiftTree.Proofs.Token.Tiling
import SwiftTree.Proofs.Grammar.Items
import SwiftTree.Proofs.Grammar.Sight
import SwiftTree.Proofs.Parse.Layout
import SwiftTree.Proofs.Addressing.Token
import SwiftTree.Proofs.Addressing.Bijection
import SwiftTree.Proofs.Mutation.Splice
import SwiftTree.Proofs.Edit.Span
import SwiftTree.Proofs.Text.Location
import SwiftTree.Proofs.Record.Position
import SwiftTree.Proofs.Parse.Silence
import SwiftTree.Proofs.Parse.Nesting
import SwiftTree.Proofs.Grammar.Placement
import SwiftTree.Proofs.Node.Trivia
import SwiftTree.Proofs.Script.Fragment
import SwiftTree.Proofs.Parse.WellFormed
import SwiftTree.Proofs.Script.WellFormed
import SwiftTree.Proofs.Node.Find
import SwiftTree.Proofs.Grammar.Recovery
import SwiftTree.Proofs.Record.Quotation
import SwiftTree.Proofs.Record.Recovery
import SwiftTree.Proofs.Token.Stability.Literal
import SwiftTree.Proofs.Token.Stability.Lexeme
import SwiftTree.Proofs.Token.Stability.Run
import SwiftTree.Proofs.Token.Outline
import SwiftTree.Proofs.Trivia.Sound
import SwiftTree.Proofs.Trivia.Documentation
import SwiftTree.Proofs.Token.Relead
import SwiftTree.Proofs.Mutation.Documentation
import SwiftTree.Proofs.Token.Attachment
import SwiftTree.Proofs.Token.Relexing
import SwiftTree.Proofs.Grammar.Filled
import SwiftTree.Proofs.Script.Rendering
import SwiftTree.Proofs.Script.Replacement
import SwiftTree.Proofs.Token.Seam
import SwiftTree.Proofs.Script.Insertion
import SwiftTree.Proofs.Edit.Smallest
import SwiftTree.Proofs.Trivia.Lines
import SwiftTree.Proofs.Addressing.Shape
import SwiftTree.Proofs.Mutation.Frame
import SwiftTree.Proofs.Mutation.Overwriting
import SwiftTree.Proofs.Mutation.Survival
import SwiftTree.Proofs.Addressing.Exchange
import SwiftTree.Proofs.Mutation.Inverse
import SwiftTree.Proofs.Addressing.Gap
import SwiftTree.Proofs.Mutation.Failure
import SwiftTree.Proofs.FixIt.NormalForm
import SwiftTree.Proofs.FixIt.Performing
import SwiftTree.Proofs.Record.Geometry
import SwiftTree.Proofs.Record.Readback
import SwiftTree.Proofs.Grammar.Closing
import SwiftTree.Proofs.Text.Unescape
import SwiftTree.Proofs.Parse.Closing
import SwiftTree.Proofs.Token.Closing
import SwiftTree.Proofs.Token.Remedy
import SwiftTree.Proofs.Edit.Verification
import SwiftTree.Proofs.Path.Spelling
import SwiftTree.Proofs.Trivia.Scanners
import SwiftTree.Proofs.Grammar.Unbounded
import SwiftTree.Proofs.Grammar.Rounds
import SwiftTree.Proofs.Grammar.Loops
import SwiftTree.Proofs.Parse.Progress
import SwiftTree.Proofs.Node.Measure
