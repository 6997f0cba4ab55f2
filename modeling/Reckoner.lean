import Reckoner.Eval.Batch
import Reckoner.Main
import Reckoner.Parser.Leaf
import Reckoner.Parser.Stream
import Reckoner.Proofs.Grammar.RoundTrip
import Reckoner.Proofs.Parser.Built
import Reckoner.Proofs.Parser.Ends
import Reckoner.Proofs.Parser.Places
import Reckoner.Proofs.Parser.Advancing
import Reckoner.Proofs.Parser.Fuel
import Reckoner.Proofs.Grammar.Termination
import Reckoner.Proofs.Grammar.Stability
import Reckoner.Proofs.Grammar.Unfactored
import Reckoner.Proofs.Grammar.Viability
import Reckoner.Proofs.Parser.Blame
import Reckoner.Proofs.Grammar.Diagnosis
import Reckoner.Eval.Pool
import Reckoner.Proofs.Eval.Pool
import Reckoner.Proofs.Eval.Batch
import Reckoner.Proofs.Eval.Rendering
import Reckoner.Proofs.Parser.Deferral
import Reckoner.Proofs.Session.Names
import Reckoner.Proofs.Eval.Defects
import Reckoner.Proofs.Eval.Dependence
import Reckoner.Proofs.Eval.Inlining
import Reckoner.Proofs.Grammar.Inlining
import Reckoner.Proofs.Session.Definitions
import Reckoner.Proofs.Session.Inlining
import Reckoner.Proofs.Parser.Laws
import Reckoner.Proofs.Parser.Repeating
import Reckoner.Proofs.Session.Frame
import Reckoner.Proofs.Eval.Tracing
import Reckoner.Proofs.Parser.Sequences
import Reckoner.Proofs.Parser.Choices
import Reckoner.Proofs.Parser.Relocation
import Reckoner.Proofs.Grammar.Resumption
import Reckoner.Proofs.Parser.Munching
import Reckoner.Proofs.Grammar.LongestNumber
import Reckoner.Proofs.Eval.Arity
import Reckoner.Proofs.Diagnosis.Excerpt
import Reckoner.Proofs.Grammar.Nesting
import Reckoner.Proofs.Diagnosis.Suggestions
import Reckoner.Proofs.Grammar.Unfinished
import Reckoner.Proofs.Grammar.Attaching
import Reckoner.Proofs.Grammar.Outline
import Reckoner.Proofs.Text.Pieces
