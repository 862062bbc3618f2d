import Offside.Command.FileTree
import Offside.Command.Run
import Offside.Convert
import Offside.Grammar.Progress
import Offside.Main
import Offside.Proofs.Blocks
import Offside.Proofs.BoundValues
import Offside.Proofs.CommandLine
import Offside.Proofs.Comments
import Offside.Proofs.Concatenation
import Offside.Proofs.Conversion
import Offside.Proofs.Counting
import Offside.Proofs.Coverage
import Offside.Proofs.Declarations
import Offside.Proofs.Derivation
import Offside.Proofs.Encoding
import Offside.Proofs.Execution
import Offside.Proofs.Failures
import Offside.Proofs.Indentation
import Offside.Proofs.Languages
import Offside.Proofs.Layout
import Offside.Proofs.Lexemes
import Offside.Proofs.Lines
import Offside.Proofs.Literals
import Offside.Proofs.LongestMatch
import Offside.Proofs.MatchedTexts
import Offside.Proofs.Matching
import Offside.Proofs.Neighbours
import Offside.Proofs.Options
import Offside.Proofs.Outline
import Offside.Proofs.OwnCounter
import Offside.Proofs.Places
import Offside.Proofs.Precedence
import Offside.Proofs.Printing
import Offside.Proofs.Ranges
import Offside.Proofs.Reading
import Offside.Proofs.Recognition
import Offside.Proofs.Requests
import Offside.Proofs.RoundTrip
import Offside.Proofs.RuleOrder
import Offside.Proofs.Scanning
import Offside.Proofs.Seam
import Offside.Proofs.Sessions
import Offside.Proofs.Spelling
import Offside.Proofs.Stages
import Offside.Proofs.Stops
import Offside.Proofs.Termination
import Offside.Proofs.UniqueReading
import Offside.Proofs.Values
import Offside.Proofs.Wrapper
