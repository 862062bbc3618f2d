import Offside.Grammar.Statement
import Offside.Token.Scan
import Offside.Tree.Render

/-!
# Conversion

A source text is scanned, read as a program, and written as Python text. Each of
the three stages can fail, and the first that does decides.
-/

namespace Offside

/-- Why a source text was not converted. -/
inductive ConvertError where
  | scan (error : ScanError)
  | grammar (error : GrammarError)
  | render (error : Tree.RenderError)
deriving DecidableEq, Repr

namespace ConvertError

/-- The error as it is reported. -/
def message : ConvertError → String
  | scan e => e.message
  | grammar e => e.message
  | render e => e.message

/-- The source text is at fault, and the error says how. -/
def isSyntax : ConvertError → Bool
  | scan _ => true
  | grammar e => e.isSyntax
  | render _ => false

end ConvertError

/-- The program in a source text. -/
def parseSource (source : String) : Except ConvertError Program := do
  let tokens ← (tokenize source).mapError .scan
  (parse tokens).mapError .grammar

/-- The Python text of a program. -/
def Program.render (p : Program) : Except Tree.RenderError String := p.toTree.moduleText

/-- The Python text for a source text (`translate_str`). -/
def convert (source : String) : Except ConvertError String := do
  let program ← parseSource source
  program.render.mapError .render

end Offside
