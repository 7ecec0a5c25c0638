import StackEditor.Analysis.Brackets
import StackEditor.Analysis.Parameters
import StackEditor.Analysis.References
import StackEditor.Lexeme.Tokens

/-!
# The analysis of a source

Three independent passes over one token sequence, one after the other: brackets, parameter lists,
references. Options leave out reports of two kinds.
-/

namespace StackEditor

/-- Which of the optional reports are wanted. -/
structure AnalysisOptions where
  unresolvedReferences : Bool
  shadowedBuiltins : Bool
  deriving DecidableEq

/-- All reports. -/
def AnalysisOptions.all : AnalysisOptions := ⟨true, true⟩

/-- The built-in names and options that an analysis is made with. -/
structure Analyzer where
  builtins : Builtins
  options : AnalysisOptions

namespace Analyzer

/-- The reports on a token sequence. -/
def analyzeTokens (a : Analyzer) (tokens : List Token) : List Diagnostic :=
  let d := Definitions.collect tokens
  Analysis.checkBrackets tokens ++
    Analysis.checkParamLists tokens d a.builtins a.options.shadowedBuiltins ++
    (if a.options.unresolvedReferences then Analysis.checkReferences tokens d a.builtins else [])

/-- The reports on a source text. -/
def analyze (a : Analyzer) (source : String) : List Diagnostic :=
  a.analyzeTokens (tokenize source)

end Analyzer

end StackEditor
