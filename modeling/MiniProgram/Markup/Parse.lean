/-
Parsing markup: tokens first, then the document. Parsing never fails; every recovery is reported,
those of the lexer before those of the builder.
-/
import MiniProgram.Markup.Builder
import MiniProgram.Markup.Lexer

namespace MiniProgram.Markup

/-- A parsed source. -/
structure Parsed where
  document : Document
  /-- What had to be repaired, in the order it was found. -/
  diagnostics : List Diagnostic
deriving Repr

/-- Parse markup. -/
def parse (source : String) : Parsed :=
  let (document, repairs) := Document.ofLexemes (tokenize source)
  ⟨document, (faults source).map Fault.diagnostic ++ repairs⟩

end MiniProgram.Markup
