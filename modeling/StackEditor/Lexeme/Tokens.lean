import StackEditor.Lexeme.Piece

/-!
# The tokens of a source

`tokenize` places the lexemes of a source: a walk over its pieces counts lines and columns and
drops the gaps. `TokenStream` hands the tokens of a source out one at a time.
-/

namespace StackEditor

/-- The tokens of pieces that start at `p`. -/
def Lexeme.place (p : Position) : List Piece → List Token
  | [] => []
  | .gap t :: ps => place (p.after t) ps
  | .lexeme k t :: ps =>
    ⟨k, String.ofList t, p.line, p.col, p.col + t.length⟩ :: place (p.after t) ps

/-- The tokens of a source text. -/
def tokenize (source : String) : List Token :=
  Lexeme.place .zero (Lexeme.pieces source.toList)

/-! ## Token streams -/

/-- The tokens of `source` that are still to be read. -/
structure TokenStream where
  source : String
  remaining : List Token

namespace TokenStream

/-- A stream at the start of `source`. -/
def ofSource (source : String) : TokenStream := ⟨source, tokenize source⟩

/-- The next token, if there is one, and the stream behind it. -/
def next (s : TokenStream) : Option Token × TokenStream :=
  (s.remaining.head?, { s with remaining := s.remaining.tail })

/-- The stream without its next `n` tokens. -/
def skip (s : TokenStream) (n : Nat) : TokenStream :=
  { s with remaining := s.remaining.drop n }

/-- A fresh stream over the same source. -/
def restart (s : TokenStream) : TokenStream := ofSource s.source

end TokenStream

end StackEditor
