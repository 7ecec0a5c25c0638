import StackEditor.Lexeme.Word

/-!
# Cutting a source into pieces

`pieces` cuts a source into gaps (skipped characters and comments) and lexemes, each lexeme with
its kind. At every place it takes the longest lexeme there is. Nothing is lost: the texts of the
pieces, in order, are the source (`flatMap_text_pieces`).

A character that starts no lexeme becomes an invalid lexeme of its own, so cutting never fails.
-/

namespace StackEditor.Lexeme

/-- A stretch of source text. -/
inductive Piece where
  /-- Text between lexemes. -/
  | gap (text : List Char)
  /-- A lexeme of the given kind. -/
  | lexeme (kind : Token.Kind) (text : List Char)
  deriving DecidableEq

/-- The text of a piece. -/
def Piece.text : Piece → List Char
  | gap t => t
  | lexeme _ t => t

/-- The characters skipped between lexemes. -/
def isSkipped (c : Char) : Bool :=
  c == ' ' || c == '\t' || c == '\r' || c == '\n' || c == '\x0c'

/-- The side and pair of a bracket character. -/
def bracketKind? (c : Char) : Option Token.Kind :=
  if c = '(' then some (.opening .paren)
  else if c = ')' then some (.closing .paren)
  else if c = '[' then some (.opening .square)
  else if c = ']' then some (.closing .square)
  else if c = '\x7b' then some (.opening .brace)
  else if c = '\x7d' then some (.closing .brace)
  else none

/-! ## Strings -/

/-- What a string takes of the text behind its opening quote, and whether its closing quote was
met. A backslash takes the next character with it. Neither a newline nor a backslash without a
character on its line is taken. -/
def quotedPart : List Char → List Char × Bool
  | [] => ([], false)
  | '"' :: _ => (['"'], true)
  | '\n' :: _ => ([], false)
  | ['\\'] => ([], false)
  | '\\' :: c :: rest =>
    if c = '\n' then ([], false)
    else let r := quotedPart rest; ('\\' :: c :: r.1, r.2)
  | c :: rest => let r := quotedPart rest; (c :: r.1, r.2)

/-- The body of a string is read off the front of the text. -/
theorem quotedPart_isPrefix (cs : List Char) : (quotedPart cs).1 <+: cs := by
  fun_induction quotedPart cs with
  | case1 | case2 | case3 | case4 | case5 => simp
  | case6 _ _ _ r ih => simpa [r] using ih
  | case7 _ _ r _ _ _ _ ih => simpa [r] using ih

/-! ## One piece -/

/-- A blank outside ASCII stands directly behind a word. -/
def foreignBlankFollows : List Char → Bool
  | c :: _ => Text.isBlank c && 0x80 ≤ c.toNat
  | [] => false

/-- The kind of the word `text` before `rest`. The arrow is a word of its own; directly before a
blank outside ASCII it is read as a name. -/
def spelledKind (text rest : List Char) : Token.Kind :=
  if text = ['-', '>'] ∧ foreignBlankFollows rest = false then .arrow else wordKind text

/-- The first piece of the text `c :: rest`. -/
def firstPiece (c : Char) (rest : List Char) : Piece :=
  if isSkipped c then .gap (c :: rest.takeWhile isSkipped)
  else if c = '#' then .gap (c :: rest.takeWhile (· ≠ '\n'))
  else match bracketKind? c with
    | some k => .lexeme k [c]
    | none =>
      if c = '"' then
        .lexeme (if (quotedPart rest).2 then .string else .invalid) (c :: (quotedPart rest).1)
      else if c = ':' then .lexeme .symbol (c :: rest.takeWhile isWordChar)
      else if isWordChar c then
        .lexeme (spelledKind (c :: rest.takeWhile isWordChar) (rest.dropWhile isWordChar))
          (c :: rest.takeWhile isWordChar)
      else .lexeme .invalid [c]

/-- The first piece starts with the first character and takes a part of what follows. -/
theorem firstPiece_text (c : Char) (rest : List Char) :
    ∃ t, (firstPiece c rest).text = c :: t ∧ t <+: rest := by
  unfold firstPiece
  split
  · exact ⟨_, rfl, List.takeWhile_prefix _⟩
  split
  · exact ⟨_, rfl, List.takeWhile_prefix _⟩
  split
  · exact ⟨[], rfl, List.nil_prefix⟩
  split
  · exact ⟨_, rfl, quotedPart_isPrefix rest⟩
  split
  · exact ⟨_, rfl, List.takeWhile_prefix _⟩
  split
  · exact ⟨_, rfl, List.takeWhile_prefix _⟩
  · exact ⟨[], rfl, List.nil_prefix⟩

/-- A piece is read off the front of the text. -/
theorem firstPiece_text_isPrefix (c : Char) (rest : List Char) :
    (firstPiece c rest).text <+: c :: rest := by
  obtain ⟨t, ht, hp⟩ := firstPiece_text c rest
  simpa [ht] using hp

/-- No piece is empty. -/
theorem firstPiece_text_ne_nil (c : Char) (rest : List Char) :
    (firstPiece c rest).text ≠ [] := by
  obtain ⟨t, ht, -⟩ := firstPiece_text c rest
  simp [ht]

/-! ## All pieces -/

/-- The pieces of a source, from left to right. -/
def pieces : List Char → List Piece
  | [] => []
  | c :: rest =>
    firstPiece c rest :: pieces ((c :: rest).drop (firstPiece c rest).text.length)
termination_by cs => cs.length
decreasing_by
  have := List.length_pos_iff.2 (firstPiece_text_ne_nil c rest)
  simp only [List.length_drop, List.length_cons]
  omega

@[simp] theorem pieces_nil : pieces [] = [] := by
  rw [pieces]

/-- Cutting loses nothing. -/
theorem flatMap_text_pieces (cs : List Char) : (pieces cs).flatMap Piece.text = cs := by
  fun_induction pieces cs with
  | case1 => rfl
  | case2 c rest ih =>
    obtain ⟨t, ht⟩ := firstPiece_text_isPrefix c rest
    rw [List.flatMap_cons, ih]
    conv => rhs; rw [← ht]
    rw [← ht, List.drop_left]

end StackEditor.Lexeme
