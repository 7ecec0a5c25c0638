import Mathlib.Computability.Language
import StackEditor.Lexeme.Piece

/-!
# The patterns of lexemes

What a lexeme can be is said by regular languages, which know nothing of how a text is cut. A class
of characters is a language of one-character texts (`oneOf`). A pattern is made of classes by
concatenation, choice and repetition (`Pattern.language`), and says what its matches are read as
(`Pattern.piece`).

Most patterns are one character and a run behind it (`mem_oneOf_mul_star`). The inside of a string
repeats two things, plain characters and escapes. Where it stops is no matter of choice: whatever
part of it a text starts with, the whole of it is that part and more of the same
(`exists_append_of_stops`).
-/

open scoped Computability

namespace StackEditor.Lexeme

/-! ## Classes of characters -/

/-- The texts of one character that is in the class `p`. -/
def oneOf (p : Char → Prop) : Language Char := {text | ∃ c, p c ∧ text = [c]}

/-- White space that is skipped. -/
def Skipped (c : Char) : Prop := c ∈ [' ', '\t', '\r', '\n', '\x0c']

/-- White space of any script, a bracket or a double quote. -/
def EndsWord (c : Char) : Prop :=
  Text.isBlank c = true ∨ c ∈ ['(', ')', '[', ']', '\x7b', '\x7d', '"']

theorem isSkipped_iff {c : Char} : isSkipped c = true ↔ Skipped c := by
  simp [isSkipped, Skipped, or_assoc]

theorem isWordChar_iff {c : Char} : isWordChar c = true ↔ ¬ EndsWord c := by
  simp [isWordChar, isDelimiter, EndsWord, and_assoc]

/-! ## Patterns -/

/-- The inside of a string: plain characters, and backslashes with the character that each takes
along. There is no newline in it. -/
def quotedBody : Language Char :=
  (oneOf (fun c => c ≠ '"' ∧ c ≠ '\\' ∧ c ≠ '\n') + oneOf (· = '\\') * oneOf (· ≠ '\n'))∗

/-- The patterns of the language. -/
inductive Pattern where
  /-- A run of white space. It is skipped. -/
  | blanks
  /-- From `#` to the end of the line. It is skipped. -/
  | comment
  | opening (pair : Bracket)
  | closing (pair : Bracket)
  | arrow
  | string
  /-- A string without its closing quote. -/
  | unterminated
  /-- A colon with a word or nothing behind it. -/
  | symbol
  /-- Names, numerals and reserved words. -/
  | word
  deriving DecidableEq

namespace Pattern

/-- The texts that the pattern matches. -/
def language : Pattern → Language Char
  | blanks => oneOf Skipped * (oneOf Skipped)∗
  | comment => oneOf (· = '#') * (oneOf (· ≠ '\n'))∗
  | opening .paren => {['(']}
  | opening .square => {['[']}
  | opening .brace => {['\x7b']}
  | closing .paren => {[')']}
  | closing .square => {[']']}
  | closing .brace => {['\x7d']}
  | arrow => {['-', '>']}
  | string => oneOf (· = '"') * (quotedBody * oneOf (· = '"'))
  | unterminated => oneOf (· = '"') * quotedBody
  | symbol => oneOf (· = ':') * (oneOf (¬ EndsWord ·))∗
  | word => oneOf (fun c => ¬ EndsWord c ∧ c ≠ ':' ∧ c ≠ '#') * (oneOf (¬ EndsWord ·))∗

/-- What a match is read as. A word is read by its text. -/
def piece : Pattern → List Char → Piece
  | blanks, text => .gap text
  | comment, text => .gap text
  | opening pair, text => .lexeme (.opening pair) text
  | closing pair, text => .lexeme (.closing pair) text
  | arrow, text => .lexeme .arrow text
  | string, text => .lexeme .string text
  | unterminated, text => .lexeme .invalid text
  | symbol, text => .lexeme .symbol text
  | word, text => .lexeme (wordKind text) text

end Pattern

/-! ## Matches -/

variable {p q : Char → Prop} {l : Language Char} {text : List Char}

/-- A character of the class, and what the rest of the pattern matches. -/
theorem mem_oneOf_mul :
    text ∈ oneOf p * l ↔ ∃ c rest, text = c :: rest ∧ p c ∧ rest ∈ l := by
  rw [Language.mem_mul]
  constructor
  · rintro ⟨_, ⟨c, hc, rfl⟩, rest, hrest, rfl⟩
    exact ⟨c, rest, rfl, hc, hrest⟩
  · rintro ⟨c, rest, rfl, hc, hrest⟩
    exact ⟨[c], ⟨c, hc, rfl⟩, rest, hrest, rfl⟩

/-- A repetition is nothing, or starts with what is repeated. -/
theorem mem_star_iff : text ∈ l∗ ↔ text = [] ∨ ∃ a ∈ l, ∃ b ∈ l∗, a ++ b = text := by
  rw [← Language.mem_mul, ← Language.mem_one, ← Language.mem_add,
    Language.one_add_self_mul_kstar_eq_kstar]

/-- A repetition of characters of a class has characters of the class only. -/
theorem mem_oneOf_star : text ∈ (oneOf p)∗ ↔ ∀ c ∈ text, p c := by
  induction text with
  | nil => simp [Language.nil_mem_kstar]
  | cons c rest ih =>
    rw [mem_star_iff, ← Language.mem_mul, mem_oneOf_mul, List.forall_mem_cons, ← ih]
    simp

/-- A character, and a run behind it. -/
theorem mem_oneOf_mul_star : text ∈ oneOf p * (oneOf q)∗ ↔
    ∃ c rest, text = c :: rest ∧ p c ∧ ∀ d ∈ rest, q d := by
  rw [mem_oneOf_mul]
  simp only [mem_oneOf_star]

/-! ## The inside of strings -/

theorem nil_mem_quotedBody : [] ∈ quotedBody := Language.nil_mem_kstar _

/-- The inside of a string that does not start with its end starts with a plain character, or with a
backslash that takes one along. -/
theorem cons_mem_quotedBody {c : Char} {rest : List Char} : c :: rest ∈ quotedBody ↔
    (c ≠ '"' ∧ c ≠ '\\' ∧ c ≠ '\n') ∧ rest ∈ quotedBody ∨
      c = '\\' ∧ ∃ d body, rest = d :: body ∧ d ≠ '\n' ∧ body ∈ quotedBody := by
  rw [quotedBody, mem_star_iff, ← Language.mem_mul, add_mul, Language.mem_add, mul_assoc,
    mem_oneOf_mul, mem_oneOf_mul]
  constructor
  · rintro (hnil | ⟨_, _, heq, hc, hrest⟩ | ⟨_, _, heq, hc, hrest⟩)
    · cases hnil
    · cases heq
      exact .inl ⟨hc, hrest⟩
    · cases heq
      obtain ⟨d, body, rfl, hd, hbody⟩ := mem_oneOf_mul.1 hrest
      exact .inr ⟨hc, d, body, rfl, hd, hbody⟩
  · rintro (⟨hc, hrest⟩ | ⟨hc, d, body, rfl, hd, hbody⟩)
    · exact .inr (.inl ⟨c, rest, rfl, hc, hrest⟩)
    · exact .inr (.inr ⟨c, _, rfl, hc, mem_oneOf_mul.2 ⟨d, body, rfl, hd, hbody⟩⟩)

/-- The text behind the inside of a string that lacks its closing quote: the line is at its end, or
but for a backslash it is. -/
def BreaksOff (after : List Char) : Prop :=
  after = [] ∨ (∃ rest, after = '\n' :: rest) ∨ after = ['\\'] ∨
    ∃ rest, after = '\\' :: '\n' :: rest

/-- A body that breaks off is not followed by a quote. -/
theorem BreaksOff.not_quote {after rest : List Char} (h : BreaksOff after) :
    after ≠ '"' :: rest := by
  rintro rfl
  rcases h with h | ⟨_, h⟩ | h | ⟨_, h⟩ <;> cases h

/-- The text behind the inside of a string: the closing quote, or that it is missing. -/
def Stops (after : List Char) : Prop := (∃ rest, after = '"' :: rest) ∨ BreaksOff after

/-- Where the inside of a string stops, there is no more of it. -/
theorem Stops.eq_nil {body after rest : List Char} (hstop : Stops after) (hbody : body ∈ quotedBody)
    (h : body ++ rest = after) : body = [] := by
  cases body with
  | nil => rfl
  | cons c body =>
    exfalso
    rw [List.cons_append] at h
    rcases cons_mem_quotedBody.1 hbody with ⟨hplain, -⟩ | ⟨rfl, d, body, rfl, hd, -⟩
    · rcases hstop with ⟨_, rfl⟩ | rfl | ⟨_, rfl⟩ | rfl | ⟨_, rfl⟩ <;> simp_all
    · rcases hstop with ⟨_, rfl⟩ | rfl | ⟨_, rfl⟩ | rfl | ⟨_, rfl⟩ <;> simp_all

/-- If a text starts with the inside of a string and stops then, whatever else of that kind it
starts with is a part of it, with more of the same behind it. -/
theorem exists_append_of_stops {body after start rest : List Char} (hbody : body ∈ quotedBody)
    (hstop : Stops after) (hstart : start ∈ quotedBody) (h : start ++ rest = body ++ after) :
    ∃ more ∈ quotedBody, body = start ++ more := by
  induction hn : start.length using Nat.strongRecOn generalizing start body with
  | ind n ih =>
  subst hn
  cases body with
  | nil =>
    obtain rfl := hstop.eq_nil hstart h
    exact ⟨[], nil_mem_quotedBody, rfl⟩
  | cons c body =>
  cases start with
  | nil => exact ⟨_, hbody, rfl⟩
  | cons c' start =>
  obtain ⟨rfl, hrest⟩ := List.cons.inj h
  -- Both go on in the same way: the first character decides which.
  rcases cons_mem_quotedBody.1 hbody with ⟨hc, hbody'⟩ | ⟨rfl, d, body', rfl, -, hbody'⟩
  · rcases cons_mem_quotedBody.1 hstart with ⟨-, hstart'⟩ | ⟨rfl, -⟩
    · obtain ⟨more, hmore, rfl⟩ := ih start.length (by simp) hbody' hstart' hrest rfl
      exact ⟨more, hmore, rfl⟩
    · exact absurd rfl hc.2.1
  · rcases cons_mem_quotedBody.1 hstart with ⟨hc, -⟩ | ⟨-, d', start', rfl, -, hstart'⟩
    · exact absurd rfl hc.2.1
    · obtain ⟨rfl, hrest'⟩ := List.cons.inj hrest
      obtain ⟨more, hmore, rfl⟩ := ih start'.length
        (by simp only [List.length_cons]; omega) hbody' hstart' hrest' rfl
      exact ⟨more, hmore, rfl⟩

/-- The inside of a string does not start with the closing quote. -/
theorem quote_cons_notMem_quotedBody (rest : List Char) : '"' :: rest ∉ quotedBody := by
  rw [cons_mem_quotedBody]
  rintro (⟨⟨hquote, -⟩, -⟩ | ⟨hquote, -⟩)
  · exact hquote rfl
  · cases hquote

/-- If there is a closing quote behind the inside of a string, then it stops there. -/
theorem eq_of_closed {body after inner rest : List Char} (hbody : body ∈ quotedBody)
    (hstop : Stops after) (hinner : inner ∈ quotedBody)
    (h : inner ++ '"' :: rest = body ++ after) : inner = body ∧ after = '"' :: rest := by
  obtain ⟨more, hmore, rfl⟩ := exists_append_of_stops hbody hstop hinner h
  rw [List.append_assoc, List.append_cancel_left_eq] at h
  cases more with
  | nil => exact ⟨(List.append_nil inner).symm, h.symm⟩
  | cons c more =>
    obtain ⟨rfl, -⟩ := List.cons.inj h
    exact absurd hmore (quote_cons_notMem_quotedBody more)

end StackEditor.Lexeme
