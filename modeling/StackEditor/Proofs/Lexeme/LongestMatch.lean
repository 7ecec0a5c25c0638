import StackEditor.Proofs.Lexeme.Pattern
import StackEditor.Proofs.Lexeme.Placement

/-!
# The longest match

Every piece of a source is the longest start of the text at its place that a pattern matches, or one
character that no pattern starts with (`tokenize_longestMatch`). What a match starts with decides
between the patterns (`Pattern.starts_of_mem`), but for a string with and without its end, where the
length does, and for the arrow, which is a word as well and wins.
-/

open scoped Computability

namespace StackEditor

namespace Lexeme

/-- The piece that the text `cs` starts with: the longest match of a pattern, read by the only
pattern that matches it, or by the arrow where that and the word do; or one character, if no pattern
matches. -/
inductive LongestMatch (cs : List Char) : Piece → Prop
  | matched {p : Pattern} {text : List Char} (start : text <+: cs) (mem : text ∈ p.language)
      (longest : ∀ q : Pattern, ∀ t ∈ q.language, t <+: cs → t.length ≤ text.length)
      (wins : ∀ q : Pattern, text ∈ q.language → q = p ∨ p = .arrow ∧ q = .word) :
      LongestMatch cs (p.piece text)
  | unmatched {c : Char} {rest : List Char} (cons : cs = c :: rest)
      (none : ∀ q : Pattern, ∀ t ∈ q.language, ¬ t <+: cs) :
      LongestMatch cs (.lexeme .invalid [c])

/-- A text has one longest match at most. -/
theorem LongestMatch.unique {cs : List Char} {p q : Piece} (hp : LongestMatch cs p)
    (hq : LongestMatch cs q) : p = q := by
  cases hp with
  | @matched p text start mem longest wins =>
    cases hq with
    | @matched q text' start' mem' longest' wins' =>
      have hlength : text.length = text'.length :=
        Nat.le_antisymm (longest' p text mem start) (longest q text' mem' start')
      obtain rfl : text = text' :=
        (List.prefix_of_prefix_length_le start start' hlength.le).eq_of_length hlength
      rcases wins q mem' with rfl | ⟨rfl, rfl⟩
      · rfl
      · rcases wins' .arrow mem with h | ⟨h, -⟩ <;> cases h
    | unmatched _ none => exact absurd start (none p text mem)
  | unmatched cons none =>
    cases hq with
    | @matched q text _ mem => exact absurd ‹_› (none q text mem)
    | unmatched cons' =>
      obtain ⟨rfl, -⟩ := List.cons.inj (cons.symm.trans cons')
      rfl

/-! ## What a match starts with -/

/-- A match of the pattern can start with `c`. -/
def Pattern.Starts : Pattern → Char → Prop
  | blanks, c => Skipped c
  | comment, c => c = '#'
  | opening pair, c => bracketKind? c = some (.opening pair)
  | closing pair, c => bracketKind? c = some (.closing pair)
  | arrow, c => c = '-'
  | string, c => c = '"'
  | unterminated, c => c = '"'
  | symbol, c => c = ':'
  | word, c => ¬ EndsWord c ∧ c ≠ ':' ∧ c ≠ '#'

namespace Pattern

variable {p q : Pattern} {text : List Char} {c : Char}

/-- A match is not empty and starts with a character that its pattern may start with. -/
theorem exists_cons_of_mem (h : text ∈ p.language) : ∃ c rest, text = c :: rest ∧ p.Starts c := by
  cases p with
  | blanks | comment | symbol | word | string | unterminated =>
    obtain ⟨c, rest, rfl, hc, -⟩ := mem_oneOf_mul.1 h
    exact ⟨c, rest, rfl, hc⟩
  | opening pair | closing pair =>
    cases pair <;>
    · obtain rfl : text = _ := h
      exact ⟨_, [], rfl, rfl⟩
  | arrow =>
    obtain rfl : text = _ := h
    exact ⟨_, _, rfl, rfl⟩

/-- What matches at the front of a text starts with the first character of that text. -/
theorem starts_of_mem {rest : List Char} (h : text ∈ p.language) (hstart : text <+: c :: rest) :
    p.Starts c := by
  obtain ⟨c', rest', rfl, hc⟩ := exists_cons_of_mem h
  obtain ⟨rfl, -⟩ := List.cons_prefix_cons.1 hstart
  exact hc

end Pattern

variable {c : Char} {rest : List Char}

/-- A bracket ends a word. -/
theorem endsWord_of_bracketKind? {k : Token.Kind} (h : bracketKind? c = some k) : EndsWord c := by
  unfold bracketKind? at h
  right
  split_ifs at h <;> simp_all

/-- A blank ends a word. -/
theorem endsWord_of_isSkipped (h : isSkipped c = true) : EndsWord c := by
  by_contra hword
  rw [← isWordChar_iff, isSkipped_not_isWordChar h] at hword
  cases hword

/-! ## Runs -/

section
variable {p : Pattern} {head tail : Char → Prop} {run : Char → Bool}

/-- A character and the run behind it are a match. -/
theorem cons_takeWhile_mem (hrun : ∀ d, run d = true ↔ tail d) (hc : head c) :
    c :: rest.takeWhile run ∈ oneOf head * (oneOf tail)∗ :=
  mem_oneOf_mul_star.2 ⟨c, _, rfl, hc, fun d hd => (hrun d).1 (List.mem_takeWhile_imp hd)⟩

/-- No match goes beyond the run. -/
theorem length_le_of_mem_run (hrun : ∀ d, run d = true ↔ tail d) {t : List Char}
    (ht : t ∈ oneOf head * (oneOf tail)∗) (hstart : t <+: c :: rest) :
    t.length ≤ (c :: rest.takeWhile run).length := by
  obtain ⟨d, body, rfl, -, hbody⟩ := mem_oneOf_mul_star.1 ht
  obtain ⟨-, more, rfl⟩ := List.cons_prefix_cons.1 hstart
  rw [List.takeWhile_append_of_pos fun d hd => (hrun d).2 (hbody d hd)]
  simp

/-- Where no other pattern starts, the match is the character and the run behind it. -/
theorem longestMatch_run (hlanguage : p.language = oneOf head * (oneOf tail)∗)
    (hrun : ∀ d, run d = true ↔ tail d) (hc : head c) (honly : ∀ q : Pattern, q.Starts c → q = p) :
    LongestMatch (c :: rest) (p.piece (c :: rest.takeWhile run)) := by
  have hprefix : c :: rest.takeWhile run <+: c :: rest :=
    List.cons_prefix_cons.2 ⟨rfl, List.takeWhile_prefix run⟩
  refine .matched hprefix (hlanguage ▸ cons_takeWhile_mem hrun hc) (fun q t ht hstart => ?_)
    fun q hq => .inl (honly q (Pattern.starts_of_mem hq hprefix))
  obtain rfl := honly q (Pattern.starts_of_mem ht hstart)
  exact length_le_of_mem_run hrun (hlanguage ▸ ht) hstart

end

/-! ## Gaps, symbols and brackets -/

/-- The longest match at a blank is the run of blanks. -/
theorem longestMatch_blanks (hc : isSkipped c = true) (rest : List Char) :
    LongestMatch (c :: rest) (.gap (c :: rest.takeWhile isSkipped)) := by
  refine longestMatch_run (p := .blanks) rfl (fun _ => isSkipped_iff) (isSkipped_iff.1 hc)
    fun q hq => ?_
  have hends := endsWord_of_isSkipped hc
  cases q with
  | blanks => rfl
  | word => exact absurd hends hq.1
  | opening | closing =>
    simp only [isSkipped, Bool.or_eq_true, beq_iff_eq] at hc
    rcases hc with (((rfl | rfl) | rfl) | rfl) | rfl <;> cases hq
  | comment | arrow | string | unterminated | symbol =>
    obtain rfl := hq
    cases hc

/-- The longest match at a hash is the rest of the line. -/
theorem longestMatch_comment (rest : List Char) :
    LongestMatch ('#' :: rest) (.gap ('#' :: rest.takeWhile (· ≠ '\n'))) := by
  refine longestMatch_run (p := .comment) rfl (fun _ => decide_eq_true_iff) rfl fun q hq => ?_
  cases q with
  | comment => rfl
  | word => exact absurd rfl hq.2.2
  | blanks => cases isSkipped_iff.2 hq
  | _ => cases hq

/-- The longest match at a colon is the run of word characters behind it. -/
theorem longestMatch_symbol (rest : List Char) :
    LongestMatch (':' :: rest) (.lexeme .symbol (':' :: rest.takeWhile isWordChar)) := by
  refine longestMatch_run (p := .symbol) rfl (fun _ => isWordChar_iff) rfl fun q hq => ?_
  cases q with
  | symbol => rfl
  | word => exact absurd rfl hq.2.1
  | blanks => cases isSkipped_iff.2 hq
  | _ => cases hq

/-- Only the pattern of a bracket starts with it. -/
theorem Pattern.starts_of_bracketKind? {k : Token.Kind} {q : Pattern}
    (hk : bracketKind? c = some k) (hq : q.Starts c) :
    (∃ pair, k = .opening pair ∧ q = .opening pair) ∨
      ∃ pair, k = .closing pair ∧ q = .closing pair := by
  have hends := endsWord_of_bracketKind? hk
  cases q with
  | opening pair => exact .inl ⟨pair, Option.some.inj (hk.symm.trans hq), rfl⟩
  | closing pair => exact .inr ⟨pair, Option.some.inj (hk.symm.trans hq), rfl⟩
  | word => exact absurd hends hq.1
  | blanks =>
    simp only [Starts, Skipped, List.mem_cons, List.not_mem_nil, or_false] at hq
    rcases hq with rfl | rfl | rfl | rfl | rfl <;> cases hk
  | comment | arrow | string | unterminated | symbol =>
    obtain rfl := hq
    cases hk

/-- A bracket has a pattern of its own. -/
theorem exists_bracket {k : Token.Kind} (hk : bracketKind? c = some k) :
    ∃ p : Pattern, p.language = {[c]} ∧ p.piece [c] = .lexeme k [c] ∧
      ∀ q : Pattern, q.Starts c → q = p := by
  have hpair : (∃ pair, k = .opening pair ∧ (Pattern.opening pair).language = {[c]}) ∨
      ∃ pair, k = .closing pair ∧ (Pattern.closing pair).language = {[c]} := by
    unfold bracketKind? at hk
    split_ifs at hk with h h h h h h
    all_goals
      obtain rfl := Option.some.inj hk
      subst h
    · exact .inl ⟨.paren, rfl, rfl⟩
    · exact .inr ⟨.paren, rfl, rfl⟩
    · exact .inl ⟨.square, rfl, rfl⟩
    · exact .inr ⟨.square, rfl, rfl⟩
    · exact .inl ⟨.brace, rfl, rfl⟩
    · exact .inr ⟨.brace, rfl, rfl⟩
  rcases hpair with ⟨pair, rfl, hlanguage⟩ | ⟨pair, rfl, hlanguage⟩
  · refine ⟨.opening pair, hlanguage, rfl, fun q hq => ?_⟩
    rcases Pattern.starts_of_bracketKind? hk hq with ⟨_, h, rfl⟩ | ⟨_, h, rfl⟩ <;> cases h
    rfl
  · refine ⟨.closing pair, hlanguage, rfl, fun q hq => ?_⟩
    rcases Pattern.starts_of_bracketKind? hk hq with ⟨_, h, rfl⟩ | ⟨_, h, rfl⟩ <;> cases h
    rfl

/-- The longest match at a bracket is the bracket alone. -/
theorem longestMatch_bracket {k : Token.Kind} (hk : bracketKind? c = some k) (rest : List Char) :
    LongestMatch (c :: rest) (.lexeme k [c]) := by
  obtain ⟨p, hlanguage, hpiece, honly⟩ := exists_bracket hk
  have hprefix : [c] <+: c :: rest := List.cons_prefix_cons.2 ⟨rfl, List.nil_prefix⟩
  have hmem : [c] ∈ p.language := by
    rw [hlanguage]
    rfl
  rw [← hpiece]
  refine .matched hprefix hmem (fun q t ht hstart => ?_)
    fun q hq => .inl (honly q (Pattern.starts_of_mem hq hprefix))
  obtain rfl := honly q (Pattern.starts_of_mem ht hstart)
  rw [hlanguage] at ht
  obtain rfl : t = [c] := ht
  exact Nat.le_refl _

/-! ## Words -/

/-- Where a word starts, only words start, and the arrow. -/
theorem Pattern.starts_of_isWordChar {q : Pattern} (hword : isWordChar c = true) (hcolon : c ≠ ':')
    (hhash : c ≠ '#') (hq : q.Starts c) : q = .word ∨ q = .arrow := by
  have hends := isWordChar_iff.1 hword
  cases q with
  | word => exact .inl rfl
  | arrow => exact .inr rfl
  | blanks => exact absurd (endsWord_of_isSkipped (isSkipped_iff.2 hq)) hends
  | opening | closing => exact absurd (endsWord_of_bracketKind? hq) hends
  | comment => exact absurd hq hhash
  | symbol => exact absurd hq hcolon
  | string | unterminated =>
    obtain rfl := hq
    exact absurd (.inr (by simp)) hends

/-- An arrow is a word, by its characters. -/
theorem mem_word_of_mem_arrow : ∀ t ∈ Pattern.language .arrow, t ∈ Pattern.language .word := by
  rintro _ rfl
  refine mem_oneOf_mul_star.2 ⟨'-', ['>'], rfl, ⟨isWordChar_iff.1 ?_, by decide, by decide⟩, ?_⟩
  · decide +kernel
  · intro d hd
    obtain rfl := List.mem_singleton.1 hd
    exact isWordChar_iff.1 (by decide +kernel)

/-- A word goes as far as its characters do. If it is an arrow, the arrow wins, unless a foreign
blank follows. -/
theorem longestMatch_word (hword : isWordChar c = true) (hcolon : c ≠ ':') (hhash : c ≠ '#')
    (hblank : c :: rest.takeWhile isWordChar = ['-', '>'] →
      foreignBlankFollows (rest.dropWhile isWordChar) = false) :
    LongestMatch (c :: rest)
      (.lexeme (spelledKind (c :: rest.takeWhile isWordChar) (rest.dropWhile isWordChar))
        (c :: rest.takeWhile isWordChar)) := by
  have hprefix : c :: rest.takeWhile isWordChar <+: c :: rest :=
    List.cons_prefix_cons.2 ⟨rfl, List.takeWhile_prefix _⟩
  have hstarts : ∀ q : Pattern, ∀ t ∈ q.language, t <+: c :: rest → q = .word ∨ q = .arrow :=
    fun q t ht hstart =>
      Pattern.starts_of_isWordChar hword hcolon hhash (Pattern.starts_of_mem ht hstart)
  have hmem : c :: rest.takeWhile isWordChar ∈ Pattern.language .word :=
    cons_takeWhile_mem (fun _ => isWordChar_iff) ⟨isWordChar_iff.1 hword, hcolon, hhash⟩
  have hlongest : ∀ q : Pattern, ∀ t ∈ q.language, t <+: c :: rest →
      t.length ≤ (c :: rest.takeWhile isWordChar).length := by
    intro q t ht hstart
    have ht' : t ∈ Pattern.language .word := by
      rcases hstarts q t ht hstart with rfl | rfl
      · exact ht
      · exact mem_word_of_mem_arrow t ht
    exact length_le_of_mem_run (fun _ => isWordChar_iff) ht' hstart
  unfold spelledKind
  by_cases harrow : c :: rest.takeWhile isWordChar = ['-', '>']
  · rw [if_pos ⟨harrow, hblank harrow⟩]
    refine .matched (p := .arrow) hprefix harrow hlongest fun q hq => ?_
    rcases hstarts q _ hq hprefix with rfl | rfl
    · exact .inr ⟨rfl, rfl⟩
    · exact .inl rfl
  · rw [if_neg fun h => harrow h.1]
    refine .matched (p := .word) hprefix hmem hlongest fun q hq => ?_
    rcases hstarts q _ hq hprefix with rfl | rfl
    · exact .inl rfl
    · exact absurd hq harrow

/-! ## Strings -/

/-- What a string takes of a text is the inside of a string, up to where that stops, and the closing
quote if there is one. -/
theorem exists_quotedPart (cs : List Char) :
    ∃ body ∈ quotedBody, ∃ after, cs = body ++ after ∧
      ((∃ rest, after = '"' :: rest ∧ quotedPart cs = (body ++ ['"'], true)) ∨
        BreaksOff after ∧ quotedPart cs = (body, false)) := by
  fun_induction quotedPart cs with
  | case1 => exact ⟨[], nil_mem_quotedBody, _, rfl, .inr ⟨.inl rfl, rfl⟩⟩
  | case2 rest => exact ⟨[], nil_mem_quotedBody, _, rfl, .inl ⟨rest, rfl, rfl⟩⟩
  | case3 rest => exact ⟨[], nil_mem_quotedBody, _, rfl, .inr ⟨.inr (.inl ⟨rest, rfl⟩), rfl⟩⟩
  | case4 => exact ⟨[], nil_mem_quotedBody, _, rfl, .inr ⟨.inr (.inr (.inl rfl)), rfl⟩⟩
  | case5 rest =>
    exact ⟨[], nil_mem_quotedBody, _, rfl, .inr ⟨.inr (.inr (.inr ⟨rest, rfl⟩)), rfl⟩⟩
  | case6 c rest hc r ih =>
    obtain ⟨body, hbody, after, rfl, hread⟩ := ih
    refine ⟨'\\' :: c :: body, cons_mem_quotedBody.2 (.inr ⟨rfl, c, body, rfl, hc, hbody⟩), after,
      rfl, ?_⟩
    rcases hread with ⟨rest, hafter, hread⟩ | ⟨hoff, hread⟩
    · exact .inl ⟨rest, hafter, by simp [r, hread]⟩
    · exact .inr ⟨hoff, by simp [r, hread]⟩
  | case7 c rest hquote hnewline hlast hback r ih =>
    obtain ⟨body, hbody, after, rfl, hread⟩ := ih
    have hplain : c ≠ '"' ∧ c ≠ '\\' ∧ c ≠ '\n' := by
      refine ⟨hquote, fun hc => ?_, hnewline⟩
      cases hrest : body ++ after with
      | nil => exact hlast hc hrest
      | cons d rest => exact hback d rest hc hrest
    refine ⟨c :: body, cons_mem_quotedBody.2 (.inl ⟨hplain, hbody⟩), after, rfl, ?_⟩
    rcases hread with ⟨rest, hafter, hread⟩ | ⟨hoff, hread⟩
    · exact .inl ⟨rest, hafter, by simp [r, hread]⟩
    · exact .inr ⟨hoff, by simp [r, hread]⟩

/-- What a double quote starts: a string, or what there is of one. -/
theorem firstPiece_quote (cs : List Char) :
    ∃ body ∈ quotedBody, ∃ after, cs = body ++ after ∧
      ((∃ rest, after = '"' :: rest ∧
          firstPiece '"' cs = .lexeme .string ('"' :: (body ++ ['"']))) ∨
        BreaksOff after ∧ firstPiece '"' cs = .lexeme .invalid ('"' :: body)) := by
  obtain ⟨body, hbody, after, hcs, hread⟩ := exists_quotedPart cs
  refine ⟨body, hbody, after, hcs, ?_⟩
  rcases hread with ⟨rest, hafter, hread⟩ | ⟨hoff, hread⟩
  · exact .inl ⟨rest, hafter, by simp [firstPiece, isSkipped, bracketKind?, hread]⟩
  · exact .inr ⟨hoff, by simp [firstPiece, isSkipped, bracketKind?, hread]⟩

/-- Where a quote starts a match, a string starts, with its end or without. -/
theorem Pattern.starts_quote {q : Pattern} (hq : q.Starts '"') :
    q = .string ∨ q = .unterminated := by
  cases q with
  | string => exact .inl rfl
  | unterminated => exact .inr rfl
  | word => exact absurd (.inr (by simp)) hq.1
  | blanks => cases isSkipped_iff.2 hq
  | _ => cases hq

namespace Pattern

variable {body after t : List Char}

/-- A string is a quoted body between two quotes. -/
theorem mem_string_iff :
    t ∈ language .string ↔ ∃ body ∈ quotedBody, t = '"' :: (body ++ ['"']) := by
  constructor
  · intro ht
    obtain ⟨_, _, rfl, rfl, body, hbody, _, ⟨_, rfl, rfl⟩, rfl⟩ := mem_oneOf_mul.1 ht
    exact ⟨body, hbody, rfl⟩
  · rintro ⟨body, hbody, rfl⟩
    exact mem_oneOf_mul.2
      ⟨'"', _, rfl, rfl, Language.mem_mul.2 ⟨body, hbody, _, ⟨'"', rfl, rfl⟩, rfl⟩⟩

/-- A string without an end is a quoted body behind a quote. -/
theorem mem_unterminated_iff :
    t ∈ language .unterminated ↔ ∃ body ∈ quotedBody, t = '"' :: body := by
  constructor
  · intro ht
    obtain ⟨_, body, rfl, rfl, hbody⟩ := mem_oneOf_mul.1 ht
    exact ⟨body, hbody, rfl⟩
  · rintro ⟨body, hbody, rfl⟩
    exact mem_oneOf_mul.2 ⟨'"', body, rfl, rfl, hbody⟩

/-- A string that a quote starts is closed where its inside stops. -/
theorem eq_of_string_isPrefix (hbody : body ∈ quotedBody) (hstop : Stops after)
    (ht : t ∈ language .string) (hstart : t <+: '"' :: (body ++ after)) :
    t = '"' :: (body ++ ['"']) ∧ ∃ more, after = '"' :: more := by
  obtain ⟨inner, hinner, rfl⟩ := mem_string_iff.1 ht
  obtain ⟨more, hmore⟩ := (List.cons_prefix_cons.1 hstart).2
  rw [List.append_assoc] at hmore
  obtain ⟨rfl, hafter⟩ := eq_of_closed hbody hstop hinner hmore
  exact ⟨rfl, more, hafter⟩

/-- Without its end, a string that a quote starts goes no further than to where its inside
stops. -/
theorem length_le_of_unterminated_isPrefix (hbody : body ∈ quotedBody) (hstop : Stops after)
    (ht : t ∈ language .unterminated) (hstart : t <+: '"' :: (body ++ after)) :
    t.length ≤ ('"' :: body).length := by
  obtain ⟨inner, hinner, rfl⟩ := mem_unterminated_iff.1 ht
  obtain ⟨rest, hrest⟩ := (List.cons_prefix_cons.1 hstart).2
  obtain ⟨more, -, rfl⟩ := exists_append_of_stops hbody hstop hinner hrest
  simp

end Pattern

/-- The longest match at a quote with a partner is the string up to that partner. -/
theorem longestMatch_closed {body : List Char} (hbody : body ∈ quotedBody) (more : List Char) :
    LongestMatch ('"' :: (body ++ '"' :: more)) (.lexeme .string ('"' :: (body ++ ['"']))) := by
  have hstop : Stops ('"' :: more) := .inl ⟨more, rfl⟩
  have hprefix : '"' :: (body ++ ['"']) <+: '"' :: (body ++ '"' :: more) := ⟨more, by simp⟩
  refine .matched (p := .string) hprefix (Pattern.mem_string_iff.2 ⟨body, hbody, rfl⟩)
    (fun q t ht hstart => ?_) fun q hq => ?_
  · rcases Pattern.starts_quote (Pattern.starts_of_mem ht hstart) with rfl | rfl
    · rw [(Pattern.eq_of_string_isPrefix hbody hstop ht hstart).1]
    · have hlength := Pattern.length_le_of_unterminated_isPrefix hbody hstop ht hstart
      simp only [List.length_cons, List.length_append] at hlength ⊢
      omega
  · rcases Pattern.starts_quote (Pattern.starts_of_mem hq hprefix) with rfl | rfl
    · exact .inl rfl
    · have hlength := Pattern.length_le_of_unterminated_isPrefix hbody hstop hq hprefix
      simp only [List.length_cons, List.length_append] at hlength
      omega

/-- The longest match at a quote without a partner is the quote with what can be read as a body. -/
theorem longestMatch_brokenOff {body after : List Char} (hbody : body ∈ quotedBody)
    (hoff : BreaksOff after) :
    LongestMatch ('"' :: (body ++ after)) (.lexeme .invalid ('"' :: body)) := by
  have hstop : Stops after := .inr hoff
  have hprefix : '"' :: body <+: '"' :: (body ++ after) := ⟨after, rfl⟩
  have hstring : ∀ t ∈ Pattern.language .string, ¬ t <+: '"' :: (body ++ after) := by
    intro t ht hstart
    obtain ⟨-, more, rfl⟩ := Pattern.eq_of_string_isPrefix hbody hstop ht hstart
    exact hoff.not_quote rfl
  refine .matched (p := .unterminated) hprefix (Pattern.mem_unterminated_iff.2 ⟨body, hbody, rfl⟩)
    (fun q t ht hstart => ?_) fun q hq => ?_
  · rcases Pattern.starts_quote (Pattern.starts_of_mem ht hstart) with rfl | rfl
    · exact absurd hstart (hstring t ht)
    · exact Pattern.length_le_of_unterminated_isPrefix hbody hstop ht hstart
  · rcases Pattern.starts_quote (Pattern.starts_of_mem hq hprefix) with rfl | rfl
    · exact absurd hprefix (hstring _ hq)
    · exact .inl rfl

/-! ## The first piece -/

/-- A character that starts no match. -/
theorem longestMatch_invalid (hskip : ¬ isSkipped c = true) (hhash : c ≠ '#')
    (hbracket : bracketKind? c = none) (hquote : c ≠ '"') (hcolon : c ≠ ':')
    (hword : ¬ isWordChar c = true) (rest : List Char) :
    LongestMatch (c :: rest) (.lexeme .invalid [c]) := by
  refine .unmatched rfl fun q t ht hstart => ?_
  have hq := Pattern.starts_of_mem ht hstart
  cases q with
  | blanks => exact hskip (isSkipped_iff.2 hq)
  | comment => exact hhash hq
  | opening | closing => cases hbracket.symm.trans hq
  | arrow =>
    obtain rfl := hq
    exact hword (by decide +kernel)
  | string | unterminated => exact hquote hq
  | symbol => exact hcolon hq
  | word => exact hword (isWordChar_iff.2 hq.1)

/-- No arrow stands directly before a foreign blank. -/
def PlainArrows (cs : List Char) : Prop :=
  ∀ b, Text.isBlank b = true → ['-', '>', b] <:+: cs → b.toNat < 0x80

/-- In a source with plain arrows nothing foreign follows an arrow. -/
theorem PlainArrows.foreignBlankFollows (h : PlainArrows (c :: rest))
    (harrow : c :: rest.takeWhile isWordChar = ['-', '>']) :
    foreignBlankFollows (rest.dropWhile isWordChar) = false := by
  have hcut : c :: rest = ['-', '>'] ++ rest.dropWhile isWordChar := by
    rw [← harrow, List.cons_append, List.takeWhile_append_dropWhile]
  cases hdrop : rest.dropWhile isWordChar with
  | nil => rfl
  | cons b more =>
    rw [hdrop] at hcut
    by_contra hforeign
    simp only [Lexeme.foreignBlankFollows, Bool.and_eq_true, decide_eq_true_eq,
      Bool.not_eq_false] at hforeign
    have hb := h b hforeign.1 (hcut ▸ ⟨[], more, rfl⟩)
    omega

/-- The first piece of a text is the longest match there. -/
theorem longestMatch_firstPiece (h : PlainArrows (c :: rest)) :
    LongestMatch (c :: rest) (firstPiece c rest) := by
  by_cases hquote : c = '"'
  · subst hquote
    obtain ⟨body, hbody, _, rfl, ⟨more, rfl, hpiece⟩ | ⟨hoff, hpiece⟩⟩ := firstPiece_quote rest
    · exact hpiece ▸ longestMatch_closed hbody more
    · exact hpiece ▸ longestMatch_brokenOff hbody hoff
  simp only [firstPiece, if_neg hquote]
  split
  next hskip => exact longestMatch_blanks hskip rest
  next hskip =>
  split
  next hhash =>
    subst hhash
    exact longestMatch_comment rest
  next hhash =>
  split
  next k hk => exact longestMatch_bracket hk rest
  next hk =>
  split
  next hcolon =>
    subst hcolon
    exact longestMatch_symbol rest
  next hcolon =>
  split
  next hword => exact longestMatch_word hword hcolon hhash h.foreignBlankFollows
  next hword => exact longestMatch_invalid hskip hhash hk hquote hcolon hword rest

/-! ## All pieces -/

/-- The pieces from one on are those of what is left of the text there. -/
theorem pieces_of_append {cs : List Char} {before after : List Piece}
    (h : pieces cs = before ++ after) :
    pieces (after.flatMap Piece.text) = after ∧ after.flatMap Piece.text <:+ cs := by
  induction before generalizing cs with
  | nil =>
    obtain rfl : pieces cs = after := h
    rw [flatMap_text_pieces]
    exact ⟨rfl, List.suffix_rfl⟩
  | cons p before ih =>
    cases cs with
    | nil =>
      rw [pieces_nil] at h
      cases h
    | cons c rest =>
      rw [pieces] at h
      obtain ⟨hpieces, hsuffix⟩ := ih (List.cons.inj h).2
      exact ⟨hpieces, hsuffix.trans (List.drop_suffix _ _)⟩

/-- How the piece `p` reads a double quote before the text `rest`, and what text is left `after` it:
it is a string if the inside of a string with a closing quote behind it follows, and goes up to that
quote. If not, it is invalid and goes up to where the line or, but for a backslash, the line is at
its end. -/
structure ReadsQuote (rest : List Char) (p : Piece) (after : List Char) : Prop where
  string_iff : (∃ text, p = .lexeme .string text) ↔
    ∃ body ∈ quotedBody, ∃ more, rest = body ++ '"' :: more
  closed : ∀ body ∈ quotedBody, ∀ more, rest = body ++ '"' :: more →
    p = .lexeme .string ('"' :: (body ++ ['"'])) ∧ after = more
  brokenOff : (¬ ∃ text, p = .lexeme .string text) →
    ∃ body ∈ quotedBody, rest = body ++ after ∧ BreaksOff after ∧ p = .lexeme .invalid ('"' :: body)

/-- The first piece at a quote reads the quote as the rule on strings says. -/
theorem readsQuote_firstPiece {rest after : List Char}
    (h : (firstPiece '"' rest).text ++ after = '"' :: rest) :
    ReadsQuote rest (firstPiece '"' rest) after := by
  obtain ⟨body, hbody, _, rfl, ⟨more, rfl, hpiece⟩ | ⟨hoff, hpiece⟩⟩ := firstPiece_quote rest
  all_goals
    rw [hpiece] at h ⊢
    replace h := (List.cons.inj h).2
  · obtain rfl : after = more := by simpa using h
    refine ⟨⟨fun _ => ⟨body, hbody, after, rfl⟩, fun _ => ⟨_, rfl⟩⟩, ?_, fun hno => ?_⟩
    · intro inner hinner more' hrest
      obtain ⟨rfl, hmore⟩ := eq_of_closed hbody (.inl ⟨after, rfl⟩) hinner hrest.symm
      exact ⟨rfl, (List.cons.inj hmore).2⟩
    · exact absurd ⟨_, rfl⟩ hno
  · obtain rfl := List.append_cancel_left h
    have hopen : ∀ inner ∈ quotedBody, ∀ more, body ++ after ≠ inner ++ '"' :: more :=
      fun inner hinner more hrest =>
        hoff.not_quote (eq_of_closed hbody (.inr hoff) hinner hrest.symm).2
    refine ⟨⟨?_, ?_⟩, ?_, fun _ => ⟨body, hbody, rfl, hoff, rfl⟩⟩
    · rintro ⟨_, h⟩
      cases h
    · rintro ⟨inner, hinner, more, hrest⟩
      exact absurd hrest (hopen inner hinner more)
    · intro inner hinner more hrest
      exact absurd hrest (hopen inner hinner more)

end Lexeme

open Lexeme in
/-- The lexer takes the longest match. Its pieces follow one another through the source, and its
tokens are those of the pieces that are not skipped. Each piece is the longest start of what is left
of the source that a pattern matches, or one character if none does. -/
theorem tokenize_longestMatch (source : String) (h : PlainArrows source.toList) :
    ∃ ps, tokenize source = place .zero ps ∧ ps.flatMap Piece.text = source.toList ∧
      ∀ before p after, ps = before ++ p :: after →
        LongestMatch ((p :: after).flatMap Piece.text) p ∧
        ∀ rest, (p :: after).flatMap Piece.text = '"' :: rest →
          ReadsQuote rest p (after.flatMap Piece.text) := by
  refine ⟨pieces source.toList, rfl, flatMap_text_pieces _, fun before p after hps => ?_⟩
  obtain ⟨hpieces, hsuffix⟩ := pieces_of_append hps
  have hjoin : p.text ++ after.flatMap Piece.text = (p :: after).flatMap Piece.text := rfl
  cases hcs : (p :: after).flatMap Piece.text with
  | nil =>
    rw [hcs, pieces_nil] at hpieces
    cases hpieces
  | cons c rest =>
    rw [hcs, pieces] at hpieces
    obtain rfl : firstPiece c rest = p := (List.cons.inj hpieces).1
    rw [hcs] at hjoin hsuffix
    refine ⟨longestMatch_firstPiece fun b hb hin => h b hb (hin.trans hsuffix.isInfix), ?_⟩
    rintro _ ⟨⟩
    exact readsQuote_firstPiece hjoin

open Lexeme in
/-- A name, an arrow, and a string without its end. -/
theorem arrowBeforeQuote_longestMatch :
    PlainArrows "a -> \"b".toList ∧
      tokenize "a -> \"b" = [⟨.reference, "a", 0, 0, 1⟩, ⟨.arrow, "->", 0, 2, 4⟩,
        ⟨.invalid, "\"b", 0, 5, 7⟩] ∧
      ∃ ps, tokenize "a -> \"b" = place .zero ps ∧ ps.flatMap Piece.text = "a -> \"b".toList ∧
        ∀ before p after, ps = before ++ p :: after →
          LongestMatch ((p :: after).flatMap Piece.text) p ∧
          ∀ rest, (p :: after).flatMap Piece.text = '"' :: rest →
            ReadsQuote rest p (after.flatMap Piece.text) := by
  have hplain : PlainArrows "a -> \"b".toList := by
    intro b _ hin
    obtain rfl : b = ' ' := by
      simpa [List.infix_cons_iff, List.cons_prefix_cons] using hin
    decide
  exact ⟨hplain, by decide +kernel, tokenize_longestMatch _ hplain⟩

end StackEditor
