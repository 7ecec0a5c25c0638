import StackEditor.Proofs.Lexeme.LongestMatch
import StackEditor.Proofs.Lexeme.Numeral

/-!
# The kinds of words

A word is what the pattern of words matches and the lexer does not take for the arrow
(`Token.IsWord`). Every other lexeme is of another kind, and starts as no word does
(`firstPiece_cases`), so the words of a source are its tokens of five kinds. Which of the five a
word is of depends on its text alone, and each has its texts (`tokenize_wordKinds`).
-/

open scoped Computability

namespace StackEditor

namespace Lexeme

/-! ## Lexemes -/

/-- The kinds of words. -/
def wordKinds : List Token.Kind := [.boolean, .keyword, .number, .assignment, .reference]

/-- The kind of a word is one of the five. -/
theorem wordKind_mem_wordKinds (text : List Char) : wordKind text ∈ wordKinds := by
  unfold wordKind
  split_ifs <;> simp [wordKinds]

variable {c : Char} {rest text : List Char} {k : Token.Kind}

/-- What starts with a colon, or with what ends a word, is no word. -/
theorem cons_notMem_word (h : EndsWord c ∨ c = ':') : c :: rest ∉ Pattern.language .word := by
  intro hmem
  obtain ⟨hends, hcolon, -⟩ := Pattern.starts_of_mem hmem (List.prefix_refl _)
  exact h.elim hends hcolon

/-- A bracket opens or closes one of the pairs. -/
theorem eq_of_bracketKind? (h : bracketKind? c = some k) :
    (∃ pair, k = .opening pair) ∨ ∃ pair, k = .closing pair := by
  unfold bracketKind? at h
  split_ifs at h <;> cases h <;> simp

/-- A lexeme is a word with a kind by its text, or the arrow, or it is no word by its text nor by
its kind. -/
theorem firstPiece_cases (h : firstPiece c rest = .lexeme k text) :
    (text ∈ Pattern.language .word ∧ k = wordKind text) ∨ (k = .arrow ∧ text = ['-', '>']) ∨
      (text ∉ Pattern.language .word ∧ k ∉ .arrow :: wordKinds) := by
  unfold firstPiece at h
  split at h
  · cases h
  split at h
  · cases h
  next hhash =>
  split at h
  · next hk =>
    cases h
    refine .inr (.inr ⟨cons_notMem_word (.inl (endsWord_of_bracketKind? hk)), ?_⟩)
    rcases eq_of_bracketKind? hk with ⟨pair, rfl⟩ | ⟨pair, rfl⟩
    · simp [wordKinds]
    · simp [wordKinds]
  split at h
  · next hquote =>
    cases h
    refine .inr (.inr ⟨cons_notMem_word (.inl (.inr (by simp [hquote]))), ?_⟩)
    split
    · simp [wordKinds]
    · simp [wordKinds]
  split at h
  · next hcolon =>
    cases h
    exact .inr (.inr ⟨cons_notMem_word (.inr hcolon), by simp [wordKinds]⟩)
  next hcolon =>
  split at h
  · next hword =>
    cases h
    unfold spelledKind
    split
    · next harrow => exact .inr (.inl ⟨rfl, harrow.1⟩)
    · exact .inl ⟨cons_takeWhile_mem (fun _ => isWordChar_iff)
        ⟨isWordChar_iff.1 hword, hcolon, hhash⟩, rfl⟩
  · next hword =>
    cases h
    rw [isWordChar_iff, not_not] at hword
    exact .inr (.inr ⟨cons_notMem_word (.inl hword), by simp [wordKinds]⟩)

/-- A lexeme of a text is the first piece of what there is from its place on. -/
theorem exists_firstPiece_of_mem_spots {cs : List Char} {o : Nat} {s : Spot}
    (h : s ∈ spots o (pieces cs)) : ∃ c rest, firstPiece c rest = .lexeme s.kind s.text := by
  fun_induction pieces cs generalizing o with
  | case1 => cases h
  | case2 c rest ih =>
    rw [spots_cons, List.mem_append] at h
    rcases h with h | h
    · cases hp : firstPiece c rest with
      | gap g => rw [hp] at h; cases h
      | lexeme k l =>
        rw [hp] at h
        obtain rfl : s = ⟨o, k, l⟩ := by simpa [spots] using h
        exact ⟨c, rest, hp⟩
    · exact ih h

end Lexeme

open Lexeme

/-! ## Tokens -/

/-- The token is a word, and not taken for the arrow. -/
def Token.IsWord (t : Token) : Prop :=
  t.text.toList ∈ Pattern.language .word ∧ t.kind ≠ .arrow

variable {source : String} {t : Token}

/-- A token is a word of the kind its text says, an arrow, or neither. -/
theorem token_cases (ht : t ∈ tokenize source) :
    (t.IsWord ∧ t.kind = wordKind t.text.toList) ∨ (t.kind = .arrow ∧ t.text = "->") ∨
      (¬ t.IsWord ∧ t.kind ∉ .arrow :: wordKinds) := by
  obtain ⟨s, hs, rfl, -, -⟩ := exists_offset_of_mem_tokenize ht
  obtain ⟨c, rest, hpiece⟩ := exists_firstPiece_of_mem_spots hs
  have htext : (s.token source.toList).text.toList = s.text := String.toList_ofList
  rw [Token.IsWord, htext]
  rcases firstPiece_cases hpiece with ⟨hword, hkind⟩ | ⟨hkind, harrow⟩ | ⟨hword, hkind⟩
  · refine .inl ⟨⟨hword, fun harrow => ?_⟩, hkind⟩
    have hmem := wordKind_mem_wordKinds s.text
    rw [← hkind, show s.kind = .arrow from harrow] at hmem
    simp [wordKinds] at hmem
  · exact .inr (.inl ⟨hkind, congrArg String.ofList harrow⟩)
  · exact .inr (.inr ⟨fun h => hword h.1, hkind⟩)

/-- The words of a source are its tokens of the kinds of words. -/
theorem isWord_iff (ht : t ∈ tokenize source) : t.IsWord ↔ t.kind ∈ wordKinds := by
  rcases token_cases ht with ⟨hword, hkind⟩ | ⟨hkind, -⟩ | ⟨hword, hkind⟩
  · rw [hkind]
    exact iff_of_true hword (wordKind_mem_wordKinds _)
  · rw [hkind]
    exact iff_of_false (fun h => h.2 hkind) (by simp [wordKinds])
  · exact iff_of_false hword fun h => hkind (List.mem_cons_of_mem _ h)

/-- Every arrow reads the same. -/
theorem text_of_arrow (ht : t ∈ tokenize source) (hkind : t.kind = .arrow) : t.text = "->" := by
  rcases token_cases ht with ⟨hword, -⟩ | ⟨-, htext⟩ | ⟨-, hnot⟩
  · exact absurd hkind hword.2
  · exact htext
  · exact absurd (hkind ▸ List.mem_cons_self) hnot

/-- The kind of a word is that of its text. -/
theorem kind_eq_wordKind (ht : t ∈ tokenize source) (hword : t.IsWord) :
    t.kind = wordKind t.text.toList := by
  rcases token_cases ht with ⟨-, hkind⟩ | ⟨hkind, -⟩ | ⟨hnot, -⟩
  · exact hkind
  · exact absurd hkind hword.2
  · exact absurd hword hnot

/-! ## The kind of a text -/

/-- The mark of an assignment is the last character, and the name is what stands in front of it. -/
theorem withoutBang_eq_some_iff {text name : String} :
    Token.withoutBang text = some name ↔ text = name ++ "!" := by
  unfold Token.withoutBang
  constructor
  · split
    · next hlast =>
      obtain ⟨cs, hcs⟩ := List.getLast?_eq_some_iff.1 hlast
      rw [hcs, List.dropLast_concat]
      rintro ⟨⟩
      refine String.toList_injective ?_
      rw [hcs, String.toList_append, String.toList_ofList]
      rfl
    · nofun
  · rintro rfl
    simp [String.toList_append]

/-- An assignment names what stands in front of its mark. -/
theorem assignedName?_eq_some_iff {name : String} :
    t.assignedName? = some name ↔ t.kind = .assignment ∧ t.text = name ++ "!" := by
  rw [Token.assignedName?]
  split
  · next hkind => rw [withoutBang_eq_some_iff, and_iff_right hkind]
  · next hkind => exact iff_of_false (fun h => by cases h) fun h => hkind h.1

/-- A word assigns if it ends in `!`, with a name in front of it. -/
theorem isAssignment_toList {text : String} :
    isAssignment text.toList = true ↔ ∃ name, name ≠ "" ∧ text = name ++ "!" := by
  rw [isAssignment, Bool.and_eq_true, decide_eq_true_eq, beq_iff_eq]
  constructor
  · rintro ⟨hlength, hlast⟩
    obtain ⟨name, hname⟩ : ∃ name, Token.withoutBang text = some name := ⟨_, if_pos hlast⟩
    rw [withoutBang_eq_some_iff] at hname
    refine ⟨name, ?_, hname⟩
    rintro rfl
    subst hname
    cases Nat.lt_irrefl 1 hlength
  · rintro ⟨name, hname, rfl⟩
    have hpos : 0 < name.toList.length := by
      rw [List.length_pos_iff]
      exact fun h => hname (String.toList_eq_nil_iff.1 h)
    rw [String.toList_append]
    refine ⟨?_, List.getLast?_concat⟩
    rw [List.length_append]
    exact Nat.succ_le_succ hpos

/-- The kind of a word, by its text. -/
theorem wordKind_toList (text : String) : wordKind text.toList =
    if text ∈ ["true", "false"] then .boolean
    else if text ∈ ["fn", "datadef", "debugger"] then .keyword
    else if isNumeral text.toList = true then .number
    else if isAssignment text.toList = true then .assignment
    else .reference := by
  simp only [wordKind, String.toList_inj, String.ofList_toList, keywords, List.mem_cons,
    List.not_mem_nil, or_false]

/-- A text that is listed is on one list only, and no numeral. -/
theorem listed_apart {text : String} :
    (text ∈ ["true", "false"] →
      text ∉ ["fn", "datadef", "debugger"] ∧ isNumeral text.toList = false) ∧
    (text ∈ ["fn", "datadef", "debugger"] → isNumeral text.toList = false) := by
  simp only [List.mem_cons, List.not_mem_nil, or_false]
  constructor
  · rintro (rfl | rfl) <;> decide
  · rintro (rfl | rfl | rfl) <;> decide

/-- In every source the words are the tokens of five kinds, whatever blanks are around them. A word
is a truth value or a reserved word if it is one of those listed, and a number if it is a numeral,
that is, a decimal number that starts with a digit, but for the sign. If it is none of these, it is
an assignment if it ends in `!` with a name in front of that, which is the name assigned, and a
reference if not. -/
theorem tokenize_wordKinds (source : String) : ∀ t ∈ tokenize source,
    (t.IsWord ↔ t.kind ∈ wordKinds) ∧ (t.kind = .arrow → t.text = "->") ∧
    (∀ name, t.assignedName? = some name ↔ t.kind = .assignment ∧ t.text = name ++ "!") ∧
    (t.IsWord →
      (t.kind = .boolean ↔ t.text ∈ ["true", "false"]) ∧
      (t.kind = .keyword ↔ t.text ∈ ["fn", "datadef", "debugger"]) ∧
      (t.kind = .number ↔ t.text.toList ∈ numeral) ∧
      (t.kind = .number ↔ (∃ d rest, dropSign t.text.toList = d :: rest ∧ d.isDigit = true) ∧
        t.text.toList ∈ decimal) ∧
      (t.kind = .assignment ↔ t.kind ∉ [.boolean, .keyword, .number] ∧
        ∃ name, name ≠ "" ∧ t.text = name ++ "!") ∧
      (t.kind = .reference ↔ t.kind ∉ [.boolean, .keyword, .number] ∧
        ¬ ∃ name, name ≠ "" ∧ t.text = name ++ "!")) := by
  intro t ht
  refine ⟨isWord_iff ht, text_of_arrow ht, fun name => assignedName?_eq_some_iff, fun hword => ?_⟩
  obtain ⟨hboolean, hkeyword⟩ := @listed_apart t.text
  rw [← mem_numeral_iff, ← isNumeral_iff, ← isAssignment_toList, kind_eq_wordKind ht hword,
    wordKind_toList]
  split_ifs with hlisted hreserved hnumeral hassigns
  · simp [hlisted, hboolean hlisted]
  · simp [hlisted, hreserved, hkeyword hreserved]
  · simp [hlisted, hreserved, hnumeral]
  · simp [hlisted, hreserved, hnumeral, hassigns]
  · simp [hlisted, hreserved, hnumeral, hassigns]

/-- A numeral with all that it can have, a word with one sign too many, and an assignment. -/
theorem oneSign_wordKinds :
    tokenize "+3.e-7 +-1 1!" = [⟨.number, "+3.e-7", 0, 0, 6⟩, ⟨.reference, "+-1", 0, 7, 10⟩,
      ⟨.assignment, "1!", 0, 11, 13⟩] ∧
    "+3.e-7".toList ∈ numeral ∧ "+-1".toList ∉ numeral ∧
    Token.assignedName? ⟨.assignment, "1!", 0, 11, 13⟩ = some "1" := by
  have htokens : tokenize "+3.e-7 +-1 1!" = [⟨.number, "+3.e-7", 0, 0, 6⟩,
      ⟨.reference, "+-1", 0, 7, 10⟩, ⟨.assignment, "1!", 0, 11, 13⟩] := by decide +kernel
  have hkind := tokenize_wordKinds "+3.e-7 +-1 1!"
  rw [htokens] at hkind
  obtain ⟨hword, -, -, htext⟩ := hkind ⟨.number, "+3.e-7", 0, 0, 6⟩ (by simp)
  obtain ⟨hword', -, -, htext'⟩ := hkind ⟨.reference, "+-1", 0, 7, 10⟩ (by simp)
  obtain ⟨-, -, hname, -⟩ := hkind ⟨.assignment, "1!", 0, 11, 13⟩ (by simp)
  refine ⟨htokens, (htext (hword.2 (by decide))).2.2.1.1 rfl, fun hnumeral => ?_,
    (hname "1").2 ⟨rfl, rfl⟩⟩
  cases (htext' (hword'.2 (by decide))).2.2.1.2 hnumeral

end StackEditor
