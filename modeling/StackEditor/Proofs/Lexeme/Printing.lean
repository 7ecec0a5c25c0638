import StackEditor.Proofs.Lexeme.Joining
import StackEditor.Proofs.Lexeme.LongestMatch

/-!
# Printing tokens

A lexeme that is cut out of a text is the same lexeme when it stands alone (`pieces_of_mem_spots`):
what it was cut from decides where it ends, and its own text decides the rest. So the texts of the
tokens of a source, one to a line, have these tokens again (`tokenize_printed`). Only the arrow has
to be kept apart from foreign blanks, which change how it is read.
-/

namespace StackEditor

namespace Lexeme

/-! ## A lexeme alone -/

/-- What a string takes of a text, it takes of that alone. -/
theorem quotedPart_fst (cs : List Char) : quotedPart (quotedPart cs).1 = quotedPart cs := by
  fun_induction quotedPart cs with
  | case1 | case2 | case3 | case4 | case5 => simp [quotedPart]
  | case6 c rest hc r ih => simp [quotedPart, hc, r, ih]
  | case7 c rest hquote hnewline hlast hback r ih =>
    have hplain : c ≠ '\\' := by
      rintro rfl
      cases rest with
      | nil => exact hlast rfl rfl
      | cons d rest => exact hback d rest rfl rfl
    rw [quotedPart, ih]
    · exact hquote
    · exact hnewline
    · exact fun hc _ => hplain hc
    · exact fun _ _ hc _ => hplain hc

/-- What a run takes of a text, it takes of that alone. -/
theorem takeWhile_takeWhile_self (p : Char → Bool) (cs : List Char) :
    (cs.takeWhile p).takeWhile p = cs.takeWhile p :=
  List.takeWhile_eq_self_iff.2 fun _ hc => List.mem_takeWhile_imp hc

variable {c : Char} {rest t : List Char} {k : Token.Kind}

/-- A lexeme at the start of a text is all that its own text starts with. -/
theorem firstPiece_of_firstPiece (hplain : PlainArrows (c :: rest))
    (h : firstPiece c rest = .lexeme k (c :: t)) : firstPiece c t = .lexeme k (c :: t) := by
  unfold firstPiece at h ⊢
  split at h
  · cases h
  next hskip =>
  rw [if_neg hskip]
  split at h
  · cases h
  next hhash =>
  rw [if_neg hhash]
  split at h
  · cases h
    rfl
  split at h
  · next hquote =>
    cases h
    rw [if_pos hquote, quotedPart_fst]
  next hquote =>
  rw [if_neg hquote]
  split at h
  · next hcolon =>
    cases h
    rw [if_pos hcolon, takeWhile_takeWhile_self]
  next hcolon =>
  rw [if_neg hcolon]
  split at h
  · next hword =>
    cases h
    rw [if_pos hword, takeWhile_takeWhile_self]
    -- An arrow is one only if nothing foreign follows, and alone nothing follows it.
    have hkind : ∀ r, (c :: rest.takeWhile isWordChar = ['-', '>'] →
        foreignBlankFollows r = false) → spelledKind (c :: rest.takeWhile isWordChar) r =
          spelledKind (c :: rest.takeWhile isWordChar) [] := by
      intro r hr
      unfold spelledKind
      by_cases harrow : c :: rest.takeWhile isWordChar = ['-', '>']
      · rw [if_pos ⟨harrow, hr harrow⟩, if_pos ⟨harrow, rfl⟩]
      · rw [if_neg fun h => harrow h.1, if_neg fun h => harrow h.1]
    have hend : (rest.takeWhile isWordChar).dropWhile isWordChar = [] :=
      List.dropWhile_eq_nil_iff.2 fun _ hd => List.mem_takeWhile_imp hd
    rw [hend, hkind _ hplain.foreignBlankFollows]
  next hword =>
  cases h
  rw [if_neg hword]

/-- A text that no more is left of than its first piece has one piece. -/
theorem pieces_eq_singleton (h : firstPiece c t = .lexeme k (c :: t)) :
    pieces (c :: t) = [.lexeme k (c :: t)] := by
  have hall : (firstPiece c t).text ++ [] = c :: t := by rw [h, Piece.text, List.append_nil]
  rw [pieces_cons hall, h, pieces_nil]

/-- A lexeme of a text stands alone. -/
theorem pieces_of_mem_spots {cs : List Char} (hplain : PlainArrows cs) {o : Nat} {s : Spot}
    (h : s ∈ spots o (pieces cs)) : pieces s.text = [.lexeme s.kind s.text] := by
  fun_induction pieces cs generalizing o with
  | case1 => cases h
  | case2 c rest ih =>
    rw [spots_cons, List.mem_append] at h
    rcases h with h | h
    · cases hp : firstPiece c rest with
      | gap g => rw [hp] at h; cases h
      | lexeme k l =>
        rw [hp] at h
        obtain rfl : s = ⟨o, k, l⟩ := by simpa [spots] using h
        obtain ⟨-, ⟨t, rfl⟩, -⟩ := firstPiece_lexeme hp
        exact pieces_eq_singleton (firstPiece_of_firstPiece hplain hp)
    · exact ih (fun b hb hin => hplain b hb (hin.trans (List.drop_suffix _ _).isInfix)) h

end Lexeme

open Lexeme

/-! ## Tokens alone -/

/-- The token as it is when its text is the source. -/
def Token.alone (t : Token) : Token := ⟨t.kind, t.text, 0, 0, t.text.length⟩

/-- The text of a token, as a source, has this token only. -/
theorem tokenize_text_of_mem {source : String} (hplain : PlainArrows source.toList) {t : Token}
    (ht : t ∈ tokenize source) : tokenize t.text = [t.alone] := by
  obtain ⟨s, hs, rfl, -, -⟩ := exists_offset_of_mem_tokenize ht
  have hpieces := pieces_of_mem_spots hplain hs
  simp [tokenize, Spot.token, hpieces, place, Token.alone, Position.zero]

/-- A token has no newline. -/
theorem newline_notMem_of_mem_tokenize {source : String} {t : Token} (ht : t ∈ tokenize source) :
    '\n' ∉ t.text.toList := by
  obtain ⟨s, hs, rfl, -, -⟩ := exists_offset_of_mem_tokenize ht
  rw [Spot.token, String.toList_ofList]
  exact (spot_sound hs).newline

/-! ## Tokens on lines of their own -/

/-- The texts of tokens, each on a line of its own. -/
def printed (tokens : List Token) : String := "\n".intercalate (tokens.map (·.text))

/-- Tokens that stand alone, each on a line of its own, from line `k` on. -/
theorem tokenize_printed_of_alone {tokens : List Token}
    (h : ∀ t ∈ tokens, tokenize t.text = [t.alone] ∧ '\n' ∉ t.text.toList) (k : Nat) :
    (tokenize (printed tokens)).map (Token.down k) =
      (tokens.zipIdx k).map fun (t, n) => t.alone.down n := by
  induction tokens generalizing k with
  | nil =>
    have hempty : tokenize (printed []) = [] := by simp [printed, tokenize, place]
    rw [hempty]
    rfl
  | cons t ts ih =>
    obtain ⟨halone, hline⟩ := h t List.mem_cons_self
    have hts := fun t ht => h t (List.mem_cons_of_mem _ ht)
    rw [List.zipIdx_cons, List.map_cons]
    cases ts with
    | nil => simp [printed, halone]
    | cons t' ts =>
      have hprinted : printed (t :: t' :: ts) = t.text ++ "\n" ++ printed (t' :: ts) :=
        String.intercalate_cons_cons
      rw [hprinted, tokenize_newline, halone, List.count_eq_zero.2 hline, List.map_append,
        List.map_map, Token.down_comp_down, Nat.add_zero, Nat.add_comm 1, ← ih hts]
      rfl

/-- The tokens of a source, printed one to a line, are lexed as the same tokens, and each of them
alone is. So what a token is depends on its text, and not on the source it comes from. -/
theorem tokenize_printed (source : String) (h : PlainArrows source.toList) :
    tokenize ("\n".intercalate ((tokenize source).map (·.text))) =
        (tokenize source).zipIdx.map (fun (t, i) => ⟨t.kind, t.text, i, 0, t.text.length⟩) ∧
      (∀ t ∈ tokenize source, tokenize t.text = [⟨t.kind, t.text, 0, 0, t.text.length⟩]) ∧
      ∀ other : String, PlainArrows other.toList → ∀ t ∈ tokenize source, ∀ t' ∈ tokenize other,
        t'.text = t.text → t'.kind = t.kind := by
  refine ⟨?_, fun t ht => tokenize_text_of_mem h ht, ?_⟩
  · have hprinted := tokenize_printed_of_alone
      (fun t ht => ⟨tokenize_text_of_mem h ht, newline_notMem_of_mem_tokenize ht⟩) 0
    have hdown : (Token.down 0) = id := funext Token.down_zero
    rw [hdown, List.map_id, printed] at hprinted
    rw [hprinted]
    refine List.map_congr_left fun (t, i) _ => ?_
    simp [Token.alone, Token.down]
  · intro other hother t ht t' ht' htext
    have halone := tokenize_text_of_mem hother ht'
    rw [htext, tokenize_text_of_mem h ht] at halone
    exact (congrArg Token.kind (List.cons.inj halone).1).symm

/-- An arrow, and a string without its end that leaves a backslash behind. -/
theorem arrowBeforeBackslash_printed :
    PlainArrows "-> \"a\\".toList ∧
      tokenize "-> \"a\\" = [⟨.arrow, "->", 0, 0, 2⟩, ⟨.invalid, "\"a", 0, 3, 5⟩,
        ⟨.reference, "\\", 0, 5, 6⟩] ∧
      tokenize ("\n".intercalate ((tokenize "-> \"a\\").map (·.text))) =
        (tokenize "-> \"a\\").zipIdx.map (fun (t, i) => ⟨t.kind, t.text, i, 0, t.text.length⟩) ∧
      (∀ t ∈ tokenize "-> \"a\\",
        tokenize t.text = [⟨t.kind, t.text, 0, 0, t.text.length⟩]) ∧
      ∀ other : String, PlainArrows other.toList → ∀ t ∈ tokenize "-> \"a\\",
        ∀ t' ∈ tokenize other, t'.text = t.text → t'.kind = t.kind := by
  have hplain : PlainArrows "-> \"a\\".toList := by
    intro b _ hin
    obtain rfl : b = ' ' := by
      simpa [List.infix_cons_iff, List.cons_prefix_cons] using hin
    decide
  exact ⟨hplain, by decide +kernel, tokenize_printed _ hplain⟩

end StackEditor
