import StackEditor.Proofs.Lexeme.Placement

/-!
# Lexing goes line by line

No lexeme and no comment takes a newline, and none looks beyond one. So the spots of a text with a
newline are those before it and those from it on (`spots_append_newline`). Skipped characters only
move what follows them (`spots_append_of_isSkipped`).
-/

namespace StackEditor.Lexeme

/-! ## Skipped characters -/

/-- The pieces of a text that starts with a skipped character. -/
theorem pieces_cons_of_isSkipped {c : Char} (hc : isSkipped c = true) (rest : List Char) :
    pieces (c :: rest) =
      .gap (c :: rest.takeWhile isSkipped) :: pieces (rest.dropWhile isSkipped) := by
  have hfirst : firstPiece c rest = .gap (c :: rest.takeWhile isSkipped) := by
    rw [firstPiece, if_pos hc]
  have hsplit : (firstPiece c rest).text ++ rest.dropWhile isSkipped = c :: rest := by
    rw [hfirst, Piece.text, List.cons_append, List.takeWhile_append_dropWhile]
  rw [pieces_cons hsplit, hfirst]

/-- Going over the skipped characters in front leaves the spots where they are. -/
theorem spots_dropWhile (o : Nat) (cs : List Char) :
    spots o (pieces cs) =
      spots (o + (cs.takeWhile isSkipped).length) (pieces (cs.dropWhile isSkipped)) := by
  cases cs with
  | nil => rfl
  | cons c rest =>
    by_cases hc : isSkipped c = true
    · rw [pieces_cons_of_isSkipped hc, spots, List.takeWhile_cons_of_pos hc,
        List.dropWhile_cons_of_pos hc]
    · rw [List.takeWhile_cons_of_neg hc, List.dropWhile_cons_of_neg hc]
      rfl

/-- A skipped character in front moves the spots by one. -/
theorem spots_cons_of_isSkipped {c : Char} (hc : isSkipped c = true) (o : Nat) (cs : List Char) :
    spots o (pieces (c :: cs)) = spots (o + 1) (pieces cs) := by
  rw [spots_dropWhile (o + 1) cs, pieces_cons_of_isSkipped hc, spots, List.length_cons,
    Nat.add_assoc, Nat.add_comm 1]

/-- Skipped characters in front move the spots by their number. -/
theorem spots_append_of_isSkipped {w : List Char} (hw : ∀ c ∈ w, isSkipped c = true) (o : Nat)
    (cs : List Char) : spots o (pieces (w ++ cs)) = spots (o + w.length) (pieces cs) := by
  induction w generalizing o with
  | nil => rfl
  | cons c w ih =>
    rw [List.cons_append, spots_cons_of_isSkipped (hw c List.mem_cons_self),
      ih fun d hd => hw d (List.mem_cons_of_mem c hd), List.length_cons, Nat.add_assoc,
      Nat.add_comm 1]

/-! ## Newlines -/

/-- A run that ends before `x` is not longer in a text that goes on with `x`. -/
theorem takeWhile_append_cons {p : Char → Bool} {x : Char} (hx : p x = false) (a b : List Char) :
    (a ++ x :: b).takeWhile p = a.takeWhile p := by
  induction a with
  | nil => simp [hx]
  | cons c a ih => by_cases hc : p c = true <;> simp [hc, ih]

/-- What is left of a text behind a run that ends before `x`. -/
theorem dropWhile_append_cons {p : Char → Bool} {x : Char} (hx : p x = false) (a b : List Char) :
    (a ++ x :: b).dropWhile p = a.dropWhile p ++ x :: b := by
  induction a with
  | nil => simp [hx]
  | cons c a ih => by_cases hc : p c = true <;> simp [hc, ih]

/-- A string ends at its line. -/
theorem quotedPart_append_newline (a b : List Char) :
    quotedPart (a ++ '\n' :: b) = quotedPart a := by
  fun_induction quotedPart a with
  | case1 | case2 | case3 | case4 | case5 => simp [quotedPart]
  | case6 c rest hc r ih =>
    simp [quotedPart, hc, ih, r]
  | case7 c rest hq hn hb hb' r ih =>
    rw [List.cons_append, quotedPart, ih]
    · exact hq
    · exact hn
    · intro h; simp
    · intro d l hc hl
      cases rest with
      | nil => exact hb hc rfl
      | cons e rest => exact hb' e rest hc rfl

/-- Whether a foreign blank follows is decided on the line. -/
theorem foreignBlankFollows_append_newline (a b : List Char) :
    foreignBlankFollows (a ++ '\n' :: b) = foreignBlankFollows a := by
  cases a with
  | nil => simp [foreignBlankFollows]
  | cons c a => rfl

/-- A first piece that is no run of skipped characters is decided on its line. -/
theorem firstPiece_append_newline {c : Char} (hc : isSkipped c = false) (a b : List Char) :
    firstPiece c (a ++ '\n' :: b) = firstPiece c a := by
  have hword : isWordChar '\n' = false := isSkipped_not_isWordChar (by decide)
  have hcomment : (a ++ '\n' :: b).takeWhile (· ≠ '\n') = a.takeWhile (· ≠ '\n') :=
    takeWhile_append_cons (by decide) a b
  simp only [firstPiece, hc, Bool.false_eq_true, if_false, takeWhile_append_cons hword,
    dropWhile_append_cons hword, hcomment, quotedPart_append_newline,
    spelledKind, foreignBlankFollows_append_newline]

/-- The spots of a text with a newline are those of the text before it, and those from it on. -/
theorem spots_append_newline (o : Nat) (a b : List Char) :
    spots o (pieces (a ++ '\n' :: b)) =
      spots o (pieces a) ++ spots (o + a.length) (pieces ('\n' :: b)) := by
  fun_induction pieces a generalizing o with
  | case1 => rfl
  | case2 c rest ih =>
    obtain ⟨r, hr⟩ := firstPiece_text_isPrefix c rest
    have hdrop : (c :: rest).drop (firstPiece c rest).text.length = r := by
      rw [← hr, List.drop_left]
    rw [hdrop] at ih ⊢
    -- the first piece is that of the longer text, or a part of its run of skipped characters
    have hfirst : spots o (pieces (c :: rest ++ '\n' :: b)) =
        spots o [firstPiece c rest] ++
          spots (o + (firstPiece c rest).text.length) (pieces (r ++ '\n' :: b)) := by
      by_cases hc : isSkipped c = true
      · have hgap : firstPiece c rest = .gap (c :: rest.takeWhile isSkipped) := by
          rw [firstPiece, if_pos hc]
        have hskip : ∀ d ∈ (firstPiece c rest).text, isSkipped d = true := by
          intro d hd
          rw [hgap, Piece.text] at hd
          rcases List.mem_cons.1 hd with rfl | hd
          · exact hc
          · exact List.mem_takeWhile_imp hd
        rw [← hr, List.append_assoc, spots_append_of_isSkipped hskip, hgap]
        rfl
      · have hline := firstPiece_append_newline (Bool.eq_false_iff.2 hc) rest b
        have hsplit : (firstPiece c (rest ++ '\n' :: b)).text ++ (r ++ '\n' :: b) =
            c :: (rest ++ '\n' :: b) := by
          rw [hline, ← List.append_assoc, hr, List.cons_append]
        rw [List.cons_append, pieces_cons hsplit, spots_cons, hline]
    rw [hfirst, ih, spots_cons o _ (pieces r), List.append_assoc, Nat.add_assoc,
      ← List.length_append, hr]

end StackEditor.Lexeme
