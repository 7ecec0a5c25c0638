import StackEditor.Proofs.Lexeme.Lines

/-!
# The tokens of joined texts

Where two texts are joined by a newline, the tokens are those of the one and then those of the
other, moved down (`tokenize_newline`). So the tokens of a source can be read off its lines, one
line at a time (`tokenize_lines`): nothing on a line has a bearing on another one.
-/

namespace StackEditor

/-! ## Moving down -/

/-- The place `n` lines further down. -/
def Position.down (n : Nat) (p : Position) : Position := { p with line := p.line + n }

/-- The token `n` lines further down. -/
def Token.down (n : Nat) (t : Token) : Token := { t with line := t.line + n }

namespace Position

variable {p : Position} {cs : List Char}

/-- A walk that starts further down ends further down. -/
theorem down_after (n : Nat) (p : Position) (cs : List Char) :
    (p.down n).after cs = (p.after cs).down n := by
  induction cs generalizing p with
  | nil => rfl
  | cons c cs ih =>
    have hstep : (p.down n).advance c = (p.advance c).down n := by
      unfold advance down
      split
      · rw [Nat.add_right_comm]
      · rfl
    rw [after_cons, hstep, ih, after_cons]

/-- A walk goes down by the newlines on its way. -/
theorem line_after (p : Position) (cs : List Char) :
    (p.after cs).line = p.line + cs.count '\n' := by
  induction cs generalizing p with
  | nil => rfl
  | cons c cs ih =>
    rw [after_cons, ih, List.count_cons, advance]
    by_cases hc : c = '\n'
    · simp only [hc, if_true, beq_self_eq_true]
      omega
    · simp only [if_neg hc, beq_eq_false_iff_ne.2 hc, Bool.false_eq_true, if_false, Nat.add_zero]

/-- Behind a newline a new line starts. -/
theorem after_newline (p : Position) (cs : List Char) :
    p.after (cs ++ ['\n']) = zero.down (p.line + (1 + cs.count '\n')) := by
  rw [after_append, after_cons, after_nil, advance, if_pos rfl, line_after, down, zero]
  simp only [mk.injEq, and_true]
  omega

end Position

namespace Token

@[simp] theorem down_zero (t : Token) : t.down 0 = t := rfl

@[simp] theorem map_down_zero (tokens : List Token) : tokens.map (down 0) = tokens :=
  List.map_id' tokens

/-- Going down twice is going down by the sum. -/
theorem down_comp_down (m n : Nat) : down n ∘ down m = down (m + n) := by
  funext t
  simp [down, Nat.add_assoc]

end Token

/-! ## A newline between two texts -/

/-- An offset of the first text has the position that it has there. -/
theorem positionAt_append_of_le {a b : List Char} {o : Nat} (ho : o ≤ a.length) :
    positionAt (a ++ b) o = positionAt a o := by
  unfold positionAt
  rw [List.take_append_of_le_length ho]

/-- An offset of the second text has the position that it has there, moved down. -/
theorem positionAt_append_newline (a b : List Char) (o : Nat) :
    positionAt (a ++ '\n' :: b) (o + (a.length + 1)) =
      (positionAt b o).down (1 + a.count '\n') := by
  have hsplit : a ++ '\n' :: b = (a ++ ['\n']) ++ b := by simp
  have hlength : o + (a.length + 1) = (a ++ ['\n']).length + o := by simp; omega
  unfold positionAt
  rw [hsplit, hlength, List.take_length_add_append, Position.after_append,
    Position.after_newline, Position.down_after]
  simp only [Position.zero, Nat.zero_add]

namespace Lexeme

/-- A spot in the first text has the same token in both. -/
theorem token_append_newline_left {a b : List Char} {s : Spot} (hs : s.offset ≤ a.length) :
    s.token (a ++ '\n' :: b) = s.token a := by
  simp only [Spot.token, positionAt_append_of_le hs]

/-- A spot in the second text has its token one text down. -/
theorem token_append_newline_right (a b : List Char) (s : Spot) :
    Spot.token (a ++ '\n' :: b) { s with offset := s.offset + (a.length + 1) } =
      (s.token b).down (1 + a.count '\n') := by
  simp only [Spot.token, positionAt_append_newline, Token.down, Position.down]

end Lexeme

open Lexeme

/-- The tokens of two texts with a newline between them. -/
theorem tokenize_newline (a b : String) :
    tokenize (a ++ "\n" ++ b) =
      tokenize a ++ (tokenize b).map (Token.down (1 + a.toList.count '\n')) := by
  have htext : (a ++ "\n" ++ b).toList = a.toList ++ '\n' :: b.toList := by
    simp [String.toList_append]
  have hbehind : spots a.toList.length (pieces ('\n' :: b.toList)) =
      (spots 0 (pieces b.toList)).map fun s =>
        { s with offset := s.offset + (a.toList.length + 1) } := by
    rw [spots_cons_of_isSkipped (by decide), ← spots_add, Nat.zero_add]
  rw [tokenize_eq_map, htext, spots_append_newline, Nat.zero_add, hbehind, List.map_append,
    tokenize_eq_map a, tokenize_eq_map b, List.map_map, List.map_map]
  congr 1
  · refine List.map_congr_left fun s hs => token_append_newline_left ?_
    exact Nat.le_of_lt (spot_sound hs).offset_lt_length
  · exact List.map_congr_left fun s _ => token_append_newline_right _ _ s

/-- The tokens of a text, line by line, where its first line has the number `k`. -/
theorem map_down_tokenize_eq_flatMap (k : Nat) (text : List Char) :
    (tokenize (String.ofList text)).map (Token.down k) =
      ((text.splitOn '\n').zipIdx k).flatMap fun (line, n) =>
        (tokenize (String.ofList line)).map (Token.down n) := by
  induction hn : text.length using Nat.strongRecOn generalizing text k with
  | ind n ih =>
  subst hn
  by_cases h : '\n' ∈ text
  · obtain ⟨line, rest, rfl, hline⟩ := List.eq_append_cons_of_mem h
    have hjoin : String.ofList (line ++ '\n' :: rest) =
        String.ofList line ++ "\n" ++ String.ofList rest :=
      String.toList_injective (by simp [String.toList_append])
    have hrest := ih rest.length (by simp; omega) (k + 1) rest rfl
    rw [List.splitOn_append_cons_self_of_not_mem hline, List.zipIdx_cons, List.flatMap_cons,
      ← hrest, hjoin, tokenize_newline, List.map_append, List.map_map, String.toList_ofList,
      List.count_eq_zero.2 hline, Token.down_comp_down, Nat.add_zero, Nat.add_comm]
  · rw [List.splitOn_eq_singleton h]
    simp

/-- Lexing goes line by line. A text in front of a newline has the tokens that it has alone, and so
has the text behind it, only further down; and the tokens of a source are those of its lines, each
lexed alone. -/
theorem tokenize_lines :
    (∀ a b : String, tokenize (a ++ "\n" ++ b) =
      tokenize a ++ (tokenize b).map (Token.down (1 + a.toList.count '\n'))) ∧
    ∀ source : String, tokenize source =
      (source.toList.splitOn '\n').zipIdx.flatMap fun (line, n) =>
        (tokenize (String.ofList line)).map (Token.down n) := by
  refine ⟨tokenize_newline, fun source => ?_⟩
  have h := map_down_tokenize_eq_flatMap 0 source.toList
  rw [String.ofList_toList] at h
  rw [← h]
  exact (List.map_id' _).symm

end StackEditor
