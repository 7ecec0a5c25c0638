import Mathlib.Data.List.TakeWhile
import StackEditor.Proofs.Anchor.Offset

/-!
# The lines of a text

The lines of a text are what its newlines separate, counted from zero. A position is a line and a
column on it: at the column of an offset, its line goes on as the text does from the offset on
(`exists_line_positionAt`).
-/

namespace StackEditor

/-- A start without newline belongs to the first line. -/
theorem takeWhile_append_of_newline_notMem {u : List Char} (hu : '\n' ∉ u) (text : List Char) :
    (u ++ text).takeWhile (· ≠ '\n') = u ++ text.takeWhile (· ≠ '\n') :=
  List.takeWhile_append_of_pos fun _ hc => decide_eq_true fun he => hu (he ▸ hc)

/-- The first line of a text goes up to the first newline. -/
theorem exists_splitOn_eq_cons (text : List Char) :
    ∃ rest, text.splitOn '\n' = text.takeWhile (· ≠ '\n') :: rest := by
  by_cases h : '\n' ∈ text
  · obtain ⟨line, rest, rfl, hline⟩ := List.eq_append_cons_of_mem h
    rw [List.splitOn_append_cons_self_of_not_mem hline,
      takeWhile_append_of_newline_notMem hline, List.takeWhile_cons_of_neg (by simp),
      List.append_nil]
    exact ⟨_, rfl⟩
  · have htake := takeWhile_append_of_newline_notMem h []
    rw [List.append_nil, List.takeWhile_nil, List.append_nil] at htake
    rw [List.splitOn_eq_singleton h, htake]
    exact ⟨[], rfl⟩

/-- Walking over the text `a` from a place behind the start `u` of a line: the line that is reached
goes on with what follows, up to the next newline. -/
theorem exists_line_after {u : List Char} (hu : '\n' ∉ u) (a b : List Char) (l : Nat) :
    ∃ n line, (Position.after ⟨l, u.length⟩ a).line = l + n ∧
      ((u ++ (a ++ b)).splitOn '\n')[n]? = some line ∧
      line.drop (Position.after ⟨l, u.length⟩ a).col = b.takeWhile (· ≠ '\n') := by
  induction a generalizing u l with
  | nil =>
    obtain ⟨rest, hsplit⟩ := exists_splitOn_eq_cons (u ++ b)
    rw [takeWhile_append_of_newline_notMem hu] at hsplit
    refine ⟨0, u ++ b.takeWhile (· ≠ '\n'), rfl, ?_, List.drop_left⟩
    rw [List.nil_append, hsplit]
    rfl
  | cons c a ih =>
    by_cases hc : c = '\n'
    · subst hc
      obtain ⟨n, line, hline, hget, hdrop⟩ := ih (u := []) (by simp) (l + 1)
      refine ⟨n + 1, line, hline.trans (by omega), ?_, hdrop⟩
      rw [List.cons_append, List.splitOn_append_cons_self_of_not_mem hu]
      exact hget
    · have hu' : '\n' ∉ u ++ [c] := by simpa [hu] using fun h => hc h.symm
      have hstep : Position.advance ⟨l, u.length⟩ c = ⟨l, (u ++ [c]).length⟩ := by
        simp [Position.advance, hc]
      obtain ⟨n, line, hline, hget, hdrop⟩ := ih hu' l
      rw [List.append_assoc] at hget
      rw [Position.after_cons, hstep]
      exact ⟨n, line, hline, hget, hdrop⟩

/-- The line of an offset's position, from its column on, is what follows the offset up to the next
newline. -/
theorem exists_line_positionAt (text : List Char) (o : Nat) :
    ∃ line, (text.splitOn '\n')[(positionAt text o).line]? = some line ∧
      line.drop (positionAt text o).col = (text.drop o).takeWhile (· ≠ '\n') := by
  obtain ⟨n, line, hline, hget, hdrop⟩ :=
    exists_line_after (u := []) (by simp) (text.take o) (text.drop o) 0
  rw [List.nil_append, List.take_append_drop] at hget
  refine ⟨line, ?_, hdrop⟩
  have hn : (positionAt text o).line = n := hline.trans (Nat.zero_add n)
  rw [hn, hget]

end StackEditor
