import Mathlib.Data.List.DropRight
import Mathlib.Order.Hom.Basic
import StackEditor.Anchor.Store
import StackEditor.Proofs.Anchor.LineTable
import StackEditor.Proofs.Lexeme.Joining

/-!
# The positions of a text

A text has the positions that are on one of its lines, at most as far to the right as the line is
long (`HasPosition`). These are the positions with an offset (`isSome_offsetOf?`), so offsets and
positions correspond one to one, and in order (`offsetIso`). The line of an offset is the number of
newlines in front of it, and its column the number of characters behind the last of them
(`positionAt_eq`).

`positions_correspond` says this of stores of anchors, together with the two other ways to count:
by the table of lines, and by the walk of the lexer from token to token.
-/

namespace StackEditor

/-- The text has the line, and the line has the column or ends there. -/
def HasPosition (text : List Char) (p : Position) : Prop :=
  ∃ line, (text.splitOn '\n')[p.line]? = some line ∧ p.col ≤ line.length

/-! ## The positions with an offset -/

section
variable {u rest text : List Char} {p : Position}

/-- A text without newline is one line. -/
theorem hasPosition_of_notMem (hu : '\n' ∉ u) :
    HasPosition u p ↔ p.line = 0 ∧ p.col ≤ u.length := by
  rw [HasPosition, List.splitOn_eq_singleton hu]
  constructor
  · rintro ⟨line, hget, hcol⟩
    obtain ⟨hindex, rfl⟩ := List.getElem?_eq_some_iff.1 hget
    exact ⟨Nat.lt_one_iff.1 hindex, by simpa using hcol⟩
  · rintro ⟨hline, hcol⟩
    exact ⟨u, by simp [hline], hcol⟩

/-- Behind its first line a text has the positions of the rest, moved down. -/
theorem hasPosition_append_newline (hu : '\n' ∉ u) : HasPosition (u ++ '\n' :: rest) p ↔
    (p.line = 0 ∧ p.col ≤ u.length) ∨ ∃ q, HasPosition rest q ∧ q.down 1 = p := by
  obtain ⟨line, col⟩ := p
  rw [HasPosition, List.splitOn_append_cons_self_of_not_mem hu]
  cases line with
  | zero => simp [Position.down]
  | succ line =>
    simp only [List.getElem?_cons_succ, Nat.add_eq_zero_iff, Nat.one_ne_zero, and_false, false_and,
      false_or]
    constructor
    · exact fun h => ⟨⟨line, col⟩, h, rfl⟩
    · rintro ⟨q, h, hq⟩
      cases hq
      exact h

/-- A text of one line has the positions of that line. -/
theorem exists_positionAt_of_notMem (hu : '\n' ∉ u) :
    (∃ o ≤ u.length, positionAt u o = p) ↔ p.line = 0 ∧ p.col ≤ u.length := by
  have hposition : ∀ {o}, o ≤ u.length → positionAt u o = ⟨0, o⟩ := by
    intro o ho
    have htake : '\n' ∉ u.take o := fun h => hu (List.mem_of_mem_take h)
    rw [positionAt, Position.after_of_not_mem htake, List.length_take_of_le ho]
    simp [Position.zero]
  constructor
  · rintro ⟨o, ho, rfl⟩
    rw [hposition ho]
    exact ⟨rfl, ho⟩
  · rintro ⟨hline, hcol⟩
    refine ⟨p.col, hcol, ?_⟩
    rw [hposition hcol, ← hline]

/-- A text with a first line has the positions of that line, and those of the rest one line down. -/
theorem exists_positionAt_append_newline (hu : '\n' ∉ u) :
    (∃ o ≤ (u ++ '\n' :: rest).length, positionAt (u ++ '\n' :: rest) o = p) ↔
      (p.line = 0 ∧ p.col ≤ u.length) ∨
        ∃ q, (∃ o ≤ rest.length, positionAt rest o = q) ∧ q.down 1 = p := by
  have hlength : (u ++ '\n' :: rest).length = rest.length + (u.length + 1) := by simp; omega
  have hbehind : ∀ o, positionAt (u ++ '\n' :: rest) (o + (u.length + 1)) =
      (positionAt rest o).down 1 := by
    intro o
    rw [positionAt_append_newline, List.count_eq_zero.2 hu]
  rw [← exists_positionAt_of_notMem hu, hlength]
  constructor
  · rintro ⟨o, ho, rfl⟩
    rcases Nat.lt_or_ge u.length o with hlt | hle
    · obtain ⟨n, rfl⟩ := Nat.exists_eq_add_of_le' hlt
      exact .inr ⟨_, ⟨n, by omega, rfl⟩, (hbehind n).symm⟩
    · exact .inl ⟨o, hle, (positionAt_append_of_le hle).symm⟩
  · rintro (⟨o, ho, rfl⟩ | ⟨_, ⟨o, ho, rfl⟩, rfl⟩)
    · exact ⟨o, by omega, positionAt_append_of_le ho⟩
    · exact ⟨o + (u.length + 1), by omega, hbehind o⟩

/-- The positions of a text are those of its offsets. The induction is on the lines. -/
theorem hasPosition_iff : HasPosition text p ↔ ∃ o ≤ text.length, positionAt text o = p := by
  induction hn : text.length using Nat.strongRecOn generalizing text p with
  | ind n ih =>
    subst hn
    by_cases h : '\n' ∈ text
    · obtain ⟨u, rest, rfl, hu⟩ := List.eq_append_cons_of_mem h
      have hrest : rest.length < (u ++ '\n' :: rest).length := by simp; omega
      rw [hasPosition_append_newline hu, exists_positionAt_append_newline hu]
      simp only [ih rest.length hrest rfl]
    · rw [hasPosition_of_notMem h, exists_positionAt_of_notMem h]

/-- The positions of a text are those with an offset. -/
theorem isSome_offsetOf? : (offsetOf? text p).isSome = true ↔ HasPosition text p := by
  rw [hasPosition_iff, Option.isSome_iff_exists]
  simp only [offsetOf?_eq_some_iff]

end

/-! ## The order -/

/-- Positions stand in the order of their offsets. -/
theorem positionAt_le_iff {text : List Char} {a b : Nat} (ha : a ≤ text.length) :
    positionAt text a ≤ positionAt text b ↔ a ≤ b := by
  constructor
  · intro hle
    refine Nat.not_lt.1 fun hlt => ?_
    exact Position.lt_irrefl _ (Position.lt_of_lt_of_le (positionAt_lt hlt ha) hle)
  · exact positionAt_le text

/-- The positions of a text and its offsets, in order. -/
def offsetIso (text : List Char) : {p // HasPosition text p} ≃o Fin (text.length + 1) where
  toFun p := ⟨(offsetOf? text p).get (isSome_offsetOf?.2 p.2),
    Nat.lt_succ_of_le (le_length_of_offsetOf? (Option.some_get _).symm)⟩
  invFun o := ⟨positionAt text o, hasPosition_iff.2 ⟨o, Nat.le_of_lt_succ o.2, rfl⟩⟩
  left_inv p := Subtype.ext (positionAt_of_offsetOf? (Option.some_get _).symm)
  right_inv o := Fin.ext (by simp [offsetOf?_positionAt (Nat.le_of_lt_succ o.2)])
  map_rel_iff' {p q} := by
    obtain ⟨p, hp⟩ := p
    obtain ⟨q, hq⟩ := q
    obtain ⟨a, ha, rfl⟩ := hasPosition_iff.1 hp
    obtain ⟨b, hb, rfl⟩ := hasPosition_iff.1 hq
    simp [offsetOf?_positionAt ha, offsetOf?_positionAt hb, positionAt_le_iff ha]

/-! ## Counting newlines -/

/-- A walk from the start of a text counts the newlines, and the characters behind the last one. -/
theorem Position.zero_after (cs : List Char) :
    zero.after cs = ⟨cs.count '\n', (cs.rtakeWhile (· ≠ '\n')).length⟩ := by
  induction cs using List.reverseRecOn with
  | nil => rfl
  | append_singleton cs c ih =>
    rw [after_append, ih, after_cons, after_nil, advance, List.count_append, List.rtakeWhile_concat]
    by_cases hc : c = '\n'
    · simp [hc]
    · simp [hc]

/-- The line counts the newlines in front, and the column the characters since the last of them. -/
theorem positionAt_eq (text : List Char) (o : Nat) : positionAt text o =
    ⟨(text.take o).count '\n', ((text.take o).rtakeWhile (· ≠ '\n')).length⟩ :=
  Position.zero_after _

/-! ## Stores of anchors -/

/-- A token takes up the characters between the offsets of its start and its end. -/
theorem exists_offset_of_token {source : String} {t : Token} (ht : t ∈ tokenize source) :
    ∃ o, offsetOf? source.toList t.start = some o ∧
      offsetOf? source.toList t.stop = some (o + t.text.length) ∧
      t.text.toList <+: source.toList.drop o := by
  obtain ⟨s, hs, rfl, -, -⟩ := exists_offset_of_mem_tokenize ht
  have hsound := Lexeme.spot_sound hs
  have hstop := hsound.positionAt_offset_add (Nat.le_refl _)
  have hstop_le := hsound.stop_le_length
  have hlength : (s.token source.toList).text.length = s.text.length := by
    simp [Lexeme.Spot.token]
  refine ⟨s.offset, offsetOf?_positionAt (Nat.le_of_lt hsound.offset_lt_length), ?_, ?_⟩
  · rw [hlength]
    exact offsetOf?_eq_some_iff.2 ⟨hstop_le, hstop⟩
  · simpa [Lexeme.Spot.token] using hsound.text_isPrefix

/-- In a store with a text, the offsets of the text and the positions on its lines correspond one to
one, in order; a position is the number of newlines and the number of characters behind the last of
them. The table of lines gives the same, and never comes to a stop. So does a walk that goes on from
offset to offset, and the walk of the lexer to the start and the end of each token. -/
theorem TextAnchors.positions_correspond {s : TextAnchors} {text : List Char}
    (htext : s.text? = some text) :
    (∀ p, (s.offset? p).isSome = true ↔ HasPosition text p) ∧
    (∃ f : {p // HasPosition text p} ≃o Fin (text.length + 1),
      (∀ p, s.offset? p.1 = some (f p).1) ∧ ∀ o, (f.symm o).1 = positionAt text o.1) ∧
    (∀ o ≤ text.length, (positionAt text o).line = (text.take o).count '\n' ∧
      (positionAt text o).col = ((text.take o).rtakeWhile (· ≠ '\n')).length) ∧
    (∀ o ≤ text.length, positionByTable (lineStarts text) o = .ok (positionAt text o)) ∧
    (∀ p, offsetByTable (lineStarts text) text.length p = .ok (s.offset? p)) ∧
    (∀ o n, positionAt text (o + n) = (positionAt text o).after ((text.drop o).take n)) ∧
    ∀ t ∈ tokenize s.text, ∃ o, s.offset? t.start = some o ∧
      s.offset? t.stop = some (o + t.text.length) ∧ t.text.toList <+: text.drop o := by
  have hoffset : s.offset? = offsetOf? text := by
    funext p
    rw [offset?, htext]
    rfl
  have hchars : s.text.toList = text := by
    rw [TextAnchors.text, String.toList_ofList, chars, htext]
    rfl
  rw [hoffset]
  refine ⟨fun p => isSome_offsetOf?, ⟨offsetIso text, fun p => ?_, fun o => rfl⟩, fun o _ => ?_,
    fun o => positionByTable_eq, offsetByTable_eq text, positionAt_add text, fun t ht => ?_⟩
  · exact (Option.some_get _).symm
  · rw [positionAt_eq]
    exact ⟨rfl, rfl⟩
  · rw [← hchars]
    exact exists_offset_of_token ht

/-- A text with an empty line and without a newline at its end, put in place of another one: the
last line has a position behind its last character, and no other. -/
theorem TextAnchors.editedLines_correspond :
    let s := (ofText "ab").replaceText "x\n\ny z"
    let text := "x\n\ny z".toList
    s.text? = some text ∧ (s.offset? ⟨2, 3⟩).isSome = true ∧ ¬ (s.offset? ⟨2, 4⟩).isSome = true ∧
      positionByTable (lineStarts text) 5 = .ok (positionAt text 5) := by
  intro s text
  obtain ⟨hsome, -, -, htable, -⟩ := positions_correspond (show s.text? = some text from rfl)
  refine ⟨rfl, (hsome _).2 ⟨"y z".toList, by decide +kernel, by decide⟩, fun h => ?_,
    htable 5 (by decide)⟩
  obtain ⟨line, hget, hcol⟩ := (hsome _).1 h
  obtain rfl : "y z".toList = line := Option.some.inj ((by decide +kernel : _ = _).trans hget)
  exact absurd hcol (by decide)

end StackEditor
