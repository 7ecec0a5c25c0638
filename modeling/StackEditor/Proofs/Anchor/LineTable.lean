import Mathlib.Data.List.Basic
import StackEditor.Proofs.Anchor.Offset

/-!
# Positions by a table of lines

Offsets and positions can be told from each other without a walk over the text: by the table of the
offsets where the lines start (`lineStarts`). The line of an offset is found in it by binary search
(`partitionPoint`), and its column is a difference. Such look-ups are computed with counts that
have no sign, on lists with an end, so each of them may come to a stop (`Trap`).

None does. The entries of the table are the offsets at the start of a line, in their order
(`getElem?_lineStarts`). So the binary search is over a list that is parted in two, and finds the
last line that has started; and the look-ups in the table give what the walk gives
(`positionByTable_eq`, `offsetByTable_eq`).
-/

namespace StackEditor

/-! ## Computing without negative numbers -/

/-- Why a computation on counts cannot go on. -/
inductive Trap where
  /-- A difference would be below zero. -/
  | negative
  /-- There is no item at an index. -/
  | outside
  deriving DecidableEq

/-- The difference of two counts. -/
def minus (a b : Nat) : Except Trap Nat := if b ≤ a then .ok (a - b) else .error .negative

/-- The item at an index. -/
def itemAt {α : Type} (xs : List α) (i : Nat) : Except Trap α :=
  match xs[i]? with
  | some x => .ok x
  | none => .error .outside

theorem minus_of_le {a b : Nat} (h : b ≤ a) : minus a b = .ok (a - b) := if_pos h

theorem itemAt_of_getElem? {α : Type} {xs : List α} {i : Nat} {x : α} (h : xs[i]? = some x) :
    itemAt xs i = .ok x := by
  rw [itemAt, h]

/-! ## Binary search -/

/-- The index from `low` up to `high` from which on `p` does not hold, if there is one before which
it always does. -/
def bisect (p : Nat → Bool) (low high : Nat) : Nat :=
  if low < high then
    if p ((low + high) / 2) then bisect p ((low + high) / 2 + 1) high
    else bisect p low ((low + high) / 2)
  else low
termination_by high - low

/-- The search ends at the bound between the entries that pass the test and those that do not. -/
theorem bisect_eq {p : Nat → Bool} {n low high : Nat} (hlow : low ≤ n) (hhigh : n ≤ high)
    (hp : ∀ i, i < high → (p i = true ↔ i < n)) : bisect p low high = n := by
  fun_induction bisect p low high with
  | case1 low high hlt hmid ih =>
    have hlt_n := (hp _ (by omega)).1 hmid
    exact ih hlt_n hhigh hp
  | case2 low high hlt hmid ih =>
    have hle : n ≤ (low + high) / 2 := Nat.not_lt.1 fun h => hmid ((hp _ (by omega)).2 h)
    exact ih hlow hle fun i hi => hp i (by omega)
  | case3 low high hlt => omega

/-- The number of items in front of the first one without `p`, in a list where all items with `p`
come first. -/
def partitionPoint {α : Type} (p : α → Bool) (xs : List α) : Nat :=
  bisect (fun i => xs[i]?.any p) 0 xs.length

/-- The partition point is the number of entries that pass, if they stand in front. -/
theorem partitionPoint_eq {α : Type} {p : α → Bool} {xs : List α} {n : Nat} (hn : n ≤ xs.length)
    (hp : ∀ i x, xs[i]? = some x → (p x = true ↔ i < n)) : partitionPoint p xs = n := by
  refine bisect_eq (Nat.zero_le n) hn fun i hi => ?_
  have hget := List.getElem?_eq_getElem hi
  rw [hget, Option.any_some]
  exact hp i _ hget

/-! ## The table -/

/-- The offsets where the lines of a text start: zero, and behind each newline. -/
def lineStarts (text : List Char) : List Nat := 0 :: text.idxsOf '\n' 1

/-- The position of an offset, by the table of lines. -/
def positionByTable (starts : List Nat) (offset : Nat) : Except Trap Position := do
  let line := partitionPoint (· ≤ offset) starts - 1
  let start ← itemAt starts line
  return ⟨line, ← minus offset start⟩

/-- The length of a line without its newline, in a text of the given length; a table may lack the
line. -/
def lineLength (starts : List Nat) (length line : Nat) : Except Trap (Option Nat) :=
  match starts[line]? with
  | none => return none
  | some start => do
    let stop ← match starts[line + 1]? with
      | some next => minus next 1
      | none => pure length
    return some (← minus stop start)

/-- The offset of a position, by the table of lines, if the text has the position. -/
def offsetByTable (starts : List Nat) (length : Nat) (p : Position) : Except Trap (Option Nat) := do
  match ← lineLength starts length p.line with
  | none => return none
  | some n => if n < p.col then return none else return some ((← itemAt starts p.line) + p.col)

/-- A walk over a text comes to a place behind its first character, or behind that and more. -/
theorem exists_after_cons {c : Char} {cs : List Char} {here p : Position} {o start : Nat} :
    (∃ n, 0 < n ∧ n ≤ (c :: cs).length ∧ start = o + n ∧ here.after ((c :: cs).take n) = p) ↔
      (start = o + 1 ∧ here.advance c = p) ∨
        ∃ n, 0 < n ∧ n ≤ cs.length ∧ start = o + 1 + n ∧
          (here.advance c).after (cs.take n) = p := by
  constructor
  · rintro ⟨n, hpos, hle, rfl, hafter⟩
    obtain ⟨n, rfl⟩ := Nat.exists_eq_succ_of_ne_zero (Nat.ne_of_gt hpos)
    rw [List.take_succ_cons, Position.after_cons] at hafter
    rcases Nat.eq_zero_or_pos n with rfl | hn
    · exact .inl ⟨rfl, hafter⟩
    · exact .inr ⟨n, hn, Nat.le_of_succ_le_succ hle, by omega, hafter⟩
  · rintro (⟨rfl, hadvance⟩ | ⟨n, hpos, hle, rfl, hafter⟩)
    · exact ⟨1, Nat.one_pos, by simp, rfl, by simpa using hadvance⟩
    · exact ⟨n + 1, Nat.succ_pos n, Nat.succ_le_succ hle, by omega, hafter⟩

/-- The offsets behind the newlines of a text are those where a walk over it comes to the start of a
line. The walk starts at the offset `o`, somewhere in the line `l`. -/
theorem getElem?_idxsOf_newline (text : List Char) {o l col i start : Nat} :
    (text.idxsOf '\n' (o + 1))[i]? = some start ↔
      ∃ n, 0 < n ∧ n ≤ text.length ∧ start = o + n ∧
        Position.after ⟨l, col⟩ (text.take n) = ⟨l + i + 1, 0⟩ := by
  induction text generalizing o l col i with
  | nil =>
    simp only [List.idxsOf, List.findIdxs_nil, List.getElem?_nil, List.length_nil]
    constructor
    · nofun
    · rintro ⟨n, hpos, hle, -⟩
      omega
  | cons c cs ih =>
    rw [exists_after_cons, List.idxsOf, List.findIdxs_cons]
    by_cases hc : c = '\n'
    · subst hc
      have hadvance : Position.advance ⟨l, col⟩ '\n' = ⟨l + 1, 0⟩ := rfl
      rw [if_pos (beq_self_eq_true _), hadvance]
      cases i with
      | zero =>
        -- behind the newline the walk is at the start of the line, and does not come back to it
        have hno : ∀ n, 0 < n → n ≤ cs.length →
            Position.after ⟨l + 1, 0⟩ (cs.take n) ≠ ⟨l + 1, 0⟩ := by
          intro n hpos hle heq
          have hnil : cs.take n ≠ [] := by
            rw [← List.length_pos_iff, List.length_take]
            omega
          have hlt := Position.lt_after (p := ⟨l + 1, 0⟩) hnil
          exact Position.lt_irrefl _ (heq ▸ hlt)
        constructor
        · rintro ⟨⟩
          exact .inl ⟨rfl, rfl⟩
        · rintro (⟨rfl, -⟩ | ⟨n, hpos, hle, -, hafter⟩)
          · rfl
          · exact absurd hafter (hno n hpos hle)
      | succ i =>
        have hne : (⟨l + 1, 0⟩ : Position) ≠ ⟨l + (i + 1) + 1, 0⟩ := by simp
        rw [List.getElem?_cons_succ]
        have hih := @ih (o + 1) (l + 1) 0 i
        rw [show l + 1 + i + 1 = l + (i + 1) + 1 by omega] at hih
        simp only [hne, and_false, false_or]
        exact hih
    · have hadvance : Position.advance ⟨l, col⟩ c = ⟨l, col + 1⟩ := if_neg hc
      have hne : (⟨l, col + 1⟩ : Position) ≠ ⟨l + i + 1, 0⟩ := by simp
      rw [if_neg (by simpa using hc), hadvance]
      simp only [hne, and_false, false_or]
      exact ih

/-- The table of lines has the offsets at the start of a line, each under the number of its line. -/
theorem getElem?_lineStarts {text : List Char} {i start : Nat} :
    (lineStarts text)[i]? = some start ↔
      start ≤ text.length ∧ positionAt text start = ⟨i, 0⟩ := by
  cases i with
  | zero =>
    constructor
    · rintro ⟨⟩
      exact ⟨Nat.zero_le _, rfl⟩
    · rintro ⟨hle, hzero⟩
      exact congrArg some (positionAt_inj (Nat.zero_le _) hle hzero.symm)
  | succ i =>
    have hget := @getElem?_idxsOf_newline text 0 0 0 i start
    simp only [Nat.zero_add] at hget
    rw [lineStarts, List.getElem?_cons_succ, hget]
    constructor
    · rintro ⟨n, -, hle, rfl, hafter⟩
      exact ⟨hle, hafter⟩
    · rintro ⟨hle, hafter⟩
      refine ⟨start, Nat.pos_of_ne_zero ?_, hle, rfl, hafter⟩
      rintro rfl
      cases hafter

/-! ## Looking up in the table -/

/-- The position moves on by one character with the offset. -/
theorem positionAt_succ {text : List Char} {o : Nat} (ho : o < text.length) :
    positionAt text (o + 1) = (positionAt text o).advance text[o] := by
  rw [positionAt_add, List.drop_eq_getElem_cons ho]
  rfl

/-- The column of an offset is its distance from the start of its line. -/
theorem exists_lineStart (text : List Char) {o : Nat} (ho : o ≤ text.length) :
    ∃ start, (lineStarts text)[(positionAt text o).line]? = some start ∧
      o = start + (positionAt text o).col := by
  induction o with
  | zero => exact ⟨0, rfl, rfl⟩
  | succ o ih =>
    obtain ⟨start, hget, heq⟩ := ih (Nat.le_of_succ_le ho)
    have hsucc := positionAt_succ ho
    unfold Position.advance at hsucc
    split at hsucc
    · refine ⟨o + 1, ?_, by simp [hsucc]⟩
      rw [getElem?_lineStarts, hsucc]
      exact ⟨ho, rfl⟩
    · rw [hsucc]
      exact ⟨start, hget, congrArg (· + 1) heq⟩

section
variable {text : List Char} {line start : Nat} (hget : (lineStarts text)[line]? = some start)
include hget

/-- An offset is on a line that has started, unless the next one has. -/
theorem positionAt_of_lineStart {o : Nat} (hle : start ≤ o) (ho : o ≤ text.length)
    (hnext : ∀ next, (lineStarts text)[line + 1]? = some next → o < next) :
    positionAt text o = ⟨line, o - start⟩ := by
  obtain ⟨start', hget', heq⟩ := exists_lineStart text ho
  obtain ⟨-, hstart⟩ := getElem?_lineStarts.1 hget
  have hline : (positionAt text o).line = line := by
    refine Nat.le_antisymm (Nat.not_lt.1 fun hlt => ?_) ?_
    · -- the next line has started in front of the offset
      have hindex := (List.getElem?_eq_some_iff.1 hget').1
      obtain ⟨next, hget_next⟩ : ∃ next, (lineStarts text)[line + 1]? = some next :=
        ⟨_, List.getElem?_eq_getElem (Nat.lt_of_le_of_lt hlt hindex)⟩
      obtain ⟨hnext_le, hnext_eq⟩ := getElem?_lineStarts.1 hget_next
      have hpos := positionAt_lt (hnext next hget_next) hnext_le
      rw [hnext_eq, Position.lt_def] at hpos
      dsimp only at hpos
      omega
    · have hpos := positionAt_le text hle
      rw [hstart, Position.le_def] at hpos
      dsimp only at hpos
      omega
  rw [hline, hget] at hget'
  obtain rfl := Option.some.inj hget'
  have hcol : (positionAt text o).col = o - start := by omega
  rw [← hline, ← hcol]

/-- The length of a line is computed without a stop, and says which columns the line has. -/
theorem exists_lineLength : ∃ n, lineLength (lineStarts text) text.length line = .ok (some n) ∧
    ∀ col, col ≤ n ↔ start + col ≤ text.length ∧ positionAt text (start + col) = ⟨line, col⟩ := by
  obtain ⟨hstart_le, hstart⟩ := getElem?_lineStarts.1 hget
  have hcol : ∀ {col}, start + col ≤ text.length →
      (∀ next, (lineStarts text)[line + 1]? = some next → start + col < next) →
      positionAt text (start + col) = ⟨line, col⟩ := by
    intro col hle hnext
    rw [positionAt_of_lineStart hget (Nat.le_add_right _ _) hle hnext, Nat.add_sub_cancel_left]
  cases hget_next : (lineStarts text)[line + 1]? with
  | none =>
    refine ⟨text.length - start, ?_, fun col => ?_⟩
    · simp [lineLength, hget, hget_next, minus_of_le hstart_le, pure, Except.pure, bind,
        Except.bind]
    · constructor
      · intro hle
        have hle' : start + col ≤ text.length := by omega
        exact ⟨hle', hcol hle' (by simp [hget_next])⟩
      · rintro ⟨hle, -⟩
        omega
  | some next =>
    obtain ⟨hnext_le, hnext⟩ := getElem?_lineStarts.1 hget_next
    have hlt : start < next := by
      rw [← positionAt_lt_iff hnext_le, hstart, hnext, Position.lt_def]
      exact .inl (Nat.lt_succ_self line)
    refine ⟨next - 1 - start, ?_, fun col => ?_⟩
    · simp [lineLength, hget, hget_next, minus_of_le (show 1 ≤ next by omega),
        minus_of_le (show start ≤ next - 1 by omega), pure, Except.pure, bind, Except.bind]
    · constructor
      · intro hle
        have hle' : start + col ≤ text.length := by omega
        refine ⟨hle', hcol hle' fun next' hnext' => ?_⟩
        rw [hget_next] at hnext'
        obtain rfl := Option.some.inj hnext'
        omega
      · rintro ⟨hle, hpos⟩
        have hlt' : start + col < next := by
          rw [← positionAt_lt_iff hnext_le, hpos, hnext, Position.lt_def]
          exact .inl (Nat.lt_succ_self line)
        omega

end

/-- The table gives every offset of the text the position that the walk gives it. -/
theorem positionByTable_eq {text : List Char} {o : Nat} (ho : o ≤ text.length) :
    positionByTable (lineStarts text) o = .ok (positionAt text o) := by
  obtain ⟨start, hget, heq⟩ := exists_lineStart text ho
  have hpoint : partitionPoint (· ≤ o) (lineStarts text) = (positionAt text o).line + 1 := by
    refine partitionPoint_eq (List.getElem?_eq_some_iff.1 hget).1 fun i x hx => ?_
    obtain ⟨hx_le, hx⟩ := getElem?_lineStarts.1 hx
    rw [decide_eq_true_eq]
    constructor
    · intro hle
      have hpos := positionAt_le text hle
      rw [hx, Position.le_def] at hpos
      dsimp only at hpos
      omega
    · intro hi
      refine Nat.not_lt.1 fun hlt => ?_
      have hpos := positionAt_lt hlt hx_le
      rw [hx, Position.lt_def] at hpos
      dsimp only at hpos
      omega
  have hcol : o - start = (positionAt text o).col := by omega
  rw [positionByTable, hpoint, Nat.add_sub_cancel, itemAt_of_getElem? hget]
  simp only [bind, Except.bind, minus_of_le (show start ≤ o by omega), hcol]
  rfl

/-- The table gives every position the offset that the walk gives it, if the text has it. -/
theorem offsetByTable_eq (text : List Char) (p : Position) :
    offsetByTable (lineStarts text) text.length p = .ok (offsetOf? text p) := by
  have hstart : ∀ {o}, offsetOf? text p = some o →
      ∃ start, (lineStarts text)[p.line]? = some start ∧ o = start + p.col := by
    intro o ho
    obtain ⟨hle, rfl⟩ := offsetOf?_eq_some_iff.1 ho
    exact exists_lineStart text hle
  cases hget : (lineStarts text)[p.line]? with
  | none =>
    have hnone : offsetOf? text p = none := by
      refine Option.eq_none_iff_forall_ne_some.2 fun o ho => ?_
      obtain ⟨start, hget', -⟩ := hstart ho
      rw [hget] at hget'
      cases hget'
    simp [offsetByTable, lineLength, hget, hnone, pure, Except.pure, bind, Except.bind]
  | some start =>
    obtain ⟨n, hlength, hcol⟩ := exists_lineLength hget
    by_cases hlt : n < p.col
    · have hnone : offsetOf? text p = none := by
        refine Option.eq_none_iff_forall_ne_some.2 fun o ho => ?_
        obtain ⟨start', hget', rfl⟩ := hstart ho
        rw [hget] at hget'
        obtain rfl := Option.some.inj hget'
        exact Nat.not_le.2 hlt ((hcol p.col).2 (offsetOf?_eq_some_iff.1 ho))
      simp [offsetByTable, hlength, hlt, hnone, pure, Except.pure, bind, Except.bind]
    · have hsome : offsetOf? text p = some (start + p.col) :=
        offsetOf?_eq_some_iff.2 ((hcol p.col).1 (Nat.not_lt.1 hlt))
      simp [offsetByTable, hlength, hlt, hsome, itemAt_of_getElem? hget, pure, Except.pure, bind,
        Except.bind]

end StackEditor
