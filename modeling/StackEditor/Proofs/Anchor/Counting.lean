import StackEditor.Proofs.Anchor.Operations
import StackEditor.Proofs.Anchor.Places

/-!
# Anchors by counting

A store of anchors can be computed with counts that have no sign, the table of lines, and stretches
of the text that have to be there. Then each of its operations may come to a stop (`Trap`). None
does, whatever the store: a difference is only taken where it is a count, and of the ends of two
texts no more is compared than there is room for behind their common start
(`Edit.checkedBetween_eq`). So a run of operations is computed to its end
(`foldlM_checkedPerform`).

To see where an anchor is, the table must have its line. It does, since a store with an anchor has a
text (`text?_of_find?`), and anchors are spans of it. `anchors_stay_inside` puts this together.
-/

namespace StackEditor

/-! ## Edits -/

/-- The items of a list from one index up to another. -/
def slice {α : Type} (xs : List α) (start stop : Nat) : Except Trap (List α) :=
  if start ≤ stop ∧ stop ≤ xs.length then .ok ((xs.drop start).take (stop - start))
  else .error .outside

/-- Slicing off the front within bounds is taking. -/
theorem slice_zero {α : Type} {xs : List α} {n : Nat} (h : n ≤ xs.length) :
    slice xs 0 n = .ok (xs.take n) :=
  if_pos ⟨Nat.zero_le n, h⟩

/-- Slicing off the rest within bounds is dropping. -/
theorem slice_length {α : Type} {xs : List α} {n : Nat} (h : n ≤ xs.length) :
    slice xs n xs.length = .ok (xs.drop n) := by
  rw [slice, if_pos ⟨h, Nat.le_refl _⟩, List.take_of_length_le (by rw [List.length_drop])]

/-- Of two starts as much is shared as of the whole texts, as far as both starts go. -/
theorem commonStart_take (as bs : List Char) (m n : Nat) :
    commonStart (as.take m) (bs.take n) = min (min m n) (commonStart as bs) := by
  induction as generalizing bs m n with
  | nil => simp [commonStart]
  | cons a as ih =>
    cases bs with
    | nil => simp [commonStart]
    | cons b bs =>
      cases m with
      | zero => simp [commonStart]
      | succ m =>
        cases n with
        | zero => simp [commonStart]
        | succ n =>
          simp only [List.take_succ_cons, commonStart, ih]
          split
          · omega
          · omega

namespace Edit

/-- The edit that turns `old` into `new`, found with counts. The common end is looked for from
behind, as far as the shorter text has room for it. -/
def checkedBetween (old new : List Char) : Except Trap Edit := do
  let start := commonStart old new
  let room ← minus (min old.length new.length) start
  let kept := commonStart (old.reverse.take room) (new.reverse.take room)
  let deleted ← minus (← minus old.length start) kept
  let inserted ← minus (← minus new.length start) kept
  return ⟨start, deleted, inserted⟩

/-- Where the edit moves an offset, found with counts. -/
def checkedMove (e : Edit) (offset : Nat) : Except Trap (Option Nat) := do
  if offset < e.start then return some offset
  else if e.start + e.deleted ≤ offset then return some ((← minus offset e.deleted) + e.inserted)
  else if offset = e.start ∧ 0 < e.inserted then return some offset
  else return none

/-- What is shared at the ends, as far as there is room behind a common start, is shared behind
it. -/
theorem commonStart_take_reverse (old new : List Char) (start : Nat) :
    commonStart (old.reverse.take (min old.length new.length - start))
      (new.reverse.take (min old.length new.length - start)) =
        commonEnd (old.drop start) (new.drop start) := by
  rw [commonEnd, List.reverse_drop, List.reverse_drop, commonStart_take, commonStart_take]
  omega

/-- The edit between two texts is found without a fault. -/
theorem checkedBetween_eq (old new : List Char) :
    checkedBetween old new = .ok (between old new) := by
  obtain ⟨hold, hnew, -⟩ := shareStart_commonStart old new
  obtain ⟨-, hold', hnew'⟩ := (isGreatest_commonEnd hold hnew).1
  have hroom := minus_of_le (Nat.le_min.2 ⟨hold, hnew⟩)
  simp only [checkedBetween, bind, Except.bind, hroom, commonStart_take_reverse, minus_of_le hold,
    minus_of_le hnew]
  rw [minus_of_le (by omega), minus_of_le (by omega)]
  rfl

/-- No offset overflows or goes below zero when an edit moves it. -/
theorem checkedMove_eq (e : Edit) (offset : Nat) :
    e.checkedMove offset = .ok (e.move offset) := by
  unfold checkedMove move
  split
  · rfl
  split
  · rw [minus_of_le (by omega)]
    rfl
  split
  · rfl
  · rfl

end Edit

/-- The span after an edit, found with counts. -/
def AnchorSpan.checkedMove (e : Edit) (span : AnchorSpan) : Except Trap (Option AnchorSpan) := do
  match ← e.checkedMove span.start with
  | none => return none
  | some start =>
    let stop := (← e.checkedMove span.stop).getD (e.start + e.inserted)
    return some ⟨start, max stop start⟩

/-- Both ends of an anchor are moved without a fault. -/
theorem AnchorSpan.checkedMove_eq (e : Edit) (span : AnchorSpan) :
    span.checkedMove e = .ok (span.move e) := by
  rw [AnchorSpan.checkedMove, AnchorSpan.move, Edit.checkedMove_eq, Edit.checkedMove_eq]
  cases e.move span.start with
  | none => rfl
  | some start => rfl

namespace TextAnchors

/-! ## Operations -/

/-- The table of the lines of the text; it has none before there is a text. -/
def table (s : TextAnchors) : List Nat := (s.text?.map lineStarts).getD []

def checkedOffset (s : TextAnchors) (p : Position) : Except Trap (Option Nat) :=
  offsetByTable s.table s.chars.length p

def checkedSpan (s : TextAnchors) (r : Range) : Except Trap (Option AnchorSpan) := do
  match ← s.checkedOffset r.start, ← s.checkedOffset r.stop with
  | some start, some stop => return if start ≤ stop then some ⟨start, stop⟩ else none
  | _, _ => return none

def checkedCreate (s : TextAnchors) (r : Range) :
    Except Trap (Option (AnchorId × TextAnchors)) := do
  return (← s.checkedSpan r).map fun span => (⟨s.nextId⟩, s.grown span)

def checkedResolve (s : TextAnchors) (a : AnchorId) : Except Trap (Option Range) := do
  match s.find? a with
  | none => return none
  | some span =>
    return some ⟨← positionByTable s.table span.start, ← positionByTable s.table span.stop⟩

def checkedMoveAll (e : Edit) (live : List (AnchorId × AnchorSpan)) :
    Except Trap (List (AnchorId × AnchorSpan)) := do
  if e.isTrivial then return live
  else
    let moved ← live.mapM fun (a, span) => return (← span.checkedMove e).map (a, ·)
    return moved.filterMap id

def checkedReplaceText (s : TextAnchors) (text : String) : Except Trap TextAnchors := do
  let e ← Edit.checkedBetween s.chars text.toList
  return { s with text? := some text.toList, live := ← checkedMoveAll e s.live }

def checkedReplaceRange (s : TextAnchors) (r : Range) (replacement : String) :
    Except Trap (Option TextAnchors) := do
  match ← s.checkedSpan r with
  | none => return none
  | some span =>
    let new := replacement.toList
    let live ← checkedMoveAll ⟨span.start, ← minus span.stop span.start, new.length⟩ s.live
    let front ← slice s.chars 0 span.start
    let rest ← slice s.chars span.stop s.chars.length
    return some { s with text? := some (front ++ new ++ rest), live }

/-- The store after one operation, found with counts. -/
def checkedPerform (s : TextAnchors) : AnchorOperation → Except Trap TextAnchors
  | .create range => return ((← s.checkedCreate range).map (·.2)).getD s
  | .remove anchor => return s.remove anchor
  | .replaceText text => s.checkedReplaceText text
  | .replaceRange range replacement => return (← s.checkedReplaceRange range replacement).getD s

variable {s : TextAnchors} {a : AnchorId} {span : AnchorSpan} {p : Position} {r : Range}

/-- An offset is looked up without a fault. -/
theorem checkedOffset_eq (s : TextAnchors) (p : Position) :
    s.checkedOffset p = .ok (s.offset? p) := by
  rw [checkedOffset, table, offset?, chars]
  cases s.text? with
  | none => rfl
  | some text => exact offsetByTable_eq text p

/-- A range is looked up without a fault. -/
theorem checkedSpan_eq (s : TextAnchors) (r : Range) : s.checkedSpan r = .ok (s.span? r) := by
  rw [checkedSpan, checkedOffset_eq, checkedOffset_eq, span?]
  cases s.offset? r.start with
  | none => rfl
  | some start =>
    cases s.offset? r.stop with
    | none => rfl
    | some stop => rfl

/-- An anchor is made without a fault. -/
theorem checkedCreate_eq (s : TextAnchors) (r : Range) :
    s.checkedCreate r = .ok (s.create r) := by
  rw [checkedCreate, checkedSpan_eq, create]
  cases s.span? r with
  | none => rfl
  | some span => rfl

/-- All live anchors are moved without a fault. -/
theorem checkedMoveAll_eq (e : Edit) (live : List (AnchorId × AnchorSpan)) :
    checkedMoveAll e live = .ok (moveAll e live) := by
  unfold checkedMoveAll moveAll
  split
  · rfl
  · have hmove : (fun x : AnchorId × AnchorSpan => do
        return (← x.2.checkedMove e).map (x.1, ·)) =
          fun x => (pure ((x.2.move e).map (x.1, ·)) : Except Trap _) := by
      funext x
      rw [AnchorSpan.checkedMove_eq]
      rfl
    rw [hmove, List.mapM_pure, pure_bind, List.filterMap_map]
    rfl

/-- The text is replaced without a fault. -/
theorem checkedReplaceText_eq (s : TextAnchors) (text : String) :
    s.checkedReplaceText text = .ok (s.replaceText text) := by
  rw [checkedReplaceText, Edit.checkedBetween_eq]
  simp only [bind, Except.bind, checkedMoveAll_eq]
  rfl

/-- A range is replaced without a fault. -/
theorem checkedReplaceRange_eq (s : TextAnchors) (r : Range) (replacement : String) :
    s.checkedReplaceRange r replacement = .ok (s.replaceRange? r replacement) := by
  rw [checkedReplaceRange, checkedSpan_eq, replaceRange?]
  cases hspan : s.span? r with
  | none => rfl
  | some span =>
    have hwithin := within_of_span? hspan
    simp only [bind, Except.bind, minus_of_le hwithin.start_le, checkedMoveAll_eq,
      slice_zero (Nat.le_trans hwithin.start_le hwithin.stop_le), slice_length hwithin.stop_le]
    rfl

/-- Each operation runs without a fault. -/
theorem checkedPerform_eq (s : TextAnchors) (op : AnchorOperation) :
    s.checkedPerform op = .ok (s.perform op) := by
  cases op with
  | create range =>
    rw [checkedPerform, checkedCreate_eq]
    rfl
  | remove anchor => rfl
  | replaceText text => exact checkedReplaceText_eq s text
  | replaceRange range replacement =>
    rw [checkedPerform, checkedReplaceRange_eq]
    rfl

/-- A run of operations is computed to its end. -/
theorem foldlM_checkedPerform (s : TextAnchors) (ops : List AnchorOperation) :
    ops.foldlM checkedPerform s = .ok (ops.foldl perform s) := by
  have hperform : checkedPerform = fun s op => pure (perform s op) := by
    funext s op
    exact checkedPerform_eq s op
  rw [hperform]
  exact List.foldlM_pure

/-! ## Positions of the text -/

/-- The store has a text, and the text has the position. -/
def HasPosition (s : TextAnchors) (p : Position) : Prop :=
  ∃ text, s.text? = some text ∧ StackEditor.HasPosition text p

/-- An offset is found for the positions of the text and for no others. -/
theorem isSome_offset? : (s.offset? p).isSome = true ↔ s.HasPosition p := by
  rw [offset?, HasPosition]
  cases s.text? with
  | none => simp
  | some text => simpa using isSome_offsetOf?

/-- The ranges with a span are those that run forward between two positions of the text. -/
theorem isSome_span? : (s.span? r).isSome = true ↔
    s.HasPosition r.start ∧ s.HasPosition r.stop ∧ r.start ≤ r.stop := by
  rw [← isSome_offset?, ← isSome_offset?]
  constructor
  · intro h
    obtain ⟨span, hspan⟩ := Option.isSome_iff_exists.1 h
    obtain ⟨hstart, hstop, hle⟩ := span?_eq_some_iff.1 hspan
    rw [hstart, hstop, ← rangeOf_of_span? hspan]
    exact ⟨rfl, rfl, positionAt_le _ hle⟩
  · rintro ⟨hstart, hstop, hle⟩
    obtain ⟨start, hstart⟩ := Option.isSome_iff_exists.1 hstart
    obtain ⟨stop, hstop⟩ := Option.isSome_iff_exists.1 hstop
    obtain ⟨-, hstart_le, hstart_eq⟩ := offset?_eq_some_iff.1 hstart
    obtain ⟨-, -, hstop_eq⟩ := offset?_eq_some_iff.1 hstop
    rw [← hstart_eq, ← hstop_eq, positionAt_le_iff hstart_le] at hle
    exact Option.isSome_iff_exists.2
      ⟨⟨start, stop⟩, span?_eq_some_iff.2 ⟨hstart, hstop, hle⟩⟩

/-- An anchor is created exactly where there is a span for it. -/
theorem isSome_create : (s.create r).isSome = (s.span? r).isSome := by
  rw [create]
  cases s.span? r with
  | none => rfl
  | some span => rfl

/-- A new anchor is on its range, under a name that was free. The text and the other anchors are as
before. -/
theorem Tidy.of_create {s' : TextAnchors} (h : s.Tidy) (hcreate : s.create r = some (a, s')) :
    s.find? a = none ∧ s'.resolve a = some r ∧ s'.text? = s.text? ∧
      ∀ b, b ≠ a → s'.find? b = s.find? b ∧ s'.resolve b = s.resolve b := by
  obtain ⟨span, hspan, rfl, rfl⟩ := exists_of_create hcreate
  refine ⟨h.find?_nextId, ?_, rfl, fun b hb => ?_⟩
  · rw [h.resolve_grown, rangeOf_of_span? hspan]
  · have hfind : (s.grown span).find? b = s.find? b := by rw [h.find?_grown, if_neg hb]
    refine ⟨hfind, ?_⟩
    rw [resolve, hfind]
    rfl

/-! ## Resolving -/

/-- A store without a text has no anchors. -/
def Grounded (s : TextAnchors) : Prop := s.text? = some s.chars ∨ s.live = []

/-- A change keeps every anchor on the text. -/
theorem Grounded.of_change {s' : TextAnchors} (h : s.Grounded) (hchange : s.Change s') :
    s'.Grounded := by
  cases hchange with
  | unchanged => exact h
  | grown has => exact .inl (offset?_eq_some_iff.1 (span?_eq_some_iff.1 has).1).1
  | removed anchor =>
    refine h.imp id fun hlive => ?_
    rw [remove, hlive]
    rfl
  | edited edit => exact .inl edit.text?

/-- Whatever happens to a store, it has a text if it has an anchor. -/
theorem text?_of_find? {text : Option String} {ops : List AnchorOperation}
    (h : (ops.foldl perform (ofText? text)).find? a = some span) :
    (ops.foldl perform (ofText? text)).text? = some (ops.foldl perform (ofText? text)).chars := by
  have hgrounded : (ops.foldl perform (ofText? text)).Grounded := by
    refine List.foldlRecOn ops perform ?_ fun s h op _ => h.of_change (s.change_perform op)
    cases text with
    | none => exact .inr rfl
    | some text => exact .inl rfl
  refine hgrounded.resolve_right fun hlive => ?_
  rw [find?, hlive] at h
  cases h

section
variable (htext : s.text? = some s.chars) (hfind : s.find? a = some span)
  (hwithin : span.Within s.chars.length)
include htext hfind hwithin

/-- An anchor that spans a stretch of the text is found between two positions of it, in order. -/
theorem exists_resolve : ∃ r, s.resolve a = some r ∧
    s.HasPosition r.start ∧ s.HasPosition r.stop ∧ r.start ≤ r.stop := by
  have hposition : ∀ {o}, o ≤ s.chars.length → s.HasPosition (positionAt s.chars o) :=
    fun ho => ⟨s.chars, htext, hasPosition_iff.2 ⟨_, ho, rfl⟩⟩
  refine ⟨s.rangeOf span, ?_, hposition (Nat.le_trans hwithin.start_le hwithin.stop_le),
    hposition hwithin.stop_le, positionAt_le _ hwithin.start_le⟩
  rw [resolve, hfind]
  rfl

/-- The table of lines has what it takes to find it. -/
theorem checkedResolve_of_find? : s.checkedResolve a = .ok (s.resolve a) := by
  have htable : s.table = lineStarts s.chars := by rw [table, htext]; rfl
  rw [checkedResolve, resolve, hfind, htable]
  simp only [positionByTable_eq (Nat.le_trans hwithin.start_le hwithin.stop_le),
    positionByTable_eq hwithin.stop_le]
  rfl

end

/-- An anchor that is gone is not looked up in the table. -/
theorem checkedResolve_of_find?_eq_none (hfind : s.find? a = none) :
    s.checkedResolve a = .ok (s.resolve a) := by
  rw [checkedResolve, resolve, hfind]
  rfl

/-- Whatever happens to a store, with or without a text: every anchor spans a stretch of the text,
and is found, without a stop, between two positions of the text in their order. An anchor is created
exactly on the ranges that run forward between two positions of the text; it has a name that no
other one has, is found on its range, and leaves the text and the other anchors as they are. The
whole run, and every operation that may come next, is computed without a stop. -/
theorem anchors_stay_inside (text : Option String) (ops : List AnchorOperation) :
    let s := ops.foldl perform (ofText? text)
    (∀ a span, s.find? a = some span →
      span.start ≤ span.stop ∧ span.stop ≤ s.chars.length ∧
      ∃ r, s.resolve a = some r ∧
        s.HasPosition r.start ∧ s.HasPosition r.stop ∧ r.start ≤ r.stop) ∧
    (∀ a, s.checkedResolve a = .ok (s.resolve a)) ∧
    (∀ r, (s.create r).isSome = true ↔
      s.HasPosition r.start ∧ s.HasPosition r.stop ∧ r.start ≤ r.stop) ∧
    (∀ r a s', s.create r = some (a, s') →
      s.find? a = none ∧ s'.resolve a = some r ∧ s'.text? = s.text? ∧
      ∀ b, b ≠ a → s'.find? b = s.find? b ∧ s'.resolve b = s.resolve b) ∧
    ops.foldlM checkedPerform (ofText? text) = .ok s ∧
    (∀ r, s.checkedCreate r = .ok (s.create r)) ∧
    (∀ new, s.checkedReplaceText new = .ok (s.replaceText new)) ∧
    (∀ r new, s.checkedReplaceRange r new = .ok (s.replaceRange? r new)) := by
  intro s
  have hsound : s.Sound := sound_foldl_perform text ops
  refine ⟨fun a span hfind => ?_, fun a => ?_, fun r => ?_, fun r a s' => hsound.tidy.of_create,
    foldlM_checkedPerform _ ops, checkedCreate_eq s, checkedReplaceText_eq s,
    checkedReplaceRange_eq s⟩
  · have hwithin := hsound.within hfind
    exact ⟨hwithin.start_le, hwithin.stop_le, exists_resolve (text?_of_find? hfind) hfind hwithin⟩
  · cases hfind : s.find? a with
    | none => exact checkedResolve_of_find?_eq_none hfind
    | some span =>
      exact checkedResolve_of_find? (text?_of_find? hfind) hfind (hsound.within hfind)
  · rw [isSome_create, isSome_span?]

/-- A store without a text refuses every anchor. An anchor over the end of a line stays inside when
the two lines are joined, and a range behind the text is neither replaced nor given an anchor. -/
theorem joinedLines_stay_inside :
    let behind : Range := ⟨⟨1, 0⟩, ⟨1, 2⟩⟩
    let s := [.create ⟨.zero, .zero⟩, .replaceText "ab\ncd", .create ⟨⟨0, 1⟩, ⟨1, 1⟩⟩,
      .replaceRange ⟨⟨0, 2⟩, ⟨1, 0⟩⟩ "", .replaceRange behind "x"].foldl perform (ofText? none)
    s.find? ⟨0⟩ = some ⟨1, 3⟩ ∧
      (∃ r, s.resolve ⟨0⟩ = some r ∧ s.HasPosition r.start ∧ s.HasPosition r.stop ∧
        r.start ≤ r.stop) ∧
      s.create behind = none ∧ ¬ (s.HasPosition behind.start ∧ s.HasPosition behind.stop) := by
  intro behind s
  obtain ⟨hinside, -, hcreate, -⟩ := anchors_stay_inside none
    [.create ⟨.zero, .zero⟩, .replaceText "ab\ncd", .create ⟨⟨0, 1⟩, ⟨1, 1⟩⟩,
      .replaceRange ⟨⟨0, 2⟩, ⟨1, 0⟩⟩ "", .replaceRange behind "x"]
  have hfind : s.find? ⟨0⟩ = some ⟨1, 3⟩ := by decide +kernel
  have hnone : s.create behind = none := by decide +kernel
  refine ⟨hfind, (hinside _ _ hfind).2.2, hnone, fun ⟨hstart, hstop⟩ => ?_⟩
  have hsome := (hcreate behind).2 ⟨hstart, hstop, by decide⟩
  rw [hnone] at hsome
  cases hsome

end TextAnchors

end StackEditor
