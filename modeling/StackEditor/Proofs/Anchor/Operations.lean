import StackEditor.Proofs.Anchor.Store

/-!
# What can happen to a store of anchors

A store starts out with a text, or with none yet, and without anchors. From then on anchors are put
on the text and taken away, and the text is edited as a whole or within a range
(`AnchorOperation`). What one operation makes of a store is one of four things (`Change`), so a
property of all stores is proved once for each of them. Whatever happens, every anchor spans a
stretch of the text (`sound_foldl_perform`), and an edit moves the anchors as it moves their spans
(`EditedBy.find?_eq_bind`).
-/

namespace StackEditor

/-- What happens to a store of anchors at a time. -/
inductive AnchorOperation where
  /-- An anchor is put on a range, if the text has that range. -/
  | create (range : Range)
  | remove (anchor : AnchorId)
  | replaceText (text : String)
  /-- The text is replaced within a range, if it has that range. -/
  | replaceRange (range : Range) (replacement : String)

/-- The span runs forward, and ends within a text of length `n`. -/
structure AnchorSpan.Within (span : AnchorSpan) (n : Nat) : Prop where
  start_le : span.start ≤ span.stop
  stop_le : span.stop ≤ n

/-- An edit of a text moves the spans of the text to spans of the text after the edit. -/
theorem AnchorSpan.Within.move {e : Edit} {n : Nat} (he : e.start + e.deleted ≤ n)
    {span moved : AnchorSpan} (h : span.Within n) (hm : span.move e = some moved) :
    moved.Within (n - e.deleted + e.inserted) := by
  obtain ⟨first, hfirst, rfl⟩ := Option.map_eq_some_iff.1 hm
  have hfirst_le := Edit.move_le he (Nat.le_trans h.start_le h.stop_le) hfirst
  refine ⟨Nat.le_max_right _ _, Nat.max_le.2 ⟨?_, hfirst_le⟩⟩
  cases hlast : e.move span.stop with
  | none =>
    show e.start + e.inserted ≤ n - e.deleted + e.inserted
    omega
  | some last => exact Edit.move_le he h.stop_le hlast

namespace TextAnchors

/-- A store without anchors, over a text or over no text yet. -/
def ofText? (text : Option String) : TextAnchors := text.elim .empty .ofText

/-- The store after one operation. -/
def perform (s : TextAnchors) : AnchorOperation → TextAnchors
  | .create range => ((s.create range).map (·.2)).getD s
  | .remove anchor => s.remove anchor
  | .replaceText text => s.replaceText text
  | .replaceRange range replacement => (s.replaceRange? range replacement).getD s

/-- What one operation makes of a store. -/
inductive Change (s : TextAnchors) : TextAnchors → Prop
  | unchanged : Change s s
  | grown {range : Range} {span : AnchorSpan} (has : s.span? range = some span) :
      Change s (s.grown span)
  | removed (anchor : AnchorId) : Change s (s.remove anchor)
  | edited {e : Edit} {s' : TextAnchors} (edit : s.EditedBy e s') : Change s s'

variable {s s' : TextAnchors} {a : AnchorId} {span : AnchorSpan} {e : Edit}

/-- Each operation is one of the changes. -/
theorem change_perform (s : TextAnchors) (op : AnchorOperation) : s.Change (s.perform op) := by
  cases op with
  | create range =>
    rw [perform]
    cases hcreate : s.create range with
    | none => exact .unchanged
    | some created =>
      obtain ⟨span, hspan, -, hgrown⟩ := exists_of_create hcreate
      rw [Option.map_some, Option.getD_some, hgrown]
      exact .grown hspan
  | remove anchor => exact .removed anchor
  | replaceText text => exact .edited (editedBy_replaceText s text)
  | replaceRange range replacement =>
    rw [perform]
    cases hreplace : s.replaceRange? range replacement with
    | none => exact .unchanged
    | some s' =>
      obtain ⟨span, -, -, hedit⟩ := exists_of_replaceRange? hreplace
      exact .edited hedit

/-! ## Spans of the text -/

/-- Every anchor has a name of its own, and spans a stretch of the text. -/
structure Sound (s : TextAnchors) : Prop where
  tidy : s.Tidy
  within : ∀ {a span}, s.find? a = some span → span.Within s.chars.length

theorem sound_ofText? (text : Option String) : (ofText? text).Sound := by
  have hlive : (ofText? text).live = [] := by cases text <;> rfl
  constructor
  · exact ⟨by simp [hlive], by simp [hlive]⟩
  · intro a span hfind
    rw [find?, hlive] at hfind
    cases hfind

/-- An edit moves the anchors as it moves their spans. -/
theorem EditedBy.find?_eq_bind (h : s.EditedBy e s') (hs : s.Sound) (a : AnchorId) :
    s'.find? a = (s.find? a).bind (·.move e) := by
  cases hfind : s.find? a with
  | none =>
    rw [find?, h.live]
    exact lookup_moveAll_eq_none hfind
  | some span => exact h.find?_eq_move hs.tidy hfind (hs.within hfind).start_le

/-- A range that the text has is a stretch of it. -/
theorem within_of_span? {r : Range} (h : s.span? r = some span) : span.Within s.chars.length := by
  obtain ⟨-, hlast, hle⟩ := span?_eq_some_iff.1 h
  exact ⟨hle, (offset?_eq_some_iff.1 hlast).2.1⟩

theorem Sound.of_change (h : s.Sound) (hchange : s.Change s') : s'.Sound := by
  cases hchange with
  | unchanged => exact h
  | @grown range span has =>
    refine ⟨h.tidy.grown, fun {a sp} hfind => ?_⟩
    rw [h.tidy.find?_grown] at hfind
    split at hfind
    · obtain rfl := Option.some.inj hfind
      exact within_of_span? has
    · exact h.within hfind
  | removed anchor =>
    refine ⟨h.tidy.remove, fun {a sp} hfind => ?_⟩
    rw [find?_remove] at hfind
    split at hfind
    · cases hfind
    · exact h.within hfind
  | edited edit =>
    refine ⟨edit.tidy h.tidy, fun {a sp} hfind => ?_⟩
    rw [edit.find?_eq_bind h] at hfind
    obtain ⟨old, hold, hmove⟩ := Option.bind_eq_some_iff.1 hfind
    rw [edit.length]
    exact (h.within hold).move edit.inside hmove

/-- The live anchors stay on the text through any operations. -/
theorem Sound.foldl_perform (h : s.Sound) (ops : List AnchorOperation) :
    (ops.foldl perform s).Sound :=
  List.foldlRecOn ops perform h fun s h op _ => h.of_change (s.change_perform op)

/-- Whatever happens to a store, every anchor spans a stretch of the text. -/
theorem sound_foldl_perform (text : Option String) (ops : List AnchorOperation) :
    (ops.foldl perform (ofText? text)).Sound :=
  (sound_ofText? text).foldl_perform ops

end TextAnchors

end StackEditor
