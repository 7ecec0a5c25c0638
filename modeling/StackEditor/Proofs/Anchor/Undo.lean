import StackEditor.Proofs.Anchor.Insertion
import StackEditor.Proofs.Anchor.Operations

/-!
# Taking an edit back

When a text is replaced and then the old text is put back, the second edit is found from the two
texts as the first one was, without knowing of it. All the same it is its inverse
(`Edit.between_comm`): it starts at the same offset and takes out what the first one put in. What
the first edit moved goes back to where it was (`Edit.move_inverse`), so an anchor that outlived
the first edit starts again where it did. An insertion deletes nothing, so it moves both ends of
every anchor, and taking it back restores them all (`undo_restores_anchors`).
-/

namespace StackEditor

/-- Two texts share their start either way round. -/
theorem commonStart_comm (as bs : List Char) : commonStart as bs = commonStart bs as := by
  induction as generalizing bs with
  | nil => cases bs <;> rfl
  | cons a as ih =>
    cases bs with
    | nil => rfl
    | cons b bs =>
      simp only [commonStart, ih bs]
      exact if_congr eq_comm rfl rfl

theorem commonEnd_comm (as bs : List Char) : commonEnd as bs = commonEnd bs as :=
  commonStart_comm _ _

namespace Edit

/-- The edit that takes back another one: what was put in is deleted, and as much as was deleted is
put in. -/
def inverse (e : Edit) : Edit := ⟨e.start, e.inserted, e.deleted⟩

/-- The edit from the new text back to the old one is the inverse of the edit between them. -/
theorem between_comm (old new : List Char) : between new old = (between old new).inverse := by
  simp only [between, inverse, commonStart_comm new old, commonEnd_comm (new.drop _)]

/-- The inverse of an edit moves an offset that outlived the edit back to where it was. -/
theorem move_inverse {e : Edit} {o moved : Nat} (h : e.move o = some moved) :
    e.inverse.move moved = some o := by
  rcases move_cases h with ⟨hlt, rfl⟩ | ⟨hle, rfl⟩ | ⟨rfl, rfl, hinserted, hdeleted⟩
  · exact move_of_lt hlt
  · have hbehind : e.inverse.start + e.inverse.deleted ≤ o - e.deleted + e.inserted := by
      simp only [inverse]
      omega
    rw [move_of_le hbehind]
    simp only [inverse]
    congr 1
    omega
  · have hstart := move_start (e := e.inverse) hinserted
    rwa [if_pos (show 0 < e.inverse.inserted from hdeleted)] at hstart

/-- An edit that deletes nothing moves every offset. -/
theorem exists_move_of_deleted_eq_zero {e : Edit} (h : e.deleted = 0) (o : Nat) :
    ∃ moved, e.move o = some moved := by
  rcases Nat.lt_or_ge o e.start with hlt | hle
  · exact ⟨o, move_of_lt hlt⟩
  · exact ⟨_, move_of_le (by omega)⟩

end Edit

namespace AnchorSpan

variable {e : Edit} {span moved : AnchorSpan}

/-- A span that outlived an edit outlives its inverse, and starts again where it did. -/
theorem exists_move_inverse (h : span.move e = some moved) :
    ∃ back, moved.move e.inverse = some back ∧ back.start = span.start := by
  rw [AnchorSpan.move, Edit.move_inverse (move_start h)]
  exact ⟨_, rfl, rfl⟩

/-- A span outlives an insertion, and taking that back restores it. -/
theorem exists_move_of_deleted_eq_zero (h : e.deleted = 0) (hle : span.start ≤ span.stop) :
    ∃ moved, span.move e = some moved ∧ moved.move e.inverse = some span := by
  obtain ⟨first, hfirst⟩ := Edit.exists_move_of_deleted_eq_zero h span.start
  obtain ⟨last, hlast⟩ := Edit.exists_move_of_deleted_eq_zero h span.stop
  exact ⟨⟨first, last⟩, move_of_move hle hfirst hlast,
    move_of_move (Edit.move_le_move hle hfirst hlast) (Edit.move_inverse hfirst)
      (Edit.move_inverse hlast)⟩

end AnchorSpan

namespace TextAnchors

variable {s changed undone : TextAnchors} {a : AnchorId} {e : Edit}

/-- An anchor that outlives an edit outlives its inverse, and starts again where it did. -/
theorem EditedBy.exists_find?_of_inverse (h : s.EditedBy e changed)
    (hback : changed.EditedBy e.inverse undone) (hs : s.Sound) {moved : AnchorSpan}
    (hmoved : changed.find? a = some moved) :
    ∃ span back, s.find? a = some span ∧ undone.find? a = some back ∧ back.start = span.start := by
  have hundone := hback.find?_eq_bind (hs.of_change (.edited h)) a
  rw [hmoved, Option.bind_some] at hundone
  rw [h.find?_eq_bind hs, Option.bind_eq_some_iff] at hmoved
  obtain ⟨span, hspan, hmove⟩ := hmoved
  obtain ⟨back, hmove_back, hstart⟩ := AnchorSpan.exists_move_inverse hmove
  exact ⟨span, back, hspan, hundone.trans hmove_back, hstart⟩

/-- Every anchor outlives an insertion, and taking that back restores its span. -/
theorem EditedBy.find?_of_inverse_of_deleted_eq_zero (h : s.EditedBy e changed)
    (hback : changed.EditedBy e.inverse undone) (hs : s.Sound) (hdeleted : e.deleted = 0)
    (a : AnchorId) :
    (changed.find? a).isSome = (s.find? a).isSome ∧ undone.find? a = s.find? a := by
  rw [hback.find?_eq_bind (hs.of_change (.edited h)), h.find?_eq_bind hs]
  cases hspan : s.find? a with
  | none => exact ⟨rfl, rfl⟩
  | some span =>
    obtain ⟨moved, hmove, hmove_back⟩ :=
      AnchorSpan.exists_move_of_deleted_eq_zero hdeleted (hs.within hspan).start_le
    rw [Option.bind_some, hmove, Option.bind_some, hmove_back]
    exact ⟨rfl, rfl⟩

/-- Putting the old text back is the inverse of the edit that replaced it. -/
theorem editedBy_replaceText_back (s : TextAnchors) (new : String) :
    (s.replaceText new).EditedBy (Edit.between s.chars new.toList).inverse
      ((s.replaceText new).replaceText s.text) := by
  have hback := editedBy_replaceText (s.replaceText new) s.text
  rw [text, String.toList_ofList] at hback
  rw [← Edit.between_comm]
  exact hback

/-- Whatever has happened to a store: when its text is replaced and the old text is put back, the
text is the old one, and every anchor that is left after the first replacement is still alive and
starts where it did. If the first replacement was an insertion, no anchor is lost, and all of them
have their ranges again. -/
theorem undo_restores_anchors (text : Option String) (ops : List AnchorOperation) (new : String) :
    let s := ops.foldl perform (ofText? text)
    let changed := s.replaceText new
    let undone := changed.replaceText s.text
    undone.text = s.text ∧
      (∀ a, (changed.resolve a).isSome → ∃ r r', s.resolve a = some r ∧
        undone.resolve a = some r' ∧ r'.start = r.start) ∧
      ∀ u w v, s.text = u ++ v → new = u ++ w ++ v → ∀ a,
        (changed.resolve a).isSome = (s.resolve a).isSome ∧ undone.resolve a = s.resolve a := by
  intro s changed undone
  have hs : s.Sound := sound_foldl_perform text ops
  have hedit : s.EditedBy (Edit.between s.chars new.toList) changed := editedBy_replaceText s new
  have hback := editedBy_replaceText_back s new
  have hchars : undone.chars = s.chars := String.toList_ofList
  have hrange : undone.rangeOf = s.rangeOf := by
    funext span
    rw [rangeOf, rangeOf, hchars]
  refine ⟨congrArg String.ofList hchars, fun a halive => ?_, fun u w v hold hnew a => ?_⟩
  · rw [resolve, Option.isSome_map, Option.isSome_iff_exists] at halive
    obtain ⟨moved, hmoved⟩ := halive
    obtain ⟨span, back, hspan, hfind, hstart⟩ := hedit.exists_find?_of_inverse hback hs hmoved
    refine ⟨s.rangeOf span, s.rangeOf back, ?_, ?_, ?_⟩
    · rw [resolve, hspan, Option.map_some]
    · rw [resolve, hfind, Option.map_some, hrange]
    · rw [rangeOf, rangeOf, hstart]
  · have hinsertion : (Edit.between s.chars new.toList).deleted = 0 := by
      have hsource : s.chars = u.toList ++ v.toList := by
        rw [← String.toList_append, ← hold, TextAnchors.text, String.toList_ofList]
      rw [hsource, hnew, String.toList_append, String.toList_append, List.append_assoc]
      exact Edit.deleted_between_insert _ _ _
    obtain ⟨halive, hfind⟩ := hedit.find?_of_inverse_of_deleted_eq_zero hback hs hinsertion a
    rw [resolve, resolve, resolve, Option.isSome_map, Option.isSome_map, hfind, hrange]
    exact ⟨halive, rfl⟩

/-- A word that is pushed along goes back, and the anchor on it has its range again. -/
theorem pushedWord_restored :
    let word : Range := ⟨⟨0, 3⟩, ⟨0, 5⟩⟩
    let s := [AnchorOperation.create word].foldl perform (ofText? (some "ab cd"))
    let changed := s.replaceText "ab \ncd"
    changed.resolve ⟨0⟩ = some ⟨⟨1, 0⟩, ⟨1, 2⟩⟩ ∧
      (changed.replaceText s.text).resolve ⟨0⟩ = some word := by
  intro word s changed
  obtain ⟨-, -, hinsertion⟩ := undo_restores_anchors (some "ab cd") [.create word] "ab \ncd"
  obtain ⟨-, hrestored⟩ := hinsertion "ab " "\n" "cd" (by decide +kernel) (by decide +kernel) ⟨0⟩
  exact ⟨by decide +kernel, hrestored.trans (by decide +kernel)⟩

end TextAnchors

end StackEditor
