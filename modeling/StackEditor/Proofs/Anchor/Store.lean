import StackEditor.Anchor.Store
import StackEditor.Proofs.Anchor.Edit
import StackEditor.Proofs.Anchor.Offset
import StackEditor.Proofs.Lookup

/-!
# What a store of anchors knows

A store is seen through `find?`, the span of each anchor. Every operation has one lemma on what it
does to that view, for stores that give every anchor a name of its own and never give one out twice
(`TextAnchors.Tidy`). Replacing the text, as a whole or within a range, is one edit
(`EditedBy`), which moves each anchor by its two offsets (`EditedBy.find?_eq_move`).
-/

namespace StackEditor

/-- The span without width at an offset. -/
def AnchorSpan.point (o : Nat) : AnchorSpan := ⟨o, o⟩

/-- An edit moves an anchor without width as it moves its offset. -/
theorem AnchorSpan.move_point (e : Edit) (o : Nat) :
    (AnchorSpan.point o).move e = (e.move o).map AnchorSpan.point := by
  cases hm : e.move o <;> simp [AnchorSpan.move, AnchorSpan.point, hm]

/-- An edit that changes nothing leaves every offset. -/
theorem Edit.move_of_isTrivial {e : Edit} (h : e.isTrivial = true) (o : Nat) :
    e.move o = some o := by
  simp only [Edit.isTrivial, Bool.and_eq_true, decide_eq_true_eq] at h
  unfold Edit.move
  split
  · rfl
  · rw [if_pos (by omega)]
    congr 1
    omega

/-- An edit moves a span to one that starts where its start goes. -/
theorem AnchorSpan.move_start {e : Edit} {span moved : AnchorSpan} (h : span.move e = some moved) :
    e.move span.start = some moved.start := by
  obtain ⟨first, hfirst, rfl⟩ := Option.map_eq_some_iff.1 h
  exact hfirst

/-- A span whose two offsets outlive an edit spans the offsets where they go. -/
theorem AnchorSpan.move_of_move {e : Edit} {span : AnchorSpan} {first last : Nat}
    (hle : span.start ≤ span.stop) (hfirst : e.move span.start = some first)
    (hlast : e.move span.stop = some last) : span.move e = some ⟨first, last⟩ := by
  have hmax : max last first = last := Nat.max_eq_left (Edit.move_le_move hle hfirst hlast)
  rw [AnchorSpan.move, hfirst, hlast, Option.map_some, Option.getD_some, hmax]

/-- An edit that changes nothing leaves every span. -/
theorem AnchorSpan.move_of_isTrivial {e : Edit} (h : e.isTrivial = true) {span : AnchorSpan}
    (hle : span.start ≤ span.stop) : span.move e = some span :=
  move_of_move hle (Edit.move_of_isTrivial h _) (Edit.move_of_isTrivial h _)

namespace TextAnchors

/-- The names of the anchors that are alive are distinct, and come before the next one that is
given out. -/
structure Tidy (s : TextAnchors) : Prop where
  nodup : (s.live.map (·.1)).Nodup
  fresh : ∀ x ∈ s.live, x.1.number < s.nextId

variable {s s' : TextAnchors} {a x : AnchorId} {span : AnchorSpan}

/-! ## The view -/

/-- The name of an anchor comes before the next one. -/
theorem Tidy.number_lt (h : s.Tidy) (hfind : s.find? a = some span) : a.number < s.nextId := by
  have hmem : a ∈ s.live.map (·.1) := by
    by_contra hnot
    rw [find?, lookup_eq_none_iff.2 hnot] at hfind
    cases hfind
  obtain ⟨x, hx, rfl⟩ := List.mem_map.1 hmem
  exact h.fresh x hx

/-- The next name is that of no anchor. -/
theorem Tidy.find?_nextId (h : s.Tidy) : s.find? ⟨s.nextId⟩ = none := by
  cases hfind : s.find? ⟨s.nextId⟩ with
  | none => rfl
  | some span => exact absurd (h.number_lt hfind) (Nat.lt_irrefl _)

/-- The positions that have an offset are those of the text, once there is one. -/
theorem offset?_eq_some_iff {p : Position} {o : Nat} :
    s.offset? p = some o ↔
      s.text? = some s.chars ∧ o ≤ s.chars.length ∧ positionAt s.chars o = p := by
  unfold offset? chars
  cases s.text? with
  | none => simp
  | some cs => simpa using offsetOf?_eq_some_iff

/-- The ranges that have a span are those between two positions of the text, in their order. -/
theorem span?_eq_some_iff {r : Range} :
    s.span? r = some span ↔
      s.offset? r.start = some span.start ∧ s.offset? r.stop = some span.stop ∧
        span.start ≤ span.stop := by
  simp only [span?, bind, Option.bind_eq_some_iff]
  constructor
  · rintro ⟨first, hfirst, last, hlast, hspan⟩
    split at hspan
    · next hle =>
      obtain rfl := Option.some.inj hspan
      exact ⟨hfirst, hlast, hle⟩
    · cases hspan
  · rintro ⟨hfirst, hlast, hle⟩
    exact ⟨span.start, hfirst, span.stop, hlast, if_pos hle⟩

/-- A range is that of its span. -/
theorem rangeOf_of_span? {r : Range} (h : s.span? r = some span) : s.rangeOf span = r := by
  obtain ⟨hfirst, hlast, -⟩ := span?_eq_some_iff.1 h
  rw [rangeOf, (offset?_eq_some_iff.1 hfirst).2.2, (offset?_eq_some_iff.1 hlast).2.2]

/-- An anchor without width is at the point of its offset. -/
theorem resolve_of_find?_point {o : Nat} (h : s.find? a = some (.point o)) :
    s.resolve a = some (.point (positionAt s.chars o)) := by
  rw [resolve, h]
  rfl

/-- The text is that of `text?`. -/
theorem text_eq_of_text?_eq (h : s'.text? = s.text?) : s'.text = s.text := by
  rw [text, text, chars, chars, h]

/-! ## Removing and creating -/

/-- Removing an anchor leaves the others as they are. -/
theorem find?_remove : (s.remove a).find? x = if x = a then none else s.find? x := by
  simp only [find?, remove]
  induction s.live with
  | nil => simp
  | cons e live ih =>
    obtain ⟨b, sp⟩ := e
    by_cases hba : b = a
    · subst hba
      rw [List.filter_cons_of_neg (by simp), ih, lookup_cons_eq_ite]
      split
      · rfl
      · rfl
    · rw [List.filter_cons_of_pos (by simpa using hba), lookup_cons_eq_ite, lookup_cons_eq_ite, ih]
      by_cases hx : x = b
      · subst hx
        simp [hba]
      · simp [hx]

@[simp] theorem chars_remove : (s.remove a).chars = s.chars := rfl

theorem Tidy.remove (h : s.Tidy) : (s.remove a).Tidy :=
  ⟨h.nodup.sublist (List.filter_sublist.map _), fun x hx => h.fresh x (List.mem_filter.1 hx).1⟩

/-- A new anchor, under the next name. -/
def grown (s : TextAnchors) (span : AnchorSpan) : TextAnchors :=
  { s with live := s.live ++ [(⟨s.nextId⟩, span)], nextId := s.nextId + 1 }

/-- Every point of a text that is there can have an anchor. -/
theorem create_point (htext : s.text? = some s.chars) {o : Nat} (ho : o ≤ s.chars.length) :
    s.create (.point (positionAt s.chars o)) = some (⟨s.nextId⟩, s.grown (.point o)) := by
  have hoff : s.offset? (positionAt s.chars o) = some o := by
    rw [offset?, htext]
    exact offsetOf?_positionAt ho
  simp [create, span?, Range.point, hoff, AnchorSpan.point, grown]

/-- An anchor is created under the next name, over the span of the range that was asked for. -/
theorem exists_of_create {r : Range} (h : s.create r = some (a, s')) :
    ∃ span, s.span? r = some span ∧ a = ⟨s.nextId⟩ ∧ s' = s.grown span := by
  simp only [create, bind, Option.bind_eq_some_iff, pure, Option.some.injEq, Prod.mk.injEq] at h
  obtain ⟨span, hspan, rfl, rfl⟩ := h
  exact ⟨span, hspan, rfl, rfl⟩

/-- A new anchor leaves the others as they are. -/
theorem Tidy.find?_grown (h : s.Tidy) :
    (s.grown span).find? x = if x = ⟨s.nextId⟩ then some span else s.find? x := by
  have hnew := h.find?_nextId
  simp only [find?, grown] at hnew ⊢
  rw [List.lookup_append, lookup_cons_eq_ite]
  by_cases hx : x = ⟨s.nextId⟩
  · subst hx
    simp [hnew]
  · simp [hx]

/-- A new anchor is over its span. -/
theorem Tidy.resolve_grown (h : s.Tidy) (span : AnchorSpan) :
    (s.grown span).resolve ⟨s.nextId⟩ = some (s.rangeOf span) := by
  rw [resolve, h.find?_grown, if_pos rfl]
  rfl

theorem Tidy.grown (h : s.Tidy) : (s.grown span).Tidy := by
  refine ⟨?_, fun x hx => ?_⟩
  · have hnew : (⟨s.nextId⟩ : AnchorId) ∉ s.live.map (·.1) :=
      lookup_eq_none_iff.1 h.find?_nextId
    simp only [TextAnchors.grown, List.map_append, List.map_cons, List.map_nil]
    rw [List.nodup_append]
    refine ⟨h.nodup, by simp, fun x hx y hy hxy => hnew ?_⟩
    obtain rfl : y = ⟨s.nextId⟩ := by simpa using hy
    exact hxy ▸ hx
  · rcases List.mem_append.1 hx with hx | hx
    · exact Nat.lt_succ_of_lt (h.fresh x hx)
    · obtain rfl : x = (⟨s.nextId⟩, span) := by simpa using hx
      exact Nat.lt_succ_self _

/-! ## Edits -/

/-- The anchors after an edit are some of those before it. -/
theorem map_fst_moveAll_sublist (e : Edit) (live : List (AnchorId × AnchorSpan)) :
    List.Sublist ((moveAll e live).map (·.1)) (live.map (·.1)) := by
  unfold moveAll
  split
  · exact List.Sublist.refl _
  · induction live with
    | nil => simp
    | cons x live ih =>
      obtain ⟨a, span⟩ := x
      cases hm : span.move e with
      | none => simpa [List.filterMap_cons, hm] using ih.cons a
      | some m => simpa [List.filterMap_cons, hm] using ih

/-- An edit moves every anchor by itself. -/
theorem lookup_filterMap_move (e : Edit) {live : List (AnchorId × AnchorSpan)}
    (h : (live.map (·.1)).Nodup) :
    (live.filterMap fun (a, span) => (span.move e).map (a, ·)).lookup a =
      (live.lookup a).bind (·.move e) := by
  induction live with
  | nil => rfl
  | cons x live ih =>
    obtain ⟨b, span⟩ := x
    rw [List.map_cons, List.nodup_cons] at h
    have hlive := ih h.2
    cases hm : span.move e with
    | none =>
      rw [List.filterMap_cons_none (by simp [hm]), hlive, lookup_cons_eq_ite]
      by_cases hab : a = b
      · subst hab
        simp [lookup_eq_none_iff.2 h.1, hm]
      · simp [hab]
    | some moved =>
      rw [List.filterMap_cons_some (b := (b, moved)) (by simp [hm]), lookup_cons_eq_ite,
        lookup_cons_eq_ite, hlive]
      by_cases hab : a = b
      · simp [hab, hm]
      · simp [hab]

/-- What an edit does to an anchor. -/
theorem lookup_moveAll {e : Edit} {live : List (AnchorId × AnchorSpan)}
    (h : (live.map (·.1)).Nodup) (hspan : live.lookup a = some span)
    (hle : span.start ≤ span.stop) : (moveAll e live).lookup a = span.move e := by
  unfold moveAll
  split
  · next htrivial => rw [hspan, AnchorSpan.move_of_isTrivial htrivial hle]
  · rw [lookup_filterMap_move e h, hspan, Option.bind_some]

/-- An edit makes no anchor. -/
theorem lookup_moveAll_eq_none {e : Edit} {live : List (AnchorId × AnchorSpan)}
    (h : live.lookup a = none) : (moveAll e live).lookup a = none := by
  rw [lookup_eq_none_iff] at h ⊢
  exact fun hm => h ((map_fst_moveAll_sublist e live).subset hm)

/-- The store `s'` is the store `s` after the edit `e` of its text. -/
structure EditedBy (s : TextAnchors) (e : Edit) (s' : TextAnchors) : Prop where
  live : s'.live = moveAll e s.live
  nextId : s'.nextId = s.nextId
  text? : s'.text? = some s'.chars
  inside : e.start + e.deleted ≤ s.chars.length
  length : s'.chars.length = s.chars.length - e.deleted + e.inserted
  front : s'.chars.take e.start = s.chars.take e.start
  rest : s'.chars.drop (e.start + e.inserted) = s.chars.drop (e.start + e.deleted)

/-- Replacing the whole text is the edit between the texts. -/
theorem editedBy_replaceText (s : TextAnchors) (text : String) :
    s.EditedBy (.between s.chars text.toList) (s.replaceText text) where
  live := rfl
  nextId := rfl
  text? := rfl
  inside := Edit.between_le_length _ _
  length := (Edit.length_between _ _).symm
  front := Edit.take_between _ _
  rest := Edit.drop_between _ _

/-- Replacing the text within a range is the edit of the range. -/
theorem exists_of_replaceRange? {r : Range} {replacement : String}
    (h : s.replaceRange? r replacement = some s') :
    ∃ span, s.span? r = some span ∧
      s'.chars = s.chars.take span.start ++ replacement.toList ++ s.chars.drop span.stop ∧
      s.EditedBy ⟨span.start, span.stop - span.start, replacement.toList.length⟩ s' := by
  simp only [replaceRange?, bind, Option.bind_eq_some_iff, pure, Option.some.injEq] at h
  obtain ⟨span, hspan, rfl⟩ := h
  obtain ⟨-, hlast, hle⟩ := span?_eq_some_iff.1 hspan
  obtain ⟨-, hlast, -⟩ := offset?_eq_some_iff.1 hlast
  have hstart : (s.chars.take span.start).length = span.start :=
    List.length_take_of_le (Nat.le_trans hle hlast)
  refine ⟨span, hspan, rfl, ⟨rfl, rfl, rfl, ?_, ?_, ?_, ?_⟩⟩
  · show span.start + (span.stop - span.start) ≤ s.chars.length
    omega
  · show (s.chars.take span.start ++ replacement.toList ++ s.chars.drop span.stop).length =
      s.chars.length - (span.stop - span.start) + replacement.toList.length
    rw [List.length_append, List.length_append, List.length_take, List.length_drop]
    omega
  · show (s.chars.take span.start ++ replacement.toList ++ s.chars.drop span.stop).take _ = _
    rw [List.append_assoc]
    exact List.take_left' hstart
  · show (s.chars.take span.start ++ replacement.toList ++ s.chars.drop span.stop).drop _ = _
    rw [Nat.add_sub_cancel' hle]
    exact List.drop_left' (by rw [List.length_append, hstart])

variable {e : Edit}

/-- An edit leaves the store tidy. -/
theorem EditedBy.tidy (h : s.EditedBy e s') (hs : s.Tidy) : s'.Tidy := by
  have hsub := map_fst_moveAll_sublist e s.live
  rw [← h.live] at hsub
  refine ⟨hs.nodup.sublist hsub, fun x hx => ?_⟩
  obtain ⟨y, hy, hyx⟩ := List.mem_map.1 (hsub.subset (List.mem_map_of_mem hx))
  rw [h.nextId, ← hyx]
  exact hs.fresh y hy

/-- No anchor comes back to life. -/
theorem EditedBy.isSome_find? (h : s.EditedBy e s') (ha : (s'.find? a).isSome) :
    (s.find? a).isSome := by
  rw [Option.isSome_iff_ne_none] at ha ⊢
  intro hnone
  rw [find?, h.live, lookup_moveAll_eq_none hnone] at ha
  exact ha rfl

/-- An anchor goes where the edit moves its span. -/
theorem EditedBy.find?_eq_move (h : s.EditedBy e s') (hs : s.Tidy) (hfind : s.find? a = some span)
    (hle : span.start ≤ span.stop) : s'.find? a = span.move e := by
  rw [find?, h.live, lookup_moveAll hs.nodup hfind hle]

/-- An anchor without width goes where the edit moves its offset. -/
theorem EditedBy.find?_point (h : s.EditedBy e s') (hs : s.Tidy) {o : Nat}
    (ho : s.find? a = some (.point o)) : s'.find? a = (e.move o).map AnchorSpan.point := by
  rw [h.find?_eq_move hs ho (Nat.le_refl o), AnchorSpan.move_point]

/-- The edit moves the offsets of the old text to offsets of the new one. -/
theorem EditedBy.move_le (h : s.EditedBy e s') {o moved : Nat} (ho : o ≤ s.chars.length)
    (hm : e.move o = some moved) : moved ≤ s'.chars.length := by
  rw [h.length]
  exact Edit.move_le h.inside ho hm

end TextAnchors

end StackEditor
