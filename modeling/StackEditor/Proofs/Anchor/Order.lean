import StackEditor.Proofs.Anchor.Operations
import StackEditor.Proofs.Anchor.Offset

/-!
# Edits keep anchors in order

An edit moves the offsets that outlive it without changing their order (`Edit.move_lt_move_iff`). So
of two anchors that are alive before and after any operations, the one that started first still
does, and two that started together still do; and an anchor without width never gains any
(`Keeps`). Names are not given out twice, so an anchor that is alive in the end has been so all the
time, and what holds of one operation holds of any number of them (`Keeps.trans`). On positions,
which are what a host is told, the order is the same (`anchors_stay_in_order`).
-/

namespace StackEditor

/-- An edit gives no span a width that had none. -/
theorem AnchorSpan.start_eq_stop_of_move {e : Edit} {span moved : AnchorSpan}
    (h : span.move e = some moved) (hempty : span.start = span.stop) :
    moved.start = moved.stop := by
  have hpoint : span = .point span.start := by
    cases span
    exact congrArg (AnchorSpan.mk _) hempty.symm
  rw [hpoint, move_point] at h
  obtain ⟨o, -, rfl⟩ := Option.map_eq_some_iff.1 h
  rfl

namespace TextAnchors

variable {s s₁ s' : TextAnchors} {a : AnchorId} {e : Edit}

/-- From `s` to `s'` no name that was given out comes back to life, the anchors that are alive in
both start in the same order, and none of them has gained a width. -/
structure Keeps (s s' : TextAnchors) : Prop where
  nextId_le : s.nextId ≤ s'.nextId
  alive : ∀ {a}, a.number < s.nextId → (s'.find? a).isSome → (s.find? a).isSome
  order : ∀ {a b p q p' q'}, s.find? a = some p → s.find? b = some q → s'.find? a = some p' →
    s'.find? b = some q' → (p'.start < q'.start ↔ p.start < q.start)
  empty : ∀ {a p p'}, s.find? a = some p → s'.find? a = some p' → p.start = p.stop →
    p'.start = p'.stop

/-- Where every anchor is new or has the span that it had before. -/
theorem Keeps.of_find? (hnext : s.nextId ≤ s'.nextId)
    (hfind : ∀ {a p'}, a.number < s.nextId → s'.find? a = some p' → s.find? a = some p')
    (hs : s.Tidy) : s.Keeps s' where
  nextId_le := hnext
  alive hlt halive := by
    obtain ⟨p', hp'⟩ := Option.isSome_iff_exists.1 halive
    rw [hfind hlt hp']
    rfl
  order hp hq hp' hq' := by
    obtain rfl := Option.some.inj (hp.symm.trans (hfind (hs.number_lt hp) hp'))
    obtain rfl := Option.some.inj (hq.symm.trans (hfind (hs.number_lt hq) hq'))
    rfl
  empty hp hp' hempty := by
    obtain rfl := Option.some.inj (hp.symm.trans (hfind (hs.number_lt hp) hp'))
    exact hempty

/-- What is kept over two changes is kept over both. -/
theorem Keeps.trans (hs : s.Tidy) (h : s.Keeps s₁) (h' : s₁.Keeps s') : s.Keeps s' := by
  -- an anchor of `s` that is alive in `s'` was alive in between
  have hbetween : ∀ {a p p'}, s.find? a = some p → s'.find? a = some p' →
      ∃ p₁, s₁.find? a = some p₁ := by
    intro a p p' hp hp'
    have hlt := Nat.lt_of_lt_of_le (hs.number_lt hp) h.nextId_le
    exact Option.isSome_iff_exists.1 (h'.alive hlt (Option.isSome_iff_exists.2 ⟨p', hp'⟩))
  constructor
  case nextId_le => exact Nat.le_trans h.nextId_le h'.nextId_le
  case alive =>
    intro a hlt halive
    exact h.alive hlt (h'.alive (Nat.lt_of_lt_of_le hlt h.nextId_le) halive)
  case order =>
    intro a b p q p' q' hp hq hp' hq'
    obtain ⟨p₁, hp₁⟩ := hbetween hp hp'
    obtain ⟨q₁, hq₁⟩ := hbetween hq hq'
    exact (h'.order hp₁ hq₁ hp' hq').trans (h.order hp hq hp₁ hq₁)
  case empty =>
    intro a p p' hp hp' hempty
    obtain ⟨p₁, hp₁⟩ := hbetween hp hp'
    exact h'.empty hp₁ hp' (h.empty hp hp₁ hempty)

/-- An edit keeps the anchors in order. -/
theorem EditedBy.keeps (h : s.EditedBy e s') (hs : s.Sound) : s.Keeps s' := by
  have hmove : ∀ {a p p'}, s.find? a = some p → s'.find? a = some p' → p.move e = some p' := by
    intro a p p' hp hp'
    rw [h.find?_eq_bind hs, hp, Option.bind_some] at hp'
    exact hp'
  constructor
  case nextId_le => exact Nat.le_of_eq h.nextId.symm
  case alive =>
    intro a _ halive
    exact h.isSome_find? halive
  case order =>
    intro a b p q p' q' hp hq hp' hq'
    exact Edit.move_lt_move_iff (AnchorSpan.move_start (hmove hp hp'))
      (AnchorSpan.move_start (hmove hq hq'))
  case empty =>
    intro a p p' hp hp' hempty
    exact AnchorSpan.start_eq_stop_of_move (hmove hp hp') hempty

theorem Sound.keeps_of_change (hs : s.Sound) (hchange : s.Change s') : s.Keeps s' := by
  cases hchange with
  | unchanged => exact .of_find? (Nat.le_refl _) (fun _ hp => hp) hs.tidy
  | grown has =>
    refine .of_find? (Nat.le_succ _) (fun {a p'} hlt hp' => ?_) hs.tidy
    rw [hs.tidy.find?_grown, if_neg] at hp'
    · exact hp'
    · rintro rfl
      exact Nat.lt_irrefl _ hlt
  | removed anchor =>
    refine .of_find? (Nat.le_refl _) (fun {a p'} _ hp' => ?_) hs.tidy
    rw [find?_remove] at hp'
    split at hp'
    · cases hp'
    · exact hp'
  | edited edit => exact edit.keeps hs

/-- Any operations keep the anchors in order. -/
theorem Sound.keeps_foldl_perform (hs : s.Sound) (ops : List AnchorOperation) :
    s.Keeps (ops.foldl perform s) := by
  induction ops generalizing s with
  | nil => exact hs.keeps_of_change .unchanged
  | cons op ops ih =>
    have hchange := s.change_perform op
    exact (hs.keeps_of_change hchange).trans hs.tidy (ih (hs.of_change hchange))

/-! ## Positions -/

/-- An anchor that is alive is at the positions of its span. -/
theorem Sound.exists_of_resolve (hs : s.Sound) {r : Range} (h : s.resolve a = some r) :
    ∃ span, s.find? a = some span ∧ span.Within s.chars.length ∧
      r.start = positionAt s.chars span.start ∧ r.stop = positionAt s.chars span.stop := by
  obtain ⟨span, hfind, rfl⟩ := Option.map_eq_some_iff.1 h
  exact ⟨span, hfind, hs.within hfind, rfl, rfl⟩

/-- Of two anchors that are alive in both stores, the one that started first still does. -/
theorem Keeps.start_lt (h : s.Keeps s') (hs : s.Sound) (hs' : s'.Sound) {b : AnchorId}
    {p q p' q' : Range} (hp : s.resolve a = some p) (hq : s.resolve b = some q)
    (hp' : s'.resolve a = some p') (hq' : s'.resolve b = some q') :
    p'.start < q'.start ↔ p.start < q.start := by
  obtain ⟨spanA, hfindA, -, hA, -⟩ := hs.exists_of_resolve hp
  obtain ⟨spanB, hfindB, hB_within, hB, -⟩ := hs.exists_of_resolve hq
  obtain ⟨spanA', hfindA', -, hA', -⟩ := hs'.exists_of_resolve hp'
  obtain ⟨spanB', hfindB', hB_within', hB', -⟩ := hs'.exists_of_resolve hq'
  rw [hA, hB, hA', hB', positionAt_lt_iff (Nat.le_trans hB_within.start_le hB_within.stop_le),
    positionAt_lt_iff (Nat.le_trans hB_within'.start_le hB_within'.stop_le)]
  exact h.order hfindA hfindB hfindA' hfindB'

/-- Whatever has happened to a store, and whatever happens next: of two anchors that are alive
before and after, the one that started first still does, and two that started together still do. An
anchor that is created without width has none for as long as it lives. -/
theorem anchors_stay_in_order (text : Option String) (ops more : List AnchorOperation) :
    let s := ops.foldl perform (ofText? text)
    let s' := more.foldl perform s
    (∀ a b p q p' q', s.resolve a = some p → s.resolve b = some q → s'.resolve a = some p' →
      s'.resolve b = some q' →
        (p.start < q.start → p'.start < q'.start) ∧ (p.start = q.start → p'.start = q'.start)) ∧
      ∀ r a created, s.create r = some (a, created) → r.start = r.stop →
        ∀ r', (more.foldl perform created).resolve a = some r' → r'.start = r'.stop := by
  intro s s'
  have hs : s.Sound := sound_foldl_perform text ops
  constructor
  · intro a b p q p' q' hp hq hp' hq'
    have hkeeps : s.Keeps s' := hs.keeps_foldl_perform more
    have hs' : s'.Sound := hs.foldl_perform more
    have hlt := hkeeps.start_lt hs hs' hp hq hp' hq'
    have hgt := hkeeps.start_lt hs hs' hq hp hq' hp'
    refine ⟨hlt.2, fun heq => ?_⟩
    rw [heq] at hlt hgt
    exact Position.eq_of_not_lt (mt hlt.1 (Position.lt_irrefl _)) (mt hgt.1 (Position.lt_irrefl _))
  · intro r a created hcreate hempty r' hr'
    obtain ⟨span, hspan, rfl, rfl⟩ := exists_of_create hcreate
    obtain ⟨hfirst, hlast, -⟩ := span?_eq_some_iff.1 hspan
    have hpoint : span.start = span.stop :=
      Option.some.inj (hfirst.symm.trans (hempty ▸ hlast))
    have hgrown : (s.grown span).Sound := hs.of_change (.grown hspan)
    have hfind : (s.grown span).find? ⟨s.nextId⟩ = some span := by
      rw [hs.tidy.find?_grown, if_pos rfl]
    obtain ⟨span', hfind', -, hstart, hstop⟩ := (hgrown.foldl_perform more).exists_of_resolve hr'
    rw [hstart, hstop, (hgrown.keeps_foldl_perform more).empty hfind hfind' hpoint]

/-- Two words that are moved apart, onto lines of their own, stay in order. -/
theorem twoWords_stay_in_order :
    let s := [AnchorOperation.create (.point ⟨0, 0⟩), .create (.point ⟨0, 3⟩)].foldl perform
      (ofText? (some "ab cd"))
    let s' := s.perform (.replaceText "ab\n\ncd")
    ∃ p q, s'.resolve ⟨0⟩ = some p ∧ s'.resolve ⟨1⟩ = some q ∧ p = .point ⟨0, 0⟩ ∧
      q = .point ⟨2, 0⟩ ∧ p.start < q.start := by
  intro s s'
  obtain ⟨horder, -⟩ := anchors_stay_in_order (some "ab cd")
    [.create (.point ⟨0, 0⟩), .create (.point ⟨0, 3⟩)] [.replaceText "ab\n\ncd"]
  have hlt := (horder ⟨0⟩ ⟨1⟩ _ _ _ _ rfl rfl rfl rfl).1 (by decide +kernel)
  exact ⟨_, _, rfl, rfl, by decide +kernel, by decide +kernel, hlt⟩

end TextAnchors

end StackEditor
