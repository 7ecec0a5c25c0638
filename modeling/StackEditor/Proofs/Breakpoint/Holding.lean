import Mathlib.Data.List.Nodup
import StackEditor.Breakpoint.Basic
import StackEditor.Proofs.Anchor.Operations

/-!
# Who holds which anchor

`HoldsNames s bs` ties a store of anchors to a list of breakpoints: every breakpoint has an anchor
name of its own, which the store has given out. It holds whatever else is on the text, and whatever
happens to it. `Holds s bs` adds that the anchors that are alive are all held by breakpoints, and
that they have no width. It says nothing on where the anchors are, and so it outlives every edit
(`Holds.edit`). `s.Bears b` adds that the anchor of `b` is where `b` is.
-/

namespace StackEditor

open TextAnchors

/-- Every breakpoint holds an anchor name of its own, which the store has given out. -/
structure HoldsNames (s : TextAnchors) (bs : List Breakpoint) : Prop where
  tidy : s.Tidy
  nodup : (bs.map (·.anchor)).Nodup
  given : ∀ a ∈ bs.map (·.anchor), a.number < s.nextId

/-- Every breakpoint holds an anchor name of its own, and whatever is alive is held. -/
structure Holds (s : TextAnchors) (bs : List Breakpoint) : Prop where
  tidy : s.Tidy
  nodup : (bs.map (·.anchor)).Nodup
  given : ∀ b ∈ bs, b.anchor.number < s.nextId
  owned : ∀ a, (s.find? a).isSome → a ∈ bs.map (·.anchor)
  points : ∀ b ∈ bs, ∀ span, s.find? b.anchor = some span →
    ∃ o, o ≤ s.chars.length ∧ span = .point o

/-- The anchor of the breakpoint is alive, at the position of the breakpoint. -/
def TextAnchors.Bears (s : TextAnchors) (b : Breakpoint) : Prop :=
  ∃ o, o ≤ s.chars.length ∧ s.find? b.anchor = some (.point o) ∧ positionAt s.chars o = b.position

/-- The two stores have the same text, and agree on the anchors of the breakpoints. -/
structure TextAnchors.Agrees (s s' : TextAnchors) (bs : List Breakpoint) : Prop where
  text? : s'.text? = s.text?
  find? : ∀ b ∈ bs, s'.find? b.anchor = s.find? b.anchor

variable {s s' s'' : TextAnchors} {before after bs : List Breakpoint} {b b' : Breakpoint}

theorem TextAnchors.Agrees.refl (s : TextAnchors) (bs : List Breakpoint) : s.Agrees s bs :=
  ⟨rfl, fun _ _ => rfl⟩

theorem TextAnchors.Agrees.trans (h : s.Agrees s' bs) (h' : s'.Agrees s'' bs) : s.Agrees s'' bs :=
  ⟨h'.text?.trans h.text?, fun b hb => (h'.find? b hb).trans (h.find? b hb)⟩

/-- Stores that agree have the same text. -/
theorem TextAnchors.Agrees.chars (h : s.Agrees s' bs) : s'.chars = s.chars := by
  rw [TextAnchors.chars, TextAnchors.chars, h.text?]

/-- Stores that agree on a breakpoint have its anchor at the same place. -/
theorem TextAnchors.Agrees.resolve (h : s.Agrees s' bs) (hb : b ∈ bs) :
    s'.resolve b.anchor = s.resolve b.anchor := by
  rw [TextAnchors.resolve, TextAnchors.resolve, h.find? b hb]
  congr 1
  funext span
  rw [rangeOf, rangeOf, h.chars]

/-- A breakpoint is borne by every store that agrees on it. -/
theorem TextAnchors.Bears.of_agrees (hb : s.Bears b) (h : s.Agrees s' bs) (hmem : b ∈ bs) :
    s'.Bears b := by
  obtain ⟨o, ho, hfind, hpos⟩ := hb
  exact ⟨o, h.chars ▸ ho, (h.find? b hmem).trans hfind, h.chars ▸ hpos⟩

/-- The anchor of a breakpoint that is borne resolves to the point of its position. -/
theorem TextAnchors.Bears.resolve (hb : s.Bears b) :
    s.resolve b.anchor = some (.point b.position) := by
  obtain ⟨o, -, hfind, hpos⟩ := hb
  rw [resolve_of_find?_point hfind, hpos]

/-! ## Names -/

namespace HoldsNames

/-- Only the names count. -/
theorem of_map_eq (h : HoldsNames s bs) {cs : List Breakpoint}
    (hmap : cs.map (·.anchor) = bs.map (·.anchor)) : HoldsNames s cs :=
  ⟨h.tidy, hmap ▸ h.nodup, hmap ▸ h.given⟩

/-- Some of the breakpoints have names of their own, too. -/
theorem sublist (h : HoldsNames s bs) {cs : List Breakpoint} (hsub : cs.Sublist bs) :
    HoldsNames s cs :=
  ⟨h.tidy, h.nodup.sublist (hsub.map _), fun a ha => h.given a ((hsub.map _).subset ha)⟩

/-- Removing an anchor leaves the breakpoints their names. -/
theorem remove (h : HoldsNames s bs) (a : AnchorId) : HoldsNames (s.remove a) bs :=
  ⟨h.tidy.remove, h.nodup, h.given⟩

/-- So does a new anchor that no breakpoint holds. -/
theorem grown (h : HoldsNames s bs) (span : AnchorSpan) : HoldsNames (s.grown span) bs :=
  ⟨h.tidy.grown, h.nodup, fun a ha => Nat.lt_succ_of_lt (h.given a ha)⟩

/-- And so does an edit. -/
theorem edit {e : Edit} (h : HoldsNames s bs) (he : s.EditedBy e s') : HoldsNames s' bs := by
  refine ⟨he.tidy h.tidy, h.nodup, ?_⟩
  intro a ha
  rw [he.nextId]
  exact h.given a ha

/-- Whatever is done to the store, the breakpoints keep names of their own. -/
theorem of_change (h : HoldsNames s bs) (hchange : s.Change s') : HoldsNames s' bs := by
  cases hchange with
  | unchanged => exact h
  | grown => exact h.grown _
  | removed anchor => exact h.remove anchor
  | edited edit => exact h.edit edit

/-- No other breakpoint holds the anchor of this one. -/
theorem anchor_ne (h : HoldsNames s (before ++ b :: after)) {x : Breakpoint}
    (hx : x ∈ before ++ after) : x.anchor ≠ b.anchor := by
  have hnodup := h.nodup
  rw [List.map_append, List.map_cons] at hnodup
  have hnot := (List.nodup_cons.1 (List.nodup_middle.1 hnodup)).1
  rw [← List.map_append] at hnot
  exact fun heq => hnot (heq ▸ List.mem_map_of_mem hx)

/-- Removing the anchor of a breakpoint leaves those of the others. -/
theorem agrees_remove (h : HoldsNames s (before ++ b :: after)) :
    s.Agrees (s.remove b.anchor) (before ++ after) := by
  refine ⟨rfl, ?_⟩
  intro x hx
  rw [find?_remove, if_neg (h.anchor_ne hx)]

/-- No breakpoint holds the next anchor. -/
theorem anchor_ne_next (h : HoldsNames s bs) (hb : b ∈ bs) : b.anchor ≠ ⟨s.nextId⟩ := by
  intro heq
  have hlt := h.given _ (List.mem_map_of_mem hb)
  rw [heq] at hlt
  exact Nat.lt_irrefl _ hlt

/-- A new anchor leaves those that are held. -/
theorem agrees_grown (h : HoldsNames s bs) {span : AnchorSpan} : s.Agrees (s.grown span) bs := by
  refine ⟨rfl, ?_⟩
  intro b hb
  rw [h.tidy.find?_grown, if_neg (h.anchor_ne_next hb)]

/-- A breakpoint that comes can hold the new anchor. -/
theorem insert (h : HoldsNames s (before ++ after)) (span : AnchorSpan)
    (hb : b.anchor = ⟨s.nextId⟩) : HoldsNames (s.grown span) (before ++ b :: after) := by
  have hgrown := h.grown span
  constructor
  case tidy => exact hgrown.tidy
  case nodup =>
    rw [List.map_append, List.map_cons, List.nodup_middle, List.nodup_cons, ← List.map_append]
    refine ⟨?_, h.nodup⟩
    intro hanchor
    obtain ⟨x, hx, heq⟩ := List.mem_map.1 hanchor
    exact h.anchor_ne_next hx (heq.trans hb)
  case given =>
    intro a ha
    rw [List.map_append, List.map_cons, List.mem_append, List.mem_cons] at ha
    rcases ha with ha | rfl | ha
    · exact hgrown.given a (by simp [ha])
    · rw [hb]
      exact Nat.lt_succ_self _
    · exact hgrown.given a (by simp [ha])

end HoldsNames

/-! ## Anchors that are held -/

namespace Holds

theorem named (h : Holds s bs) : HoldsNames s bs where
  tidy := h.tidy
  nodup := h.nodup
  given := List.forall_mem_map.2 h.given

/-- Only the anchors count. -/
theorem of_map_eq (h : Holds s bs) {cs : List Breakpoint}
    (hmap : cs.map (·.anchor) = bs.map (·.anchor)) : Holds s cs := by
  have hmem : ∀ c ∈ cs, ∃ b ∈ bs, b.anchor = c.anchor := by
    intro c hc
    have hanchor : c.anchor ∈ cs.map (·.anchor) := List.mem_map_of_mem hc
    rw [hmap] at hanchor
    exact List.mem_map.1 hanchor
  constructor
  case tidy => exact h.tidy
  case nodup => exact hmap ▸ h.nodup
  case given =>
    intro c hc
    obtain ⟨b, hb, heq⟩ := hmem c hc
    exact heq ▸ h.given b hb
  case owned =>
    intro a ha
    exact hmap ▸ h.owned a ha
  case points =>
    intro c hc span hspan
    obtain ⟨b, hb, heq⟩ := hmem c hc
    exact h.points b hb span (heq ▸ hspan)

/-- An empty store is held by nobody. -/
theorem of_live_eq_nil (h : s.live = []) : Holds s [] where
  tidy := ⟨by simp [h], by simp [h]⟩
  nodup := List.nodup_nil
  given := by simp
  owned := fun a ha => by simp [find?, h] at ha
  points := by simp

/-- A breakpoint that goes takes its anchor along. -/
theorem remove (h : Holds s (before ++ b :: after)) :
    Holds (s.remove b.anchor) (before ++ after) := by
  have hsub : (before ++ after).Sublist (before ++ b :: after) := by simp
  have hnamed := (h.named.sublist hsub).remove b.anchor
  constructor
  case tidy => exact hnamed.tidy
  case nodup => exact hnamed.nodup
  case given => exact List.forall_mem_map.1 hnamed.given
  case owned =>
    intro a ha
    rw [find?_remove] at ha
    split at ha
    · simp at ha
    · next hne =>
      have hown := h.owned a ha
      simp only [List.map_append, List.map_cons, List.mem_append, List.mem_cons, hne,
        false_or] at hown
      simpa using hown
  case points =>
    intro x hx span hspan
    rw [h.named.agrees_remove.find? x hx] at hspan
    exact h.points x (hsub.subset hx) span hspan

/-- A breakpoint that comes holds the new anchor. -/
theorem grown (h : Holds s (before ++ after)) {o : Nat} (ho : o ≤ s.chars.length)
    (hb : b.anchor = ⟨s.nextId⟩) : Holds (s.grown (.point o)) (before ++ b :: after) := by
  have hmem : ∀ x, x ∈ before ++ b :: after → x = b ∨ x ∈ before ++ after := by
    intro x hx
    simp only [List.mem_append, List.mem_cons] at hx ⊢
    tauto
  have hnamed := h.named.insert (.point o) hb
  constructor
  case tidy => exact hnamed.tidy
  case nodup => exact hnamed.nodup
  case given => exact List.forall_mem_map.1 hnamed.given
  case owned =>
    intro a ha
    rw [h.tidy.find?_grown] at ha
    split at ha
    · next heq => simp [heq, hb]
    · have hown := h.owned a ha
      rw [List.map_append, List.mem_append] at hown
      rw [List.map_append, List.map_cons, List.mem_append, List.mem_cons]
      tauto
  case points =>
    intro x hx span hspan
    rcases hmem x hx with rfl | hx
    · rw [h.tidy.find?_grown, if_pos hb] at hspan
      exact ⟨o, ho, (Option.some.inj hspan).symm⟩
    · rw [h.named.agrees_grown.find? x hx] at hspan
      exact h.points x hx span hspan

/-- The new anchor is where it was asked for. -/
theorem bears_grown (h : Holds s bs) {o : Nat} (ho : o ≤ s.chars.length)
    (hb : b.anchor = ⟨s.nextId⟩) (hpos : positionAt s.chars o = b.position) :
    (s.grown (.point o)).Bears b :=
  ⟨o, ho, h.tidy.find?_grown.trans (if_pos hb), hpos⟩

/-- An edit leaves every breakpoint its anchor name. -/
theorem edit {e : Edit} (h : Holds s bs) (he : s.EditedBy e s') : Holds s' bs := by
  have hnamed := h.named.edit he
  constructor
  case tidy => exact hnamed.tidy
  case nodup => exact hnamed.nodup
  case given => exact List.forall_mem_map.1 hnamed.given
  case owned =>
    intro a ha
    exact h.owned a (he.isSome_find? ha)
  case points =>
    intro b hb span hspan
    have hsome : (s'.find? b.anchor).isSome := by
      rw [hspan]
      rfl
    obtain ⟨old, hold⟩ := Option.isSome_iff_exists.1 (he.isSome_find? hsome)
    obtain ⟨o, ho, rfl⟩ := h.points b hb old hold
    rw [he.find?_point h.tidy hold, Option.map_eq_some_iff] at hspan
    obtain ⟨moved, hmoved, rfl⟩ := hspan
    exact ⟨moved, he.move_le ho hmoved, rfl⟩

end Holds

end StackEditor
