import Mathlib.Data.List.Forall2
import StackEditor.Proofs.Anchor.Insertion
import StackEditor.Proofs.Lexeme.Blank
import StackEditor.Proofs.Session.Edits

/-!
# White space and breakpoints

White space is put into a text or taken out of it, and the tokens stay what they are. Then every
breakpoint stays on its token (`KeepsToken`). The host replaces the whole text, so the edit is
guessed from the two texts and may lie elsewhere than what was typed. That makes no difference to
the starts of tokens (`movesSpots_insert`, `movesSpots_delete`), which are the only places that
count (`Fits.keepsToken`).
-/

namespace StackEditor

/-- What a token is, wherever it lies. -/
def Token.lexeme (t : Token) : Token.Kind × String := (t.kind, t.text)

/-- The breakpoint `b'` is what `b` was, at the start of the new token with the same number as the
old token that `b` was at the start of. -/
structure KeepsToken (old new : List Token) (b b' : Breakpoint) : Prop where
  kind : b'.kind = b.kind
  expression : b'.expression = b.expression
  exists_token : ∃ t ∈ old, t.start = b.position
  start : ∀ (k : Nat) (t : Token), old[k]? = some t → t.start = b.position →
    ∃ t', new[k]? = some t' ∧ t'.start = b'.position

open Lexeme

/-! ## Spots -/

/-- The edit between two sources moves the spots of the one to those of the other, one by one. -/
def MovesSpots (old new : List Char) : Prop :=
  ∀ (k : Nat) (x : Spot), (spots 0 (pieces old))[k]? = some x →
    ∃ y : Spot, (spots 0 (pieces new))[k]? = some y ∧
      (Edit.between old new).move x.offset = some y.offset

theorem Lexeme.Spot.offset_push (a n : Nat) (x : Spot) :
    (x.push a n).offset = if x.offset < a then x.offset else x.offset + n := by
  unfold Spot.push
  split <;> rfl

/-- Sources with the same tokens have spots with the same contents. -/
theorem map_content_spots_of_tokenize {source source' : String}
    (h : (tokenize source).map Token.lexeme = (tokenize source').map Token.lexeme) :
    (spots 0 (pieces source.toList)).map Spot.content =
      (spots 0 (pieces source'.toList)).map Spot.content := by
  have hlexemes : ∀ s : String, (tokenize s).map Token.lexeme =
      ((spots 0 (pieces s.toList)).map Spot.content).map (Prod.map id String.ofList) := by
    intro s
    rw [tokenize_eq_map, List.map_map, List.map_map]
    rfl
  rw [hlexemes, hlexemes] at h
  refine List.map_injective_iff.2 (Function.injective_id.prodMap fun a b hab => ?_) h
  simpa using congrArg String.toList hab

variable {u v w : List Char}

/-- White space that is put in moves the spots, if their contents stay. -/
theorem movesSpots_insert (hne : w ≠ []) (hw : ∀ c ∈ w, isSkipped c = true)
    (h : (spots 0 (pieces (u ++ (w ++ v)))).map Spot.content =
      (spots 0 (pieces (u ++ v))).map Spot.content) :
    MovesSpots (u ++ v) (u ++ (w ++ v)) := by
  intro k x hx
  obtain ⟨c, hc, hskip⟩ := (spot_sound (List.mem_of_getElem? hx)).getElem?_offset
  refine ⟨x.push u.length w.length, ?_, ?_⟩
  · rw [pushes hne hw u v 0 0 0 h, List.getElem?_map, hx, Nat.zero_add]
    rfl
  · rw [Edit.move_insert hne hw hc (by simp [hskip]), Spot.offset_push]

/-- White space that is taken out moves the spots, if their contents stay. -/
theorem movesSpots_delete (hne : w ≠ []) (hw : ∀ c ∈ w, isSkipped c = true)
    (h : (spots 0 (pieces (u ++ (w ++ v)))).map Spot.content =
      (spots 0 (pieces (u ++ v))).map Spot.content) :
    MovesSpots (u ++ (w ++ v)) (u ++ v) := by
  intro k x hx
  rw [pushes hne hw u v 0 0 0 h, List.getElem?_map, Option.map_eq_some_iff, Nat.zero_add] at hx
  obtain ⟨y, hy, rfl⟩ := hx
  obtain ⟨c, hc, hskip⟩ := (spot_sound (List.mem_of_getElem? hy)).getElem?_offset
  refine ⟨y, hy, ?_⟩
  rw [Spot.offset_push, Edit.move_delete hne hw hc (by simp [hskip])]

namespace EditorSession

open TextAnchors

variable {ε σ η : Type} [HostSurface η] {s : EditorSession TextAnchors ε σ η} {new : String}

/-! ## Breakpoints -/

omit [HostSurface η] in
/-- Where the edit moves the spots, the anchor of a breakpoint goes from the start of a token to the
start of the token with the same number. -/
theorem Fits.exists_spot (h : s.Fits) (hmoves : MovesSpots s.source.toList new.toList)
    {b : Breakpoint} (hb : b ∈ s.tracker.breakpoints) {k : Nat} {t : Token}
    (ht : (tokenize s.source)[k]? = some t) (hstart : t.start = b.position) :
    ∃ (o : Nat) (y : Spot), offsetOf? s.source.toList b.position = some o ∧
      (spots 0 (pieces new.toList))[k]? = some y ∧
      (Edit.between s.source.toList new.toList).move o = some y.offset ∧
      (s.tracker.host.replaceText new).berth? (tokenize new) b =
        some (positionAt new.toList y.offset) := by
  rw [tokenize_eq_map, List.getElem?_map, Option.map_eq_some_iff] at ht
  obtain ⟨x, hx, rfl⟩ := ht
  obtain ⟨y, hy, hmove⟩ := hmoves k x hx
  have hoffset := offsetOf?_positionAt
    (Nat.le_of_lt (spot_sound (List.mem_of_getElem? hx)).offset_lt_length)
  rw [Spot.token_start] at hstart
  rw [hstart] at hoffset
  refine ⟨x.offset, y, hoffset, hy, hmove, ?_⟩
  rw [h.berth?_replaceText new hb, hoffset, Option.bind_some, hmove, Option.bind_some,
    tokenAt?_spot (List.mem_of_getElem? hy)]
  rfl

/-- Where the edit moves the spots, no breakpoint is dropped: tokens that were different stay so. -/
theorem Fits.marks_of_movesSpots (h : s.Fits) (hmoves : MovesSpots s.source.toList new.toList) :
    (s.withHost (s.tracker.host.replaceText new)).announce.tracker.breakpoints.map
        Breakpoint.mark =
      s.tracker.breakpoints.map fun b =>
        (((s.tracker.host.replaceText new).berth? (tokenize new) b).getD b.position, b.kind,
          b.expression) := by
  have hspot : ∀ b ∈ s.tracker.breakpoints, ∃ (o : Nat) (y : Spot),
      offsetOf? s.source.toList b.position = some o ∧ y ∈ spots 0 (pieces new.toList) ∧
      (Edit.between s.source.toList new.toList).move o = some y.offset ∧
      (s.tracker.host.replaceText new).berth? (tokenize new) b =
        some (positionAt new.toList y.offset) := fun b hb => by
    obtain ⟨t, ht, hstart⟩ := h.anchored.starts b hb
    obtain ⟨k, hk⟩ := List.mem_iff_getElem?.1 ht
    obtain ⟨o, y, ho, hy, hrest⟩ := h.exists_spot hmoves hb hk hstart
    exact ⟨o, y, ho, List.mem_of_getElem? hy, hrest⟩
  refine (h.replaceText new).1.trans
    (foldl_carry_eq_map (fun b hb => ?_) (fun b hb b' hb' heq => ?_) h.moored.nodup)
  · obtain ⟨o, y, -, -, -, hy⟩ := hspot b hb
    simp [hy]
  · obtain ⟨o, y, ho, hmem, hmove, hy⟩ := hspot b hb
    obtain ⟨o', y', ho', hmem', hmove', hy'⟩ := hspot b' hb'
    have hsame : y.offset = y'.offset :=
      positionAt_inj (Nat.le_of_lt (spot_sound hmem).offset_lt_length)
        (Nat.le_of_lt (spot_sound hmem').offset_lt_length)
        (Option.some.inj (hy.symm.trans (heq.trans hy')))
    obtain rfl := Edit.move_inj hmove (hsame ▸ hmove')
    exact (positionAt_of_offsetOf? ho).symm.trans (positionAt_of_offsetOf? ho')

/-- Every breakpoint stays on its token where the edit moves the spots. -/
theorem Fits.keepsToken (h : s.Fits) (hmoves : MovesSpots s.source.toList new.toList) :
    List.Forall₂ (KeepsToken (tokenize s.source) (tokenize new)) s.tracker.breakpoints
      (s.withHost (s.tracker.host.replaceText new)).announce.tracker.breakpoints := by
  have hmarks := (h.marks_of_movesSpots hmoves).symm
  rw [← List.forall₂_eq_eq_eq, List.forall₂_map_left_iff, List.forall₂_map_right_iff] at hmarks
  refine ((List.forall₂_and_left _ _).2 ⟨fun b hb => hb, hmarks⟩).imp fun b b' ⟨hb, hmark⟩ => ?_
  obtain ⟨hposition, hrest⟩ := Prod.mk.inj hmark
  obtain ⟨hkind, hexpression⟩ := Prod.mk.inj hrest
  refine ⟨hkind.symm, hexpression.symm, h.anchored.starts b hb, fun k t ht hstart => ?_⟩
  obtain ⟨o, y, -, hy, -, hberth⟩ := h.exists_spot hmoves hb ht hstart
  refine ⟨y.token new.toList, ?_, ?_⟩
  · rw [tokenize_eq_map, List.getElem?_map, hy]
    rfl
  · rw [← hposition, hberth]
    rfl

variable [Evaluator ε] [StepScheduler σ]

/-- When white space is put into the text or taken out of it and the tokens keep their kinds and
texts, there are the same breakpoints before and after, in the same order and each on the same
token. -/
theorem Reached.breakpoints_follow_tokens (h : Reached s) (new : String) {u v w : String}
    (hne : w ≠ "") (hw : ∀ c ∈ w.toList, c ∈ [' ', '\t', '\r', '\n', '\x0c'])
    (hedit : s.source = u ++ v ∧ new = u ++ w ++ v ∨ s.source = u ++ w ++ v ∧ new = u ++ v)
    (hsame : (tokenize new).map Token.lexeme = (tokenize s.source).map Token.lexeme) :
    List.Forall₂ (KeepsToken (tokenize s.source) (tokenize new)) s.tracker.breakpoints
      (s.perform (.replaceText new)).tracker.breakpoints := by
  have hne' : w.toList ≠ [] := by simpa using hne
  have hskip : ∀ c ∈ w.toList, isSkipped c = true := fun c hc => by
    have hmem := hw c hc
    simpa [isSkipped, or_assoc] using hmem
  have hcontent := map_content_spots_of_tokenize hsame
  refine h.fits.keepsToken ?_
  rcases hedit with ⟨hold, rfl⟩ | ⟨hold, rfl⟩
  · rw [hold] at hcontent ⊢
    simp only [String.toList_append, List.append_assoc] at hcontent ⊢
    exact movesSpots_insert hne' hskip hcontent
  · rw [hold] at hcontent ⊢
    simp only [String.toList_append, List.append_assoc] at hcontent ⊢
    exact movesSpots_delete hne' hskip hcontent.symm

/-- A second blank between the words comes and goes. -/
theorem atSecondWord_follows :
    List.Forall₂ (KeepsToken (tokenize "a b") (tokenize "a  b"))
        atSecondWord.tracker.breakpoints
        (atSecondWord.perform (.replaceText "a  b")).tracker.breakpoints ∧
      List.Forall₂ (KeepsToken (tokenize "a  b") (tokenize "a b"))
        (atSecondWord.perform (.replaceText "a  b")).tracker.breakpoints
        ((atSecondWord.perform (.replaceText "a  b")).perform
          (.replaceText "a b")).tracker.breakpoints := by
  have hsource : atSecondWord.source = "a b" := by decide +kernel
  have hspaced : (atSecondWord.perform (.replaceText "a  b")).source = "a  b" := by decide +kernel
  have hinsert := Reached.breakpoints_follow_tokens reached_atSecondWord "a  b" (u := "a")
    (w := " ") (v := " b") (by decide) (by simp) (.inl ⟨hsource, by decide⟩)
    (by rw [hsource]; decide +kernel)
  have hdelete := Reached.breakpoints_follow_tokens
    (.call reached_atSecondWord (.replaceText "a  b")) "a b" (u := "a") (w := " ") (v := " b")
    (by decide) (by simp) (.inr ⟨hspaced, by decide⟩) (by rw [hspaced]; decide +kernel)
  rw [hsource] at hinsert
  rw [hspaced] at hdelete
  exact ⟨hinsert, hdelete⟩

end EditorSession

end StackEditor
