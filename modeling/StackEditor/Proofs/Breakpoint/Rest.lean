import StackEditor.Proofs.Breakpoint.Reports
import StackEditor.Proofs.Lexeme.Tiling

/-!
# Breakpoints at rest

Here the tokens are any tokens: those of the text that the anchors are on, or not. A breakpoint
rests on them if its anchor is where the breakpoint is, at the start of a token that is not empty
(`TextAnchors.Rests`). However a breakpoint settles, it rests afterwards, or is gone, while no other
one is disturbed (`SettleExit.rests`, `SettleExit.agrees`). So all that reconciling leaves are at
rest (`rests_reconcile`), and where all are at rest on tokens that are apart reconciling does
nothing (`reconcile_eq_of_rests`).
-/

namespace StackEditor

open Tracker TextAnchors

/-- The anchor of the breakpoint is where the breakpoint is, at the start of a token that is not
empty. -/
structure TextAnchors.Rests (s : TextAnchors) (tokens : List Token) (b : Breakpoint) : Prop where
  resolve : (s.resolve b.anchor).map (·.start) = some b.position
  token : ∃ t ∈ tokens, t.start = b.position ∧ t.col < t.endCol

instance (s : TextAnchors) (tokens : List Token) (b : Breakpoint) :
    Decidable (s.Rests tokens b) :=
  decidable_of_iff ((s.resolve b.anchor).map (·.start) = some b.position ∧
      ∃ t ∈ tokens, t.start = b.position ∧ t.col < t.endCol)
    ⟨fun h => ⟨h.1, h.2⟩, fun h => ⟨h.resolve, h.token⟩⟩

variable {tokens : List Token} {kept bs : List Breakpoint} {s s' : TextAnchors}
  {b : Breakpoint} {result : Option Breakpoint × TextAnchors} {changed : Bool}

/-! ## One breakpoint -/

/-- A token that is found at a position covers it, so it is not empty. -/
theorem exists_of_tokenAt? {p : Position} {t : Token} (h : tokenAt? tokens p = some t) :
    ∃ t' ∈ tokens, t'.start = t.start ∧ t'.col < t'.endCol := by
  have hcovers := List.find?_some h
  rw [Token.covers_eq_true_iff] at hcovers
  exact ⟨t, List.mem_of_find?_eq_some h, rfl, Nat.lt_of_le_of_lt hcovers.2.1 hcovers.2.2⟩

namespace Tracker.SettleExit

variable (h : SettleExit tokens kept s b result) (hnamed : HoldsNames s (kept ++ b :: bs))
include h hnamed

/-- All keep names of their own. -/
theorem named : HoldsNames result.2 (kept ++ result.1.toList ++ bs) := by
  have hothers : HoldsNames s (kept ++ bs) := hnamed.sublist (by simp)
  cases h with
  | dropped => simpa using hothers.remove b.anchor
  | stayed => exact hnamed.of_map_eq (by simp)
  | replaced token free create =>
    rw [anchorHost_create, anchorHost_remove] at create
    obtain ⟨span, -, rfl, rfl⟩ := exists_of_create create
    have hinsert := (hothers.remove b.anchor).insert
      (b := { b with anchor := ⟨(s.remove b.anchor).nextId⟩ }) span rfl
    exact hinsert.of_map_eq (by simp)

/-- No other anchor is touched. -/
theorem agrees : s.Agrees result.2 (kept ++ bs) := by
  have hothers : HoldsNames s (kept ++ bs) := hnamed.sublist (by simp)
  cases h with
  | dropped => exact hnamed.agrees_remove
  | stayed => exact .refl s _
  | replaced token free create =>
    rw [anchorHost_create, anchorHost_remove] at create
    obtain ⟨span, -, rfl, rfl⟩ := exists_of_create create
    exact hnamed.agrees_remove.trans (hothers.remove b.anchor).agrees_grown

/-- A breakpoint that is not dropped rests where it goes. -/
theorem rests : ∀ b' ∈ result.1.toList, result.2.Rests tokens b' := by
  intro b' hb'
  cases h with
  | dropped => cases hb'
  | stayed resolve token free start =>
    obtain rfl := List.mem_singleton.1 hb'
    have hresolve : s.resolve b.anchor = some _ := resolve
    exact ⟨by simp [hresolve, start], exists_of_tokenAt? token⟩
  | replaced token free create =>
    rw [anchorHost_create, anchorHost_remove] at create
    obtain ⟨span, hspan, rfl, rfl⟩ := exists_of_create create
    have hothers : HoldsNames s (kept ++ bs) := hnamed.sublist (by simp)
    obtain rfl := List.mem_singleton.1 hb'
    have hresolve := (hothers.remove b.anchor).tidy.resolve_grown span
    rw [rangeOf_of_span? hspan] at hresolve
    exact ⟨congrArg _ hresolve, exists_of_tokenAt? token⟩

end Tracker.SettleExit

/-- A breakpoint rests in every store that agrees on it. -/
theorem TextAnchors.Rests.of_agrees (h : s.Rests tokens b) (hagrees : s.Agrees s' bs)
    (hb : b ∈ bs) : s'.Rests tokens b :=
  ⟨(congrArg _ (hagrees.resolve hb)).trans h.resolve, h.token⟩

/-- On tokens that are apart, a breakpoint at rest stays as it is, unless its place is taken. -/
theorem settle_eq_self (hapart : TokensApart tokens) (h : s.Rests tokens b)
    (hfree : ∀ k ∈ kept, k.position ≠ b.position) : settle tokens kept s b = (some b, s) := by
  obtain ⟨r, hr, hstart⟩ := Option.map_eq_some_iff.1 h.resolve
  obtain ⟨t, ht, hposition, hempty⟩ := h.token
  have hfind : tokenAt? tokens r.start = some t := by
    refine hapart.tokenAt?_eq_some_iff.2 ⟨ht, ?_⟩
    rw [hstart, ← hposition]
    exact Token.covers_start hempty
  have hany : (kept.any (·.position = t.start)) = false := by
    rw [hposition]
    simpa using hfree
  simp only [settle, anchorHost_resolve, hr, hfind, hany, Bool.false_eq_true, if_false]
  rw [if_pos (hstart.trans hposition.symm), hposition]

/-! ## All of them -/

/-- The first breakpoint settles behind those that were settled before, and then the others do. -/
theorem settleAll_cons : settleAll tokens kept s changed (b :: bs) =
    settleAll tokens (kept ++ (settle tokens kept s b).1.toList) (settle tokens kept s b).2
      (changed || (settle tokens kept s b).1.all (·.position ≠ b.position)) bs := by
  rw [settleAll]
  split
  · next hsettle => rw [hsettle]; rfl
  · next hsettle =>
    rw [hsettle, Option.toList_none, List.append_nil, Option.all_none, Bool.or_true]

/-- Settling leaves the breakpoints with different anchors. -/
theorem named_settleAll (h : HoldsNames s (kept ++ bs)) :
    HoldsNames (settleAll tokens kept s changed bs).2.1 (settleAll tokens kept s changed bs).1 := by
  induction bs generalizing kept s changed with
  | nil => exact List.append_nil kept ▸ h
  | cons b bs ih =>
    rw [settleAll_cons]
    exact ih ((settleExit tokens kept s b).named h)

/-- The breakpoints that are left rest on the tokens. -/
theorem rests_settleAll (h : HoldsNames s (kept ++ bs)) (hkept : ∀ k ∈ kept, s.Rests tokens k) :
    ∀ b ∈ (settleAll tokens kept s changed bs).1,
      (settleAll tokens kept s changed bs).2.1.Rests tokens b := by
  induction bs generalizing kept s changed with
  | nil => exact hkept
  | cons b bs ih =>
    have hexit := settleExit tokens kept s b
    rw [settleAll_cons]
    refine ih (hexit.named h) fun k hk => ?_
    rcases List.mem_append.1 hk with hk | hk
    · exact (hkept k hk).of_agrees (hexit.agrees h) (List.mem_append_left bs hk)
    · exact hexit.rests h k hk

/-- Breakpoints at rest at different places stay as they are. -/
theorem settleAll_eq_self (hapart : TokensApart tokens) (h : ∀ b ∈ bs, s.Rests tokens b)
    (hnodup : ((kept ++ bs).map (·.position)).Nodup) :
    settleAll tokens kept s changed bs = (kept ++ bs, s, changed) := by
  induction bs generalizing kept with
  | nil => rw [settleAll, List.append_nil]
  | cons b bs ih =>
    rw [List.forall_mem_cons] at h
    have hfree : ∀ k ∈ kept, k.position ≠ b.position := by
      rw [List.map_append, List.nodup_append] at hnodup
      exact fun k hk => hnodup.2.2 _ (List.mem_map_of_mem hk) _ (by simp)
    rw [List.append_cons] at hnodup ⊢
    rw [settleAll_cons, settle_eq_self hapart h.1 hfree]
    simpa using ih h.2 hnodup

namespace Tracker

variable {t : Tracker TextAnchors}

/-- The host after reconciling is the one that the walk leaves. -/
theorem host_reconcile (t : Tracker TextAnchors) (tokens : List Token) :
    (t.reconcile tokens).2.host = (settleAll tokens [] t.host false t.breakpoints).2.1 := by
  unfold reconcile
  dsimp only
  split <;> rfl

/-- Reconciling leaves the breakpoints with different anchors. -/
theorem named_reconcile (h : HoldsNames t.host t.breakpoints) (tokens : List Token) :
    HoldsNames (t.reconcile tokens).2.host (t.reconcile tokens).2.breakpoints := by
  have hnone : HoldsNames t.host ([] ++ t.breakpoints) := h
  rw [host_reconcile, breakpoints_reconcile]
  exact named_settleAll hnone

/-- Once reconciled, all breakpoints rest on the tokens. -/
theorem rests_reconcile (h : HoldsNames t.host t.breakpoints) (tokens : List Token) :
    ∀ b ∈ (t.reconcile tokens).2.breakpoints, (t.reconcile tokens).2.host.Rests tokens b := by
  have hnone : HoldsNames t.host ([] ++ t.breakpoints) := h
  rw [host_reconcile, breakpoints_reconcile]
  exact rests_settleAll hnone fun _ hk => nomatch hk

/-- Where all breakpoints rest, at different places, reconciling only takes the tokens. -/
theorem reconcile_eq_of_rests (hapart : TokensApart tokens)
    (h : ∀ b ∈ t.breakpoints, t.host.Rests tokens b)
    (hnodup : (t.breakpoints.map (·.position)).Nodup) :
    t.reconcile tokens = (false, { t with tokens }) := by
  have hsettle : settleAll tokens [] t.host false t.breakpoints = (t.breakpoints, t.host, false) :=
    settleAll_eq_self hapart h hnodup
  rw [reconcile, hsettle]
  rfl

end Tracker

end StackEditor
