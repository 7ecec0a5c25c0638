import StackEditor.Proofs.Breakpoint.Expression
import StackEditor.Proofs.Breakpoint.Mooring

/-!
# What a tracker reports

Trackers over any host of anchors. A call that sets or removes breakpoints leaves the tracker as it
is, or reports the whole new list (`Revises`). Reconciling may change anchors and say nothing; then
the breakpoints look as before (`reconcile_cases`). So every change of what the breakpoints show is
reported once (`Notifies`), and who keeps the last report knows at any time what that is
(`Reports`). No call ever puts two breakpoints at one place, or gives one an expression that does
not fit.
-/

namespace StackEditor

namespace Tracker

variable {α : Type} {t t' : Tracker α} {bs old : List Breakpoint}

/-! ## Calls for breakpoints -/

/-- What one call makes of a list of breakpoints: kind and expression change where one stands, one
comes to a free place, or some are gone. -/
inductive ListEdit (old : List Breakpoint) : List Breakpoint → Prop
  | replaced (p : Position) {kind : BreakpointKind} {expression : Option String}
      (fits : ExpressionFits kind expression) : ListEdit old (replaceAt p kind expression old)
  | added {b : Breakpoint} (free : ∀ x ∈ old, x.position ≠ b.position)
      (fits : ExpressionFits b.kind b.expression) : ListEdit old (old ++ [b])
  | removed {bs : List Breakpoint} (sublist : bs.Sublist old) : ListEdit old bs

/-- One call turns `t` into `t'`: nothing happens, or there is a new list, which is reported. -/
inductive Revises (t : Tracker α) : Tracker α → Prop
  | unchanged : Revises t t
  | published (host : α) {bs : List Breakpoint} (edit : ListEdit t.breakpoints bs) :
      Revises t ({ t with host }.publish bs)

/-- Different places stay different. -/
theorem ListEdit.nodup (h : ListEdit old bs) (hold : (old.map (·.position)).Nodup) :
    (bs.map (·.position)).Nodup := by
  cases h with
  | replaced p => rwa [map_replaceAt p _ _ (·.position) fun _ => rfl]
  | added free =>
    rw [List.map_append]
    exact hold.append (List.nodup_singleton _) (by simpa using free)
  | removed sublist => exact hold.sublist (sublist.map _)

/-- What fits goes on fitting. -/
theorem ListEdit.fits (h : ListEdit old bs)
    (hold : ∀ b ∈ old, ExpressionFits b.kind b.expression) :
    ∀ b ∈ bs, ExpressionFits b.kind b.expression := by
  cases h with
  | replaced p fits =>
    intro b hb
    obtain ⟨x, hx, rfl⟩ := List.mem_map.1 hb
    split
    · exact fits
    · exact hold x hx
  | added free fits => exact List.forall_mem_append.2 ⟨hold, by simpa using fits⟩
  | removed sublist => exact fun b hb => hold b (sublist.subset hb)

/-- A revised list has no position twice when the list before had none. -/
theorem Revises.nodup (h : t.Revises t') (ht : (t.breakpoints.map (·.position)).Nodup) :
    (t'.breakpoints.map (·.position)).Nodup := by
  cases h with
  | unchanged => exact ht
  | published host edit => exact edit.nodup ht

/-- The expressions of a revised list fit their kinds when those of the list before did. -/
theorem Revises.fits (h : t.Revises t')
    (ht : ∀ b ∈ t.breakpoints, ExpressionFits b.kind b.expression) :
    ∀ b ∈ t'.breakpoints, ExpressionFits b.kind b.expression := by
  cases h with
  | unchanged => exact ht
  | published host edit => exact edit.fits ht

/-- A revision leaves the tokens as they are. -/
theorem Revises.tokens (h : t.Revises t') : t'.tokens = t.tokens := by
  cases h <;> rfl

section
variable [AnchorHost α] (t : Tracker α) (p : Position)

/-- Setting a breakpoint revises the list. -/
theorem revises_set (kind : BreakpointKind) (expression : Option String) :
    t.Revises (t.set p kind expression).2 := by
  have hexit := t.setExit p kind expression
  generalize t.set p kind expression = result at hexit ⊢
  cases hexit with
  | unfit | noToken | rejected => exact .unchanged
  | replaced check => exact .published t.host (.replaced _ (expressionFits_of_check check))
  | added check token free =>
    exact .published _ (.added (by simpa [get?] using free) (expressionFits_of_check check))

/-- Removing a breakpoint revises the list. -/
theorem revises_unset : t.Revises (t.unset p).2 := by
  unfold unset
  split
  · exact .unchanged
  · exact .published _ (.removed List.eraseP_sublist)

/-- Toggling a breakpoint revises the list. -/
theorem revises_toggle : t.Revises (t.toggle p).2 := by
  have hexit := t.toggleExit p
  generalize t.toggle p = result at hexit ⊢
  cases hexit with
  | removed unset => exact congrArg Prod.snd unset ▸ t.revises_unset _
  | added set => exact congrArg Prod.snd set ▸ t.revises_set _ _ _
  | refused => exact .unchanged

/-- Clearing the breakpoints revises the list. -/
theorem revises_clear : t.Revises t.clear := by
  unfold clear
  split
  · exact .unchanged
  · exact .published _ (.removed (List.nil_sublist _))

end

/-! ## Reconciling -/

section
variable [AnchorHost α] {tokens : List Token} {kept : List Breakpoint}

/-- A breakpoint that is settled keeps kind and expression and has a place of its own. -/
theorem of_settle_eq_some {host host' : α} {b b' : Breakpoint}
    (h : settle tokens kept host b = (some b', host')) :
    (b'.kind, b'.expression) = (b.kind, b.expression) ∧
      ∀ k ∈ kept, k.position ≠ b'.position := by
  have hexit := settleExit tokens kept host b
  rw [h] at hexit
  cases hexit with
  | stayed resolve token free => exact ⟨rfl, free⟩
  | replaced token free => exact ⟨rfl, free⟩

/-- Behind the breakpoints that were settled before, the others follow in their order, as far as
they are not dropped, and all have places of their own. If the flag is not set to start with, then
it says in the end whether the places of the others are new. -/
theorem settleAll_cases (tokens : List Token) (kept : List Breakpoint) (host : α) (changed : Bool)
    (bs : List Breakpoint) :
    ∃ new, (settleAll tokens kept host changed bs).1 = kept ++ new ∧
      (new.map fun b => (b.kind, b.expression)).Sublist (bs.map fun b => (b.kind, b.expression)) ∧
      ((kept.map (·.position)).Nodup → ((kept ++ new).map (·.position)).Nodup) ∧
      ((settleAll tokens kept host changed bs).2.2 = true ↔
        changed = true ∨ new.map (·.position) ≠ bs.map (·.position)) := by
  induction bs generalizing kept host changed with
  | nil => exact ⟨[], (List.append_nil kept).symm, .slnil, by simp, by simp [settleAll]⟩
  | cons b bs ih =>
    rw [settleAll]
    split
    · next b' host' hsettle =>
      obtain ⟨hsame, hfree⟩ := of_settle_eq_some hsettle
      obtain ⟨new, hnew, hsub, hnodup, hflag⟩ :=
        ih (kept ++ [b']) host' (changed || b'.position ≠ b.position)
      rw [List.append_assoc, List.singleton_append] at hnew hnodup
      refine ⟨b' :: new, hnew, ?_, fun hkept => hnodup ?_, hflag.trans ?_⟩
      · rw [List.map_cons, List.map_cons, hsame]
        exact hsub.cons_cons _
      · rw [List.map_append]
        exact hkept.append (List.nodup_singleton _) (by simpa using hfree)
      · simp only [Bool.or_eq_true, decide_eq_true_eq, List.map_cons, ne_eq, List.cons.injEq]
        tauto
    · next host' hsettle =>
      obtain ⟨new, hnew, hsub, hnodup, hflag⟩ := ih kept host' true
      refine ⟨new, hnew, hsub.cons _, hnodup, hflag.trans ?_⟩
      -- One is dropped, so there are too few of them for the places to be the old ones.
      have hlength : new.length ≤ bs.length := by simpa using hsub.length_le
      have hne : new.map (·.position) ≠ (b :: bs).map (·.position) := by
        intro heq
        have hsame := congrArg List.length heq
        rw [List.length_map, List.length_map, List.length_cons] at hsame
        omega
      exact iff_of_true (.inl rfl) (.inr hne)

variable (t) (tokens)

/-- Reconciling takes over the tokens. -/
theorem tokens_reconcile : (t.reconcile tokens).2.tokens = tokens := by
  unfold reconcile
  dsimp only
  split <;> rfl

/-- The breakpoints are those that the walk over the old list keeps. -/
theorem breakpoints_reconcile :
    (t.reconcile tokens).2.breakpoints = (settleAll tokens [] t.host false t.breakpoints).1 := by
  unfold reconcile
  dsimp only
  split <;> rfl

/-- On new tokens no two breakpoints are at one place. -/
theorem nodup_reconcile : ((t.reconcile tokens).2.breakpoints.map (·.position)).Nodup := by
  obtain ⟨new, hnew, -, hnodup, -⟩ := settleAll_cases tokens [] t.host false t.breakpoints
  rw [breakpoints_reconcile, hnew]
  exact hnodup List.nodup_nil

/-- Kinds and expressions are some of those of before, in their order. -/
theorem sublist_reconcile :
    ((t.reconcile tokens).2.breakpoints.map fun b => (b.kind, b.expression)).Sublist
      (t.breakpoints.map fun b => (b.kind, b.expression)) := by
  obtain ⟨new, hnew, hsub, -, -⟩ := settleAll_cases tokens [] t.host false t.breakpoints
  rw [breakpoints_reconcile, hnew]
  exact hsub

/-- Reconciling keeps expressions that fit their kinds. -/
theorem fits_reconcile (h : ∀ b ∈ t.breakpoints, ExpressionFits b.kind b.expression) :
    ∀ b ∈ (t.reconcile tokens).2.breakpoints, ExpressionFits b.kind b.expression := by
  intro b hb
  have hmem := (t.sublist_reconcile tokens).subset (List.mem_map_of_mem hb)
  obtain ⟨x, hx, hsame⟩ := List.mem_map.1 hmem
  obtain ⟨hkind, hexpression⟩ := Prod.mk.inj hsame
  exact hkind ▸ hexpression ▸ h x hx

/-- The answer is whether the places have changed. -/
theorem fst_reconcile : (t.reconcile tokens).1 = true ↔
    (t.reconcile tokens).2.breakpoints.map (·.position) ≠ t.breakpoints.map (·.position) := by
  obtain ⟨new, hnew, -, -, hflag⟩ := settleAll_cases tokens [] t.host false t.breakpoints
  rw [breakpoints_reconcile, hnew]
  simpa [reconcile] using hflag

end

/-! ## Reports -/

/-- Between `t` and `t'` nothing is reported and the breakpoints show what they did, or the new list
of breakpoints is reported, once. -/
inductive Notifies (t t' : Tracker α) : Prop
  | silent (events : t'.events = t.events)
      (marks : t'.breakpoints.map Breakpoint.mark = t.breakpoints.map Breakpoint.mark)
  | told (events : t'.events = t.events ++ [t'.breakpoints])

/-- Between `t` and `t'` no change of what the breakpoints show went without a report: they show
what the last of the reports does, and without a report what they did before. -/
def Reports (t t' : Tracker α) : Prop :=
  ∃ lists, t'.events = t.events ++ lists ∧
    t'.breakpoints.map Breakpoint.mark = (lists.getLastD t.breakpoints).map Breakpoint.mark

/-- A change of which the last notice tells is reported. -/
theorem Notifies.reports (h : t.Notifies t') : t.Reports t' := by
  cases h with
  | silent events marks => exact ⟨[], events.trans (List.append_nil _).symm, marks⟩
  | told events => exact ⟨[t'.breakpoints], events, rfl⟩

/-- A change of what the breakpoints show is reported. -/
theorem Notifies.events_of_ne (h : t.Notifies t')
    (hne : t'.breakpoints.map Breakpoint.mark ≠ t.breakpoints.map Breakpoint.mark) :
    t'.events = t.events ++ [t'.breakpoints] := by
  cases h with
  | silent events marks => exact absurd marks hne
  | told events => exact events

/-- A revision tells of the new list. -/
theorem Revises.notifies (h : t.Revises t') : t.Notifies t' := by
  cases h with
  | unchanged => exact .silent rfl rfl
  | published host edit => exact .told rfl

/-- A revision is reported. -/
theorem Revises.reports (h : t.Revises t') : t.Reports t' :=
  h.notifies.reports

section
variable [AnchorHost α] (t : Tracker α) (tokens : List Token)

/-- If no place has changed, then no breakpoint was dropped, and so kinds and expressions are those
of before. -/
theorem marks_reconcile_iff :
    (t.reconcile tokens).2.breakpoints.map Breakpoint.mark =
        t.breakpoints.map Breakpoint.mark ↔
      (t.reconcile tokens).2.breakpoints.map (·.position) = t.breakpoints.map (·.position) := by
  have hmark : ∀ bs : List Breakpoint, bs.map Breakpoint.mark =
      (bs.map (·.position)).zip (bs.map fun b => (b.kind, b.expression)) := by
    intro bs
    rw [List.zip_map']
    rfl
  constructor
  · intro hmarks
    rw [← map_fst_mark, ← map_fst_mark, hmarks]
  · intro hplaces
    have hsub := t.sublist_reconcile tokens
    have hlength := congrArg List.length hplaces
    rw [List.length_map, List.length_map] at hlength
    rw [hmark, hmark, hplaces, hsub.eq_of_length (by simpa using hlength)]

/-- Reconciling changes what the breakpoints show and reports it, or it does neither. The answer is
which of the two. -/
theorem reconcile_cases :
    ((t.reconcile tokens).1 = true ∧
      (t.reconcile tokens).2.breakpoints.map Breakpoint.mark ≠ t.breakpoints.map Breakpoint.mark ∧
      (t.reconcile tokens).2.events = t.events ++ [(t.reconcile tokens).2.breakpoints]) ∨
    ((t.reconcile tokens).1 = false ∧
      (t.reconcile tokens).2.breakpoints.map Breakpoint.mark = t.breakpoints.map Breakpoint.mark ∧
      (t.reconcile tokens).2.events = t.events) := by
  have hanswer := t.fst_reconcile tokens
  rw [ne_eq, ← t.marks_reconcile_iff tokens] at hanswer
  cases hchanged : (t.reconcile tokens).1 with
  | true =>
    refine .inl ⟨rfl, hanswer.1 hchanged, ?_⟩
    unfold reconcile at hchanged ⊢
    dsimp only at hchanged ⊢
    rw [hchanged]
    rfl
  | false =>
    refine .inr ⟨rfl, ?_, ?_⟩
    · by_contra hne
      rw [hanswer.2 hne] at hchanged
      cases hchanged
    · unfold reconcile at hchanged ⊢
      dsimp only at hchanged ⊢
      rw [hchanged]
      rfl

/-- Reconciling tells of the list when it changes it. -/
theorem notifies_reconcile : t.Notifies (t.reconcile tokens).2 := by
  obtain ⟨-, -, hevents⟩ | ⟨-, hmarks, hevents⟩ := t.reconcile_cases tokens
  · exact .told hevents
  · exact .silent hevents hmarks

/-- Reconciling is reported. -/
theorem reports_reconcile : t.Reports (t.reconcile tokens).2 :=
  (t.notifies_reconcile tokens).reports

end

end Tracker

end StackEditor
