import StackEditor.Proofs.Breakpoint.Calls

/-!
# What the reports of a tracker tell

Whoever takes the reports of a tracker knows what its breakpoints show without ever looking at them.
`Informs` says what one call has to do with that: it reports every change, and a call that is
refused, or finds nothing to do, leaves no trace. Over a whole run of calls the last report there
has been shows the breakpoints as they are, and all expressions are those that the check lets pass
(`breakpoints_reported`).
-/

namespace StackEditor

namespace Tracker

/-! ## One call -/

variable {t : Tracker TextAnchors}

/-- How a tracker keeps whoever takes its reports informed. -/
structure Informs (t : Tracker TextAnchors) : Prop where
  /-- A call that changes what the breakpoints show adds one report, of the whole new list. -/
  changed : ∀ c, (t.perform c).breakpoints.map Breakpoint.mark ≠ t.breakpoints.map Breakpoint.mark →
    (t.perform c).events = t.events ++ [(t.perform c).breakpoints]
  /-- A call that is refused, or has nothing to remove, changes nothing at all. -/
  set : ∀ p kind expression cause, (t.set p kind expression).1 = .error cause →
    (t.set p kind expression).2 = t
  toggle : ∀ p cause, (t.toggle p).1 = .error cause → (t.toggle p).2 = t
  unset : ∀ p, (t.unset p).1 = false → (t.unset p).2 = t
  clear : t.breakpoints = [] → t.clear = t
  /-- Reconciling says whether it changes what the breakpoints show, and else it reports nothing. -/
  reconcile : ∀ tokens, (t.reconcile tokens).1 = true ↔
    (t.reconcile tokens).2.breakpoints.map Breakpoint.mark ≠ t.breakpoints.map Breakpoint.mark
  silent : ∀ tokens, (t.reconcile tokens).1 = false → (t.reconcile tokens).2.events = t.events

/-- Reports are handed out by one call only, and every other one adds what it has to report. -/
theorem notifies_perform (t : Tracker TextAnchors) {c : TrackerCall} (hc : c ≠ .takeEvents) :
    t.Notifies (t.perform c) := by
  cases c with
  | set p kind expression => exact (t.revises_set p kind expression).notifies
  | unset p => exact (t.revises_unset p).notifies
  | toggle p => exact (t.revises_toggle p).notifies
  | clear => exact t.revises_clear.notifies
  | reconcile tokens => exact t.notifies_reconcile tokens
  | takeEvents => exact absurd rfl hc
  | replaceText text => exact .silent rfl rfl
  | replaceRange range replacement => exact .silent rfl rfl
  | createAnchor range => exact .silent rfl rfl
  | removeAnchor a => exact .silent rfl rfl

theorem informs (t : Tracker TextAnchors) : t.Informs where
  changed := by
    intro c hne
    have hc : c ≠ .takeEvents := by
      rintro rfl
      exact hne rfl
    exact (t.notifies_perform hc).events_of_ne hne
  set := fun p kind expression cause herror => set_eq_of_error (Prod.ext herror rfl)
  toggle := fun p cause herror => toggle_eq_of_error (Prod.ext herror rfl)
  unset := fun p hfalse => unset_eq_of_false (Prod.ext hfalse rfl)
  clear := by
    intro hnone
    rw [Tracker.clear, if_pos (by simp [hnone])]
  reconcile := by
    intro tokens
    rw [t.fst_reconcile tokens, ne_eq, ne_eq, t.marks_reconcile_iff tokens]
  silent := by
    intro tokens hfalse
    obtain ⟨htrue, -, -⟩ | ⟨-, -, hevents⟩ := t.reconcile_cases tokens
    · rw [hfalse] at htrue
      cases htrue
    · exact hevents

/-- No call gives a breakpoint an expression that does not fit. -/
theorem fits_perform (h : ∀ b ∈ t.breakpoints, ExpressionFits b.kind b.expression)
    (c : TrackerCall) : ∀ b ∈ (t.perform c).breakpoints, ExpressionFits b.kind b.expression := by
  cases c with
  | set p kind expression => exact (t.revises_set p kind expression).fits h
  | unset p => exact (t.revises_unset p).fits h
  | toggle p => exact (t.revises_toggle p).fits h
  | clear => exact t.revises_clear.fits h
  | reconcile tokens => exact t.fits_reconcile tokens h
  | _ => exact h

/-! ## All reports -/

/-- The reports that the call hands out. -/
def handedOut (t : Tracker TextAnchors) : TrackerCall → List (List Breakpoint)
  | .takeEvents => t.takeEvents.1
  | _ => []

/-- All reports of the tracker over the calls: those that are handed out on the way, and those that
are there in the end. -/
def reported (t : Tracker TextAnchors) : List TrackerCall → List (List Breakpoint)
  | [] => t.events
  | c :: calls => t.handedOut c ++ (t.perform c).reported calls

theorem handedOut_eq_nil {c : TrackerCall} (hc : c ≠ .takeEvents) : t.handedOut c = [] := by
  cases c with
  | takeEvents => exact absurd rfl hc
  | _ => rfl

/-- If the breakpoints show what the last report does, where the `earlier` ones have been handed
out, then so they do after any calls. -/
theorem marks_foldl_perform (earlier : List (List Breakpoint)) (calls : List TrackerCall)
    (h : t.breakpoints.map Breakpoint.mark =
      ((earlier ++ t.events).getLastD []).map Breakpoint.mark) :
    (calls.foldl perform t).breakpoints.map Breakpoint.mark =
      ((earlier ++ t.reported calls).getLastD []).map Breakpoint.mark := by
  induction calls generalizing t earlier with
  | nil => exact h
  | cons c calls ih =>
    rw [reported, ← List.append_assoc]
    refine ih _ ?_
    by_cases hc : c = .takeEvents
    · -- What was waiting has been handed out: all in all the reports are the same.
      subst hc
      exact (List.append_nil (earlier ++ t.events)).symm ▸ h
    · rw [handedOut_eq_nil hc, List.append_nil]
      cases t.notifies_perform hc with
      | silent events marks => rw [events, marks, h]
      | told events => rw [events, ← List.append_assoc, List.getLastD_concat]

/-- Whatever has happened to a tracker, it informs of what happens next, its breakpoints show what
the last report there has been does, and their expressions fit their kinds. -/
theorem breakpoints_reported (text : Option String) (calls : List TrackerCall) :
    let t := calls.foldl perform (ofText? text)
    t.Informs ∧
      t.breakpoints.map Breakpoint.mark =
        (((ofText? text).reported calls).getLastD []).map Breakpoint.mark ∧
      ∀ b ∈ t.breakpoints, ExpressionFits b.kind b.expression := by
  intro t
  refine ⟨t.informs, marks_foldl_perform (t := ofText? text) [] calls rfl, ?_⟩
  refine List.foldlRecOn calls perform
    (motive := fun t => ∀ b ∈ t.breakpoints, ExpressionFits b.kind b.expression) ?_
    fun t h c _ => fits_perform h c
  exact fun b hb => absurd hb List.not_mem_nil

end Tracker

end StackEditor
