import StackEditor.Breakpoint.Tracker

/-!
# How calls for breakpoints end

Trackers over any host of anchors. `SetExit` and `ToggleExit` list the ends that a call to set or to
toggle a breakpoint can come to, each with what has been found out on the way, and `SettleExit`
those of reconciling one breakpoint. A call that is refused leaves the tracker as it is.
-/

namespace StackEditor

namespace Tracker

variable {α : Type} [AnchorHost α] {t t' : Tracker α} {p : Position} {kind : BreakpointKind}
  {given : Option String} {cause : BreakpointError}

/-- The ends of a call to set a breakpoint. -/
inductive SetExit (t : Tracker α) (p : Position) (kind : BreakpointKind) (given : Option String) :
    Except BreakpointError Position × Tracker α → Prop
  | unfit {cause : BreakpointError} (check : checkExpression kind given = .error cause) :
      SetExit t p kind given (.error cause, t)
  | noToken (token : t.startAt? p = none) : SetExit t p kind given (.error (.noToken p), t)
  | replaced {start : Position} {expression : Option String}
      (check : checkExpression kind given = .ok expression) (token : t.startAt? p = some start) :
      SetExit t p kind given
        (.ok start, t.publish (replaceAt start kind expression t.breakpoints))
  | rejected {start : Position} (token : t.startAt? p = some start) (free : t.get? start = none)
      (create : AnchorHost.create t.host (.point start) = none) :
      SetExit t p kind given (.error (.anchorRejected start), t)
  | added {start : Position} {expression : Option String} {anchor : AnchorId} {host : α}
      (check : checkExpression kind given = .ok expression) (token : t.startAt? p = some start)
      (free : t.get? start = none)
      (create : AnchorHost.create t.host (.point start) = some (anchor, host)) :
      SetExit t p kind given (.ok start, { t with host }.publish (t.breakpoints ++
        [(⟨anchor, start, kind, expression⟩ : Breakpoint)]))

/-- Setting a breakpoint leaves by one of its exits. -/
theorem setExit (t : Tracker α) (p : Position) (kind : BreakpointKind) (given : Option String) :
    t.SetExit p kind given (t.set p kind given) := by
  unfold set
  split
  · next hcheck => exact .unfit hcheck
  next hcheck =>
  split
  · next htoken => exact .noToken htoken
  next start htoken =>
  split
  · exact .replaced hcheck htoken
  next hfound =>
  have hfree : t.get? start = none := by simpa using hfound
  split
  · next hcreate => exact .rejected htoken hfree hcreate
  · next hcreate => exact .added hcheck htoken hfree hcreate

/-- A breakpoint that is refused leaves the tracker as it is. -/
theorem set_eq_of_error (h : t.set p kind given = (.error cause, t')) : t' = t := by
  have hexit := t.setExit p kind given
  rw [h] at hexit
  cases hexit <;> rfl

/-- Where there is no breakpoint, a call to remove it does nothing. -/
theorem unset_eq_of_false (h : t.unset p = (false, t')) : t' = t := by
  unfold unset at h
  split at h <;> cases h
  rfl

/-- The ends of a toggle, where `start` is the start of the token that is meant, or the place
itself. It has removed nothing if it comes to set a breakpoint. -/
inductive ToggleExit (t : Tracker α) (start : Position) :
    Except BreakpointError ToggleOutcome × Tracker α → Prop
  | removed {t' : Tracker α} (unset : t.unset start = (true, t')) :
      ToggleExit t start (.ok .removed, t')
  | added {p : Position} {t' : Tracker α}
      (set : t.set start .unconditional none = (.ok p, t')) : ToggleExit t start (.ok .added, t')
  | refused {cause : BreakpointError}
      (set : t.set start .unconditional none = (.error cause, t)) :
      ToggleExit t start (.error cause, t)

/-- Toggling a breakpoint leaves by one of its exits. -/
theorem toggleExit (t : Tracker α) (p : Position) :
    t.ToggleExit ((t.startAt? p).getD p) (t.toggle p) := by
  unfold toggle
  dsimp only
  split
  · next hunset => exact .removed hunset
  next t' hunset =>
  obtain rfl := unset_eq_of_false hunset
  cases hset : t'.set ((t'.startAt? p).getD p) .unconditional none with
  | mk result after =>
    cases result with
    | ok start => exact .added hset
    | error cause =>
      obtain rfl := set_eq_of_error hset
      exact .refused hset

/-- A toggle that is refused leaves the tracker as it is. -/
theorem toggle_eq_of_error (h : t.toggle p = (.error cause, t')) : t' = t := by
  have hexit := t.toggleExit p
  rw [h] at hexit
  cases hexit
  rfl

/-- The ends of settling the breakpoint `b` behind those in `kept`: it is dropped with its anchor,
or goes to the start of the token where its anchor is, which may have to be replaced. -/
inductive SettleExit (tokens : List Token) (kept : List Breakpoint) (host : α) (b : Breakpoint) :
    Option Breakpoint × α → Prop
  | dropped : SettleExit tokens kept host b (none, AnchorHost.remove host b.anchor)
  | stayed {r : Range} {tok : Token} (resolve : AnchorHost.resolve host b.anchor = some r)
      (token : tokenAt? tokens r.start = some tok) (free : ∀ k ∈ kept, k.position ≠ tok.start)
      (start : r.start = tok.start) :
      SettleExit tokens kept host b (some { b with position := tok.start }, host)
  | replaced {r : Range} {tok : Token} {anchor : AnchorId} {host' : α}
      (token : tokenAt? tokens r.start = some tok) (free : ∀ k ∈ kept, k.position ≠ tok.start)
      (create : AnchorHost.create (AnchorHost.remove host b.anchor) (.point tok.start) =
        some (anchor, host')) :
      SettleExit tokens kept host b (some { b with anchor, position := tok.start }, host')

/-- Settling a breakpoint leaves by one of its exits. -/
theorem settleExit (tokens : List Token) (kept : List Breakpoint) (host : α) (b : Breakpoint) :
    SettleExit tokens kept host b (settle tokens kept host b) := by
  unfold settle
  split
  · exact .dropped
  next r hr =>
  split
  · exact .dropped
  next tok htok =>
  split
  · exact .dropped
  next htaken =>
  have hfree : ∀ k ∈ kept, k.position ≠ tok.start := by simpa using htaken
  split
  · next hstart => exact .stayed hr htok hfree hstart
  dsimp only
  split
  · next hcreate => exact .replaced htok hfree hcreate
  · exact .dropped

end Tracker

end StackEditor
