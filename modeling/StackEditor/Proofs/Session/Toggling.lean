import StackEditor.Proofs.Breakpoint.Toggling
import StackEditor.Proofs.Session.Breakpoints

/-!
# Toggling in a session

A host that keeps the protocol can toggle the breakpoint at a token by any of its places, in the
text or on the surface, and at the first token of a line by the line. All of these do the same
(`Toggles`), and to do it twice is to do nothing, as far as the positions go
(`Reached.toggle_involutive`). At a place without a token nothing is done at all.
-/

namespace StackEditor

namespace EditorSession

open TextAnchors Tracker

variable {ε σ η : Type} [HostSurface η] {s s' : EditorSession TextAnchors ε σ η} {tok : Token}

/-- A toggle at the token `tok` turns `s` into `s'`, whichever way it is asked for. -/
structure Toggles (s : EditorSession TextAnchors ε σ η) (tok : Token) (outcome : ToggleOutcome)
    (s' : EditorSession TextAnchors ε σ η) : Prop where
  tracker : Toggled tok.start s.tracker outcome s'.tracker
  anywhere : ∀ p, tok.covers p = true → s.toggleBreakpoint p = (.ok outcome, s')
  surface : ∀ p, tok.covers p = true → s.toggleAtSurface p.toSurface = (.ok outcome, s')
  line : (∀ t ∈ tokenize s.source, t.line = tok.line → tok.col ≤ t.col) →
    s.toggleOnLine tok.line = (.ok outcome, s')

omit [HostSurface η] in
/-- The tracker of a session has the tokens of the source. -/
theorem Fits.tokens (h : s.Fits) : s.tracker.tokens = tokenize s.source := by
  rw [h.source]
  exact h.moored.tokens

/-- A tracker that has nothing to report changes nothing. -/
theorem Fits.withTracker_self (h : s.Fits) : s.withTracker s.tracker = s := by
  have htracker : { s.tracker with events := [] } = s.tracker := by rw [← h.quiet]
  unfold EditorSession.withTracker drainTracker Tracker.takeEvents
  rw [h.quiet]
  exact congrArg (fun tracker => { s with tracker }) htracker

/-- At a token a toggle succeeds, and all the ways to ask for it come to the same. -/
theorem Fits.exists_toggles (h : s.Fits) (htok : tok ∈ tokenize s.source) :
    ∃ outcome s', s.Toggles tok outcome s' ∧ s'.Fits ∧ s'.source = s.source := by
  have htiles := tiles_tokenize s.source
  have hmem : tok ∈ s.tracker.tokens := h.tokens ▸ htok
  have hstart : tok.covers tok.start = true := Token.covers_start (htiles.placed tok htok).1
  obtain ⟨outcome, t, htoggle, htoggled⟩ := h.moored.toggle_covered hmem hstart
  have hanywhere : ∀ p, tok.covers p = true →
      s.toggleBreakpoint p = (.ok outcome, s.withTracker t) := by
    intro p hp
    rw [toggleBreakpoint, toggle_congr (h.moored.startAt?_of_covers hmem hstart)
      (h.moored.startAt?_of_covers hmem hp), htoggle]
    rfl
  obtain ⟨hmoored, htext, -⟩ := h.moored.toggle tok.start
  rw [htoggle] at hmoored htext
  obtain ⟨surface, hshown⟩ := exists_withTracker s t
  refine ⟨outcome, s.withTracker t, ?_, h.withTracker ⟨hmoored, htext⟩, by rw [hshown]⟩
  constructor
  case tracker =>
    rw [hshown]
    exact htoggled.withEvents []
  case anywhere => exact hanywhere
  case surface =>
    intro p hp
    rw [toggleAtSurface, Position.toSource?_toSurface]
    exact hanywhere p hp
  case line =>
    intro hfirst
    have hline : s.tracker.positionOnLine? tok.line = some tok.start := by
      rw [positionOnLine?, h.tokens, htiles.find?_line htok hfirst]
      rfl
    rw [toggleOnLine, hline]
    exact hanywhere tok.start hstart

variable [Evaluator ε] [StepScheduler σ]

/-- In every session that a host gets to, a toggle at a token succeeds, and a second one brings the
positions of the breakpoints back, and the very list and its anchors if the first one has added a
breakpoint. A toggle at a place without a token fails and changes nothing. -/
theorem Reached.toggle_involutive (h : Reached s) :
    (∀ tok ∈ tokenize s.source, ∃ outcome s', s.Toggles tok outcome s' ∧
      ∃ outcome' s'', s'.Toggles tok outcome' s'' ∧
        (s''.tracker.breakpoints.map (·.position)).Perm
          (s.tracker.breakpoints.map (·.position)) ∧
        (outcome = .added → s''.tracker.breakpoints = s.tracker.breakpoints ∧
          s''.tracker.host.live = s.tracker.host.live)) ∧
    ∀ p, (∀ tok ∈ tokenize s.source, tok.covers p = false) →
      s.toggleBreakpoint p = (.error (.breakpoint (.noToken p)), s) ∧
        s.toggleAtSurface p.toSurface = (.error (.breakpoint (.noToken p)), s) := by
  have hfits := h.fits
  constructor
  · intro tok htok
    obtain ⟨outcome, s', htoggles, hfits', hsource⟩ := hfits.exists_toggles htok
    obtain ⟨outcome', s'', htoggles', -, -⟩ := hfits'.exists_toggles (hsource ▸ htok)
    obtain ⟨hpositions, hback⟩ := htoggles.tracker.twice htoggles'.tracker hfits.moored.nodup
    exact ⟨outcome, s', htoggles, outcome', s'', htoggles', hpositions, hback⟩
  · intro p huncovered
    have hnone : s.tracker.startAt? p = none := by
      have hfind : tokenAt? (tokenize s.source) p = none :=
        List.find?_eq_none.2 (by simpa using huncovered)
      rw [startAt?, hfits.tokens, hfind]
      rfl
    have htoggle : s.toggleBreakpoint p = (.error (.breakpoint (.noToken p)), s) := by
      rw [toggleBreakpoint, hfits.moored.toggle_uncovered hnone]
      exact Prod.ext rfl hfits.withTracker_self
    rw [toggleAtSurface, Position.toSource?_toSurface]
    exact ⟨htoggle, htoggle⟩

/-- Between the two words there is no token. At the first one a breakpoint is added and removed. -/
theorem atSecondWord_toggles :
    (atSecondWord.toggleBreakpoint ⟨0, 0⟩).1 = .ok .added ∧
      ((atSecondWord.toggleBreakpoint ⟨0, 0⟩).2.toggleBreakpoint ⟨0, 0⟩).2.tracker.breakpoints =
        atSecondWord.tracker.breakpoints ∧
      atSecondWord.toggleBreakpoint ⟨0, 1⟩ =
        (.error (.breakpoint (.noToken ⟨0, 1⟩)), atSecondWord) := by
  have hadded : (atSecondWord.toggleBreakpoint ⟨0, 0⟩).1 = .ok .added := by decide +kernel
  obtain ⟨htokens, hnone⟩ := Reached.toggle_involutive reached_atSecondWord
  obtain ⟨outcome, s', htoggles, outcome', s'', htoggles', -, hback⟩ :=
    htokens ⟨.reference, "a", 0, 0, 1⟩ (by decide +kernel)
  have hfirst := htoggles.anywhere ⟨0, 0⟩ (by decide)
  have hsecond := htoggles'.anywhere ⟨0, 0⟩ (by decide)
  rw [hfirst, Except.ok.injEq] at hadded
  rw [hfirst, hsecond]
  exact ⟨congrArg _ hadded, (hback hadded).1, (hnone ⟨0, 1⟩ (by decide +kernel)).1⟩

end EditorSession

end StackEditor
