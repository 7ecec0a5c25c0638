import StackEditor.Execution.Walker
import StackEditor.Proofs.Breakpoint.Mooring
import StackEditor.Proofs.Session.Protocol
import StackEditor.Surface.Recording

/-!
# The breakpoints of a session

What a host that keeps the protocol can rely on. The tracker of a session that it gets to is moored
on the text that the session was told last (`Reached.fits`): calls that concern breakpoints keep it
moored, and those that concern the run do not touch it (`Fits.perform`). `Anchored` spells out what
that means for positions, tokens and anchors.
-/

namespace StackEditor

/-- What a session makes of a report of its controller. -/
def ControllerEvent.toSession : ControllerEvent → SessionEvent
  | stateChanged state => .stateChanged state
  | positionChanged p => .executionPositionChanged p
  | runFinished outcome => .runFinished outcome

namespace EditorSession

open TextAnchors Tracker

variable {ε σ η : Type}

/-! ## Passing reports on -/

section
variable {α : Type} [HostSurface η]

/-- Showing breakpoints changes the surface and the events only. -/
theorem exists_showBreakpoints (s : EditorSession α ε σ η) (lists : List (List Breakpoint)) :
    ∃ surface, s.showBreakpoints lists =
      { s with surface, events := s.events ++ lists.map .breakpointsChanged } := by
  induction lists generalizing s with
  | nil => exact ⟨s.surface, by simp [showBreakpoints]⟩
  | cons bs lists ih =>
    obtain ⟨surface, hshow⟩ := ih { s with
      surface := publishBreakpoints s.surface bs
      events := s.events ++ [.breakpointsChanged bs] }
    refine ⟨surface, ?_⟩
    rw [showBreakpoints, List.foldl_cons]
    exact hshow.trans (by simp)

/-- The reports of a new tracker become events of the session. -/
theorem exists_withTracker (s : EditorSession α ε σ η) (t : Tracker α) :
    ∃ surface, s.withTracker t = { s with
      tracker := { t with events := [] }, surface,
      events := s.events ++ t.events.map .breakpointsChanged } :=
  exists_showBreakpoints { s with tracker := { t with events := [] } } t.events

/-- Showing what the controller has reported changes the surface and the events only. -/
theorem exists_showExecution (s : EditorSession α ε σ η) (es : List ControllerEvent) :
    ∃ surface, es.foldl showExecution s =
      { s with surface, events := s.events ++ es.map ControllerEvent.toSession } := by
  induction es generalizing s with
  | nil => exact ⟨s.surface, by simp⟩
  | cons e es ih =>
    obtain ⟨surface, hrest⟩ := ih (s.showExecution e)
    refine ⟨surface, hrest.trans ?_⟩
    cases e <;> simp [showExecution, ControllerEvent.toSession]

/-- The reports of a new controller become events of the session. -/
theorem exists_withController (s : EditorSession α ε σ η) (c : Controller ε σ) :
    ∃ surface, s.withController c = { s with
      controller := { c with events := [] }, surface,
      events := s.events ++ c.events.map ControllerEvent.toSession } :=
  exists_showExecution { s with controller := { c with events := [] } } c.events

end

/-! ## The invariant -/

/-- The session was told the text that its tracker is moored on, and all reports are passed on. -/
structure Fits (s : EditorSession TextAnchors ε σ η) : Prop where
  moored : s.tracker.Moored
  quiet : s.tracker.events = []
  lexer : s.lexer = tokenize
  source : s.source = s.tracker.host.text

variable [HostSurface η] {s : EditorSession TextAnchors ε σ η}

/-- A call that keeps the tracker moored on its text keeps the session fitting. -/
theorem Fits.withTracker (h : s.Fits) {t : Tracker TextAnchors}
    (ht : t.Moored ∧ t.host.text? = s.tracker.host.text?) : (s.withTracker t).Fits := by
  obtain ⟨surface, heq⟩ := exists_withTracker s t
  rw [heq]
  exact ⟨ht.1.withEvents [], rfl, h.lexer, h.source.trans (text_eq_of_text?_eq ht.2).symm⟩

/-- A call that concerns the run keeps the session fitting. -/
theorem Fits.withController (h : s.Fits) (c : Controller ε σ) : (s.withController c).Fits := by
  obtain ⟨surface, heq⟩ := exists_withController s c
  rw [heq]
  exact ⟨h.moored, h.quiet, h.lexer, h.source⟩

/-- What the session makes of a text that it is told: its breakpoints are carried to the tokens of
the text, and it reports that once at most. -/
theorem announce_spec (hholds : Holds s.tracker.host s.tracker.breakpoints)
    (hquiet : s.tracker.events = []) (hlexer : s.lexer = tokenize) :
    s.announce.Fits ∧ s.announce.source = s.tracker.host.text ∧
      s.announce.tracker.breakpoints.map Breakpoint.mark =
        s.tracker.breakpoints.foldl
          (carry (s.tracker.host.berth? (tokenize s.tracker.host.text))) [] ∧
      ∃ (ds : List Diagnostic) (reports : List (List Breakpoint)), s.announce.events =
          s.events ++ .diagnosticsChanged ds :: reports.map .breakpointsChanged ∧
        reports.length ≤ 1 := by
  obtain ⟨hmoored, htext, hmarks, reports, hevents, hlength⟩ := reconcile_spec hholds
  rw [hquiet, List.nil_append] at hevents
  rw [← hlexer] at hmoored htext hmarks hevents ⊢
  have hannounce : ∃ tokens diagnostics surface, s.announce = { s with
      source := s.tracker.host.text, tokens, diagnostics, surface
      tracker := { (s.tracker.reconcile (s.lexer s.tracker.host.text)).2 with events := [] }
      events := s.events ++ .diagnosticsChanged diagnostics ::
        reports.map .breakpointsChanged } := by
    let tokens := s.lexer s.tracker.host.text
    let diagnostics := s.analyzer.analyzeTokens tokens
    obtain ⟨surface, heq⟩ := exists_withTracker { s with
      source := s.tracker.host.text, tokens, diagnostics
      surface := publishDiagnostics s.surface diagnostics
      events := s.events ++ [.diagnosticsChanged diagnostics] } (s.tracker.reconcile tokens).2
    refine ⟨tokens, diagnostics, surface, heq.trans ?_⟩
    rw [hevents, List.append_assoc]
    rfl
  obtain ⟨tokens, diagnostics, surface, heq⟩ := hannounce
  rw [heq]
  exact ⟨⟨hmoored.withEvents [], rfl, hlexer, (text_eq_of_text?_eq htext).symm⟩, rfl, hmarks,
    diagnostics, reports, rfl, hlength⟩

/-- An edit that the session is told of leaves it fitting. -/
theorem Fits.edit (h : s.Fits) {host : TextAnchors} {e : Edit}
    (he : s.tracker.host.EditedBy e host) : (s.withHost host).announce.Fits :=
  (announce_spec (s := s.withHost host) (h.moored.holds.edit he) h.quiet h.lexer).1

theorem Fits.announce (h : s.Fits) : s.announce.Fits :=
  (announce_spec h.moored.holds h.quiet h.lexer).1

/-- A session that is opened fits. -/
theorem opened_fits (config : SessionConfig) (text : Option String) (evaluator : ε) (scheduler : σ)
    (surface : η) : (opened config text evaluator scheduler surface).Fits := by
  have hlive : (text.elim .empty .ofText : TextAnchors).live = [] := by cases text <;> rfl
  exact (announce_spec (s := new config _ evaluator scheduler surface) (.of_live_eq_nil hlive)
    rfl rfl).1

variable [Evaluator ε] [StepScheduler σ]

/-- Every call leaves a session fitting. -/
theorem Fits.perform (h : s.Fits) (c : SessionCall σ) : (s.perform c).Fits := by
  have htoggle : ∀ p, (s.toggleBreakpoint p).2.Fits := fun p =>
    h.withTracker ⟨(h.moored.toggle p).1, (h.moored.toggle p).2.1⟩
  cases c with
  | replaceText text => exact h.edit (editedBy_replaceText _ text)
  | replaceRange range replacement =>
    rw [EditorSession.perform]
    split
    · next host hhost =>
      obtain ⟨span, -, -, he⟩ := exists_of_replaceRange? hhost
      exact h.edit he
    · exact h
  | announce => exact h.announce
  | setBreakpoint p kind expression =>
    have hset := h.moored.set p kind expression
    exact h.withTracker ⟨hset.1, hset.2.1⟩
  | unsetBreakpoint p => exact h.withTracker (h.moored.unset p)
  | toggleBreakpoint p => exact htoggle p
  | toggleAtSurface p =>
    rw [EditorSession.perform, toggleAtSurface]
    split
    · exact htoggle _
    · exact h
  | toggleOnLine line => exact htoggle _
  | clearBreakpoints => exact h.withTracker h.moored.clear
  | run => exact h.withController _
  | pause => exact h.withController _
  | step => exact h.withController _
  | stop => exact h.withController _
  | onTaskDue task => exact h.withController _
  | takeEvents => exact ⟨h.moored, h.quiet, h.lexer, h.source⟩
  | schedule change => exact ⟨h.moored, h.quiet, h.lexer, h.source⟩

/-- Every session that a host gets to fits. -/
theorem Reached.fits (h : Reached s) : s.Fits := by
  induction h with
  | opened config text evaluator scheduler surface =>
    exact opened_fits config text evaluator scheduler surface
  | call _ c ih => exact ih.perform c

/-! ## Anchors -/

/-- What ties breakpoints, tokens and anchors together: the source is the host's text; the
breakpoints are at different places, each at the start of a token of the source; the anchors that
are alive are those of the breakpoints, each breakpoint has one of its own, and it resolves to the
point of the breakpoint's position. -/
structure Anchored (s : EditorSession TextAnchors ε σ η) : Prop where
  source : s.source = s.tracker.host.text
  nodup_positions : (s.tracker.breakpoints.map (·.position)).Nodup
  starts : ∀ b ∈ s.tracker.breakpoints, ∃ t ∈ tokenize s.source, t.start = b.position
  live_perm : (s.tracker.host.live.map (·.1)).Perm (s.tracker.breakpoints.map (·.anchor))
  nodup_anchors : (s.tracker.breakpoints.map (·.anchor)).Nodup
  resolve : ∀ b ∈ s.tracker.breakpoints,
    s.tracker.host.resolve b.anchor = some (.point b.position)

omit [HostSurface η] [Evaluator ε] [StepScheduler σ] in
theorem Fits.anchored (h : s.Fits) : s.Anchored where
  source := h.source
  nodup_positions := h.moored.nodup
  starts := by
    rw [h.source, ← h.moored.tokens]
    exact h.moored.starts
  live_perm := by
    refine (List.perm_ext_iff_of_nodup h.moored.holds.tidy.nodup h.moored.holds.nodup).2 fun a =>
      ⟨fun ha => h.moored.holds.owned a ?_, fun ha => ?_⟩
    · rw [Option.isSome_iff_ne_none]
      exact fun hnone => lookup_eq_none_iff.1 hnone ha
    · obtain ⟨b, hb, rfl⟩ := List.mem_map.1 ha
      obtain ⟨o, -, hfind, -⟩ := h.moored.bears b hb
      by_contra hnot
      rw [find?, lookup_eq_none_iff.2 hnot] at hfind
      cases hfind
  nodup_anchors := h.moored.holds.nodup
  resolve := fun b hb => (h.moored.bears b hb).resolve

omit [Evaluator ε] [StepScheduler σ] in
/-- A toggle that the session refuses is not refused for want of an anchor. -/
theorem Fits.toggleBreakpoint_ne (h : s.Fits) (p q : Position) :
    (s.toggleBreakpoint p).1 ≠ .error (.breakpoint (.anchorRejected q)) := by
  have htoggle := (h.moored.toggle p).2.2 q
  rw [toggleBreakpoint]
  cases hresult : (s.tracker.toggle p).1 with
  | ok outcome => simp [hresult, Except.mapError]
  | error cause =>
    rw [hresult] at htoggle
    simpa [hresult, Except.mapError] using htoggle

/-- In every session that a host gets to, breakpoints, tokens and anchors fit, and no call that
would set a breakpoint is refused for want of an anchor. -/
theorem Reached.breakpoints_anchored (h : Reached s) :
    s.Anchored ∧ ∀ q,
      (∀ p kind expression,
        (s.setBreakpoint p kind expression).1 ≠ .error (.breakpoint (.anchorRejected q))) ∧
      (∀ p, (s.toggleBreakpoint p).1 ≠ .error (.breakpoint (.anchorRejected q))) ∧
      (∀ p, (s.toggleAtSurface p).1 ≠ .error (.breakpoint (.anchorRejected q))) ∧
      ∀ line, (s.toggleOnLine line).1 ≠ .error (.breakpoint (.anchorRejected q)) := by
  have hfits := h.fits
  refine ⟨hfits.anchored, fun q => ⟨fun p kind expression => ?_,
    fun p => hfits.toggleBreakpoint_ne p q, fun p => ?_,
    fun line => hfits.toggleBreakpoint_ne _ q⟩⟩
  · have hset := (hfits.moored.set p kind expression).2.2 q
    rw [setBreakpoint]
    cases hresult : (s.tracker.set p kind expression).1 with
    | ok start => simp [hresult, Except.mapError]
    | error cause =>
      rw [hresult] at hset
      simpa [hresult, Except.mapError] using hset
  · rw [toggleAtSurface]
    split
    · exact hfits.toggleBreakpoint_ne _ q
    · simp

/-- A session over two words, with a breakpoint at the second one. -/
def atSecondWord : EditorSession TextAnchors TokenWalker ManualScheduler RecordingSurface :=
  (opened .standard (some "a b") (.new none) .empty .empty).perform (.toggleBreakpoint ⟨0, 2⟩)

theorem reached_atSecondWord : Reached atSecondWord :=
  .call (.opened ..) _

/-- The breakpoint on the second word has its anchor, and setting one on the first is not
refused. -/
theorem atSecondWord_anchored :
    atSecondWord.tracker.breakpoints.map (·.position) = [⟨0, 2⟩] ∧ atSecondWord.Anchored ∧
      (atSecondWord.setBreakpoint ⟨0, 0⟩ .log (some "x")).1 ≠
        .error (.breakpoint (.anchorRejected ⟨0, 0⟩)) := by
  obtain ⟨hanchored, hset⟩ := Reached.breakpoints_anchored reached_atSecondWord
  exact ⟨by decide +kernel, hanchored, (hset ⟨0, 0⟩).1 ⟨0, 0⟩ .log (some "x")⟩

end EditorSession

end StackEditor
