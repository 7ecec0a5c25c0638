import StackEditor.Proofs.Execution.Highlight
import StackEditor.Proofs.Session.Operations
import StackEditor.Proofs.Surface.Decorations

/-!
# The surface mirrors the session

What a session shows is not computed from its state but from the reports of its parts, one after the
other. All the same a surface that remembers always shows the session as it is (`Mirrors`), and that
holds after any operations over any host, evaluator and scheduler (`surface_mirrors`). Each
operation hands a new tracker or a new controller to the session: the tracker reports every change
of what its breakpoints show, and a controller that is idle or paused has reported last that there
is nothing to show, or where it is (`Deed.shown`). What the surface shows then is spelled out by
`surface_lines`: the lines of the breakpoints, and one whole line for a paused run that is
somewhere.
-/

namespace StackEditor

/-! ## The position that is shown -/

/-- The position that the event reports. -/
def SessionEvent.position? : SessionEvent → Option (Option ExecutionPosition)
  | executionPositionChanged p => some p
  | _ => none

/-- The position that is shown after the events: the last one that they report. If they report none,
it is still the one that was shown before. -/
def lastPosition (shown : Option ExecutionPosition) (events : List SessionEvent) :
    Option ExecutionPosition :=
  (events.filterMap SessionEvent.position?).getLastD shown

/-- What is shown after two stretches of events is shown after the second, starting from the
first. -/
theorem lastPosition_append (shown : Option ExecutionPosition) (events more : List SessionEvent) :
    lastPosition shown (events ++ more) = lastPosition (lastPosition shown events) more := by
  simp only [lastPosition, List.filterMap_append, List.getLastD_eq_getLast?, List.getLast?_append,
    Option.getD_or]

/-- The reports of breakpoints do not count. -/
theorem lastPosition_breakpointsChanged (shown : Option ExecutionPosition)
    (lists : List (List Breakpoint)) :
    lastPosition shown (lists.map .breakpointsChanged) = shown := by
  have hnone :
      (lists.map SessionEvent.breakpointsChanged).filterMap SessionEvent.position? = [] := by
    simp [SessionEvent.position?]
  rw [lastPosition, hnone, List.getLastD_nil]

/-- What a controller has reported is shown where it is highlighted. -/
theorem lastPosition_toSession (shown : Option ExecutionPosition) (events : List ControllerEvent) :
    lastPosition shown (events.map ControllerEvent.toSession) = highlighted shown events := by
  have hposition : SessionEvent.position? ∘ ControllerEvent.toSession =
      ControllerEvent.position? := by
    funext e
    cases e <;> rfl
  rw [lastPosition, List.filterMap_map, hposition]
  rfl

/-- What is shown fits where the controller stands: it is nothing while there is no run, and the
position of a run that is paused. -/
structure Shown (s : Standing) (shown : Option ExecutionPosition) : Prop where
  idle : s.state = .idle → shown = none
  paused : s.state = .paused → shown = s.position

namespace Controller

variable {ε σ : Type} {c : Controller ε σ} {command : ControllerCommand} {accepted : Bool}
  {calls : List EvaluatorCall} {events : List ControllerEvent} {s : Standing}
  {last : Option ExecutionPosition}

/-- Every deed leaves what is shown fitting. -/
theorem Deed.shown [Evaluator ε] (h : c.Deed command accepted calls events s)
    (hshown : Shown c.standing last) :
    Shown s (lastPosition last (events.map ControllerEvent.toSession)) := by
  rw [lastPosition_toSession]
  have hrelit := h.relit last
  generalize highlighted last events = after at hrelit ⊢
  cases hrelit with
  | refused same =>
    subst same
    exact hshown
  | started idle running => exact ⟨fun _ => hshown.idle idle, by simp [running]⟩
  | resumed running => exact ⟨fun _ => rfl, by simp [running]⟩
  | paused paused => exact ⟨by simp [paused], fun _ => rfl⟩
  | wentOn running same =>
    have hstate := same.trans running
    exact ⟨by simp [hstate], by simp [hstate]⟩
  | ended idle => exact ⟨fun _ => rfl, by simp [idle]⟩

end Controller

/-! ## Sources without text -/

/-- The empty source has no tokens. -/
theorem tokenize_empty : tokenize "" = [] := by
  simp [tokenize, Lexeme.place]

/-- There is nothing to report on the empty source. -/
theorem Analyzer.analyze_empty (a : Analyzer) : a.analyze "" = [] := by
  have hlists : (Definitions.collect []).lists = [] := rfl
  rw [analyze, tokenize_empty]
  simp [analyzeTokens, Analysis.checkBrackets, Analysis.checkBracketsFrom,
    Analysis.checkParamLists, Analysis.checkReferences, hlists]

namespace EditorSession

variable {α ε σ : Type} {s : EditorSession α ε σ RecordingSurface} {a : Analyzer}
  {earlier events : List SessionEvent}

/-! ## Passing reports on -/

/-- Of several lists of breakpoints the last one stays on the surface. -/
theorem surface_showBreakpoints {bs : List Breakpoint}
    (h : s.surface.breakpoints = breakpointDecorations bs) (lists : List (List Breakpoint)) :
    (s.showBreakpoints lists).surface =
      { s.surface with breakpoints := breakpointDecorations (lists.getLastD bs) } := by
  induction lists generalizing s bs with
  | nil => rw [List.getLastD_nil, ← h]; rfl
  | cons bs' lists ih =>
    rw [List.getLastD_cons, showBreakpoints, List.foldl_cons]
    exact ih rfl

/-- Of several reports of a controller the last position stays on the surface. -/
theorem surface_showExecution {shown : Option ExecutionPosition}
    (h : s.surface.execution = executionDecorations shown) (es : List ControllerEvent) :
    (es.foldl showExecution s).surface = { s.surface with
      execution := executionDecorations
        (lastPosition shown (es.map ControllerEvent.toSession)) } := by
  induction es generalizing s shown with
  | nil =>
    rw [List.map_nil, lastPosition, List.filterMap_nil, List.getLastD_nil, ← h]
    rfl
  | cons e es ih =>
    have hsplit : lastPosition shown ((e :: es).map ControllerEvent.toSession) =
        lastPosition (lastPosition shown [e.toSession]) (es.map ControllerEvent.toSession) :=
      lastPosition_append shown [e.toSession] _
    rw [List.foldl_cons, hsplit]
    cases e with
    | positionChanged p => exact ih rfl
    | stateChanged | runFinished => exact ih h

/-- A tracker's reports become events, and the last of them is what the surface shows. -/
theorem withTracker_eq {bs : List Breakpoint}
    (h : s.surface.breakpoints = breakpointDecorations bs) (t : Tracker α) :
    s.withTracker t = { s with
      tracker := { t with events := [] }
      surface := { s.surface with
        breakpoints := breakpointDecorations (t.events.getLastD bs) }
      events := s.events ++ t.events.map .breakpointsChanged } := by
  obtain ⟨surface, heq⟩ := exists_withTracker s t
  have hsurface := surface_showBreakpoints (s := { s with tracker := { t with events := [] } }) h
    t.events
  obtain rfl := (congrArg EditorSession.surface heq).symm.trans hsurface
  exact heq

/-- A controller's reports become events, and the position that they report last is what the surface
shows. -/
theorem withController_eq {last : Option ExecutionPosition}
    (h : s.surface.execution = executionDecorations last) (c : Controller ε σ) :
    s.withController c = { s with
      controller := { c with events := [] }
      surface := { s.surface with
        execution := executionDecorations
          (lastPosition last (c.events.map ControllerEvent.toSession)) }
      events := s.events ++ c.events.map ControllerEvent.toSession } := by
  obtain ⟨surface, heq⟩ := exists_withController s c
  have hsurface := surface_showExecution (s := { s with controller := { c with events := [] } }) h
    c.events
  obtain rfl := (congrArg EditorSession.surface heq).symm.trans hsurface
  exact heq

/-! ## The invariant -/

/-- The session and its surface show one and the same. The tokens of the session and of its tracker
are those of the source, the diagnostics are those that `a` has for it, and the surface shows these,
the breakpoints, and the position that was reported last: `events` are all events that were ever
reported. So it shows no position while there is no run, and the position of a run that is paused.
-/
structure Mirrors (a : Analyzer) (events : List SessionEvent)
    (s : EditorSession α ε σ RecordingSurface) : Prop where
  tokens : s.tokens = tokenize s.source
  trackerTokens : s.tracker.tokens = tokenize s.source
  diagnostics : s.diagnostics = a.analyze s.source
  markers : s.surface.markers = markersFor s.diagnostics
  breakpoints : s.surface.breakpoints = breakpointDecorations s.tracker.breakpoints
  execution : s.surface.execution = executionDecorations (lastPosition none events)
  idle : s.controller.state = .idle → s.surface.execution = []
  paused : s.controller.state = .paused →
    s.surface.execution = executionDecorations s.controller.position

namespace Mirrors

/-- There is at most one highlight, and it takes a whole line. -/
theorem execution_eq (h : s.Mirrors a events) : s.surface.execution = [] ∨
    ∃ p : ExecutionPosition, s.surface.execution =
      [⟨p.token.range.toSurface, .currentLine, true, none⟩] := by
  rw [h.execution]
  cases lastPosition none events with
  | none => exact .inl rfl
  | some p => exact .inr ⟨p, rfl⟩

/-- A paused run that is somewhere has the whole line of its token highlighted. -/
theorem execution_of_paused (h : s.Mirrors a events) (hstate : s.controller.state = .paused)
    {p : ExecutionPosition} (hp : s.controller.position = some p) :
    s.surface.execution = [⟨p.token.range.toSurface, .currentLine, true, none⟩] := by
  rw [h.paused hstate, hp, executionDecorations_some]

/-- Without a run no line is the current one. -/
theorem currentLine?_of_idle (h : s.Mirrors a events) (hstate : s.controller.state = .idle) :
    s.surface.currentLine? = none := by
  have hnone : s.surface.execution = executionDecorations none := h.idle hstate
  exact RecordingSurface.currentLine?_eq hnone

end Mirrors

/-- What every operation keeps, where the `earlier` events have been handed out: the parts of the
session have no reports left, and the surface shows what was reported. -/
structure Synced (a : Analyzer) (earlier : List SessionEvent)
    (s : EditorSession α ε σ RecordingSurface) : Prop where
  lexer : s.lexer = tokenize
  analyzer : s.analyzer = a
  tokens : s.tokens = tokenize s.source
  trackerTokens : s.tracker.tokens = tokenize s.source
  trackerEvents : s.tracker.events = []
  diagnostics : s.diagnostics = a.analyze s.source
  markers : s.surface.markers = markersFor s.diagnostics
  breakpoints : s.surface.breakpoints = breakpointDecorations s.tracker.breakpoints
  execution : s.surface.execution =
    executionDecorations (lastPosition none (earlier ++ s.events))
  shown : Shown s.controller.standing (lastPosition none (earlier ++ s.events))
  quiet : s.controller.Quiet

/-- A session that is in step with its events mirrors them. -/
theorem Synced.mirrors (h : s.Synced a earlier) : s.Mirrors a (earlier ++ s.events) where
  tokens := h.tokens
  trackerTokens := h.trackerTokens
  diagnostics := h.diagnostics
  markers := h.markers
  breakpoints := h.breakpoints
  execution := h.execution
  idle hidle := by rw [h.execution, h.shown.idle hidle]; rfl
  paused hpaused := by rw [h.execution, h.shown.paused hpaused]; rfl

/-- A session without content shows nothing. -/
theorem synced_new (config : SessionConfig) (host : α) (evaluator : ε) (scheduler : σ) :
    (new config host evaluator scheduler .empty).Synced
      ⟨config.allBuiltins, config.analysis⟩ [] where
  lexer := rfl
  analyzer := rfl
  tokens := tokenize_empty.symm
  trackerTokens := tokenize_empty.symm
  trackerEvents := rfl
  diagnostics := (Analyzer.analyze_empty _).symm
  markers := rfl
  breakpoints := rfl
  execution := rfl
  shown := ⟨fun _ => rfl, fun _ => rfl⟩
  quiet := (Controller.steady_new evaluator scheduler config.execution).quiet

/-- A new tracker that has reported what its breakpoints show keeps the surface in step. -/
theorem Synced.withTracker (h : s.Synced a earlier) {t : Tracker α} (hreports : s.tracker.Reports t)
    (htokens : t.tokens = s.tracker.tokens) : (s.withTracker t).Synced a earlier := by
  obtain ⟨lists, hevents, hmarks⟩ := hreports
  rw [h.trackerEvents, List.nil_append] at hevents
  have hlast : lastPosition none (earlier ++ (s.events ++ t.events.map .breakpointsChanged)) =
      lastPosition none (earlier ++ s.events) := by
    rw [← List.append_assoc, lastPosition_append, lastPosition_breakpointsChanged]
  rw [withTracker_eq h.breakpoints]
  exact { h with
    trackerTokens := htokens.trans h.trackerTokens
    trackerEvents := rfl
    breakpoints := by
      rw [hevents]
      exact (breakpointDecorations_inj.2 hmarks).symm
    execution := hlast ▸ h.execution
    shown := hlast ▸ h.shown }

/-- A command to the controller keeps the surface in step. -/
theorem Synced.obey [Evaluator ε] [StepScheduler σ] (h : s.Synced a earlier)
    (command : ControllerCommand) :
    (s.withController (s.controller.obey command).2).Synced a earlier := by
  obtain ⟨calls, events, hdeed, hadds⟩ := h.quiet.steady.exists_deed command
  have hevents := hadds.events
  rw [h.quiet.events, List.nil_append] at hevents
  have hquiet := quiet_obey h.quiet.steady command
  rw [withController_eq h.execution, hevents, ← lastPosition_append, List.append_assoc] at hquiet ⊢
  exact { h with
    execution := rfl
    shown := by
      rw [← List.append_assoc, lastPosition_append]
      exact hdeed.shown h.shown
    quiet := hquiet }

variable [AnchorHost α]

/-- A new content is shown with its diagnostics and breakpoints. -/
theorem Synced.onContentChanged (h : s.Synced a earlier) (text : String) :
    (s.onContentChanged text).Synced a earlier := by
  let tokens := s.lexer text
  let diagnostics := s.analyzer.analyzeTokens tokens
  let s₁ : EditorSession α ε σ RecordingSurface := { s with
    source := text
    tokens, diagnostics
    tracker := { s.tracker with tokens }
    surface := publishDiagnostics s.surface diagnostics
    events := s.events ++ [.diagnosticsChanged diagnostics] }
  have hlast : lastPosition none (earlier ++ (s.events ++ [.diagnosticsChanged diagnostics])) =
      lastPosition none (earlier ++ s.events) := by
    rw [← List.append_assoc, lastPosition_append]
    rfl
  have htokens : tokens = tokenize text := congrFun h.lexer text
  have hsynced : s₁.Synced a earlier := { h with
    tokens := htokens
    trackerTokens := htokens
    diagnostics := by
      rw [Analyzer.analyze, ← htokens, ← h.analyzer]
    markers := rfl
    execution := hlast ▸ h.execution
    shown := hlast ▸ h.shown }
  exact hsynced.withTracker (s.tracker.reports_reconcile tokens) (s.tracker.tokens_reconcile tokens)

variable [Evaluator ε] [StepScheduler σ]

/-- The events that the operation hands out. -/
def handedOut {η : Type} (s : EditorSession α ε σ η) : SessionOperation α σ → List SessionEvent
  | .takeEvents => s.takeEvents.1
  | _ => []

omit [AnchorHost α] [Evaluator ε] [StepScheduler σ] in
/-- Only the operation that takes the events hands any out. -/
theorem handedOut_eq_nil {op : SessionOperation α σ} (hop : op ≠ .takeEvents) :
    s.handedOut op = [] := by
  cases op with
  | takeEvents => exact absurd rfl hop
  | _ => rfl

/-- Every operation keeps the surface in step with the session. -/
theorem Synced.operate (h : s.Synced a earlier) (op : SessionOperation α σ) :
    (s.operate op).Synced a (earlier ++ s.handedOut op) := by
  have hquiet := quiet_operate h.quiet op
  by_cases hop : op = .takeEvents
  · -- What was waiting has been handed out: all in all the events are the same.
    subst hop
    have hall : earlier ++ s.events ++ [] = earlier ++ s.events := List.append_nil _
    exact { h with execution := hall.symm ▸ h.execution, shown := hall.symm ▸ h.shown }
  · rw [handedOut_eq_nil hop, List.append_nil]
    have heffect := effect_operate (s := s) hop
    generalize s.operate op = s' at heffect hquiet ⊢
    cases heffect with
    | told text => exact h.onContentChanged text
    | revised revises => exact h.withTracker revises.reports revises.tokens
    | obeyed command => exact h.obey command
    | moved host => exact { h with }
    | scheduled scheduler => exact { h with quiet := hquiet }
    | unchanged => exact h

/-! ## All operations -/

/-- All events of the session over the operations: those that are handed out on the way, and those
that are there in the end. -/
def reported {η : Type} [HostSurface η] (s : EditorSession α ε σ η) :
    List (SessionOperation α σ) → List SessionEvent
  | [] => s.events
  | op :: ops => s.handedOut op ++ (s.operate op).reported ops

/-- The surface mirrors the session through any operations. -/
theorem Synced.foldl_operate (h : s.Synced a earlier) (ops : List (SessionOperation α σ)) :
    (ops.foldl EditorSession.operate s).Mirrors a (earlier ++ s.reported ops) := by
  induction ops generalizing s earlier with
  | nil => exact h.mirrors
  | cons op ops ih =>
    rw [reported, ← List.append_assoc]
    exact ih (h.operate op)

/-- Whatever is done to a session, its surface has the lines of the breakpoints of each kind,
counted from one, and no more than one highlight: none while there is no run, and the whole line of
the token that a paused run is at. -/
theorem surface_lines (config : SessionConfig) (host : α) (evaluator : ε) (scheduler : σ)
    (ops : List (SessionOperation α σ)) :
    let s := ops.foldl operate (new config host evaluator scheduler RecordingSurface.empty)
    (∀ kind, s.surface.breakpointLines kind =
        (s.tracker.breakpoints.filter (·.kind = kind)).map (·.position.line + 1)) ∧
      (s.surface.execution = [] ∨ ∃ p : ExecutionPosition, s.surface.execution =
        [⟨p.token.range.toSurface, .currentLine, true, none⟩]) ∧
      (s.controller.state = .idle → s.surface.currentLine? = none) ∧
      (s.controller.state = .paused →
        s.surface.currentLine? = s.controller.position.map (·.token.line + 1) ∧
          ∀ p, s.controller.position = some p → s.surface.execution =
            [⟨p.token.range.toSurface, .currentLine, true, none⟩]) := by
  intro s
  have h : s.Mirrors _ _ := (synced_new config host evaluator scheduler).foldl_operate ops
  exact ⟨RecordingSurface.breakpointLines_eq h.breakpoints, h.execution_eq,
    h.currentLine?_of_idle, fun hpaused => ⟨RecordingSurface.currentLine?_eq (h.paused hpaused),
      fun _ => h.execution_of_paused hpaused⟩⟩

/-- Whatever is done to a session, its surface shows the session as it is. -/
theorem surface_mirrors (config : SessionConfig) (host : α) (evaluator : ε) (scheduler : σ)
    (ops : List (SessionOperation α σ)) :
    let start := new config host evaluator scheduler RecordingSurface.empty
    (ops.foldl operate start).Mirrors ⟨config.allBuiltins, config.analysis⟩
      (start.reported ops) :=
  (synced_new config host evaluator scheduler).foldl_operate ops

end EditorSession

end StackEditor
