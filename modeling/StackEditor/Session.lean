import StackEditor.Breakpoint.Tracker
import StackEditor.Config
import StackEditor.Execution.Delivery

/-!
# Editor sessions

A session holds one open document together with its diagnostics, its breakpoints and its run. A
new content is read into tokens once, and diagnostics and breakpoints are brought up to date with
these same tokens. Whatever changes is shown on the surface and reported as an event.

Host, evaluator, scheduler and surface are those of the session's maker.
-/

namespace StackEditor

/-- What a session reports. -/
inductive SessionEvent where
  | diagnosticsChanged (diagnostics : List Diagnostic)
  | breakpointsChanged (breakpoints : List Breakpoint)
  | executionPositionChanged (position : Option ExecutionPosition)
  | stateChanged (state : ExecutionState)
  | runFinished (outcome : RunOutcome)
  deriving DecidableEq

/-- Why a session refuses a command. -/
inductive SessionError where
  | breakpoint (cause : BreakpointError)
  | config (cause : ConfigError)
  | invalidSurfacePosition (position : SurfacePosition)
  deriving DecidableEq

/-- The error as it is shown to a reader. -/
def SessionError.message : SessionError → String
  | breakpoint cause => "Breakpoint error: " ++ cause.message
  | config cause => "Configuration error: " ++ cause.message
  | invalidSurfacePosition p =>
    "Invalid surface position " ++ toString p.lineNumber ++ ":" ++ toString p.column

/-- A session over a host of anchors, an evaluator, a scheduler and a surface. -/
structure EditorSession (α ε σ η : Type) where
  /-- How a content is read into tokens. -/
  lexer : String → List Token
  analyzer : Analyzer
  tracker : Tracker α
  controller : Controller ε σ
  surface : η
  source : String
  tokens : List Token
  diagnostics : List Diagnostic
  events : List SessionEvent

namespace EditorSession

variable {α ε σ η : Type}

/-- A session without content. -/
def new (config : SessionConfig) (host : α) (evaluator : ε) (scheduler : σ) (surface : η) :
    EditorSession α ε σ η :=
  { lexer := tokenize, analyzer := ⟨config.allBuiltins, config.analysis⟩, tracker := .new host,
    controller := .new evaluator scheduler config.execution, surface, source := "", tokens := [],
    diagnostics := [], events := [] }

/-- A session with the configuration of a JSON text. -/
def ofConfigText (text : String) (host : α) (evaluator : ε) (scheduler : σ) (surface : η) :
    Except SessionError (EditorSession α ε σ η) :=
  match SessionConfig.ofText text with
  | .ok config => .ok (new config host evaluator scheduler surface)
  | .error e => .error (.config e)

/-- The events so far, and the session without them. -/
def takeEvents (s : EditorSession α ε σ η) : List SessionEvent × EditorSession α ε σ η :=
  (s.events, { s with events := [] })

section
variable [HostSurface η]

/-- Shows and reports lists of breakpoints, one after the other. -/
def showBreakpoints (s : EditorSession α ε σ η) (lists : List (List Breakpoint)) :
    EditorSession α ε σ η :=
  lists.foldl (fun s bs =>
    { s with
      surface := publishBreakpoints s.surface bs
      events := s.events ++ [.breakpointsChanged bs] }) s

/-- Shows and reports what the tracker has reported. -/
def drainTracker (s : EditorSession α ε σ η) : EditorSession α ε σ η :=
  let (lists, tracker) := s.tracker.takeEvents
  { s with tracker }.showBreakpoints lists

/-- Shows and reports one event of the controller. -/
def showExecution (s : EditorSession α ε σ η) : ControllerEvent → EditorSession α ε σ η
  | .stateChanged state => { s with events := s.events ++ [.stateChanged state] }
  | .positionChanged p =>
    { s with
      surface := publishPosition s.surface p
      events := s.events ++ [.executionPositionChanged p] }
  | .runFinished outcome => { s with events := s.events ++ [.runFinished outcome] }

/-- Shows and reports what the controller has reported. -/
def drainController (s : EditorSession α ε σ η) : EditorSession α ε σ η :=
  let (events, controller) := s.controller.takeEvents
  events.foldl showExecution { s with controller }

/-- The session with a new tracker, whose reports are passed on. -/
def withTracker (s : EditorSession α ε σ η) (t : Tracker α) : EditorSession α ε σ η :=
  { s with tracker := t }.drainTracker

/-- The session with a new controller, whose reports are passed on. -/
def withController (s : EditorSession α ε σ η) (c : Controller ε σ) : EditorSession α ε σ η :=
  { s with controller := c }.drainController

/-! ## Content and breakpoints -/

section
variable [AnchorHost α]

/-- Takes a new content. The host has moved its anchors already. -/
def onContentChanged (s : EditorSession α ε σ η) (text : String) : EditorSession α ε σ η :=
  let tokens := s.lexer text
  let diagnostics := s.analyzer.analyzeTokens tokens
  let s := { s with
    source := text
    tokens
    diagnostics
    surface := publishDiagnostics s.surface diagnostics
    events := s.events ++ [SessionEvent.diagnosticsChanged diagnostics] }
  s.withTracker (s.tracker.reconcile tokens).2

/-- Sets a breakpoint at the token that covers `p`. -/
def setBreakpoint (s : EditorSession α ε σ η) (p : Position) (kind : BreakpointKind)
    (expression : Option String) : Except SessionError Position × EditorSession α ε σ η :=
  let (result, t) := s.tracker.set p kind expression
  (result.mapError .breakpoint, s.withTracker t)

/-- Removes the breakpoint at exactly this place. -/
def unsetBreakpoint (s : EditorSession α ε σ η) (p : Position) : Bool × EditorSession α ε σ η :=
  let (removed, t) := s.tracker.unset p
  (removed, s.withTracker t)

/-- Toggles the breakpoint at the token that covers `p`. -/
def toggleBreakpoint (s : EditorSession α ε σ η) (p : Position) :
    Except SessionError ToggleOutcome × EditorSession α ε σ η :=
  let (result, t) := s.tracker.toggle p
  (result.mapError .breakpoint, s.withTracker t)

/-- Toggles the breakpoint at a place of the surface. -/
def toggleAtSurface (s : EditorSession α ε σ η) (p : SurfacePosition) :
    Except SessionError ToggleOutcome × EditorSession α ε σ η :=
  match p.toSource? with
  | some p => s.toggleBreakpoint p
  | none => (.error (.invalidSurfacePosition p), s)

/-- Toggles the breakpoint at the first token of a line. -/
def toggleOnLine (s : EditorSession α ε σ η) (line : Nat) :
    Except SessionError ToggleOutcome × EditorSession α ε σ η :=
  s.toggleBreakpoint ((s.tracker.positionOnLine? line).getD ⟨line, 0⟩)

/-- Removes all breakpoints. -/
def clearBreakpoints (s : EditorSession α ε σ η) : EditorSession α ε σ η :=
  s.withTracker s.tracker.clear

end

/-! ## Execution -/

section
variable [StepScheduler σ]

/-- Pauses the run. -/
def pause (s : EditorSession α ε σ η) : Bool × EditorSession α ε σ η :=
  let (enabled, c) := s.controller.pause
  (enabled, s.withController c)

variable [Evaluator ε]

/-- Starts a run over the content, or goes on with the paused one. -/
def run (s : EditorSession α ε σ η) : Bool × EditorSession α ε σ η :=
  let (enabled, c) := s.controller.run s.source s.tracker.breakpoints
  (enabled, s.withController c)

/-- Takes one step. -/
def step (s : EditorSession α ε σ η) : Bool × EditorSession α ε σ η :=
  let (enabled, c) := s.controller.step s.source s.tracker.breakpoints
  (enabled, s.withController c)

/-- Abandons the run. -/
def stop (s : EditorSession α ε σ η) : Bool × EditorSession α ε σ η :=
  let (enabled, c) := s.controller.stop
  (enabled, s.withController c)

/-- The host calls for a step. -/
def onTaskDue (s : EditorSession α ε σ η) (task : TaskId) : Bool × EditorSession α ε σ η :=
  let (stepped, c) := s.controller.onTaskDue task
  (stepped, s.withController c)

end

end

instance [Evaluator ε] [HostSurface η] : TaskHost (EditorSession α ε ManualScheduler η) where
  popTask s :=
    let (task, controller) := TaskHost.popTask s.controller
    (task, { s with controller })
  takeDue s ms :=
    let (tasks, controller) := TaskHost.takeDue s.controller ms
    (tasks, { s with controller })
  deliver := onTaskDue

end EditorSession

end StackEditor
