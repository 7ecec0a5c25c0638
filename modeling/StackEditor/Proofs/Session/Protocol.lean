import StackEditor.Proofs.Anchor.Store
import StackEditor.Session

/-!
# The protocol between host and session

A host that keeps a text and its anchors opens a session by telling it the text, and tells it the
new text right after every change. Apart from that it may call the session at will, and do with the
scheduler what it likes. `SessionCall` lists what a host can do at a time, and `Reached` is the set
of sessions that it can get to. Evaluator, scheduler and surface are arbitrary.
-/

namespace StackEditor

/-- What a host does at a time. -/
inductive SessionCall (σ : Type) where
  /-- It replaces the whole text, and tells. -/
  | replaceText (text : String)
  /-- It replaces the text within a range, and tells. Nothing happens if the text has no such
  range. -/
  | replaceRange (range : Range) (replacement : String)
  /-- It tells the text once more. -/
  | announce
  | setBreakpoint (position : Position) (kind : BreakpointKind) (expression : Option String)
  | unsetBreakpoint (position : Position)
  | toggleBreakpoint (position : Position)
  | toggleAtSurface (position : SurfacePosition)
  | toggleOnLine (line : Nat)
  | clearBreakpoints
  | run
  | pause
  | step
  | stop
  | onTaskDue (task : TaskId)
  | takeEvents
  /-- It does something to the scheduler. -/
  | schedule (change : σ → σ)

namespace EditorSession

variable {α ε σ η : Type}

/-- The session after its host has changed the text or the anchors. -/
def withHost (s : EditorSession α ε σ η) (host : α) : EditorSession α ε σ η :=
  { s with tracker := { s.tracker with host } }

/-- The session after its host has changed the scheduler. -/
def withScheduler (s : EditorSession α ε σ η) (scheduler : σ) : EditorSession α ε σ η :=
  { s with controller := { s.controller with scheduler } }

variable [HostSurface η]

/-- The host tells the session the text. -/
def announce (s : EditorSession TextAnchors ε σ η) : EditorSession TextAnchors ε σ η :=
  s.onContentChanged s.tracker.host.text

/-- A new session over a text without anchors, or over no text yet, that has been told the text. -/
def opened (config : SessionConfig) (text : Option String) (evaluator : ε) (scheduler : σ)
    (surface : η) : EditorSession TextAnchors ε σ η :=
  (new config (text.elim .empty .ofText) evaluator scheduler surface).announce

variable [Evaluator ε] [StepScheduler σ]

/-- The session after one call. -/
def perform (s : EditorSession TextAnchors ε σ η) :
    SessionCall σ → EditorSession TextAnchors ε σ η
  | .replaceText text => (s.withHost (s.tracker.host.replaceText text)).announce
  | .replaceRange range replacement =>
    match s.tracker.host.replaceRange? range replacement with
    | some host => (s.withHost host).announce
    | none => s
  | .announce => s.announce
  | .setBreakpoint p kind expression => (s.setBreakpoint p kind expression).2
  | .unsetBreakpoint p => (s.unsetBreakpoint p).2
  | .toggleBreakpoint p => (s.toggleBreakpoint p).2
  | .toggleAtSurface p => (s.toggleAtSurface p).2
  | .toggleOnLine line => (s.toggleOnLine line).2
  | .clearBreakpoints => s.clearBreakpoints
  | .run => s.run.2
  | .pause => s.pause.2
  | .step => s.step.2
  | .stop => s.stop.2
  | .onTaskDue task => (s.onTaskDue task).2
  | .takeEvents => s.takeEvents.2
  | .schedule change => s.withScheduler (change s.controller.scheduler)

/-- The sessions that a host gets to. -/
inductive Reached : EditorSession TextAnchors ε σ η → Prop
  | opened (config : SessionConfig) (text : Option String) (evaluator : ε) (scheduler : σ)
      (surface : η) : Reached (opened config text evaluator scheduler surface)
  | call {s : EditorSession TextAnchors ε σ η} (h : Reached s) (c : SessionCall σ) :
      Reached (s.perform c)

end EditorSession

end StackEditor
