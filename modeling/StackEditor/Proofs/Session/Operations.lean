import StackEditor.Proofs.Breakpoint.Reports
import StackEditor.Proofs.Execution.Commands
import StackEditor.Proofs.Session.Breakpoints

/-!
# Operations of a session

What can be done to a session at a time, whatever it was made over. An operation that concerns the
run gives the controller one command, with the source and the breakpoints of the session, and its
reports become events of the session (`operate_of_command?`); every other operation leaves the
controller as it is, but for the scheduler (`exists_controller_operate`). `Effect` lists what an
operation can make of a session, whichever it is. What a host that keeps the protocol does is made
of operations, too (`exists_perform_eq_foldl_operate`).
-/

namespace StackEditor

/-- What can be done to a session at a time. -/
inductive SessionOperation (α σ : Type) where
  /-- The session is told a content. -/
  | changeContent (text : String)
  | setBreakpoint (position : Position) (kind : BreakpointKind) (expression : Option String)
  | unsetBreakpoint (position : Position)
  | toggleBreakpoint (position : Position)
  | toggleAtSurface (position : SurfacePosition)
  | toggleOnLine (line : Nat)
  | clearBreakpoints
  | run
  | pause
  | step
  | stop
  | onTaskDue (task : TaskId)
  | takeEvents
  /-- The host does something to the anchors. -/
  | moveAnchors (change : α → α)
  /-- The host does something to the scheduler. -/
  | schedule (change : σ → σ)

namespace EditorSession

variable {α ε σ η : Type} [AnchorHost α] [Evaluator ε] [StepScheduler σ] [HostSurface η]

/-- The session after one operation. -/
def operate (s : EditorSession α ε σ η) : SessionOperation α σ → EditorSession α ε σ η
  | .changeContent text => s.onContentChanged text
  | .setBreakpoint p kind expression => (s.setBreakpoint p kind expression).2
  | .unsetBreakpoint p => (s.unsetBreakpoint p).2
  | .toggleBreakpoint p => (s.toggleBreakpoint p).2
  | .toggleAtSurface p => (s.toggleAtSurface p).2
  | .toggleOnLine line => (s.toggleOnLine line).2
  | .clearBreakpoints => s.clearBreakpoints
  | .run => s.run.2
  | .pause => s.pause.2
  | .step => s.step.2
  | .stop => s.stop.2
  | .onTaskDue task => (s.onTaskDue task).2
  | .takeEvents => s.takeEvents.2
  | .moveAnchors change => s.withHost (change s.tracker.host)
  | .schedule change => s.withScheduler (change s.controller.scheduler)

/-- The command that an operation of the session gives to the controller. -/
def command? (s : EditorSession α ε σ η) : SessionOperation α σ → Option ControllerCommand
  | .run => some (.run s.source s.tracker.breakpoints)
  | .pause => some .pause
  | .step => some (.step s.source s.tracker.breakpoints)
  | .stop => some .stop
  | .onTaskDue task => some (.onTaskDue task)
  | _ => none

variable {s : EditorSession α ε σ η} {op : SessionOperation α σ}

omit [AnchorHost α] [Evaluator ε] [StepScheduler σ] [HostSurface η] in
theorem eq_stop_of_command? (h : s.command? op = some .stop) : op = .stop := by
  cases op <;> simp [command?] at h ⊢

/-- An operation that concerns the run is a command to the controller. -/
theorem operate_of_command? {command : ControllerCommand} (h : s.command? op = some command) :
    s.operate op = s.withController (s.controller.obey command).2 := by
  cases op with
  | run | pause | step | stop | onTaskDue =>
    obtain rfl := Option.some.inj h
    rfl
  | _ => cases h

omit [AnchorHost α] [Evaluator ε] [StepScheduler σ] in
theorem controller_withTracker (s : EditorSession α ε σ η) (t : Tracker α) :
    (s.withTracker t).controller = s.controller := by
  obtain ⟨surface, heq⟩ := exists_withTracker s t
  rw [heq]

/-- Every other operation leaves the controller as it is, but for the scheduler. -/
theorem exists_controller_operate (h : s.command? op = none) :
    ∃ scheduler, (s.operate op).controller = { s.controller with scheduler } := by
  have hsame : ∀ {s' : EditorSession α ε σ η}, s'.controller = s.controller →
      ∃ scheduler, s'.controller = { s.controller with scheduler } := fun h => ⟨_, h⟩
  cases op with
  | run | pause | step | stop | onTaskDue => cases h
  | changeContent text => exact hsame (controller_withTracker _ _)
  | setBreakpoint p kind expression => exact hsame (controller_withTracker _ _)
  | unsetBreakpoint p => exact hsame (controller_withTracker _ _)
  | toggleBreakpoint p => exact hsame (controller_withTracker _ _)
  | toggleAtSurface p =>
    refine hsame ?_
    rw [operate, toggleAtSurface]
    split
    · exact controller_withTracker _ _
    · rfl
  | toggleOnLine line => exact hsame (controller_withTracker _ _)
  | clearBreakpoints => exact hsame (controller_withTracker _ _)
  | takeEvents => exact hsame rfl
  | moveAnchors change => exact hsame rfl
  | schedule change => exact ⟨_, rfl⟩

omit [AnchorHost α] [Evaluator ε] [StepScheduler σ] in
theorem tracker_withTracker (s : EditorSession α ε σ η) (t : Tracker α) :
    (s.withTracker t).tracker = { t with events := [] } := by
  obtain ⟨surface, heq⟩ := exists_withTracker s t
  rw [heq]

omit [AnchorHost α] [Evaluator ε] [StepScheduler σ] in
theorem tracker_withController (s : EditorSession α ε σ η) (c : Controller ε σ) :
    (s.withController c).tracker = s.tracker := by
  obtain ⟨surface, heq⟩ := exists_withController s c
  rw [heq]

omit [AnchorHost α] [Evaluator ε] [StepScheduler σ] in
theorem controller_withController (s : EditorSession α ε σ η) (c : Controller ε σ) :
    (s.withController c).controller = { c with events := [] } := by
  obtain ⟨surface, heq⟩ := exists_withController s c
  rw [heq]

omit [AnchorHost α] in
/-- What the controller reports of a command is passed on. -/
theorem quiet_obey (h : s.controller.Steady) (command : ControllerCommand) :
    (s.withController (s.controller.obey command).2).controller.Quiet := by
  rw [controller_withController]
  exact (h.obey command).quiet

/-- Between two operations the controller is quiet. -/
theorem quiet_operate (h : s.controller.Quiet) (op : SessionOperation α σ) :
    (s.operate op).controller.Quiet := by
  cases hcommand : s.command? op with
  | none =>
    obtain ⟨scheduler, heq⟩ := exists_controller_operate hcommand
    rw [heq]
    exact ⟨h.steady.withScheduler scheduler, h.events⟩
  | some command =>
    rw [operate_of_command? hcommand]
    exact quiet_obey h.steady command

/-- What an operation makes of the session `s`, unless it takes the events: it is told a content, it
goes on with a tracker that has been revised or with a controller that has obeyed a command, its
host has done something to the anchors or to the scheduler, or nothing happens. -/
inductive Effect (s : EditorSession α ε σ η) : EditorSession α ε σ η → Prop
  | told (text : String) : Effect s (s.onContentChanged text)
  | revised {t : Tracker α} (revises : s.tracker.Revises t) : Effect s (s.withTracker t)
  | obeyed (command : ControllerCommand) :
      Effect s (s.withController (s.controller.obey command).2)
  | moved (host : α) : Effect s (s.withHost host)
  | scheduled (scheduler : σ) : Effect s (s.withScheduler scheduler)
  | unchanged : Effect s s

/-- Apart from the one that takes the events, each operation has one of the effects. -/
theorem effect_operate (hop : op ≠ .takeEvents) : s.Effect (s.operate op) := by
  cases op with
  | changeContent text => exact .told text
  | setBreakpoint p kind expression => exact .revised (s.tracker.revises_set p kind expression)
  | unsetBreakpoint p => exact .revised (s.tracker.revises_unset p)
  | toggleBreakpoint p => exact .revised (s.tracker.revises_toggle p)
  | toggleAtSurface p =>
    rw [operate, toggleAtSurface]
    split
    · exact .revised (s.tracker.revises_toggle _)
    · exact .unchanged
  | toggleOnLine line => exact .revised (s.tracker.revises_toggle _)
  | clearBreakpoints => exact .revised s.tracker.revises_clear
  | run => exact .obeyed (.run s.source s.tracker.breakpoints)
  | pause => exact .obeyed .pause
  | step => exact .obeyed (.step s.source s.tracker.breakpoints)
  | stop => exact .obeyed .stop
  | onTaskDue task => exact .obeyed (.onTaskDue task)
  | takeEvents => exact absurd rfl hop
  | moveAnchors change => exact .moved _
  | schedule change => exact .scheduled _

omit [AnchorHost α] in
/-- A call of a host that keeps the protocol is made of operations. -/
theorem exists_perform_eq_foldl_operate (s : EditorSession TextAnchors ε σ η)
    (call : SessionCall σ) :
    ∃ ops : List (SessionOperation TextAnchors σ), s.perform call = ops.foldl operate s := by
  have hedit : ∀ host : TextAnchors, ∃ ops : List (SessionOperation TextAnchors σ),
      (s.withHost host).announce = ops.foldl operate s := fun host =>
    ⟨[.moveAnchors fun _ => host, .changeContent host.text], rfl⟩
  cases call with
  | replaceText text => exact hedit _
  | replaceRange range replacement =>
    rw [perform]
    split
    · exact hedit _
    · exact ⟨[], rfl⟩
  | announce => exact ⟨[.changeContent s.tracker.host.text], rfl⟩
  | setBreakpoint p kind expression => exact ⟨[.setBreakpoint p kind expression], rfl⟩
  | unsetBreakpoint p => exact ⟨[.unsetBreakpoint p], rfl⟩
  | toggleBreakpoint p => exact ⟨[.toggleBreakpoint p], rfl⟩
  | toggleAtSurface p => exact ⟨[.toggleAtSurface p], rfl⟩
  | toggleOnLine line => exact ⟨[.toggleOnLine line], rfl⟩
  | clearBreakpoints => exact ⟨[.clearBreakpoints], rfl⟩
  | run => exact ⟨[.run], rfl⟩
  | pause => exact ⟨[.pause], rfl⟩
  | step => exact ⟨[.step], rfl⟩
  | stop => exact ⟨[.stop], rfl⟩
  | onTaskDue task => exact ⟨[.onTaskDue task], rfl⟩
  | takeEvents => exact ⟨[.takeEvents], rfl⟩
  | schedule change => exact ⟨[.schedule change], rfl⟩

end EditorSession

end StackEditor
