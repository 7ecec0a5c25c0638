import StackEditor.Execution.Walker
import StackEditor.Proofs.Execution.Outcomes

/-!
# The highlight is never stale

The controller reports where the execution is to be highlighted, and the last report counts
(`highlighted`). It remembers where the run is, but not what it has reported. `Relit` lists what a
command leaves highlighted, and from the list it follows that the last report always fits the
present state (`Highlights`): nothing is highlighted without a run, a paused run is highlighted
where it is, and a running run is highlighted where it is or not at all. Without the option to
follow a running run, it is not highlighted at all (`highlight_fits`).
-/

namespace StackEditor

/-- The position that the event reports. -/
def ControllerEvent.position? : ControllerEvent → Option (Option ExecutionPosition)
  | positionChanged position => some position
  | _ => none

/-- The position that is highlighted after the events: the last one that they report. If they report
none, it is still the one that was highlighted before. -/
def highlighted (before : Option ExecutionPosition) (events : List ControllerEvent) :
    Option ExecutionPosition :=
  (events.filterMap ControllerEvent.position?).getLastD before

theorem highlighted_append (before : Option ExecutionPosition)
    (events more : List ControllerEvent) :
    highlighted before (events ++ more) = highlighted (highlighted before events) more := by
  simp only [highlighted, List.filterMap_append, List.getLastD_eq_getLast?, List.getLast?_append,
    Option.getD_or]

namespace Controller

variable {ε σ : Type} {c : Controller ε σ} {command : ControllerCommand} {accepted : Bool}
  {calls : List EvaluatorCall} {events : List ControllerEvent} {s s' : Standing} {highlight : Bool}
  {before after : Option ExecutionPosition}

/-- A change of state leaves the highlight as it is. -/
theorem highlighted_stateEvents (before : Option ExecutionPosition) (old new : ExecutionState) :
    highlighted before (stateEvents old new) = before := by
  unfold stateEvents
  split <;> rfl

/-! ## What a command leaves highlighted -/

/-- What a command leaves highlighted on the way from the standing `s` to the standing `s'`, if
`before` was highlighted. -/
inductive Relit (highlight : Bool) (s s' : Standing) (before : Option ExecutionPosition) :
    Option ExecutionPosition → Prop
  | refused (same : s' = s) : Relit highlight s s' before before
  | started (idle : s.state = .idle) (running : s'.state = .running) :
      Relit highlight s s' before before
  | resumed (running : s'.state = .running) : Relit highlight s s' before none
  | paused (paused : s'.state = .paused) : Relit highlight s s' before s'.position
  | wentOn (running : s.state = .running) (same : s'.state = s.state) :
      Relit highlight s s' before (if highlight then s'.position else before)
  | ended (idle : s'.state = .idle) : Relit highlight s s' before none

/-- What follows a step leaves the highlight as listed, seen from any standing in the same state. -/
theorem Aftermath.relit {result : Except EvalError StepResult} {s₀ : Standing}
    (h : Aftermath highlight s result events s') (hstate : s₀.state = s.state)
    (before : Option ExecutionPosition) :
    Relit highlight s₀ s' before (highlighted before events) := by
  cases h with
  | ended =>
    rw [highlighted_append, highlighted_append, highlighted_stateEvents]
    exact .ended rfl
  | paused =>
    rw [highlighted_append]
    exact .paused rfl
  | wentOn ok done hit running =>
    have hwent : ∀ {position}, Relit highlight s₀ { s with position } before
        (if highlight then position else before) :=
      .wentOn (hstate.trans running) hstate.symm
    cases highlight with
    | true => exact hwent
    | false => exact hwent

section
variable [Evaluator ε]

/-- Every deed leaves the highlight as listed. -/
theorem Deed.relit (h : c.Deed command accepted calls events s)
    (before : Option ExecutionPosition) :
    Relit c.options.highlightWhileRunning c.standing s before (highlighted before events) := by
  cases h with
  | refused => exact .refused rfl
  | ran opening =>
    rcases opening.balance.2.2 with hidle | hpaused
    · rw [if_neg (by simp [hidle])]
      exact .started hidle rfl
    · rw [if_pos hpaused]
      exact .resumed rfl
  | paused => exact .paused rfl
  | stepped opening aftermath => exact aftermath.relit opening.balance.2.1.symm before
  | stopped => exact .ended rfl
  | fired pending running aftermath => exact aftermath.relit rfl before

end

/-! ## What is highlighted -/

/-- What is highlighted fits the standing: nothing without a run, and the position of a run that is
paused. A running run is highlighted at its position, if it is to be followed, or not at all. -/
structure Highlights (highlight : Bool) (s : Standing) (shown : Option ExecutionPosition) :
    Prop where
  idle : s.state = .idle → shown = none
  paused : s.state = .paused → shown = s.position
  running : s.state = .running → shown = none ∨ highlight = true ∧ shown = s.position

/-- The rule for the highlight holds after a command when it held before. -/
theorem Relit.highlights (h : Relit highlight s s' before after)
    (hbefore : Highlights highlight s before) : Highlights highlight s' after := by
  cases h with
  | refused same =>
    subst same
    exact hbefore
  | started idle running =>
    have hnone := hbefore.idle idle
    exact ⟨fun _ => hnone, by simp [running], fun _ => .inl hnone⟩
  | resumed running => exact ⟨fun _ => rfl, by simp [running], fun _ => .inl rfl⟩
  | paused paused => exact ⟨by simp [paused], fun _ => rfl, by simp [paused]⟩
  | wentOn running same =>
    have hstate := same.trans running
    refine ⟨by simp [hstate], by simp [hstate], fun _ => ?_⟩
    cases highlight with
    | true => exact .inr ⟨rfl, rfl⟩
    | false =>
      -- a run that is not followed was not highlighted before either
      rcases hbefore.running running with hnone | ⟨hfollow, -⟩
      · exact .inl hnone
      · cases hfollow
  | ended idle => exact ⟨fun _ => rfl, by simp [idle], by simp [idle]⟩

section
variable [Evaluator ε]

/-- A run that is started or taken up again is not highlighted. -/
theorem Deed.highlighted_run {source : String} {bs : List Breakpoint}
    (h : c.Deed (.run source bs) true calls events s)
    (hbefore : Highlights highlight c.standing before) : highlighted before events = none := by
  cases h with
  | ran opening =>
    rcases opening.balance.2.2 with hidle | hpaused
    · rw [if_neg (by simp [hidle])]
      exact hbefore.idle hidle
    · rw [if_pos hpaused]
      rfl

/-! ## All commands -/

variable [StepScheduler σ]

/-- A controller with the given options, and what it has reported in all fits where it stands. -/
structure Lit (options : ControllerOptions) (c : Controller ε σ) : Prop where
  steady : c.Steady
  options_eq : c.options = options
  highlights : Highlights options.highlightWhileRunning c.standing (highlighted none c.events)

variable {options : ControllerOptions}

omit [Evaluator ε] [StepScheduler σ] in
theorem lit_new (evaluator : ε) (scheduler : σ) (options : ControllerOptions) :
    (new evaluator scheduler options).Lit options where
  steady := steady_new evaluator scheduler options
  options_eq := rfl
  highlights := ⟨fun _ => rfl, fun _ => rfl, fun _ => .inl rfl⟩

theorem Lit.obey (h : c.Lit options) (command : ControllerCommand) :
    (c.obey command).2.Lit options := by
  obtain ⟨calls, events, hdeed, hadds⟩ := h.steady.exists_deed command
  have hrelit := hdeed.relit (highlighted none c.events)
  rw [h.options_eq, ← highlighted_append, ← hadds.events] at hrelit
  exact ⟨h.steady.obey command, hadds.options.trans h.options_eq,
    hrelit.highlights h.highlights⟩

theorem Lit.serve (h : c.Lit options) (call : HostCall σ) : (c.serve call).Lit options := by
  cases call with
  | command command => exact h.obey command
  | schedule change => exact ⟨h.steady.withScheduler _, h.options_eq, h.highlights⟩

/-- The rule for the highlight holds after any calls of the host. -/
theorem Lit.foldl_serve (h : c.Lit options) (calls : List (HostCall σ)) :
    (calls.foldl Controller.serve c).Lit options :=
  List.foldlRecOn calls Controller.serve h fun _ h call _ => h.serve call

/-- After any calls of a host, the position that was reported last is that of the run if it is
paused, and none if there is no run; if the run is running it is none, or its position if running
runs are to be followed. So without that option every command that leaves the run running leaves
nothing highlighted, and so does in any case a command that starts a run, takes it up again or stops
it, or in the course of which it ends. -/
theorem highlight_fits (evaluator : ε) (scheduler : σ) (options : ControllerOptions)
    (calls : List (HostCall σ)) :
    let c := calls.foldl serve (new evaluator scheduler options)
    let shown := highlighted none c.events
    c.state ≠ .stopped ∧ (c.state = .idle → shown = none) ∧
      (c.state = .paused → shown = c.position) ∧
      (c.state = .running →
        shown = none ∨ options.highlightWhileRunning = true ∧ shown = c.position) ∧
      ∀ command, let x : Exchange ε σ := ⟨c, command⟩
        (options.highlightWhileRunning = false → x.after.state = .running →
          highlighted none x.after.events = none) ∧
        (x.accepted = true → ((∃ source bs, command = .run source bs) ∨ command = .stop) →
          highlighted none x.after.events = none) ∧
        ∀ outcome, .runFinished outcome ∈ x.events → highlighted none x.after.events = none := by
  intro c shown
  have hlit : c.Lit options := (lit_new evaluator scheduler options).foldl_serve calls
  obtain ⟨hidle, hpaused, hrunning⟩ := hlit.highlights
  refine ⟨hlit.steady.state, hidle, hpaused, hrunning, fun command => ?_⟩
  intro x
  have hafter : x.after.Lit options := hlit.obey command
  obtain ⟨calls, hdeed, hevents⟩ := Exchange.exists_deed (x := x) hlit.steady
  have hended : ∀ outcome, .runFinished outcome ∈ x.events →
      highlighted none x.after.events = none := fun outcome hmem =>
    hafter.highlights.idle ((hdeed.runFinished_spec outcome).2.2 hmem)
  refine ⟨fun hfollow hstate => ?_, fun haccepted hcommand => ?_, hended⟩
  · rcases hafter.highlights.running hstate with hnone | ⟨hfollow', -⟩
    · exact hnone
    · rw [hfollow] at hfollow'
      cases hfollow'
  · rcases hcommand with ⟨source, bs, rfl⟩ | rfl
    · rw [haccepted] at hdeed
      rw [hevents, highlighted_append]
      exact hdeed.highlighted_run hlit.highlights
    · have hcancelled := (hdeed.runFinished_spec .cancelled).1.2 (.inl ⟨rfl, rfl, haccepted⟩)
      exact hended .cancelled hcancelled

/-- After its first step a run is somewhere, followed or not. It is highlighted there if it is
followed, and not at all otherwise. -/
theorem firstWord_highlighted :
    let start (highlightWhileRunning : Bool) : Controller TokenWalker ManualScheduler :=
      new (.new none) .empty ⟨0, highlightWhileRunning⟩
    let calls : List (HostCall ManualScheduler) :=
      [.command (.run "a b" []), .command (.onTaskDue ⟨0⟩)]
    let followed := calls.foldl serve (start true)
    let quiet := calls.foldl serve (start false)
    followed.state = .running ∧ followed.position.isSome ∧
      highlighted none followed.events = followed.position ∧
      quiet.state = .running ∧ quiet.position.isSome ∧ highlighted none quiet.events = none := by
  intro start calls followed quiet
  have hfollowed : followed.state = .running := by decide +kernel
  have hquiet : quiet.state = .running := by decide +kernel
  obtain ⟨-, -, -, hshown, -⟩ :=
    highlight_fits (TokenWalker.new none) ManualScheduler.empty ⟨0, true⟩ calls
  obtain ⟨-, -, -, hhidden, -⟩ :=
    highlight_fits (TokenWalker.new none) ManualScheduler.empty ⟨0, false⟩ calls
  refine ⟨hfollowed, by decide +kernel, ?_, hquiet, by decide +kernel, ?_⟩
  · have hsome : highlighted none followed.events ≠ none := by decide +kernel
    exact ((hshown hfollowed).resolve_left hsome).2
  · exact (hhidden hquiet).resolve_right (by simp)

end

end Controller

end StackEditor
