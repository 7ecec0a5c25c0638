import StackEditor.Proofs.Execution.Deeds

/-!
# Histories

A host gives commands to a controller, and in between it does with the scheduler what it likes. The
history of its calls is the list of its commands, each with the controller that was given it: an
`Exchange`. Answer, calls of the evaluator and events can be read off an exchange, and what can be
read is listed (`Exchange.deed`). A property of the calls, the events and the standing that every
deed keeps holds after all calls (`logs_induction`).
-/

namespace StackEditor

/-- What a host does at a time. -/
inductive HostCall (σ : Type) where
  | command (command : ControllerCommand)
  /-- It does something to the scheduler. -/
  | schedule (change : σ → σ)

/-- A command, with the controller that it is given to. -/
structure Exchange (ε σ : Type) where
  before : Controller ε σ
  command : ControllerCommand

variable {ε σ : Type} [Evaluator ε] [StepScheduler σ]

namespace Exchange

/-- The state allows the command. -/
def accepted (x : Exchange ε σ) : Bool := (x.before.obey x.command).1

/-- The controller after the command. -/
def after (x : Exchange ε σ) : Controller ε σ := (x.before.obey x.command).2

/-- The events that are reported in the course of the command. -/
def events (x : Exchange ε σ) : List ControllerEvent :=
  x.after.events.drop x.before.events.length

/-- The calls that the evaluator hears in the course of the command. -/
def calls (x : Exchange (Traced ε) σ) : List EvaluatorCall :=
  x.after.evaluator.calls.drop x.before.evaluator.calls.length

/-- What an exchange with a steady controller does is listed. -/
theorem exists_deed {x : Exchange ε σ} (h : x.before.Steady) :
    ∃ calls, x.before.Deed x.command x.accepted calls x.events x.after.standing ∧
      x.after.events = x.before.events ++ x.events := by
  obtain ⟨calls, events, hdeed, hadds⟩ := h.exists_deed x.command
  have hevents : x.after.events = x.before.events ++ events := hadds.events
  obtain rfl : x.events = events := by rw [Exchange.events, hevents, List.drop_left]
  exact ⟨calls, hdeed, hevents⟩

/-- What can be seen of an exchange with a steady controller. -/
theorem deed {x : Exchange (Traced ε) σ} (h : x.before.Steady) :
    x.before.Deed x.command x.accepted x.calls x.events x.after.standing ∧
      x.after.evaluator.calls = x.before.evaluator.calls ++ x.calls ∧
      x.after.events = x.before.events ++ x.events := by
  obtain ⟨calls, events, hdeed, hadds⟩ := h.exists_deed x.command
  have hcalls : x.after.evaluator.calls = x.before.evaluator.calls ++ calls :=
    hadds.heard.calls_eq
  have hevents : x.after.events = x.before.events ++ events := hadds.events
  obtain rfl : x.calls = calls := by rw [Exchange.calls, hcalls, List.drop_left]
  obtain rfl : x.events = events := by rw [Exchange.events, hevents, List.drop_left]
  exact ⟨hdeed, hcalls, hevents⟩

end Exchange

namespace Controller

/-- The controller after a call of its host. -/
def serve (c : Controller ε σ) : HostCall σ → Controller ε σ
  | .command command => (c.obey command).2
  | .schedule change => { c with scheduler := change c.scheduler }

/-- The commands among the calls, each with the controller that it is given to. -/
def history (c : Controller ε σ) : List (HostCall σ) → List (Exchange ε σ)
  | [] => []
  | .command command :: calls => ⟨c, command⟩ :: (c.obey command).2.history calls
  | .schedule change :: calls => { c with scheduler := change c.scheduler }.history calls

theorem Steady.serve {c : Controller ε σ} (h : c.Steady) (call : HostCall σ) :
    (c.serve call).Steady := by
  cases call with
  | command command => exact h.obey command
  | schedule change => exact h.withScheduler _

theorem Steady.foldl_serve {c : Controller ε σ} (h : c.Steady) (calls : List (HostCall σ)) :
    (calls.foldl Controller.serve c).Steady := by
  induction calls generalizing c with
  | nil => exact h
  | cons call calls ih => exact ih (h.serve call)

/-- In the history of a steady controller the controller is always steady. -/
theorem Steady.of_mem_history {c : Controller ε σ} (h : c.Steady) {calls : List (HostCall σ)}
    {x : Exchange ε σ} (hx : x ∈ c.history calls) : x.before.Steady := by
  induction calls generalizing c with
  | nil => cases hx
  | cons call calls ih =>
    cases call with
    | command command =>
      rcases List.mem_cons.1 hx with rfl | hx
      · exact h
      · exact ih (h.obey command) hx
    | schedule change => exact ih (h.withScheduler _) hx

/-- Whatever calls a host makes of a steady controller, its evaluator becomes what it does by calls
that it hears. -/
theorem Steady.exists_heard {c : Controller ε σ} (h : c.Steady) (calls : List (HostCall σ)) :
    ∃ log, HearsAll c.evaluator log (calls.foldl Controller.serve c).evaluator := by
  induction calls generalizing c with
  | nil => exact ⟨[], .nil _⟩
  | cons call calls ih =>
    obtain ⟨log, hlog⟩ := ih (h.serve call)
    cases call with
    | command command =>
      obtain ⟨heard, events, -, hadds⟩ := h.exists_deed command
      exact ⟨heard ++ log, hadds.heard.append hlog⟩
    | schedule change => exact ⟨log, hlog⟩

/-! ## Logs -/

variable {c : Controller (Traced ε) σ}

/-- The evaluator hears what it hears in the exchanges, and nothing else. -/
theorem Steady.calls_foldl_serve (h : c.Steady) (calls : List (HostCall σ)) :
    (calls.foldl Controller.serve c).evaluator.calls =
      c.evaluator.calls ++ (c.history calls).flatMap (·.calls) := by
  induction calls generalizing c with
  | nil => simp [history]
  | cons call calls ih =>
    cases call with
    | command command =>
      have hcalls := (Exchange.deed (x := ⟨c, command⟩) h).2.1
      rw [List.foldl_cons, ih (h.serve _), history, List.flatMap_cons, ← List.append_assoc,
        ← hcalls]
      rfl
    | schedule change => exact ih (h.withScheduler _)

/-- The events are those that are reported in the exchanges. -/
theorem Steady.events_foldl_serve (h : c.Steady) (calls : List (HostCall σ)) :
    (calls.foldl Controller.serve c).events =
      c.events ++ (c.history calls).flatMap (·.events) := by
  induction calls generalizing c with
  | nil => simp [history]
  | cons call calls ih =>
    cases call with
    | command command =>
      have hevents := (Exchange.deed (x := ⟨c, command⟩) h).2.2
      rw [List.foldl_cons, ih (h.serve _), history, List.flatMap_cons, ← List.append_assoc,
        ← hevents]
      rfl
    | schedule change => exact ih (h.withScheduler _)

/-- What holds of the empty logs of a new controller, and is kept by every deed of a steady one,
holds after all calls. -/
theorem logs_induction {P : List EvaluatorCall → List ControllerEvent → Standing → Prop}
    (new : P [] [] ⟨.idle, none, none, 0⟩)
    (deed : ∀ {c : Controller (Traced ε) σ} {command : ControllerCommand} {accepted : Bool}
      {calls : List EvaluatorCall} {events : List ControllerEvent} {s : Standing},
      c.Steady → P c.evaluator.calls c.events c.standing →
        c.Deed command accepted calls events s →
          P (c.evaluator.calls ++ calls) (c.events ++ events) s)
    (evaluator : ε) (scheduler : σ) (options : ControllerOptions) (calls : List (HostCall σ)) :
    let c := calls.foldl serve (Controller.new (Traced.watch evaluator) scheduler options)
    P c.evaluator.calls c.events c.standing := by
  have hrun : ∀ {c : Controller (Traced ε) σ}, c.Steady →
      P c.evaluator.calls c.events c.standing →
        P (calls.foldl serve c).evaluator.calls (calls.foldl serve c).events
          (calls.foldl serve c).standing := by
    induction calls with
    | nil => exact fun _ hP => hP
    | cons call calls ih =>
      intro c h hP
      cases call with
      | command command =>
        obtain ⟨hdeed, hcalls, hevents⟩ := Exchange.deed (x := ⟨c, command⟩) h
        have hnext := deed h hP hdeed
        rw [← hcalls, ← hevents] at hnext
        exact ih (h.serve (.command command)) hnext
      | schedule change => exact ih (h.withScheduler _) hP
  exact hrun (steady_new _ _ _) new

end Controller

end StackEditor
