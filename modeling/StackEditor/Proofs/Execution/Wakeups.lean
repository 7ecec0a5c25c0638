import StackEditor.Execution.Walker
import StackEditor.Proofs.Execution.History

/-!
# Calls for steps

A task that has left its queue cannot be called back, so a host may call for a step that nobody
waits for any more: late, again, or under a name that it made up. Such a call is refused and changes
nothing. The tasks whose calls are accepted, followed by the one that is waited for, stand in the
order in which the scheduler gave them out (`sublist_issued`); so none is accepted twice if the
scheduler gives out no task twice.
-/

namespace StackEditor

/-- A scheduler, with the tasks that it has given out, oldest first. -/
structure Issuing (σ : Type) where
  scheduler : σ
  issued : List TaskId

namespace Issuing

variable {σ : Type}

/-- A scheduler whose tasks are noted from now on. -/
def watch (scheduler : σ) : Issuing σ := ⟨scheduler, []⟩

instance [StepScheduler σ] : StepScheduler (Issuing σ) where
  schedule s delay :=
    let (task, scheduler) := StepScheduler.schedule s.scheduler delay
    (task, ⟨scheduler, s.issued ++ [task]⟩)
  cancel s task :=
    let (waiting, scheduler) := StepScheduler.cancel s.scheduler task
    (waiting, { s with scheduler })

end Issuing

/-- The same call to a controller whose scheduler is watched. -/
def HostCall.watched {σ : Type} : HostCall σ → HostCall (Issuing σ)
  | .command c => .command c
  | .schedule change => .schedule fun s => { s with scheduler := change s.scheduler }

def EvaluatorCall.isStep : EvaluatorCall → Bool
  | step _ => true
  | _ => false

/-- The command takes a step, if it is accepted. -/
def ControllerCommand.takesStep : ControllerCommand → Bool
  | step .. => true
  | onTaskDue _ => true
  | _ => false

namespace Exchange

variable {ε σ : Type} [Evaluator ε] [StepScheduler σ]

/-- The task that is called for, if the call is accepted. -/
def firedTask? (x : Exchange ε σ) : Option TaskId :=
  match x.command with
  | .onTaskDue task => if x.accepted then some task else none
  | _ => none

/-- Unless a call for a step is accepted, the step that is waited for is left to what the controller
does with it; a call that is accepted is one for that step. -/
theorem turn {x : Exchange ε σ} (h : x.before.Steady) :
    (x.firedTask? = none ∧ x.before.Turn x.after) ∨
      ∃ task, x.firedTask? = some task ∧ x.before.pending = some task ∧
        Controller.Turn { x.before with pending := none } x.after := by
  obtain ⟨c, command⟩ := x
  cases command with
  | run source bs => exact .inl ⟨rfl, h.turn_run source bs⟩
  | pause => exact .inl ⟨rfl, c.turn_pause⟩
  | step source bs => exact .inl ⟨rfl, c.turn_step source bs⟩
  | stop => exact .inl ⟨rfl, c.turn_stop⟩
  | onTaskDue task =>
    by_cases hdue : c.pending = some task ∧ c.state = .running
    · obtain ⟨haccepted, hturn⟩ := Controller.turn_onTaskDue hdue
      exact .inr ⟨task, if_pos haccepted, hdue.1, hturn⟩
    · have hrefused := Controller.onTaskDue_of_not hdue
      refine .inl ⟨if_neg ?_, ?_⟩
      · simp [accepted, Controller.obey, hrefused]
      · rw [after, Controller.obey, hrefused]
        exact .kept rfl rfl

end Exchange

namespace Controller

/-! ## Which calls are accepted -/

section
variable {ε σ : Type} [Evaluator ε] [StepScheduler σ] {c c' : Controller ε (Issuing σ)}
  {earlier : List TaskId}

omit [Evaluator ε] in
/-- Whatever becomes of the step that is waited for, it stands behind the earlier ones. -/
theorem Turn.sublist_issued (h : Turn c c')
    (hsub : (earlier ++ c.pending.toList).Sublist c.scheduler.issued) :
    (earlier ++ c'.pending.toList).Sublist c'.scheduler.issued := by
  cases h with
  | kept pending scheduler => rwa [pending, scheduler]
  | revoked pending scheduler =>
    have hissued : c.revoked.issued = c.scheduler.issued := by
      unfold Controller.revoked
      split <;> rfl
    rw [pending, scheduler, hissued]
    exact (List.Sublist.append_left (List.nil_sublist _) _).trans hsub
  | scheduled delay none pending scheduler =>
    rw [none] at hsub
    rw [pending, scheduler]
    simp only [Option.toList_none, List.append_nil] at hsub
    exact hsub.append (List.Sublist.refl _)

/-- A call that is accepted is one for the task that stood last. -/
theorem sublist_issued_after {x : Exchange ε (Issuing σ)} (h : x.before.Steady)
    (hsub : (earlier ++ x.before.pending.toList).Sublist x.before.scheduler.issued) :
    (earlier ++ x.firedTask?.toList ++ x.after.pending.toList).Sublist
      x.after.scheduler.issued := by
  rcases Exchange.turn h with ⟨hfired, hturn⟩ | ⟨task, hfired, hpending, hturn⟩
  · rw [hfired, Option.toList_none, List.append_nil]
    exact hturn.sublist_issued hsub
  · rw [hpending] at hsub
    rw [hfired]
    refine hturn.sublist_issued ?_
    rwa [Option.toList_none, List.append_nil]

/-- The tasks whose calls are accepted, and then the one that is waited for, are given out in this
order. -/
theorem sublist_issued (h : c.Steady) (calls : List (HostCall σ))
    (hsub : (earlier ++ c.pending.toList).Sublist c.scheduler.issued) :
    let c' := (calls.map HostCall.watched).foldl serve c
    (earlier ++ (c.history (calls.map .watched)).filterMap (·.firedTask?) ++
      c'.pending.toList).Sublist c'.scheduler.issued := by
  induction calls generalizing c earlier with
  | nil => simpa [history] using hsub
  | cons call calls ih =>
    cases call with
    | schedule change => exact ih (h.withScheduler _) hsub
    | command command =>
      have hrest := ih (h.obey command) (sublist_issued_after (x := ⟨c, command⟩) h hsub)
      rw [List.map_cons, HostCall.watched, history, List.filterMap_cons]
      cases hfired : Exchange.firedTask? ⟨c, command⟩ with
      | none =>
        rw [hfired, Option.toList_none, List.append_nil] at hrest
        exact hrest
      | some task =>
        rw [hfired, Option.toList_some, List.append_assoc earlier] at hrest
        exact hrest

end

/-! ## Steps -/

section
variable {ε σ : Type} [Evaluator ε] {c : Controller ε σ} {command : ControllerCommand}
  {accepted : Bool} {calls : List EvaluatorCall} {events : List ControllerEvent} {s : Standing}

theorem Opening.countP_isStep {source : String} {bs : List Breakpoint}
    (hopening : c.Opening source bs calls s) : calls.countP (·.isStep) = 0 := by
  cases hopening <;> rfl

/-- A command takes one step if it is accepted and one that takes a step, and none otherwise. -/
theorem Deed.countP_isStep (hdeed : c.Deed command accepted calls events s) :
    calls.countP (·.isStep) = if accepted && command.takesStep then 1 else 0 := by
  cases hdeed with
  | refused | paused | stopped | fired => rfl
  | ran opening => exact opening.countP_isStep
  | stepped opening =>
    rw [List.countP_append, opening.countP_isStep]
    rfl

end

/-! ## Pauses -/

section
variable {ε σ : Type} [Evaluator ε] [StepScheduler σ] {c : Controller ε σ}

/-- A call for a step that is refused changes nothing. -/
theorem onTaskDue_eq_of_refused {task : TaskId} (h : (c.onTaskDue task).1 = false) :
    (c.onTaskDue task).2 = c := by
  by_cases hdue : c.pending = some task ∧ c.state = .running
  · rw [(turn_onTaskDue hdue).1] at h
    cases h
  · rw [onTaskDue_of_not hdue]

omit [Evaluator ε] in
/-- A pause that is accepted leaves the run paused. -/
theorem state_pause_of_accepted (h : c.pause.1 = true) : c.pause.2.state = .paused := by
  rw [pause_eq] at h ⊢
  split at h
  · next hrunning => rw [if_pos hrunning]
  · cases h

/-- In a paused run only a run, a step or a stop does something. -/
theorem obey_eq_of_paused (h : c.state = .paused) {command : ControllerCommand}
    (hquiet : (c.obey command).1 = true →
      command = .pause ∨ ∃ task, command = .onTaskDue task) : (c.obey command).2 = c := by
  cases command with
  | run source bs => simp [Controller.obey, Controller.run, h] at hquiet
  | pause => rw [Controller.obey, pause_eq, if_neg (by simp [h])]
  | step source bs => simp [Controller.obey, Controller.step, h] at hquiet
  | stop => simp [Controller.obey, stop_eq, h, ExecutionState.isActive] at hquiet
  | onTaskDue task => rw [Controller.obey, onTaskDue_of_not (by simp [h])]

/-- A paused run is left alone as long as no run, step or stop is accepted. -/
theorem foldl_serve_of_paused (h : c.state = .paused) (calls : List (HostCall σ))
    (hquiet : ∀ x ∈ c.history calls, x.accepted = true →
      x.command = .pause ∨ ∃ task, x.command = .onTaskDue task) :
    ∃ scheduler, calls.foldl serve c = { c with scheduler } := by
  induction calls generalizing c with
  | nil => exact ⟨c.scheduler, rfl⟩
  | cons call calls ih =>
    cases call with
    | schedule change => exact ih (c := { c with scheduler := change c.scheduler }) h hquiet
    | command command =>
      have hsame : (c.obey command).2 = c :=
        obey_eq_of_paused h (hquiet ⟨c, command⟩ (List.mem_cons_self ..))
      rw [List.foldl_cons, Controller.serve, hsame]
      refine ih h fun x hx => hquiet x (List.mem_cons_of_mem _ ?_)
      rwa [hsame]

/-- If the scheduler gives out no task twice: no call for a step is accepted twice for the same
task; the evaluator takes a step once for each step or call for a step that is accepted, and at no
other time; and a call for a step that is refused changes nothing. From a pause that is accepted
until a run, a step or a stop is, nothing happens. -/
theorem wakeups_spec (evaluator : ε) (scheduler : σ) (options : ControllerOptions)
    (calls : List (HostCall σ))
    (hissued : ((calls.map HostCall.watched).foldl serve
      (new (Traced.watch evaluator) (Issuing.watch scheduler) options)).scheduler.issued.Nodup) :
    let start := new (Traced.watch evaluator) (Issuing.watch scheduler) options
    let history := start.history (calls.map .watched)
    let c := (calls.map HostCall.watched).foldl serve start
    (history.filterMap (·.firedTask?)).Nodup ∧
      c.evaluator.calls = history.flatMap (·.calls) ∧
      (∀ x ∈ history, x.calls.countP (·.isStep) =
        if x.accepted && x.command.takesStep then 1 else 0) ∧
      (∀ x ∈ history, ∀ task, x.command = .onTaskDue task → x.accepted = false →
        x.after = x.before) ∧
      (c.pause.1 = true → ∀ later : List (HostCall (Issuing σ)),
        (∀ x ∈ c.pause.2.history later, x.accepted = true →
          x.command = .pause ∨ ∃ task, x.command = .onTaskDue task) →
        ∃ scheduler, later.foldl serve c.pause.2 = { c.pause.2 with scheduler }) := by
  intro start history c
  have hsteady : start.Steady := steady_new _ _ _
  have hnone : ([] ++ start.pending.toList).Sublist start.scheduler.issued := List.nil_sublist _
  have hsub := sublist_issued hsteady calls hnone
  rw [List.nil_append] at hsub
  refine ⟨hissued.sublist ((List.sublist_append_left _ _).trans hsub),
    hsteady.calls_foldl_serve _, fun x hx => ?_, fun x hx task hcommand hrefused => ?_,
    fun hpause later hquiet => foldl_serve_of_paused (state_pause_of_accepted hpause) later hquiet⟩
  · exact (Exchange.deed (hsteady.of_mem_history hx)).1.countP_isStep
  · rw [Exchange.accepted, hcommand] at hrefused
    rw [Exchange.after, hcommand]
    exact onTaskDue_eq_of_refused hrefused

/-- Of two calls for the first step of a run, one is accepted. -/
theorem wakeups_of_two_words :
    let start : Controller (Traced TokenWalker) (Issuing ManualScheduler) :=
      new (.watch (.new none)) (.watch .empty) .standard
    let calls : List (HostCall ManualScheduler) :=
      [.command (.run "a b" []), .command (.onTaskDue ⟨0⟩), .command (.onTaskDue ⟨0⟩)]
    let history := start.history (calls.map .watched)
    ((calls.map HostCall.watched).foldl serve start).scheduler.issued = [⟨0⟩, ⟨1⟩] ∧
      history.map (·.accepted) = [true, true, false] ∧
      (history.filterMap (·.firedTask?)).Nodup ∧
      ∀ x ∈ history, x.calls.countP (·.isStep) =
        if x.accepted && x.command.takesStep then 1 else 0 := by
  have hspec := wakeups_spec (TokenWalker.new none) ManualScheduler.empty .standard
    [.command (.run "a b" []), .command (.onTaskDue ⟨0⟩), .command (.onTaskDue ⟨0⟩)]
    (by decide +kernel)
  exact ⟨by decide +kernel, by decide +kernel, hspec.1, hspec.2.2.1⟩

end

end Controller

end StackEditor
