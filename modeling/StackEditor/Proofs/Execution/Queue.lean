import StackEditor.Execution.Walker
import StackEditor.Proofs.Execution.Commands
import StackEditor.Proofs.Execution.Scheduling

/-!
# The queue of scheduled steps

A host has a clock that it moves by hand, takes tasks out of the queue and calls for their steps, of
whatever task it likes. A task that it calls for while it still waits in the queue is called for
early (`earlySteps`). The controller believes that the task has fired, takes the step and schedules
the next one, so then there are two. Apart from such tasks the queue holds one task at most, the one
that is waited for: `Ledger` says so, and every call keeps it (`Accounted.perform`).
-/

namespace StackEditor

/-- What a host with a clock that is moved by hand does at a time. -/
inductive ManualCall where
  | command (command : ControllerCommand)
  | advance (ms : Nat)
  | pop
  | cancel (task : TaskId)

/-! ## The queue and the step that is waited for -/

/-- The tasks in the queue are different, were all given out, and each is the one that is waited for
or was called for early. No task is both. -/
structure Ledger (pending : Option TaskId) (s : ManualScheduler) (early : List TaskId) : Prop where
  nodup : (s.queue.map (·.task)).Nodup
  queue : ∀ q ∈ s.queue, q.task.number < s.scheduled ∧ (pending = some q.task ∨ q.task ∈ early)
  pending : ∀ task, pending = some task → task.number < s.scheduled ∧ task ∉ early
  early : ∀ task ∈ early, task.number < s.scheduled

namespace Ledger

variable {pending : Option TaskId} {s s' : ManualScheduler} {early : List TaskId} {task : TaskId}

/-- Taking tasks out of the queue does no harm. -/
theorem shrinks (h : Ledger pending s early) (hs : s.Shrinks s') : Ledger pending s' early := by
  constructor
  case nodup => exact h.nodup.sublist (hs.queue.map _)
  case queue =>
    intro q hq
    rw [hs.scheduled]
    exact h.queue q (hs.queue.subset hq)
  case pending =>
    intro task htask
    rw [hs.scheduled]
    exact h.pending task htask
  case early =>
    intro task htask
    rw [hs.scheduled]
    exact h.early task htask

/-- A step that is revoked is in the queue no more. -/
theorem cancel (h : Ledger (some task) s early) : Ledger none (s.cancel task).2 early := by
  have hshrunk := h.shrinks (s.shrinks_cancel task)
  constructor
  case nodup => exact hshrunk.nodup
  case queue =>
    intro q hq
    obtain ⟨hlt, hpending | hearly⟩ := hshrunk.queue q hq
    · exact absurd (Option.some.inj hpending).symm (s.ne_of_mem_cancel hq)
    · exact ⟨hlt, .inr hearly⟩
  case pending =>
    intro _ hnone
    cases hnone
  case early => exact hshrunk.early

/-- A step that is scheduled is waited for under a new name. -/
theorem schedule (h : Ledger none s early) (delay : Delay) :
    Ledger (some (s.schedule delay).1) (s.schedule delay).2 early := by
  have hperm := ManualScheduler.enqueue_perm
    ⟨⟨s.scheduled⟩, min (s.now + delay.millis) maxWord64⟩ s.queue
  constructor
  case nodup =>
    refine ((hperm.map (·.task)).nodup_iff).2 (List.nodup_cons.2 ⟨?_, h.nodup⟩)
    intro hmem
    obtain ⟨q, hq, heq⟩ := List.mem_map.1 hmem
    have hlt := (h.queue q hq).1
    rw [heq] at hlt
    exact Nat.lt_irrefl _ hlt
  case queue =>
    intro q hq
    rcases List.mem_cons.1 (hperm.subset hq) with rfl | hq
    · exact ⟨Nat.lt_succ_self _, .inl rfl⟩
    · obtain ⟨hlt, hnone | hearly⟩ := h.queue q hq
      · cases hnone
      · exact ⟨Nat.lt_succ_of_lt hlt, .inr hearly⟩
  case pending =>
    intro task htask
    obtain rfl := Option.some.inj htask
    refine ⟨Nat.lt_succ_self _, ?_⟩
    intro hearly
    exact Nat.lt_irrefl _ (h.early _ hearly)
  case early =>
    intro task htask
    exact Nat.lt_succ_of_lt (h.early task htask)

/-- A step that is called for is no longer waited for. If it is still in the queue, it was called
for early. -/
theorem accept (h : Ledger (some task) s early) :
    Ledger none s (early ++ if s.queue.any (·.task = task) then [task] else []) := by
  constructor
  case nodup => exact h.nodup
  case queue =>
    intro q hq
    obtain ⟨hlt, hpending | hearly⟩ := h.queue q hq
    · obtain rfl := Option.some.inj hpending
      have hany : s.queue.any (·.task = q.task) = true := List.any_eq_true.2 ⟨q, hq, by simp⟩
      exact ⟨hlt, .inr (by simp [hany])⟩
    · exact ⟨hlt, .inr (List.mem_append_left _ hearly)⟩
  case pending =>
    intro _ hnone
    cases hnone
  case early =>
    intro x hx
    rcases List.mem_append.1 hx with hx | hx
    · exact h.early x hx
    · split at hx
      · rw [List.mem_singleton.1 hx]
        exact (h.pending task rfl).1
      · cases hx

/-- The queue holds nothing but the step that is waited for, unless it holds one that was called for
early. -/
theorem alone_iff (h : Ledger pending s early) :
    (s.queue.length ≤ 1 ∧ ∀ q ∈ s.queue, pending = some q.task) ↔
      ∀ q ∈ s.queue, q.task ∉ early := by
  constructor
  · exact fun halone q hq => (h.pending q.task (halone.2 q hq)).2
  · intro hearly
    have hpending : ∀ q ∈ s.queue, pending = some q.task := fun q hq =>
      (h.queue q hq).2.resolve_right (hearly q hq)
    refine ⟨?_, hpending⟩
    rcases hqueue : s.queue with _ | ⟨a, _ | ⟨b, rest⟩⟩
    · simp
    · simp
    · have hnodup := h.nodup
      rw [hqueue] at hnodup hpending
      have hsame : a.task = b.task :=
        Option.some.inj ((hpending a (by simp)).symm.trans (hpending b (by simp)))
      simp [hsame] at hnodup

end Ledger

/-! ## Runs -/

namespace Controller

variable {ε : Type} [Evaluator ε]

/-- The controller after a call of its host. -/
def perform (c : Controller ε ManualScheduler) : ManualCall → Controller ε ManualScheduler
  | .command command => (c.obey command).2
  | .advance ms => { c with scheduler := (c.scheduler.advance ms).2 }
  | .pop => { c with scheduler := c.scheduler.next.2 }
  | .cancel task => { c with scheduler := (c.scheduler.cancel task).2 }

/-- The task of a call for a step that is taken while the task waits in the queue. -/
def earlyStep (c : Controller ε ManualScheduler) : ManualCall → List TaskId
  | .command (.onTaskDue task) =>
    if (c.onTaskDue task).1 && c.scheduler.queue.any (·.task = task) then [task] else []
  | _ => []

/-- The tasks that are called for early in the course of some calls. -/
def earlySteps (c : Controller ε ManualScheduler) : List ManualCall → List TaskId
  | [] => []
  | call :: calls => c.earlyStep call ++ (c.perform call).earlySteps calls

/-- Steady, and with a queue that is accounted for. -/
structure Accounted (c : Controller ε ManualScheduler) (early : List TaskId) : Prop where
  steady : c.Steady
  ledger : Ledger c.pending c.scheduler early

variable {c c' : Controller ε ManualScheduler} {early : List TaskId}

omit [Evaluator ε] in
/-- Whatever becomes of the step that is waited for, the queue is accounted for. -/
theorem Turn.ledger (h : Turn c c') (hledger : Ledger c.pending c.scheduler early) :
    Ledger c'.pending c'.scheduler early := by
  cases h with
  | kept pending scheduler =>
    rw [pending, scheduler]
    exact hledger
  | revoked pending scheduler =>
    rw [pending, scheduler]
    cases hpending : c.pending with
    | none =>
      rw [hpending] at hledger
      rwa [revoked_of_eq_none hpending]
    | some task =>
      rw [hpending] at hledger
      rw [revoked_of_eq_some hpending]
      exact hledger.cancel
  | scheduled delay none pending scheduler =>
    rw [none] at hledger
    rw [pending, scheduler]
    exact hledger.schedule delay

/-- One call keeps the queue accounted for. -/
theorem Accounted.perform (h : c.Accounted early) (call : ManualCall) :
    (c.perform call).Accounted (early ++ c.earlyStep call) := by
  obtain ⟨hsteady, hledger⟩ := h
  have hkeep : ∀ {c'}, Turn c c' → Ledger c'.pending c'.scheduler (early ++ []) := fun hturn => by
    rw [List.append_nil]
    exact hturn.ledger hledger
  have hshrink : ∀ {s'}, c.scheduler.Shrinks s' → Ledger c.pending s' (early ++ []) := fun hs => by
    rw [List.append_nil]
    exact hledger.shrinks hs
  cases call with
  | advance ms => exact ⟨hsteady.withScheduler _, hshrink (c.scheduler.shrinks_advance ms)⟩
  | pop => exact ⟨hsteady.withScheduler _, hshrink c.scheduler.shrinks_next⟩
  | cancel task => exact ⟨hsteady.withScheduler _, hshrink (c.scheduler.shrinks_cancel task)⟩
  | command command =>
    refine ⟨hsteady.obey command, ?_⟩
    cases command with
    | run source bs => exact hkeep (hsteady.turn_run source bs)
    | pause => exact hkeep (turn_pause c)
    | step source bs => exact hkeep (turn_step c source bs)
    | stop => exact hkeep (turn_stop c)
    | onTaskDue task =>
      by_cases hdue : c.pending = some task ∧ c.state = .running
      · obtain ⟨haccepted, hturn⟩ := turn_onTaskDue hdue
        rw [hdue.1] at hledger
        have hearly : c.earlyStep (.command (.onTaskDue task)) =
            if c.scheduler.queue.any (·.task = task) then [task] else [] := by
          rw [earlyStep, haccepted, Bool.true_and]
        rw [hearly]
        exact hturn.ledger hledger.accept
      · have hrefused := onTaskDue_of_not hdue
        rw [earlyStep, Controller.perform, Controller.obey, hrefused]
        exact hkeep (.kept rfl rfl)

/-- Any calls keep the queue accounted for. -/
theorem Accounted.foldl_perform (h : c.Accounted early) (calls : List ManualCall) :
    (calls.foldl Controller.perform c).Accounted (early ++ c.earlySteps calls) := by
  induction calls generalizing c early with
  | nil => rwa [earlySteps, List.append_nil]
  | cons call calls ih =>
    rw [List.foldl_cons, earlySteps, ← List.append_assoc]
    exact ih (h.perform call)

/-- After any calls a controller is steady, and each task in the queue is the one that it waits for
or was called for early. So, exactly while the queue holds no task that was called for early, it
holds one task at most, the one that is waited for, and none unless the run is running. -/
theorem queue_spec (evaluator : ε) (options : ControllerOptions) (calls : List ManualCall) :
    let start := new evaluator ManualScheduler.empty options
    let c := calls.foldl perform start
    c.state ≠ .stopped ∧ (c.pending.isSome ↔ c.state = .running) ∧
      (c.cancel.isSome ↔ c.state = .running ∨ c.state = .paused) ∧
      (c.state = .idle → c.position = none) ∧
      (∀ q ∈ c.scheduler.queue, c.pending = some q.task ∨ q.task ∈ start.earlySteps calls) ∧
      ((c.scheduler.queue.length ≤ 1 ∧ ∀ q ∈ c.scheduler.queue, c.pending = some q.task) ↔
        ∀ q ∈ c.scheduler.queue, q.task ∉ start.earlySteps calls) ∧
      ((∀ q ∈ c.scheduler.queue, q.task ∉ start.earlySteps calls) → c.state ≠ .running →
        c.scheduler.queue = []) := by
  intro start c
  have hstart : start.Accounted [] :=
    ⟨steady_new evaluator _ options, List.nodup_nil, fun _ hq => (nomatch hq),
      fun _ hnone => (nomatch hnone), fun _ htask => (nomatch htask)⟩
  obtain ⟨hsteady, hledger⟩ := hstart.foldl_perform calls
  rw [List.nil_append] at hledger
  refine ⟨hsteady.state, hsteady.pending, hsteady.cancel, hsteady.position,
    fun q hq => (hledger.queue q hq).2, hledger.alone_iff, fun hearly hstate => ?_⟩
  refine List.eq_nil_iff_forall_not_mem.2 fun q hq => ?_
  have hpending := (hledger.alone_iff.2 hearly).2 q hq
  rw [hsteady.pending_eq_none hstate] at hpending
  cases hpending

/-- A step that is called for while its task waits leaves two tasks in the queue. -/
theorem two_tasks_after_early_step :
    let start : Controller TokenWalker ManualScheduler := new (.new none) .empty .standard
    let c := [ManualCall.command (.run "a b" []), .command (.onTaskDue ⟨0⟩)].foldl perform start
    ¬ (c.scheduler.queue.length ≤ 1 ∧ ∀ q ∈ c.scheduler.queue, c.pending = some q.task) := by
  decide +kernel

end Controller

end StackEditor
