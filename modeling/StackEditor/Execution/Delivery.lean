import StackEditor.Execution.Controller

/-!
# Delivering steps

What a host does with scheduled steps: it takes the next task from the queue and calls for its
step, once, or until no task is left, or for all tasks that are due after some time.
-/

namespace StackEditor

/-- Something that runs scheduled steps over a clock that is moved by hand. -/
class TaskHost (κ : Type) where
  /-- Takes the next task out of the queue. -/
  popTask : κ → Option TaskId × κ
  /-- Moves the clock and takes out the tasks that are due by then. -/
  takeDue : κ → Nat → List TaskId × κ
  /-- Calls for the step of a task. -/
  deliver : κ → TaskId → Bool × κ

namespace TaskHost

variable {κ : Type} [TaskHost κ]

/-- Takes the next task and calls for its step. -/
def fire (k : κ) : Option Bool × κ :=
  match popTask k with
  | (none, k) => (none, k)
  | (some task, k) =>
    let (stepped, k) := deliver k task
    (some stepped, k)

/-- Fires until no task is left, at most `limit` times. The answer is how often. -/
def pump (k : κ) : Nat → Nat × κ
  | 0 => (0, k)
  | limit + 1 =>
    match fire k with
    | (none, k) => (0, k)
    | (some _, k) =>
      let (n, k) := pump k limit
      (n + 1, k)

/-- Calls for the steps of these tasks, one after the other. -/
def deliverAll (k : κ) : List TaskId → List Bool × κ
  | [] => ([], k)
  | task :: tasks =>
    let (stepped, k) := deliver k task
    let (rest, k) := deliverAll k tasks
    (stepped :: rest, k)

/-- Moves the clock and calls for the steps that are due by then. -/
def elapse (k : κ) (ms : Nat) : List Bool × κ :=
  let (tasks, k) := takeDue k ms
  deliverAll k tasks

end TaskHost

instance [Evaluator ε] : TaskHost (Controller ε ManualScheduler) where
  popTask c :=
    let (task, scheduler) := c.scheduler.next
    (task, { c with scheduler })
  takeDue c ms :=
    let (tasks, scheduler) := c.scheduler.advance ms
    (tasks, { c with scheduler })
  deliver := Controller.onTaskDue

end StackEditor
