import StackEditor.Bound
import StackEditor.Identifier

/-!
# Scheduling steps

The host runs scheduled steps after a delay. `ManualScheduler` is a host whose clock moves only
when it is told to; its queue is kept in the order in which the tasks are due, and tasks that are
due together stay in the order in which they were scheduled.
-/

namespace StackEditor

/-- A span of time. -/
structure Delay where
  nanoseconds : Nat
  deriving DecidableEq

namespace Delay

def ofMillis (ms : Nat) : Delay := ⟨ms * 1000000⟩

def ofParts (seconds nanoseconds : Nat) : Delay := ⟨seconds * 1000000000 + nanoseconds⟩

/-- The whole milliseconds of the delay, as far as they fit 64 bits. -/
def millis (d : Delay) : Nat := min (d.nanoseconds / 1000000) maxWord64

end Delay

/-- A host that schedules steps. -/
class StepScheduler (σ : Type) where
  schedule : σ → Delay → TaskId × σ
  /-- Revokes a task. The answer is whether it was still waiting. -/
  cancel : σ → TaskId → Bool × σ

/-- A task and the time from which on it is due. -/
structure Scheduled where
  task : TaskId
  due : Nat
  deriving DecidableEq

/-- A clock, the tasks that wait, and how many were ever scheduled and cancelled. -/
structure ManualScheduler where
  now : Nat
  queue : List Scheduled
  scheduled : Nat
  cancelled : Nat
  deriving DecidableEq

/-- The queue with `s` behind all tasks that are due no later. -/
def enqueue (s : Scheduled) : List Scheduled → List Scheduled
  | [] => [s]
  | t :: ts => if t.due ≤ s.due then t :: enqueue s ts else s :: t :: ts

namespace ManualScheduler

/-- A clock at zero, and no tasks. -/
def empty : ManualScheduler := ⟨0, [], 0, 0⟩

/-- The number of tasks that wait. -/
def pending (s : ManualScheduler) : Nat := s.queue.length

/-- Schedules a task. The last moment of the clock is that of 64 bits. -/
def schedule (s : ManualScheduler) (d : Delay) : TaskId × ManualScheduler :=
  let task := ⟨s.scheduled⟩
  (task, { s with
    queue := enqueue ⟨task, min (s.now + d.millis) maxWord64⟩ s.queue
    scheduled := s.scheduled + 1 })

/-- Takes a task out of the queue, and counts it if it was there. -/
def cancel (s : ManualScheduler) (task : TaskId) : Bool × ManualScheduler :=
  if s.queue.any (·.task = task) then
    (true, { s with
      queue := s.queue.filter (·.task ≠ task)
      cancelled := s.cancelled + 1 })
  else (false, s)

instance : StepScheduler ManualScheduler where
  schedule := schedule
  cancel := cancel

/-- Moves the clock, and hands out the tasks that are due by then. -/
def advance (s : ManualScheduler) (ms : Nat) : List TaskId × ManualScheduler :=
  let now := s.now + ms
  ((s.queue.takeWhile (·.due ≤ now)).map (·.task),
    { s with now, queue := s.queue.dropWhile (·.due ≤ now) })

/-- Moves the clock to the next task, if it is not there yet, and hands that task out. -/
def next (s : ManualScheduler) : Option TaskId × ManualScheduler :=
  match s.queue with
  | [] => (none, s)
  | t :: ts => (some t.task, { s with now := max s.now t.due, queue := ts })

end ManualScheduler

end StackEditor
