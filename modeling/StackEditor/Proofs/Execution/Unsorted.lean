import Mathlib.Data.List.Perm.Basic
import StackEditor.Proofs.Execution.Scheduling

/-!
# A queue in no order

A scheduler need not keep its tasks sorted. `UnsortedScheduler` has them as they were scheduled: it
sorts those that are due when the clock is moved, and looks for the earliest one (`earliest?`) when
it is asked for the next task. It corresponds to the sorted scheduler as long as both wait for the
same tasks (`ListsTasksOf`). Every call keeps this and has the same answer from both
(`ListsTasksOf.perform`, `ListsTasksOf.answer_eq`), so no calls can tell them apart
(`answers_unsorted`).
-/

namespace StackEditor

open Scheduled (Before notAfter)

/-- What a scheduler answers to a call. -/
inductive SchedulerAnswer where
  | scheduled (task : TaskId)
  | cancelled (waited : Bool)
  | due (tasks : List TaskId)
  | next (task : Option TaskId)

/-! ## The earliest task -/

/-- The task that is to be delivered before all others. -/
def earliest? (waiting : List Scheduled) : Option Scheduled :=
  waiting.find? fun p => waiting.all (notAfter p)

variable {waiting queue : List Scheduled} {p : Scheduled}

/-- The earliest task waits, and no other that waits comes before it. -/
theorem spec_of_earliest? (h : earliest? waiting = some p) :
    p ∈ waiting ∧ ∀ q ∈ waiting, notAfter p q = true := by
  unfold earliest? at h
  have hall := List.find?_some h
  exact ⟨List.mem_of_find?_eq_some h, List.all_eq_true.1 hall⟩

/-- The earliest task is one of the tasks, and delivered no later than any of them. -/
theorem earliest?_eq_some_iff :
    earliest? waiting = some p ↔ p ∈ waiting ∧ ∀ q ∈ waiting, notAfter p q = true := by
  constructor
  · exact spec_of_earliest?
  · rintro ⟨hp, hfirst⟩
    have hsome : (earliest? waiting).isSome := by
      rw [earliest?, List.find?_isSome]
      exact ⟨p, hp, List.all_eq_true.2 hfirst⟩
    obtain ⟨q, hq⟩ := Option.isSome_iff_exists.1 hsome
    obtain ⟨hmem, hfirst'⟩ := spec_of_earliest? hq
    -- Neither of the two is after the other, so they are the same task.
    rw [hq, Scheduled.notAfter_antisymm (hfirst' p hp) (hfirst q hmem)]

/-- The first task of a queue in the order of delivery is the earliest one, however the tasks are
listed. -/
theorem earliest?_eq_head? (h : queue.Pairwise Before) (hperm : waiting.Perm queue) :
    earliest? waiting = queue.head? := by
  cases queue with
  | nil => rw [hperm.eq_nil]; rfl
  | cons t ts =>
    obtain ⟨hfirst, -⟩ := List.pairwise_cons.1 h
    refine earliest?_eq_some_iff.2 ⟨hperm.symm.subset List.mem_cons_self, fun q hq => ?_⟩
    rcases List.mem_cons.1 (hperm.subset hq) with rfl | hq
    · exact Scheduled.notAfter_iff.2 (.inr ⟨rfl, Nat.le_refl _⟩)
    · exact (hfirst q hq).notAfter

/-! ## The unsorted scheduler -/

/-- A clock, the tasks that wait, and how many were ever scheduled and cancelled. -/
structure UnsortedScheduler where
  now : Nat
  waiting : List Scheduled
  scheduled : Nat
  cancelled : Nat

namespace UnsortedScheduler

/-- A clock at zero, and no tasks. -/
def empty : UnsortedScheduler := ⟨0, [], 0, 0⟩

/-- Schedules a task behind all others, whenever it is due. -/
def schedule (u : UnsortedScheduler) (d : Delay) : TaskId × UnsortedScheduler :=
  let task := ⟨u.scheduled⟩
  (task, { u with
    waiting := u.waiting ++ [⟨task, min (u.now + d.millis) maxWord64⟩]
    scheduled := u.scheduled + 1 })

/-- Keeps the other tasks. The task was there if they are fewer than before. -/
def cancel (u : UnsortedScheduler) (task : TaskId) : Bool × UnsortedScheduler :=
  let others := u.waiting.filter (·.task ≠ task)
  if others.length ≠ u.waiting.length then
    (true, { u with waiting := others, cancelled := u.cancelled + 1 })
  else (false, { u with waiting := others })

/-- Moves the clock, and sorts the tasks that are due by then. -/
def advance (u : UnsortedScheduler) (ms : Nat) : List TaskId × UnsortedScheduler :=
  let now := u.now + ms
  (((u.waiting.filter (·.due ≤ now)).mergeSort notAfter).map (·.task),
    { u with now, waiting := u.waiting.filter (now < ·.due) })

/-- Takes the earliest task out, and moves the clock to it, if it is not there yet. -/
def next (u : UnsortedScheduler) : Option TaskId × UnsortedScheduler :=
  match earliest? u.waiting with
  | none => (none, u)
  | some p => (some p.task, { u with now := max u.now p.due, waiting := u.waiting.erase p })

/-- The answer to a call. -/
def answer (u : UnsortedScheduler) : SchedulerCall → SchedulerAnswer
  | .schedule delay => .scheduled (u.schedule delay).1
  | .cancel task => .cancelled (u.cancel task).1
  | .advance ms => .due (u.advance ms).1
  | .next => .next u.next.1

/-- The scheduler after a call. -/
def perform (u : UnsortedScheduler) : SchedulerCall → UnsortedScheduler
  | .schedule delay => (u.schedule delay).2
  | .cancel task => (u.cancel task).2
  | .advance ms => (u.advance ms).2
  | .next => u.next.2

/-- The answers to some calls, one after the other. -/
def answers (u : UnsortedScheduler) : List SchedulerCall → List SchedulerAnswer
  | [] => []
  | call :: calls => u.answer call :: (u.perform call).answers calls

end UnsortedScheduler

namespace ManualScheduler

/-- The answer to a call. -/
def answer (s : ManualScheduler) : SchedulerCall → SchedulerAnswer
  | .schedule delay => .scheduled (s.schedule delay).1
  | .cancel task => .cancelled (s.cancel task).1
  | .advance ms => .due (s.advance ms).1
  | .next => .next s.next.1

/-- The answers to some calls, one after the other. -/
def answers (s : ManualScheduler) : List SchedulerCall → List SchedulerAnswer
  | [] => []
  | call :: calls => s.answer call :: (s.perform call).answers calls

end ManualScheduler

/-! ## One call -/

/-- The unsorted scheduler lists the tasks of the sorted one, in some order, and agrees with it in
everything else. -/
structure ListsTasksOf (u : UnsortedScheduler) (s : ManualScheduler) : Prop where
  now : u.now = s.now
  waiting : u.waiting.Perm s.queue
  scheduled : u.scheduled = s.scheduled
  cancelled : u.cancelled = s.cancelled

namespace ListsTasksOf

variable {u : UnsortedScheduler} {s : ManualScheduler}

theorem empty : ListsTasksOf .empty .empty := ⟨rfl, .refl _, rfl, rfl⟩

/-- A task that is put behind the others, and one that is put in its place, are the same task. -/
theorem schedule (h : ListsTasksOf u s) (delay : Delay) :
    (u.schedule delay).1 = (s.schedule delay).1 ∧
      ListsTasksOf (u.schedule delay).2 (s.schedule delay).2 := by
  obtain ⟨hnow, hwaiting, hscheduled, hcancelled⟩ := h
  simp only [UnsortedScheduler.schedule, ManualScheduler.schedule, hnow, hscheduled]
  refine ⟨trivial, rfl, ?_, rfl, hcancelled⟩
  exact (List.perm_append_singleton ..).trans
    ((hwaiting.cons _).trans (ManualScheduler.enqueue_perm ..).symm)

/-- Fewer tasks are left exactly if the task was waiting. -/
theorem cancel (h : ListsTasksOf u s) (task : TaskId) :
    (u.cancel task).1 = (s.cancel task).1 ∧
      ListsTasksOf (u.cancel task).2 (s.cancel task).2 := by
  have hothers : (u.waiting.filter (·.task ≠ task)).Perm (s.queue.filter (·.task ≠ task)) :=
    h.waiting.filter _
  unfold UnsortedScheduler.cancel
  by_cases hmem : task ∈ s.queue.map (·.task)
  · have hfewer : (u.waiting.filter (·.task ≠ task)).length ≠ u.waiting.length := by
      rw [hothers.length_eq, h.waiting.length_eq, Ne, List.length_filter_eq_length_iff]
      intro hall
      obtain ⟨q, hq, heq⟩ := List.mem_map.1 hmem
      exact absurd heq (by simpa using hall q hq)
    rw [s.cancel_of_mem hmem]
    simp only [if_pos hfewer]
    exact ⟨trivial, h.now, hothers, h.scheduled, congrArg (· + 1) h.cancelled⟩
  · have hall : s.queue.filter (·.task ≠ task) = s.queue := by
      refine List.filter_eq_self.2 fun q hq => ?_
      simpa using fun heq => hmem (List.mem_map.2 ⟨q, hq, heq⟩)
    have hsame : ¬ (u.waiting.filter (·.task ≠ task)).length ≠ u.waiting.length := by
      rw [hothers.length_eq, hall, h.waiting.length_eq]
      exact fun hne => hne rfl
    rw [s.cancel_of_not_mem hmem]
    simp only [if_neg hsame]
    exact ⟨trivial, h.now, hall ▸ hothers, h.scheduled, h.cancelled⟩

/-- Sorting the tasks that are due gives the front of the sorted queue, and the others are behind
it. -/
theorem advance (h : ListsTasksOf u s) (hs : s.Ordered) (ms : Nat) :
    (u.advance ms).1 = (s.advance ms).1 ∧ ListsTasksOf (u.advance ms).2 (s.advance ms).2 := by
  have hrest : (u.waiting.filter (s.now + ms < ·.due)).Perm
      (s.queue.dropWhile (·.due ≤ s.now + ms)) := by
    rw [dropWhile_due_eq_filter hs.queue]
    exact h.waiting.filter _
  simp only [UnsortedScheduler.advance, ManualScheduler.advance, h.now,
    hs.takeWhile_due h.waiting]
  exact ⟨trivial, rfl, hrest, h.scheduled, h.cancelled⟩

/-- The earliest task is the first one of the sorted queue. -/
theorem next (h : ListsTasksOf u s) (hs : s.Ordered) :
    u.next.1 = s.next.1 ∧ ListsTasksOf u.next.2 s.next.2 := by
  have hearliest := earliest?_eq_head? hs.queue h.waiting
  unfold UnsortedScheduler.next
  rw [hearliest]
  cases hqueue : s.queue with
  | nil =>
    rw [s.next_of_nil hqueue]
    exact ⟨rfl, h⟩
  | cons t ts =>
    have hrest : (u.waiting.erase t).Perm ts := by
      have herase := h.waiting.erase t
      rwa [hqueue, List.erase_cons_head] at herase
    rw [s.next_of_cons hqueue]
    exact ⟨rfl, congrArg (max · t.due) h.now, hrest, h.scheduled, h.cancelled⟩

/-- Every call has the same answer from both. -/
theorem answer_eq (h : ListsTasksOf u s) (hs : s.Ordered) : ∀ call, u.answer call = s.answer call
  | .schedule delay => congrArg SchedulerAnswer.scheduled (h.schedule delay).1
  | .cancel task => congrArg SchedulerAnswer.cancelled (h.cancel task).1
  | .advance ms => congrArg SchedulerAnswer.due (h.advance hs ms).1
  | .next => congrArg SchedulerAnswer.next (h.next hs).1

/-- Every call leaves both with the same tasks. -/
theorem perform (h : ListsTasksOf u s) (hs : s.Ordered) :
    ∀ call, ListsTasksOf (u.perform call) (s.perform call)
  | .schedule delay => (h.schedule delay).2
  | .cancel task => (h.cancel task).2
  | .advance ms => (h.advance hs ms).2
  | .next => (h.next hs).2

/-! ## Runs -/

/-- From schedulers with the same tasks the same calls give the same answers. -/
theorem answers_eq (h : ListsTasksOf u s) (hs : s.Ordered) (calls : List SchedulerCall) :
    u.answers calls = s.answers calls := by
  induction calls generalizing u s with
  | nil => rfl
  | cons call calls ih =>
    rw [UnsortedScheduler.answers, ManualScheduler.answers, h.answer_eq hs,
      ih (h.perform hs call) (hs.perform call)]

/-- Schedulers with the same tasks have them after the same calls as well. -/
theorem foldl_perform (h : ListsTasksOf u s) (hs : s.Ordered) (calls : List SchedulerCall) :
    ListsTasksOf (calls.foldl UnsortedScheduler.perform u)
      (calls.foldl ManualScheduler.perform s) := by
  induction calls generalizing u s with
  | nil => exact h
  | cons call calls ih => exact ih (h.perform hs call) (hs.perform call)

end ListsTasksOf

/-- Sorting the queue as tasks come in, or when they go out, makes no difference: all answers are
the same after any calls, the same tasks wait, and the clocks and counts agree. -/
theorem answers_unsorted (calls : List SchedulerCall) :
    UnsortedScheduler.empty.answers calls = ManualScheduler.empty.answers calls ∧
      ListsTasksOf (calls.foldl UnsortedScheduler.perform .empty)
        (calls.foldl ManualScheduler.perform .empty) :=
  ⟨ListsTasksOf.empty.answers_eq ManualScheduler.ordered_empty calls,
    ListsTasksOf.empty.foldl_perform ManualScheduler.ordered_empty calls⟩

end StackEditor
