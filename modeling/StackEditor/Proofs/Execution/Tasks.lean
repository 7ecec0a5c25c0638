import Mathlib.Data.List.Nodup
import StackEditor.Proofs.Execution.Scheduling

/-!
# What becomes of a scheduled task

A log lists what is seen of a scheduler: which tasks it gives out and with which deadlines, which
ones are cancelled, and which ones it delivers. The log and the queue account for each other
(`Tally`): every task that was given out waits in the queue, or was cancelled once, or was delivered
once. Every call keeps the account (`Tally.perform`), and with the order of the queue it follows
that of two waiting tasks the one that comes first in the order of delivery is delivered first,
unless it is cancelled (`Tally.delivered_first`).
-/

namespace StackEditor

/-- What is seen of a task. -/
inductive TaskEvent where
  /-- A task is given out, with its deadline. -/
  | scheduled (entry : Scheduled)
  | cancelled (task : TaskId)
  | delivered (task : TaskId)

namespace TaskEvent

def scheduled? : TaskEvent → Option Scheduled
  | scheduled entry => some entry
  | _ => none

def cancelled? : TaskEvent → Option TaskId
  | cancelled task => some task
  | _ => none

def delivered? : TaskEvent → Option TaskId
  | delivered task => some task
  | _ => none

variable {log : List TaskEvent} {task : TaskId}

/-- Only a scheduling tells of a scheduled task. -/
@[simp] theorem scheduled?_eq_some {e : TaskEvent} {entry : Scheduled} :
    e.scheduled? = some entry ↔ e = .scheduled entry := by
  cases e <;> simp [scheduled?]

/-- Only a cancellation tells of a cancelled task. -/
@[simp] theorem cancelled?_eq_some {e : TaskEvent} :
    e.cancelled? = some task ↔ e = .cancelled task := by
  cases e <;> simp [cancelled?]

/-- Only a delivery tells of a delivered task. -/
@[simp] theorem delivered?_eq_some {e : TaskEvent} :
    e.delivered? = some task ↔ e = .delivered task := by
  cases e <;> simp [delivered?]

/-- Tasks that are delivered are neither given out nor cancelled. -/
theorem filterMap_map_delivered (tasks : List TaskId) :
    (tasks.map delivered).filterMap scheduled? = [] ∧
      (tasks.map delivered).filterMap cancelled? = [] ∧
        (tasks.map delivered).filterMap delivered? = tasks := by
  induction tasks with
  | nil => exact ⟨rfl, rfl, rfl⟩
  | cons t ts ih => exact ⟨ih.1, ih.2.1, congrArg (t :: ·) ih.2.2⟩

end TaskEvent

namespace ManualScheduler

/-- What is seen of a call. -/
def events (s : ManualScheduler) : SchedulerCall → List TaskEvent
  | .schedule delay => [.scheduled ⟨(s.schedule delay).1, min (s.now + delay.millis) maxWord64⟩]
  | .cancel task => if (s.cancel task).1 then [.cancelled task] else []
  | .advance ms => (s.advance ms).1.map .delivered
  | .next => s.next.1.toList.map .delivered

/-- What is seen in the course of some calls. -/
def history (s : ManualScheduler) : List SchedulerCall → List TaskEvent
  | [] => []
  | call :: calls => s.events call ++ (s.perform call).history calls

/-! ## The account of all tasks -/

/-- The tasks that were given out are numbered in order, and they are those in the queue, those that
were cancelled and those that were delivered. -/
structure Tally (log : List TaskEvent) (s : ManualScheduler) : Prop where
  tasks : (log.filterMap (·.scheduled?)).map (·.task) = (List.range s.scheduled).map TaskId.mk
  states : ((log.filterMap (·.scheduled?)).map (·.task)).Perm
    (s.queue.map (·.task) ++ log.filterMap (·.cancelled?) ++ log.filterMap (·.delivered?))
  queue : ∀ q ∈ s.queue, .scheduled q ∈ log
  cancelled : s.cancelled = (log.filterMap (·.cancelled?)).length

namespace Tally

variable {log es : List TaskEvent} {s s' : ManualScheduler}

/-- No task is scheduled twice. -/
theorem nodup (h : Tally log s) : ((log.filterMap (·.scheduled?)).map (·.task)).Nodup := by
  rw [h.tasks]
  exact List.nodup_range.map fun m n hmn => TaskId.mk.inj hmn

/-- No task waits twice. -/
theorem nodup_queue (h : Tally log s) : (s.queue.map (·.task)).Nodup :=
  (List.nodup_append.1 (List.nodup_append.1 (h.states.nodup_iff.1 h.nodup)).1).1

/-- No task is both cancelled and delivered. -/
theorem not_delivered_of_cancelled (h : Tally log s) {task : TaskId}
    (hcancelled : .cancelled task ∈ log) : .delivered task ∉ log := fun hdelivered =>
  (List.nodup_append.1 (h.states.nodup_iff.1 h.nodup)).2.2 task
    (List.mem_append_right _ (by simpa using hcancelled)) task
    (by simpa using hdelivered) rfl

/-- The counter is the number of tasks that the log has scheduled. -/
theorem length_scheduled (h : Tally log s) :
    s.scheduled = (log.filterMap (·.scheduled?)).length := by
  simpa using (congrArg List.length h.tasks).symm

/-- A new task goes to the queue. -/
theorem schedule (h : Tally log s) (delay : Delay) :
    Tally (log ++ s.events (.schedule delay)) (s.schedule delay).2 := by
  have hperm := (enqueue_perm ⟨⟨s.scheduled⟩, min (s.now + delay.millis) maxWord64⟩ s.queue)
  constructor
  case tasks =>
    rw [List.filterMap_append, List.map_append, h.tasks]
    exact (congrArg _ List.range_succ).trans List.map_append |>.symm
  case states =>
    have htasks := hperm.map (·.task)
    have hstates := h.states
    rw [List.perm_iff_count] at htasks hstates ⊢
    intro task
    have hnew := htasks task
    have hold := hstates task
    simp only [events, ManualScheduler.schedule, List.filterMap_append, List.filterMap_cons,
      List.filterMap_nil, TaskEvent.scheduled?, TaskEvent.cancelled?, TaskEvent.delivered?,
      List.map_append, List.map_cons, List.map_nil, List.count_append, List.count_cons,
      List.count_nil] at hnew hold ⊢
    omega
  case queue =>
    intro q hq
    rcases List.mem_cons.1 (hperm.subset hq) with rfl | hq
    · exact List.mem_append_right _ (.head _)
    · exact List.mem_append_left _ (h.queue q hq)
  case cancelled =>
    simp [events, ManualScheduler.schedule, TaskEvent.cancelled?, h.cancelled]

/-- Tasks that leave the queue are cancelled or delivered. -/
theorem shrinks (h : Tally log s) (hs : s.Shrinks s') (hnew : es.filterMap (·.scheduled?) = [])
    (hgone : (s.queue.map (·.task)).Perm
      (s'.queue.map (·.task) ++ es.filterMap (·.cancelled?) ++ es.filterMap (·.delivered?)))
    (hcancelled : s'.cancelled = s.cancelled + (es.filterMap (·.cancelled?)).length) :
    Tally (log ++ es) s' := by
  constructor
  case tasks => rw [List.filterMap_append, hnew, List.append_nil, h.tasks, hs.scheduled]
  case states =>
    have hstates := h.states
    rw [List.perm_iff_count] at hgone hstates ⊢
    intro task
    have hleft := hgone task
    have hall := hstates task
    simp only [List.filterMap_append, hnew, List.append_nil, List.count_append] at hleft hall ⊢
    omega
  case queue => exact fun q hq => List.mem_append_left _ (h.queue q (hs.queue.subset hq))
  case cancelled => rw [hcancelled, h.cancelled, List.filterMap_append, List.length_append]

/-- A cancelled task goes from those that wait to those that are cancelled. -/
theorem cancel (h : Tally log s) (task : TaskId) :
    Tally (log ++ s.events (.cancel task)) (s.cancel task).2 := by
  have hshrinks := s.shrinks_cancel task
  by_cases hwaits : task ∈ s.queue.map (·.task)
  · rw [events]
    rw [s.cancel_of_mem hwaits] at hshrinks ⊢
    refine h.shrinks hshrinks rfl ?_ rfl
    have hrest : (s.queue.filter (·.task ≠ task)).map (·.task) =
        (s.queue.map (·.task)).erase task := by
      rw [h.nodup_queue.erase_eq_filter, List.filter_map]
      congr 2
      funext q
      by_cases hq : q.task = task <;> simp [hq]
    rw [hrest]
    show (s.queue.map (·.task)).Perm (_ ++ [task] ++ [])
    rw [List.append_nil]
    exact (List.perm_cons_erase hwaits).trans (List.perm_append_singleton ..).symm
  · rw [events]
    rw [s.cancel_of_not_mem hwaits] at hshrinks ⊢
    exact h.shrinks hshrinks rfl (by simp) rfl

/-- The tasks that are due go from those that wait to those that are delivered. -/
theorem advance (h : Tally log s) (ms : Nat) :
    Tally (log ++ s.events (.advance ms)) (s.advance ms).2 := by
  obtain ⟨hnew, hcancelled, hdelivered⟩ := TaskEvent.filterMap_map_delivered (s.advance ms).1
  refine h.shrinks (s.shrinks_advance ms) hnew ?_ ?_
  · rw [events, hcancelled, hdelivered, List.append_nil]
    simp only [ManualScheduler.advance, ← List.map_append]
    refine (List.perm_append_comm.trans ?_).symm.map _
    rw [List.takeWhile_append_dropWhile]
  · rw [events, hcancelled]
    rfl

/-- The task that is handed out goes from those that wait to those that are delivered. -/
theorem next (h : Tally log s) : Tally (log ++ s.events .next) s.next.2 := by
  have hshrinks := s.shrinks_next
  rw [events]
  cases hqueue : s.queue with
  | nil =>
    rw [s.next_of_nil hqueue] at hshrinks ⊢
    exact h.shrinks hshrinks rfl (by simp) rfl
  | cons t ts =>
    rw [s.next_of_cons hqueue] at hshrinks ⊢
    refine h.shrinks hshrinks rfl ?_ rfl
    rw [hqueue]
    show (t.task :: ts.map (·.task)).Perm (ts.map (·.task) ++ [] ++ [t.task])
    rw [List.append_nil]
    exact (List.perm_append_singleton ..).symm

/-- Every call keeps the account. -/
theorem perform (h : Tally log s) : ∀ call, Tally (log ++ s.events call) (s.perform call)
  | .schedule delay => h.schedule delay
  | .cancel task => h.cancel task
  | .advance ms => h.advance ms
  | .next => h.next

/-- The account is right after any calls. -/
theorem foldl_perform (h : Tally log s) (calls : List SchedulerCall) :
    Tally (log ++ s.history calls) (calls.foldl ManualScheduler.perform s) := by
  induction calls generalizing log s with
  | nil => rwa [history, List.append_nil]
  | cons call calls ih =>
    rw [history, ← List.append_assoc]
    exact ih (h.perform call)

end Tally

/-- A new scheduler has nothing to account for. -/
theorem tally_empty : Tally [] empty := ⟨rfl, .refl _, nofun, rfl⟩

/-! ## The clock and the deadlines -/

variable {s : ManualScheduler}

/-- The clock never goes back. -/
theorem now_le_perform (s : ManualScheduler) (call : SchedulerCall) :
    s.now ≤ (s.perform call).now := by
  cases call with
  | schedule delay => exact Nat.le_refl _
  | cancel task =>
    rw [perform, cancel]
    split <;> exact Nat.le_refl _
  | advance ms => exact Nat.le_add_right _ _
  | next =>
    rw [perform, next]
    split
    · exact Nat.le_refl _
    · exact Nat.le_max_left _ _

/-- A task that is delivered was waiting, and the clock has reached its deadline. -/
theorem due_le_of_delivered {call : SchedulerCall} {task : TaskId}
    (h : .delivered task ∈ s.events call) :
    ∃ q ∈ s.queue, q.task = task ∧ q.due ≤ (s.perform call).now := by
  cases call with
  | schedule delay => simp [events] at h
  | cancel task => simp [events] at h
  | advance ms =>
    obtain ⟨_, hmem, heq⟩ := List.mem_map.1 h
    obtain rfl := TaskEvent.delivered.inj heq
    obtain ⟨q, hq, rfl⟩ := List.mem_map.1 hmem
    have hdue : q.due ≤ s.now + ms := by simpa using List.mem_takeWhile_imp hq
    exact ⟨q, (List.takeWhile_sublist _).subset hq, rfl, hdue⟩
  | next =>
    rw [perform]
    cases hqueue : s.queue with
    | nil => simp [events, s.next_of_nil hqueue] at h
    | cons t ts =>
      obtain rfl : task = t.task := by simpa [events, s.next_of_cons hqueue] using h
      rw [s.next_of_cons hqueue]
      exact ⟨t, .head _, rfl, Nat.le_max_right _ _⟩

/-- A task that waits goes on waiting unless it is cancelled or delivered. -/
theorem mem_queue_perform {q : Scheduled} (hq : q ∈ s.queue) (call : SchedulerCall) :
    q ∈ (s.perform call).queue ∨ .cancelled q.task ∈ s.events call ∨
      .delivered q.task ∈ s.events call := by
  cases call with
  | schedule delay => exact .inl ((enqueue_perm _ _).mem_iff.2 (.tail _ hq))
  | cancel task =>
    rw [perform, events]
    by_cases hwaits : task ∈ s.queue.map (·.task)
    · rw [s.cancel_of_mem hwaits]
      by_cases htask : q.task = task
      · exact .inr (.inl (by simp [htask]))
      · exact .inl (List.mem_filter.2 ⟨hq, by simp [htask]⟩)
    · rw [s.cancel_of_not_mem hwaits]
      exact .inl hq
  | advance ms =>
    rw [← List.takeWhile_append_dropWhile (p := (·.due ≤ s.now + ms)) (l := s.queue)] at hq
    rcases List.mem_append.1 hq with hq | hq
    · exact .inr (.inr (List.mem_map_of_mem (List.mem_map_of_mem hq)))
    · exact .inl hq
  | next =>
    rw [perform, events]
    cases hqueue : s.queue with
    | nil => simp [hqueue] at hq
    | cons t ts =>
      rw [s.next_of_cons hqueue]
      rw [hqueue] at hq
      rcases List.mem_cons.1 hq with rfl | hq
      · exact .inr (.inr (.head _))
      · exact .inl hq

/-! ## The order of delivery -/

/-- Where a task stands in the queue, all tasks that come before it stand in front. -/
theorem mem_front_of_before {p q : Scheduled} {front back : List Scheduled}
    (hqueue : (front ++ q :: back).Pairwise Scheduled.Before) (hp : p ∈ front ++ q :: back)
    (hpq : p.Before q) : p ∈ front := by
  rcases List.mem_append.1 hp with hp | hp
  · exact hp
  · have hback := (List.pairwise_cons.1 (List.pairwise_append.1 hqueue).2.1).1
    rcases List.mem_cons.1 hp with rfl | hp
    · exact absurd hpq (Scheduled.Before.asymm hpq)
    · exact absurd (hback p hp) (Scheduled.Before.asymm hpq)

/-- One call that delivers a task delivers those that come before it, too, and earlier. -/
theorem delivered_before {p q : Scheduled} {call : SchedulerCall} {before behind : List TaskEvent}
    (hordered : s.Ordered) (hnodup : (s.queue.map (·.task)).Nodup) (hp : p ∈ s.queue)
    (hq : q ∈ s.queue) (hpq : p.Before q)
    (h : s.events call = before ++ .delivered q.task :: behind) : .delivered p.task ∈ before := by
  cases call with
  | schedule delay =>
    have hmem : TaskEvent.delivered q.task ∈ s.events (.schedule delay) := by simp [h]
    simp [events] at hmem
  | cancel task =>
    have hmem : TaskEvent.delivered q.task ∈ s.events (.cancel task) := by simp [h]
    simp [events] at hmem
  | advance ms =>
    rw [events, advance, List.map_map] at h
    obtain ⟨front, rest, hfront, rfl, hrest⟩ := List.map_eq_append_iff.1 h
    obtain ⟨q', back, rfl, htask, -⟩ := List.map_eq_cons_iff.1 hrest
    have hsplit : s.queue = front ++ q' :: (back ++ s.queue.dropWhile (·.due ≤ s.now + ms)) := by
      rw [← List.cons_append, ← List.append_assoc, ← hfront, List.takeWhile_append_dropWhile]
    have hq' : q' ∈ s.queue := by
      rw [hsplit]
      exact List.mem_append_right _ (.head _)
    obtain rfl : q' = q :=
      List.inj_on_of_nodup_map hnodup hq' hq (TaskEvent.delivered.inj htask)
    have hordered' := hordered.queue
    rw [hsplit] at hordered' hp
    exact List.mem_map_of_mem (f := TaskEvent.delivered ∘ (·.task))
      (mem_front_of_before hordered' hp hpq)
  | next =>
    rw [events] at h
    cases hqueue : s.queue with
    | nil => simp [hqueue] at hq
    | cons t ts =>
      rw [s.next_of_cons hqueue] at h
      have hordered' := hordered.queue
      rw [hqueue] at hp hq hnodup hordered'
      cases before with
      | nil =>
        have htask : t.task = q.task := TaskEvent.delivered.inj (List.cons.inj h).1
        obtain rfl : t = q := List.inj_on_of_nodup_map hnodup (.head _) hq htask
        have hfront : p ∈ [] := mem_front_of_before hordered' hp hpq
        cases hfront
      | cons e rest => simp at h

/-- An element of two lists, one behind the other, stands in the first or in the second one. -/
theorem split_of_append_eq {α : Type} {xs ys before behind : List α} {x : α}
    (h : xs ++ ys = before ++ x :: behind) :
    (∃ back, xs = before ++ x :: back) ∨
      ∃ front, before = xs ++ front ∧ ys = front ++ x :: behind := by
  rcases List.append_eq_append_iff.1 h with ⟨front, hbefore, hys⟩ | ⟨rest, hxs, hrest⟩
  · exact .inr ⟨front, hbefore, hys⟩
  · cases rest with
    | nil => exact .inr ⟨[], by simpa using hxs.symm, hrest.symm⟩
    | cons y back =>
      obtain ⟨rfl, -⟩ := List.cons.inj hrest
      exact .inl ⟨back, hxs⟩

/-- Of two tasks that wait, the one that comes before the other is delivered before it, or
cancelled. -/
theorem Tally.delivered_first {log : List TaskEvent} (h : Tally log s) (hordered : s.Ordered)
    {p q : Scheduled} (hp : p ∈ s.queue) (hq : q ∈ s.queue) (hpq : p.Before q)
    (calls : List SchedulerCall) {before behind : List TaskEvent}
    (hdelivered : s.history calls = before ++ .delivered q.task :: behind) :
    .delivered p.task ∈ before ∨ .cancelled p.task ∈ before := by
  induction calls generalizing log s before with
  | nil => simp [history] at hdelivered
  | cons call calls ih =>
    have honce {front back : List TaskEvent}
        (hevents : s.events call = front ++ .delivered q.task :: back) :
        .delivered p.task ∈ front := delivered_before hordered h.nodup_queue hp hq hpq hevents
    rcases split_of_append_eq hdelivered with ⟨back, hevents⟩ | ⟨front, rfl, hlater⟩
    · exact .inl (honce hevents)
    · -- All events of this call stand before the delivery, and those that concern the two tasks.
      rcases mem_queue_perform hp call with hp' | hcancelled | hdelivered
      · rcases mem_queue_perform hq call with hq' | hcancelled | hdelivered
        · exact (ih (h.perform call) (hordered.perform call) hp' hq' hlater).imp
            (List.mem_append_right _) (List.mem_append_right _)
        · have hnot := ((h.perform call).foldl_perform calls).not_delivered_of_cancelled
            (List.mem_append_left _ (List.mem_append_right _ hcancelled))
          exact absurd (List.mem_append_right _ (by simp [hlater])) hnot
        · obtain ⟨first, back, hevents⟩ := List.append_of_mem hdelivered
          refine .inl (List.mem_append_left _ ?_)
          rw [hevents]
          exact List.mem_append_left _ (honce hevents)
      · exact .inr (List.mem_append_left _ hcancelled)
      · exact .inl (List.mem_append_left _ hdelivered)

/-- After any calls: every task that was given out waits, was cancelled or was delivered, one of the
three and once, and the counts say so. The clock never goes back. A task is delivered when the clock
has reached its deadline, and a move of the clock leaves none behind. Of two tasks that wait, the
one with the earlier deadline, or with the same and scheduled earlier, is delivered first, unless it
is cancelled. -/
theorem tasks_accounted (calls : List SchedulerCall) :
    let s := calls.foldl perform empty
    let log := empty.history calls
    let scheduled := log.filterMap (·.scheduled?)
    let cancelled := log.filterMap (·.cancelled?)
    let delivered := log.filterMap (·.delivered?)
    (scheduled.map (·.task)).Nodup ∧
      (scheduled.map (·.task)).Perm (s.queue.map (·.task) ++ cancelled ++ delivered) ∧
      (∀ q ∈ s.queue, q ∈ scheduled) ∧
      s.scheduled = scheduled.length ∧ s.cancelled = cancelled.length ∧
      s.scheduled = s.pending + s.cancelled + delivered.length ∧
      (∀ call, s.now ≤ (s.perform call).now) ∧
      (∀ call, ∀ q ∈ scheduled, .delivered q.task ∈ s.events call →
        q.due ≤ (s.perform call).now) ∧
      (∀ ms, ∀ q ∈ (s.advance ms).2.queue, (s.advance ms).2.now < q.due) ∧
      ∀ p ∈ s.queue, ∀ q ∈ s.queue, p.Before q → ∀ later before behind,
        s.history later = before ++ .delivered q.task :: behind →
          .delivered p.task ∈ before ∨ .cancelled p.task ∈ before := by
  intro s log scheduled cancelled delivered
  have hordered : s.Ordered := ordered_empty.foldl_perform calls
  have htally : Tally log s := tally_empty.foldl_perform calls
  have hwaiting : ∀ q ∈ s.queue, q ∈ scheduled := fun q hq => by
    simpa [scheduled] using htally.queue q hq
  have hcounts : s.scheduled = s.pending + s.cancelled + delivered.length := by
    have hlength := htally.states.length_eq
    rw [List.length_map, List.length_append, List.length_append, List.length_map] at hlength
    rw [htally.length_scheduled, htally.cancelled]
    exact hlength
  refine ⟨htally.nodup, htally.states, hwaiting, htally.length_scheduled, htally.cancelled, hcounts,
    s.now_le_perform, fun call q hq hdelivered => ?_, fun ms q hq => ?_,
    fun p hp q hq hpq later before behind => htally.delivered_first hordered hp hq hpq later⟩
  · obtain ⟨q', hq', htask, hdue⟩ := due_le_of_delivered hdelivered
    obtain rfl : q' = q := List.inj_on_of_nodup_map htally.nodup (hwaiting q' hq') hq htask
    exact hdue
  · exact lt_due_of_mem_dropWhile hordered.queue hq

end ManualScheduler

end StackEditor
