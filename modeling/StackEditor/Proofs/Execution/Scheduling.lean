import Mathlib.Data.List.TakeWhile
import StackEditor.Execution.Scheduler

/-!
# A clock that is moved by hand

Tasks are delivered in one order, by their deadlines, and as they were scheduled if their deadlines
are the same (`Scheduled.Before`). After any calls the queue stands in this order (`Ordered`), so
the tasks that are due by some time are the first ones of the queue: sorting those that are due
among the waiting tasks gives the same, however the waiting tasks are listed
(`Ordered.takeWhile_due`).

So it does not matter in how many pieces the clock is moved, and handing out the tasks one by one
(`drain`) delivers what one move of the clock past all deadlines delivers (`advance_in_pieces`).
-/

namespace StackEditor

/-- What can be done to a scheduler. -/
inductive SchedulerCall where
  | schedule (delay : Delay)
  | cancel (task : TaskId)
  | advance (ms : Nat)
  | next

/-! ## The order of delivery -/

namespace Scheduled

variable {p q r : Scheduled}

/-- The task `p` has the earlier deadline, or the same one and was scheduled earlier. -/
def Before (p q : Scheduled) : Prop :=
  p.due < q.due ∨ p.due = q.due ∧ p.task.number < q.task.number

instance : DecidableRel Before := fun p q =>
  inferInstanceAs (Decidable (p.due < q.due ∨ p.due = q.due ∧ p.task.number < q.task.number))

/-- The task that comes before another is not due later. -/
theorem Before.due_le (h : p.Before q) : p.due ≤ q.due := by
  unfold Before at h
  omega

/-- Two tasks do not come before each other. -/
theorem Before.asymm (h : p.Before q) : ¬ q.Before p := by
  unfold Before at *
  omega

/-- The order by which tasks are sorted for delivery. -/
def notAfter (p q : Scheduled) : Bool :=
  p.due < q.due || p.due = q.due && p.task.number ≤ q.task.number

/-- What the test of the order says: earlier deadlines first, and the first scheduled first among
equals. -/
theorem notAfter_iff :
    notAfter p q = true ↔ p.due < q.due ∨ p.due = q.due ∧ p.task.number ≤ q.task.number := by
  simp [notAfter]

/-- A task that comes before another does not come after it. -/
theorem Before.notAfter (h : p.Before q) : notAfter p q = true :=
  notAfter_iff.2 (h.imp_right fun ⟨hdue, hnumber⟩ => ⟨hdue, Nat.le_of_lt hnumber⟩)

/-- The order of delivery is transitive. -/
theorem notAfter_trans (p q r : Scheduled) (hpq : notAfter p q = true)
    (hqr : notAfter q r = true) : notAfter p r = true := by
  rw [notAfter_iff] at *
  omega

/-- Any two tasks are in the order of delivery, one way or the other. -/
theorem notAfter_total (p q : Scheduled) : (notAfter p q || notAfter q p) = true := by
  rw [Bool.or_eq_true, notAfter_iff, notAfter_iff]
  omega

/-- Two tasks with the same deadline and number are the same task. -/
theorem notAfter_antisymm (hpq : notAfter p q = true) (hqp : notAfter q p = true) : p = q := by
  obtain ⟨⟨m⟩, due⟩ := p
  obtain ⟨⟨n⟩, due'⟩ := q
  rw [notAfter_iff] at hpq hqp
  have hdue : due = due' := by
    dsimp only at hpq hqp
    omega
  have hnumber : m = n := by
    dsimp only at hpq hqp
    omega
  rw [hdue, hnumber]

end Scheduled

open Scheduled (Before notAfter)

/-- A list in the order of delivery is what sorting its tasks gives. -/
theorem mergeSort_eq_of_pairwise_before {queue waiting : List Scheduled}
    (h : queue.Pairwise Before) (hperm : waiting.Perm queue) :
    waiting.mergeSort notAfter = queue := by
  have hqueue : queue.Pairwise (notAfter · ·) := h.imp Before.notAfter
  exact ((List.mergeSort_perm ..).trans hperm).eq_of_pairwise
    (fun _ _ _ _ => Scheduled.notAfter_antisymm)
    (List.pairwise_mergeSort Scheduled.notAfter_trans Scheduled.notAfter_total _) hqueue

/-- Of a queue in the order of delivery, the tasks that are due stand in front. -/
theorem takeWhile_due_eq_filter {queue : List Scheduled} (h : queue.Pairwise Before) (now : Nat) :
    queue.takeWhile (·.due ≤ now) = queue.filter (·.due ≤ now) := by
  induction queue with
  | nil => rfl
  | cons t ts ih =>
    obtain ⟨hfirst, hrest⟩ := List.pairwise_cons.1 h
    by_cases hdue : t.due ≤ now
    · simp [hdue, ih hrest]
    · have hlate : ∀ q ∈ ts, ¬ q.due ≤ now := fun q hq hq' =>
        hdue (Nat.le_trans (hfirst q hq).due_le hq')
      simpa [hdue] using hlate

/-- Of a queue in the order of delivery, the tasks that are not due stand behind. -/
theorem dropWhile_due_eq_filter {queue : List Scheduled} (h : queue.Pairwise Before) (now : Nat) :
    queue.dropWhile (·.due ≤ now) = queue.filter (now < ·.due) := by
  induction queue with
  | nil => rfl
  | cons t ts ih =>
    obtain ⟨hfirst, hrest⟩ := List.pairwise_cons.1 h
    by_cases hdue : t.due ≤ now
    · simp [hdue, ih hrest, Nat.not_lt.2 hdue]
    · have hlate : now < t.due := Nat.lt_of_not_le hdue
      have hrest : ∀ q ∈ ts, now < q.due := fun q hq =>
        Nat.lt_of_lt_of_le hlate (hfirst q hq).due_le
      simpa [hlate] using (List.filter_eq_self.2 (by simpa using hrest)).symm

/-- Of a queue in the order of delivery, no task is due behind one that is not. -/
theorem lt_due_of_mem_dropWhile {queue : List Scheduled} (h : queue.Pairwise Before) {now : Nat}
    {q : Scheduled} (hq : q ∈ queue.dropWhile (·.due ≤ now)) : now < q.due := by
  rw [dropWhile_due_eq_filter h] at hq
  simpa using (List.mem_filter.1 hq).2

namespace ManualScheduler

/-! ## What the scheduler keeps of its queue -/

/-- A task that is put into a queue is in it beside the others. -/
theorem enqueue_perm (q : Scheduled) (queue : List Scheduled) :
    (enqueue q queue).Perm (q :: queue) := by
  induction queue with
  | nil => exact .refl _
  | cons t ts ih =>
    rw [enqueue]
    split
    · exact (ih.cons t).trans (.swap q t ts)
    · exact .refl _

/-- A task with a new number finds its place in the order of delivery. -/
theorem pairwise_enqueue {q : Scheduled} {queue : List Scheduled} (h : queue.Pairwise Before)
    (hnew : ∀ t ∈ queue, t.task.number < q.task.number) : (enqueue q queue).Pairwise Before := by
  induction queue with
  | nil => simp [enqueue]
  | cons t ts ih =>
    obtain ⟨hfirst, hrest⟩ := List.pairwise_cons.1 h
    obtain ⟨hnumber, hnew⟩ := List.forall_mem_cons.1 hnew
    rw [enqueue]
    split
    · next hdue =>
      refine List.pairwise_cons.2 ⟨fun x hx => ?_, ih hrest hnew⟩
      rcases List.mem_cons.1 ((enqueue_perm q ts).subset hx) with rfl | hx
      · exact (Nat.lt_or_eq_of_le hdue).imp_right (⟨·, hnumber⟩)
      · exact hfirst x hx
    · next hdue =>
      refine List.pairwise_cons.2 ⟨List.forall_mem_cons.2 ⟨?_, fun x hx => ?_⟩, h⟩
      · exact .inl (Nat.lt_of_not_le hdue)
      · exact .inl (Nat.lt_of_lt_of_le (Nat.lt_of_not_le hdue) (hfirst x hx).due_le)

/-- Tasks have been taken out of the queue, and none was scheduled. -/
structure Shrinks (s s' : ManualScheduler) : Prop where
  queue : s'.queue.Sublist s.queue
  scheduled : s'.scheduled = s.scheduled

section
variable (s : ManualScheduler)

/-- Nothing is handed out when nothing waits, and the clock stands still. -/
theorem next_of_nil (h : s.queue = []) : s.next = (none, s) := by
  rw [next, h]

/-- The first task in the queue is handed out, and the clock goes to its deadline unless it is past
it. -/
theorem next_of_cons {t : Scheduled} {ts : List Scheduled} (h : s.queue = t :: ts) :
    s.next = (some t.task, { s with now := max s.now t.due, queue := ts }) := by
  rw [next, h]

/-- A waiting task is cancelled by taking it out of the queue. -/
theorem cancel_of_mem {task : TaskId} (h : task ∈ s.queue.map (·.task)) :
    s.cancel task = (true, { s with
      queue := s.queue.filter (·.task ≠ task)
      cancelled := s.cancelled + 1 }) := by
  rw [cancel, if_pos (by simpa using h)]

/-- A task that does not wait is not cancelled, and the scheduler stays as it is. -/
theorem cancel_of_not_mem {task : TaskId} (h : task ∉ s.queue.map (·.task)) :
    s.cancel task = (false, s) := by
  rw [cancel, if_neg (by simpa using h)]

/-- Moving the clock only takes tasks out of the queue. -/
theorem shrinks_advance (ms : Nat) : s.Shrinks (s.advance ms).2 :=
  ⟨List.dropWhile_sublist _, rfl⟩

/-- Handing out a task only takes it out of the queue. -/
theorem shrinks_next : s.Shrinks s.next.2 := by
  unfold next
  cases h : s.queue with
  | nil => exact ⟨by simp [h], rfl⟩
  | cons t ts => exact ⟨by simp [h], rfl⟩

/-- Cancelling a task only takes it out of the queue. -/
theorem shrinks_cancel (task : TaskId) : s.Shrinks (s.cancel task).2 := by
  unfold cancel
  split
  · exact ⟨List.filter_sublist, rfl⟩
  · exact ⟨List.Sublist.refl _, rfl⟩

/-- A task that has been cancelled is not in the queue. -/
theorem ne_of_mem_cancel {task : TaskId} {q : Scheduled} (h : q ∈ (s.cancel task).2.queue) :
    q.task ≠ task := by
  unfold cancel at h
  split at h
  · simpa using (List.mem_filter.1 h).2
  · next hnot =>
    intro heq
    exact hnot (List.any_eq_true.2 ⟨q, h, by simp [heq]⟩)

end

/-! ## Runs -/

/-- The scheduler after a call. -/
def perform (s : ManualScheduler) : SchedulerCall → ManualScheduler
  | .schedule delay => (s.schedule delay).2
  | .cancel task => (s.cancel task).2
  | .advance ms => (s.advance ms).2
  | .next => s.next.2

/-- The queue stands in the order of delivery, and its tasks were all given out. -/
structure Ordered (s : ManualScheduler) : Prop where
  queue : s.queue.Pairwise Before
  issued : ∀ q ∈ s.queue, q.task.number < s.scheduled

variable {s s' : ManualScheduler}

/-- A scheduler without tasks is in order. -/
theorem ordered_empty : empty.Ordered := ⟨.nil, nofun⟩

/-- Taking tasks out of the queue leaves it in order. -/
theorem Ordered.shrinks (h : s.Ordered) (hs : s.Shrinks s') : s'.Ordered where
  queue := h.queue.sublist hs.queue
  issued q hq := hs.scheduled ▸ h.issued q (hs.queue.subset hq)

/-- A scheduled task is put where it belongs in the order of delivery. -/
theorem Ordered.schedule (h : s.Ordered) (delay : Delay) : (s.schedule delay).2.Ordered where
  queue := pairwise_enqueue h.queue h.issued
  issued q hq := by
    rcases List.mem_cons.1 ((enqueue_perm _ _).subset hq) with rfl | hq
    · exact Nat.lt_succ_self _
    · exact Nat.lt_succ_of_lt (h.issued q hq)

/-- Every call keeps the order of the queue. -/
theorem Ordered.perform (h : s.Ordered) : ∀ call, (s.perform call).Ordered
  | .schedule delay => h.schedule delay
  | .cancel task => h.shrinks (s.shrinks_cancel task)
  | .advance ms => h.shrinks (s.shrinks_advance ms)
  | .next => h.shrinks s.shrinks_next

/-- The queue stays in the order of delivery through any calls. -/
theorem Ordered.foldl_perform (h : s.Ordered) (calls : List SchedulerCall) :
    (calls.foldl ManualScheduler.perform s).Ordered := by
  induction calls generalizing s with
  | nil => exact h
  | cons call calls ih => exact ih (h.perform call)

/-- What is delivered are the tasks that are due, sorted, whatever the order in which the waiting
tasks are listed. -/
theorem Ordered.takeWhile_due (h : s.Ordered) {waiting : List Scheduled}
    (hperm : waiting.Perm s.queue) (now : Nat) :
    s.queue.takeWhile (·.due ≤ now) = (waiting.filter (·.due ≤ now)).mergeSort notAfter := by
  rw [takeWhile_due_eq_filter h.queue]
  exact (mergeSort_eq_of_pairwise_before (h.queue.filter _) (hperm.filter _)).symm

/-! ## The clock in pieces -/

/-- What is due by a later time is what is due by an earlier one, and then some of the rest. -/
theorem due_split {now later : Nat} (h : now ≤ later) (queue : List Scheduled) :
    queue.takeWhile (·.due ≤ later) = queue.takeWhile (·.due ≤ now) ++
        (queue.dropWhile (·.due ≤ now)).takeWhile (·.due ≤ later) ∧
      queue.dropWhile (·.due ≤ later) =
        (queue.dropWhile (·.due ≤ now)).dropWhile (·.due ≤ later) := by
  induction queue with
  | nil => exact ⟨rfl, rfl⟩
  | cons t ts ih =>
    by_cases hdue : t.due ≤ now
    · have hlater : t.due ≤ later := Nat.le_trans hdue h
      simp [hdue, hlater, ih]
    · simp [hdue]

/-- Moving the clock twice is moving it once. -/
theorem advance_add (s : ManualScheduler) (a b : Nat) :
    s.advance (a + b) =
      ((s.advance a).1 ++ ((s.advance a).2.advance b).1, ((s.advance a).2.advance b).2) := by
  obtain ⟨htake, hdrop⟩ := due_split (Nat.le_add_right (s.now + a) b) s.queue
  simp only [advance, ← Nat.add_assoc]
  rw [htake, hdrop, List.map_append]
  rfl

/-! ## One task after the other -/

/-- Each task that is handed out makes the queue shorter. -/
theorem length_queue_next {task : TaskId} (h : s.next = (some task, s')) :
    s'.queue.length < s.queue.length := by
  unfold next at h
  split at h
  · cases h
  · next t ts hqueue =>
    obtain ⟨-, rfl⟩ := Prod.mk.inj h
    simp [hqueue]

/-- Hands out the next task until there is none. -/
def drain (s : ManualScheduler) : List TaskId × ManualScheduler :=
  match _h : s.next with
  | (none, s') => ([], s')
  | (some task, s') => (task :: s'.drain.1, s'.drain.2)
termination_by s.queue.length
decreasing_by all_goals exact length_queue_next _h

/-- All tasks of the queue are handed out, in the order of the queue, and the clock stops at the
latest deadline that it had to reach. -/
theorem drain_eq (s : ManualScheduler) :
    s.drain = (s.queue.map (·.task),
      { s with now := (s.queue.map (·.due)).foldl max s.now, queue := [] }) := by
  obtain ⟨now, queue, scheduled, cancelled⟩ := s
  induction queue generalizing now with
  | nil =>
    rw [drain]
    rfl
  | cons t ts ih =>
    rw [drain]
    simp only [next, ih]
    rfl

/-- The greatest of some deadlines and the clock, as one maximum. -/
theorem foldl_max_eq (now : Nat) : ∀ deadlines : List Nat,
    deadlines.foldl max now = max now (deadlines.max?.getD 0)
  | [] => by simp
  | due :: rest => by
    rw [List.foldl_cons, foldl_max_eq, List.max?_cons, Nat.max_assoc]
    cases rest.max? <;> simp

/-- After any calls: moving the clock by `a` and then by `b` delivers what moving it by both
delivers, and leaves the same scheduler. A move of the clock delivers the waiting tasks that are due
by then, sorted by deadline and then as they were scheduled. Handing out one task after the other
delivers what a move past all deadlines delivers, and moves the clock to the latest deadline, if it
is not there yet. -/
theorem advance_in_pieces (calls : List SchedulerCall) (a b d : Nat) :
    let s := calls.foldl perform empty
    let first := s.advance a
    let second := first.2.advance b
    s.advance (a + b) = (first.1 ++ second.1, second.2) ∧
      (∀ waiting : List Scheduled, waiting.Perm s.queue → (s.advance d).1 =
        ((waiting.filter (·.due ≤ s.now + d)).mergeSort notAfter).map (·.task)) ∧
      ((∀ q ∈ s.queue, q.due ≤ s.now + d) →
        s.drain.1 = (s.advance d).1 ∧ s.drain.2.queue = [] ∧
          s.drain.2.now = max s.now ((s.queue.map (·.due)).max?.getD 0)) := by
  intro s first second
  have hs : s.Ordered := ordered_empty.foldl_perform calls
  refine ⟨s.advance_add a b, fun waiting hperm => ?_, fun hdue => ?_⟩
  · rw [advance, hs.takeWhile_due hperm]
  · have hall : s.queue.takeWhile (·.due ≤ s.now + d) = s.queue :=
      List.takeWhile_eq_self_iff.2 fun q hq => by simpa using hdue q hq
    rw [drain_eq]
    exact ⟨by rw [advance, hall], rfl, foldl_max_eq _ _⟩

end ManualScheduler

end StackEditor
