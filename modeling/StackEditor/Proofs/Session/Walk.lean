import StackEditor.Proofs.Execution.Walk
import StackEditor.Proofs.Session.Operations

/-!
# Walks of a session

A run that a session starts walks the tokens that its source has at that moment. Whatever is done to
the session until the run is over, pauses, steps, calls for steps, new breakpoints and new contents,
does not take the walk off its course: an operation takes it one token further or leaves it where it
is (`walkedTo_operate`), so every token is visited once (`exists_walkedTo_foldl`).
-/

namespace StackEditor

namespace EditorSession

open TokenWalker (Passed WalkEnd)

variable {α σ η : Type} [AnchorHost α] [StepScheduler σ] [HostSurface η]
  {s : EditorSession α TokenWalker σ η} {op : SessionOperation α σ} {tokens : List Token}
  {failOn : Option String} {start k : Nat}

/-- How far the session has come in a run, after operations of which `last` is the last. -/
def WalkedTo (tokens : List Token) (failOn : Option String) (start k : Nat)
    (last : SessionOperation α σ) (s : EditorSession α TokenWalker σ η) : Prop :=
  StackEditor.WalkedTo tokens failOn start k
    (fun outcome => s.events.getLast? = some (.runFinished outcome)) (last = .stop)
    s.controller.standing s.controller.evaluator

omit [AnchorHost α] [StepScheduler σ] in
/-- What a command does to the run is what the session does with it. -/
theorem walkedTo_withController {c : Controller TokenWalker σ} {command : ControllerCommand}
    {calls : List EvaluatorCall} {events : List ControllerEvent}
    (hadds : s.controller.Adds c calls events) (hcommand : s.command? op = some command)
    (h : StackEditor.WalkedTo tokens failOn start k (EndsWith events) (command = .stop) c.standing
      c.evaluator) :
    WalkedTo tokens failOn start k op (s.withController c) := by
  obtain ⟨surface, heq⟩ := exists_withController s c
  rw [WalkedTo, heq]
  refine h.imp (fun outcome hlast => ?_) fun hstop => eq_stop_of_command? (hstop ▸ hcommand)
  obtain ⟨before, rfl⟩ := List.getLast?_eq_some_iff.1 hlast
  dsimp only
  rw [hadds.events]
  simp [ControllerEvent.toSession]

/-- An operation takes a run that is under way one step further at most. -/
theorem walkedTo_operate (hactive : s.controller.state.isActive = true)
    (hwalk : OnWalk tokens failOn start k s.controller.standing s.controller.evaluator)
    (op : SessionOperation α σ) :
    ∃ k', (k' = k ∨ k' = k + 1) ∧ WalkedTo tokens failOn start k' op (s.operate op) := by
  cases hcommand : s.command? op with
  | none =>
    obtain ⟨scheduler, heq⟩ := exists_controller_operate hcommand
    refine ⟨k, .inl rfl, ?_⟩
    rw [WalkedTo, heq]
    exact .underWay hactive hwalk
  | some command =>
    have hstate : s.controller.state ≠ .stopped := fun h => by
      simp [h, ExecutionState.isActive] at hactive
    obtain ⟨calls, events, hdeed, hadds⟩ :=
      Controller.exists_deed hstate (fun _ => hwalk.cancel) command
    obtain ⟨k', hk', hwalked⟩ := hdeed.walkedTo hadds.heard hactive hwalk
    rw [operate_of_command? hcommand]
    exact ⟨k', hk', walkedTo_withController hadds hcommand hwalked⟩

/-- A run that is started walks the tokens of the source. -/
theorem walkedTo_operate_of_idle (hidle : s.controller.state = .idle)
    (hop : op = .run ∨ op = .step) :
    ∃ k, k ≤ 1 ∧ WalkedTo (tokenize s.source) s.controller.evaluator.failOn
      s.controller.evaluator.steps k op (s.operate op) := by
  obtain ⟨command, hcommand, hstarts⟩ : ∃ command, s.command? op = some command ∧
      (command = .run s.source s.tracker.breakpoints ∨
        command = .step s.source s.tracker.breakpoints) := by
    rcases hop with rfl | rfl
    · exact ⟨_, rfl, .inl rfl⟩
    · exact ⟨_, rfl, .inr rfl⟩
  have haccepted : (s.controller.obey command).1 = true := by
    rcases hstarts with rfl | rfl
    · rw [Controller.obey, Controller.run, hidle]
    · rw [Controller.obey, Controller.step, hidle]
  obtain ⟨calls, events, hdeed, hadds⟩ :=
    Controller.exists_deed (c := s.controller) (by simp [hidle])
      (by simp [hidle, ExecutionState.isActive]) command
  rw [haccepted] at hdeed
  obtain ⟨k, hk, hwalked⟩ := hdeed.walkedTo_of_idle hadds.heard hidle hstarts
  rw [operate_of_command? hcommand]
  exact ⟨k, hk, walkedTo_withController hadds hcommand hwalked⟩

/-- As long as the run is not over, it walks the tokens that the source had when it was started, and
the last operation has taken it one step further at most. -/
theorem exists_walkedTo_foldl (hidle : s.controller.state = .idle)
    {ops : List (SessionOperation α σ)}
    (hstart : ops.head? = some .run ∨ ops.head? = some .step)
    (hunderWay : ∀ n < ops.length, 0 < n →
      ((ops.take n).foldl operate s).controller.state ≠ .idle) :
    ∃ k last, ops.getLast? = some last ∧
      WalkedTo (tokenize s.source) s.controller.evaluator.failOn s.controller.evaluator.steps k
        last (ops.foldl operate s) ∧
      (ops.foldl operate s).controller.evaluator.steps ≤
        (ops.dropLast.foldl operate s).controller.evaluator.steps + 1 := by
  -- What the last operation does depends on how far those before it have come.
  induction ops using List.reverseRecOn with
  | nil => simp at hstart
  | append_singleton ops op ih =>
    rw [List.foldl_append, List.dropLast_concat, List.getLast?_concat]
    by_cases hnil : ops = []
    · subst hnil
      have hop : op = .run ∨ op = .step := by simpa using hstart
      obtain ⟨k, hk, hwalked⟩ := walkedTo_operate_of_idle hidle hop
      refine ⟨k, op, rfl, hwalked, ?_⟩
      exact hwalked.steps.le.trans (Nat.add_le_add_left hk _)
    · rw [List.head?_append_of_ne_nil _ hnil] at hstart
      have hbefore : ∀ n ≤ ops.length, 0 < n →
          ((ops.take n).foldl operate s).controller.state ≠ .idle := by
        intro n hn hpos
        have := hunderWay n (by simpa using Nat.lt_succ_of_le hn) hpos
        rwa [List.take_append_of_le_length hn] at this
      obtain ⟨k, last, -, hwalked, -⟩ := ih hstart fun n hn => hbefore n hn.le
      have hactive := hbefore ops.length le_rfl (List.length_pos_of_ne_nil hnil)
      rw [List.take_length] at hactive
      cases hwalked with
      | finished idle => exact absurd idle hactive
      | underWay active walk =>
        obtain ⟨k', hk', hwalked⟩ := walkedTo_operate active walk op
        refine ⟨k', op, rfl, hwalked, ?_⟩
        rw [walk.visited.steps]
        refine hwalked.steps.le.trans ?_
        omega

/-- A run that is started when no run is under way, whatever is done until it is over: after `k`
steps that end nothing, none of the first `k` tokens of the source at the start is one that fails,
and the execution is at the last of them. The run is completed at the step behind the last token,
or fails at the first token with the text that fails, and in no other way is it over but by a stop.
No operation takes more than one step. -/
theorem run_visits_tokens (s : EditorSession α TokenWalker σ η) (ops : List (SessionOperation α σ))
    (hidle : s.controller.state = .idle)
    (hstart : ops.head? = some .run ∨ ops.head? = some .step)
    (hunderWay : ∀ n < ops.length, 0 < n →
      ((ops.take n).foldl operate s).controller.state ≠ .idle) :
    let tokens := tokenize s.source
    let failOn := s.controller.evaluator.failOn
    let s' := ops.foldl operate s
    ∃ k, s'.controller.evaluator.steps = s.controller.evaluator.steps + k ∧
      s'.controller.evaluator.steps ≤
        (ops.dropLast.foldl operate s).controller.evaluator.steps + 1 ∧
      (s'.controller.state ≠ .idle → Passed tokens failOn k ∧
        s'.controller.position = (tokens.take k).getLast?.map .atToken) ∧
      (s'.controller.state = .idle → ∃ outcome,
        s'.events.getLast? = some (.runFinished outcome) ∧
        (WalkEnd tokens failOn k outcome ∨
          outcome = .cancelled ∧ ops.getLast? = some .stop ∧ Passed tokens failOn k)) := by
  intro tokens failOn s'
  obtain ⟨k, last, hlast, hwalked, hstep⟩ := exists_walkedTo_foldl hidle hstart hunderWay
  refine ⟨k, hwalked.steps, hstep, fun hactive => ?_, fun hidle' => ?_⟩
  · cases hwalked with
    | underWay active walk => exact ⟨walk.visited.passed, walk.position⟩
    | finished idle => exact absurd idle hactive
  · cases hwalked with
    | underWay active =>
      have hstate : s'.controller.standing.state = .idle := hidle'
      rw [hstate] at active
      cases active
    | finished idle steps reported ended =>
      refine ⟨_, reported, ended.imp_right fun ⟨hcancelled, hstop, hpassed⟩ => ?_⟩
      exact ⟨hcancelled, by rw [hlast, hstop], hpassed⟩

/-- A run over the words `a` and `b` that is paused while the text is changed to `c`. Before it is
resumed, the step that it no longer waits for is called for, and `b` is visited by a step. -/
def interruptedRun : List (SessionOperation TextAnchors ManualScheduler) :=
  [.run, .onTaskDue ⟨0⟩, .pause, .moveAnchors fun anchors => anchors.replaceText "c",
    .changeContent "c", .onTaskDue ⟨1⟩, .step, .run, .onTaskDue ⟨2⟩]

theorem interruptedRun_visits_tokens :
    let s' := interruptedRun.foldl operate atSecondWord
    s'.controller.state = .idle ∧ ∃ outcome,
      s'.events.getLast? = some (.runFinished outcome) ∧
      (WalkEnd (tokenize atSecondWord.source) none 3 outcome ∨
        outcome = .cancelled ∧ interruptedRun.getLast? = some .stop ∧
          Passed (tokenize atSecondWord.source) none 3) := by
  intro s'
  have hidle : s'.controller.state = .idle := by decide +kernel
  have hstart : atSecondWord.controller.evaluator.steps = 0 := by decide +kernel
  have hfailOn : atSecondWord.controller.evaluator.failOn = none := by decide +kernel
  have hsteps : s'.controller.evaluator.steps = 3 := by decide +kernel
  obtain ⟨k, hk, -, -, hend⟩ := run_visits_tokens atSecondWord interruptedRun (by decide +kernel)
    (.inl rfl) (by decide +kernel)
  rw [hsteps, hstart, Nat.zero_add] at hk
  rw [← hk, hfailOn] at hend
  exact ⟨hidle, hend hidle⟩

end EditorSession

end StackEditor
