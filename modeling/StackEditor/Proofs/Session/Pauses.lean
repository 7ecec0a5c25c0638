import Mathlib.Data.List.Iterate
import StackEditor.Proofs.Execution.Pauses
import StackEditor.Proofs.Lexeme.Tiling
import StackEditor.Proofs.Session.Operations

/-!
# Pauses of a session

A host that only attends to a run calls for the steps that are waited for, and goes on whenever the
run is paused (`attend`). Then the run pauses where the tokens of the source and the breakpoints
say, once at each place, and in the end it is completed (`run_pauses`). The induction is on the
tokens that the walker has before it (`Before.attended`): a token takes one call, and one more to go
on if the run halts there.
-/

namespace StackEditor

/-- How the run has ended that the event reports the end of. -/
def SessionEvent.outcome? : SessionEvent → Option RunOutcome
  | runFinished outcome => some outcome
  | _ => none

/-- A session passes the ends of runs on. -/
theorem filterMap_outcome?_toSession (events : List ControllerEvent) :
    (events.map ControllerEvent.toSession).filterMap SessionEvent.outcome? =
      events.filterMap ControllerEvent.outcome? := by
  rw [List.filterMap_map]
  refine List.filterMap_congr fun e _ => ?_
  cases e <;> rfl

/-- The tokens of a source start at different places. -/
theorem nodup_start_tokenize (source : String) : ((tokenize source).map (·.start)).Nodup := by
  rw [List.Nodup, List.pairwise_map]
  refine (tiles_tokenize source).ordered.imp fun hlt heq => ?_
  have hstart := hlt.1
  rw [heq, Position.lt_def] at hstart
  omega

namespace EditorSession

open TokenWalker (Ahead)

variable {α σ η : Type} [StepScheduler σ] [HostSurface η]

/-! ## Sessions that can be run -/

/-- What every operation keeps of a session whose walker does not fail: no two of its breakpoints
are at one place. -/
structure Ready (s : EditorSession α TokenWalker σ η) : Prop where
  quiet : s.controller.Quiet
  failOn : s.controller.evaluator.failOn = none
  nodup : (s.tracker.breakpoints.map (·.position)).Nodup

variable {s s' s₁ : EditorSession α TokenWalker σ η}

section
variable [AnchorHost α]

/-- No operation puts two breakpoints at one place. -/
theorem nodup_operate (h : (s.tracker.breakpoints.map (·.position)).Nodup)
    (op : SessionOperation α σ) :
    ((s.operate op).tracker.breakpoints.map (·.position)).Nodup := by
  by_cases hop : op = .takeEvents
  · subst hop
    exact h
  have heffect := effect_operate (s := s) hop
  generalize s.operate op = s' at heffect ⊢
  cases heffect with
  | told text =>
    rw [onContentChanged, tracker_withTracker]
    exact s.tracker.nodup_reconcile _
  | revised revises =>
    rw [tracker_withTracker]
    exact revises.nodup h
  | obeyed command => rwa [tracker_withController]
  | moved | scheduled | unchanged => exact h

/-- No operation makes the walker fail. -/
theorem failOn_operate (h : s.controller.Steady) (op : SessionOperation α σ) :
    (s.operate op).controller.evaluator.failOn = s.controller.evaluator.failOn := by
  cases hcommand : s.command? op with
  | none =>
    obtain ⟨scheduler, heq⟩ := exists_controller_operate hcommand
    rw [heq]
  | some command =>
    obtain ⟨calls, events, -, hadds⟩ := h.exists_deed command
    rw [operate_of_command? hcommand, controller_withController]
    exact hadds.heard.failOn_eq

theorem Ready.operate (h : s.Ready) (op : SessionOperation α σ) : (s.operate op).Ready :=
  ⟨quiet_operate h.quiet op, (failOn_operate h.quiet.steady op).trans h.failOn,
    nodup_operate h.nodup op⟩

theorem Ready.foldl_operate (h : s.Ready) (ops : List (SessionOperation α σ)) :
    (ops.foldl EditorSession.operate s).Ready := by
  induction ops generalizing s with
  | nil => exact h
  | cons op ops ih => exact ih (h.operate op)

end

omit [StepScheduler σ] [HostSurface η] in
theorem ready_new (config : SessionConfig) (host : α) {evaluator : TokenWalker}
    (hfailOn : evaluator.failOn = none) (scheduler : σ) (surface : η) :
    (new config host evaluator scheduler surface).Ready :=
  ⟨(Controller.steady_new evaluator scheduler config.execution).quiet, hfailOn, List.nodup_nil⟩

/-! ## Attending -/

/-- What a host does that only attends to a run: it calls for the step that is waited for, which it
takes from its queue before, and it goes on with a run that is paused. -/
def attend (take : TaskId → σ → σ) (s : EditorSession α TokenWalker σ η) :
    EditorSession α TokenWalker σ η :=
  match s.controller.state, s.controller.pending with
  | .running, some task =>
    ((s.withScheduler (take task s.controller.scheduler)).onTaskDue task).2
  | .paused, _ => s.run.2
  | _, _ => s

/-- The session `s` is attended to `n` times until its run is over. In between, it is paused at the
tokens of the list and nowhere else, in their order. -/
structure Attended (take : TaskId → σ → σ) (n : Nat) (stops : List Token)
    (s : EditorSession α TokenWalker σ η) : Prop where
  active : ∀ i < n, ((attend take)^[i] s).controller.state ≠ .idle
  idle : ((attend take)^[n] s).controller.state = .idle
  paused : ((List.iterate (attend take) s (n + 1)).filter (·.controller.state = .paused)).map
    (·.controller.position) = stops.map fun t => some (.atToken t)

/-- From `s` to `s'` the walker takes the given number of steps and writes the given lines, and the
session reports the given ends of runs. -/
structure Gains (s s' : EditorSession α TokenWalker σ η) (steps : Nat) (lines : List String)
    (outcomes : List RunOutcome) : Prop where
  steps : s'.controller.evaluator.steps = s.controller.evaluator.steps + steps
  logged : s'.controller.evaluator.logged = s.controller.evaluator.logged ++ lines
  events : ∃ events, s'.events = s.events ++ events ∧
    events.filterMap SessionEvent.outcome? = outcomes

omit [StepScheduler σ] [HostSurface η] in
/-- What is gained in two stretches is gained in one. -/
theorem Gains.trans {k k' : Nat} {ls ls' : List String} {os os' : List RunOutcome}
    (h : s.Gains s₁ k ls os) (h' : s₁.Gains s' k' ls' os') :
    s.Gains s' (k + k') (ls ++ ls') (os ++ os') := by
  obtain ⟨events, hevents, hos⟩ := h.events
  obtain ⟨events', hevents', hos'⟩ := h'.events
  constructor
  case steps => rw [h'.steps, h.steps, Nat.add_assoc]
  case logged => rw [h'.logged, h.logged, List.append_assoc]
  case events =>
    refine ⟨events ++ events', ?_, ?_⟩
    · rw [hevents', hevents, List.append_assoc]
    · rw [List.filterMap_append, hos, hos']

/-- The run of the session has the given tokens before it, and the breakpoints are still those of
its start. -/
structure Before (bs : List Breakpoint) (ts : List Token) (s : EditorSession α TokenWalker σ η) :
    Prop where
  quiet : s.controller.Quiet
  breakpoints : s.tracker.breakpoints = bs
  ahead : s.controller.evaluator.Ahead bs ts

variable {take : TaskId → σ → σ} {bs : List Breakpoint} {ts : List Token} {t : Token}

/-! ## Taking up the run -/

/-- Where a run is taken up, the walker has before it what the opening leaves it. -/
theorem before_run (hquiet : s.controller.Quiet)
    (hstate : s.controller.state = .idle ∨ s.controller.state = .paused)
    (hopening : ∀ {calls : List EvaluatorCall} {standing : Standing} {w : TokenWalker},
      s.controller.Opening s.source s.tracker.breakpoints calls standing →
        HearsAll s.controller.evaluator calls w →
          w.Ahead s.tracker.breakpoints ts ∧ w.steps = s.controller.evaluator.steps ∧
            w.logged = s.controller.evaluator.logged) :
    s.run.2.Before s.tracker.breakpoints ts ∧ s.run.2.controller.state = .running ∧
      s.Gains s.run.2 0 [] [] := by
  obtain ⟨calls, events, standing, hopened, hadds, hrunning, hnone⟩ :=
    Controller.exists_opening_run hstate s.source s.tracker.breakpoints
  obtain ⟨hahead, hsteps, hlogged⟩ := hopening hopened hadds.heard
  have hevents := hadds.events
  rw [hquiet.events, List.nil_append] at hevents
  have hquiet' := quiet_obey hquiet.steady (.run s.source s.tracker.breakpoints)
  obtain ⟨surface, heq⟩ := exists_withController s
    (s.controller.run s.source s.tracker.breakpoints).2
  have hrun : s.run.2 = _ := heq
  rw [hrun]
  rw [Controller.obey, heq] at hquiet'
  refine ⟨⟨hquiet', rfl, hahead⟩, hrunning, hsteps, ?_, _, rfl, ?_⟩
  · rw [List.append_nil]
    exact hlogged
  · rw [filterMap_outcome?_toSession, hevents, hnone]

/-- A new run has all tokens of the source before it. -/
theorem Ready.before_run (h : s.Ready) (hidle : s.controller.state = .idle) :
    s.run.2.Before s.tracker.breakpoints (tokenize s.source) ∧
      s.run.2.controller.state = .running ∧ s.Gains s.run.2 0 [] [] :=
  EditorSession.before_run h.quiet (.inl hidle) fun hopening hheard =>
    hopening.ahead_of_idle hheard hidle h.failOn

/-- A paused run goes on where it was. -/
theorem Before.before_run (h : s.Before bs ts) (hpaused : s.controller.state = .paused) :
    s.run.2.Before bs ts ∧ s.run.2.controller.state = .running ∧ s.Gains s.run.2 0 [] [] := by
  obtain ⟨hquiet, rfl, hahead⟩ := h
  exact EditorSession.before_run hquiet (.inr hpaused) fun hopening hheard =>
    hopening.ahead_of_paused hheard hpaused hahead

/-! ## One call -/

/-- A host that attends to a paused session lets the run go on. -/
theorem attend_of_paused (take : TaskId → σ → σ) (hpaused : s.controller.state = .paused) :
    attend take s = s.run.2 := by
  rw [attend, hpaused]

/-- A running run is attended to by the step that is waited for. -/
theorem exists_aftermath_attend (hquiet : s.controller.Quiet)
    (hrunning : s.controller.state = .running) (take : TaskId → σ → σ) :
    let s' := attend take s
    ∃ result events,
      Controller.Aftermath s.controller.options.highlightWhileRunning s.controller.standing result
        events s'.controller.standing ∧
      s.controller.evaluator.step = (result, s'.controller.evaluator) ∧
      s'.controller.Quiet ∧ s'.tracker = s.tracker ∧
      s'.events = s.events ++ events.map ControllerEvent.toSession := by
  obtain ⟨task, htask⟩ := Option.isSome_iff_exists.1 (hquiet.steady.pending.2 hrunning)
  let s₀ := s.withScheduler (take task s.controller.scheduler)
  obtain ⟨result, events, haftermath, hadds⟩ :=
    Controller.exists_aftermath_onTaskDue (c := s₀.controller) ⟨htask, hrunning⟩
  have hevents := hadds.events
  rw [show s₀.controller.events = [] from hquiet.events, List.nil_append] at hevents
  have hquiet' := quiet_obey (s := s₀) (hquiet.steady.withScheduler _) (.onTaskDue task)
  have hattend : attend take s = s₀.withController (s₀.controller.onTaskDue task).2 := by
    rw [attend, hrunning, htask]
    rfl
  obtain ⟨surface, heq⟩ := exists_withController s₀ (s₀.controller.onTaskDue task).2
  rw [Controller.obey, heq] at hquiet'
  rw [hattend, heq]
  refine ⟨result, events, haftermath, hadds.heard.step_eq, hquiet', rfl, ?_⟩
  rw [hevents]
  rfl

/-- A call takes the walker over the next token. The run is paused there if it halts at the
token. -/
theorem Before.attend_cons (h : s.Before bs (t :: ts)) (hrunning : s.controller.state = .running)
    (hnodup : (bs.map (·.position)).Nodup) (hfresh : t.start ∉ ts.map (·.start))
    (take : TaskId → σ → σ) :
    let s' := attend take s
    s'.Before bs ts ∧ s'.controller.state = (if HaltsAt bs t then .paused else .running) ∧
      s'.controller.position = some (.atToken t) ∧ s.Gains s' 1 (logLines bs t) [] := by
  obtain ⟨result, events, haftermath, hstep, hquiet, htracker, hevents⟩ :=
    exists_aftermath_attend h.quiet hrunning take
  obtain ⟨hresult, hahead, hsteps, hlogged⟩ := h.ahead.step hnodup hfresh
  rw [hstep] at hresult hahead hsteps hlogged
  obtain ⟨hstate, hposition, hnone⟩ := haftermath.of_visit hresult hrunning
  exact ⟨⟨hquiet, by rw [htracker, h.breakpoints], hahead⟩, hstate.trans (by simp), hposition,
    hsteps, hlogged, _, hevents, by rw [filterMap_outcome?_toSession, hnone]⟩

/-- Behind the last token, a call ends the run. -/
theorem Before.attend_nil (h : s.Before bs []) (hrunning : s.controller.state = .running)
    (take : TaskId → σ → σ) :
    (attend take s).controller.state = .idle ∧ s.Gains (attend take s) 1 [] [.completed] := by
  obtain ⟨result, events, haftermath, hstep, -, -, hevents⟩ :=
    exists_aftermath_attend h.quiet hrunning take
  rw [TokenWalker.step_of_eq_nil h.ahead.isCancelled h.ahead.remaining] at hstep
  obtain ⟨hresult, hevaluator⟩ := Prod.mk.inj hstep
  obtain ⟨hidle, hcompleted⟩ := haftermath.of_done hresult.symm rfl
  refine ⟨hidle, ?_, ?_, _, hevents, by rw [filterMap_outcome?_toSession, hcompleted]⟩
  · rw [← hevaluator]
  · rw [← hevaluator, List.append_nil]

/-! ## A whole run -/

section
variable {n : Nat} {stops : List Token}

/-- One call before the others, of a session that is not paused. -/
theorem Attended.of_running (h : Attended take n stops (attend take s))
    (hrunning : s.controller.state = .running) : Attended take (n + 1) stops s where
  active
    | 0, _ => by simp [hrunning]
    | i + 1, hi => h.active i (Nat.lt_of_succ_lt_succ hi)
  idle := h.idle
  paused := by
    rw [List.iterate, List.filter_cons_of_neg (by simp [hrunning])]
    exact h.paused

/-- One call before the others, of a session that is paused at a token. -/
theorem Attended.of_paused (h : Attended take n stops (attend take s))
    (hpaused : s.controller.state = .paused)
    (hposition : s.controller.position = some (.atToken t)) :
    Attended take (n + 1) (t :: stops) s where
  active
    | 0, _ => by simp [hpaused]
    | i + 1, hi => h.active i (Nat.lt_of_succ_lt_succ hi)
  idle := h.idle
  paused := by
    rw [List.iterate, List.filter_cons_of_pos (by simp [hpaused]), List.map_cons, List.map_cons,
      h.paused, hposition]

/-- A run that is attended to pauses at the tokens before it where it halts, and is completed behind
the last one. -/
theorem Before.attended (h : s.Before bs ts) (hrunning : s.controller.state = .running)
    (hnodup : (bs.map (·.position)).Nodup) (hstarts : (ts.map (·.start)).Nodup)
    (take : TaskId → σ → σ) :
    let stops := ts.filter (HaltsAt bs)
    let n := ts.length + stops.length + 1
    Attended take n stops s ∧
      s.Gains ((attend take)^[n] s) (ts.length + 1) (ts.flatMap (logLines bs)) [.completed] := by
  induction ts generalizing s with
  | nil =>
    obtain ⟨hidle, hgains⟩ := h.attend_nil hrunning take
    have hover : Attended take 0 [] (attend take s) :=
      ⟨fun _ hi => (nomatch hi), hidle, by simp [List.iterate, hidle]⟩
    exact ⟨hover.of_running hrunning, hgains⟩
  | cons t ts ih =>
    obtain ⟨hfresh, hstarts⟩ := List.nodup_cons.1 hstarts
    obtain ⟨hbefore, hstate, hposition, hgains⟩ := h.attend_cons hrunning hnodup hfresh take
    by_cases hhalts : HaltsAt bs t
    · -- The run is paused, and the call behind this one takes it up again.
      rw [if_pos hhalts] at hstate
      obtain ⟨hbefore', hrunning', hgains'⟩ := hbefore.before_run hstate
      rw [← attend_of_paused take hstate] at hbefore' hrunning' hgains'
      obtain ⟨hattended, hrest⟩ := ih hbefore' hrunning' hstarts
      have hsum := (hgains.trans hgains').trans hrest
      rw [List.append_nil, Nat.add_zero, Nat.add_comm 1] at hsum
      have hcalls : (t :: ts).length + (t :: ts.filter (HaltsAt bs)).length + 1 =
          ts.length + (ts.filter (HaltsAt bs)).length + 1 + 1 + 1 := by
        simp only [List.length_cons]
        omega
      rw [List.filter_cons_of_pos (by simpa using hhalts)]
      dsimp only
      rw [hcalls]
      exact ⟨(hattended.of_paused hstate hposition).of_running hrunning, hsum⟩
    · rw [if_neg hhalts] at hstate
      obtain ⟨hattended, hrest⟩ := ih hbefore hstate hstarts
      have hsum := hgains.trans hrest
      rw [Nat.add_comm 1] at hsum
      have hcalls : (t :: ts).length + (ts.filter (HaltsAt bs)).length + 1 =
          ts.length + (ts.filter (HaltsAt bs)).length + 1 + 1 := by
        rw [List.length_cons]
        omega
      rw [List.filter_cons_of_neg (by simpa using hhalts)]
      dsimp only
      rw [hcalls]
      exact ⟨hattended.of_running hrunning, hsum⟩

end

/-- Whatever was done to a session over a walker that does not fail, if no run is under way, then a
run that is started and attended to pauses at the tokens of the source where it halts with the
breakpoints of the session: in their order, once at each, and nowhere else. It takes a step for each
token and one behind the last, writes the lines of the tokens, and is completed. -/
theorem run_pauses [AnchorHost α] (config : SessionConfig) (host : α) (evaluator : TokenWalker)
    (scheduler : σ) (surface : η) (ops : List (SessionOperation α σ)) (take : TaskId → σ → σ)
    (hfailOn : evaluator.failOn = none)
    (hidle : (ops.foldl operate
      (new config host evaluator scheduler surface)).controller.state = .idle) :
    let s := ops.foldl operate (new config host evaluator scheduler surface)
    let tokens := tokenize s.source
    let stops := tokens.filter (HaltsAt s.tracker.breakpoints)
    let n := tokens.length + stops.length + 1
    Attended take n stops s.run.2 ∧ (stops.map (·.start)).Nodup ∧
      s.Gains ((attend take)^[n] s.run.2) (tokens.length + 1)
        (tokens.flatMap (logLines s.tracker.breakpoints)) [.completed] := by
  intro s tokens stops n
  have hready : s.Ready := (ready_new config host hfailOn scheduler surface).foldl_operate ops
  have hstarts := nodup_start_tokenize s.source
  obtain ⟨hbefore, hrunning, hgains⟩ := hready.before_run hidle
  obtain ⟨hattended, hrest⟩ := hbefore.attended hrunning hready.nodup hstarts take
  have hsum := hgains.trans hrest
  rw [Nat.zero_add] at hsum
  exact ⟨hattended, hstarts.sublist (List.filter_sublist.map _), hsum⟩

/-- What makes a session over the words `a`, `debugger` and `b`, with a breakpoint that logs at `a`
and one that always pauses at `b`. -/
def logThenPause : List (SessionOperation TextAnchors ManualScheduler) :=
  [.moveAnchors fun anchors => anchors.replaceText "a debugger b", .changeContent "a debugger b",
    .setBreakpoint ⟨0, 0⟩ .log (some "x"), .toggleBreakpoint ⟨0, 11⟩]

/-- The session that they make. -/
def atLogThenPause : EditorSession TextAnchors TokenWalker ManualScheduler RecordingSurface :=
  logThenPause.foldl operate (new .standard .empty (.new none) .empty .empty)

theorem atLogThenPause_pauses :
    let s := atLogThenPause
    let take := fun task (scheduler : ManualScheduler) => (scheduler.cancel task).2
    s.controller.state = .idle ∧ Attended take 6 ((tokenize "a debugger b").drop 1) s.run.2 ∧
      s.Gains ((attend take)^[6] s.run.2) 4 ["a: x"] [.completed] := by
  intro s take
  have hidle : s.controller.state = .idle := by decide +kernel
  have hstops : (tokenize s.source).filter (HaltsAt s.tracker.breakpoints) =
      (tokenize "a debugger b").drop 1 := by decide +kernel
  have htokens : (tokenize s.source).length = 3 := by decide +kernel
  have hlines : (tokenize s.source).flatMap (logLines s.tracker.breakpoints) = ["a: x"] := by
    decide +kernel
  have hlength : ((tokenize "a debugger b").drop 1).length = 2 := by decide +kernel
  have hpauses := run_pauses .standard .empty (.new none) .empty RecordingSurface.empty
    logThenPause take rfl (by decide +kernel)
  dsimp only at hpauses
  have hsession : logThenPause.foldl operate (new .standard .empty (.new none) .empty
      RecordingSurface.empty) = s := rfl
  rw [hsession, hstops, htokens, hlength, hlines] at hpauses
  exact ⟨hidle, hpauses.1, hpauses.2.2⟩

end EditorSession

end StackEditor
