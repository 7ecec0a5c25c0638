import StackEditor.Execution.Walker
import StackEditor.Proofs.Execution.Deeds

/-!
# Walks

A walker visits the tokens of its run in order, one at each step, until it fails at one or is behind
the last (`TokenWalker.Visited.step`). A controller neither adds steps of its own nor drops any: how
far the run has come (`OnWalk`) is kept by every command, and a command that ends the run ends it
where the walk ends, unless it is a stop (`Deed.walkedTo`).
-/

namespace StackEditor

namespace TokenWalker

variable {tokens : List Token} {failOn : Option String} {start k : Nat} {w : TokenWalker}

/-! ## The walker -/

/-- A token that is tripped is no step. -/
theorem steps_trip (w : TokenWalker) (token : CancellationToken) :
    (w.trip token).steps = w.steps := by
  unfold trip
  split
  · split <;> rfl
  · rfl

/-- A visit is noted, and changes nothing else. -/
theorem exists_visit (w : TokenWalker) (t : Token) :
    ∃ pause visits logged, w.visit t = (pause, { w with visits, logged }) := by
  unfold visit
  split
  · exact ⟨_, w.visits, w.logged, rfl⟩
  · split
    · exact ⟨_, w.visits, w.logged, rfl⟩
    · next b _ =>
      dsimp only
      cases b.kind <;> exact ⟨_, _, _, rfl⟩

/-- Behind the last token a run that was not cancelled is done. -/
theorem step_of_eq_nil (hcancelled : w.isCancelled = false) (h : w.remaining = []) :
    w.step = (.ok ⟨true, w.tokens.getLast?.map .atToken, false⟩,
      { w with steps := w.steps + 1 }) := by
  have hrun : ¬ ({ w with steps := w.steps + 1 } : TokenWalker).isCancelled = true :=
    Bool.eq_false_iff.1 hcancelled
  unfold step
  dsimp only
  rw [if_neg hrun]
  split
  · rfl
  · next heq => cases h.symm.trans heq

/-- Before a token a run that was not cancelled fails, or visits the token. -/
theorem step_of_eq_cons {t : Token} {ts : List Token} (hcancelled : w.isCancelled = false)
    (h : w.remaining = t :: ts) :
    let next : TokenWalker := { w with remaining := ts, steps := w.steps + 1 }
    w.step = if w.failOn = some t.text then (.error (failure t), next)
      else (.ok ⟨false, some (.atToken t), (next.visit t).1⟩, (next.visit t).2) := by
  have hrun : ¬ ({ w with steps := w.steps + 1 } : TokenWalker).isCancelled = true :=
    Bool.eq_false_iff.1 hcancelled
  unfold step
  dsimp only
  rw [if_neg hrun]
  split
  · next heq => cases h.symm.trans heq
  · next t' ts' heq =>
    obtain ⟨rfl, rfl⟩ := List.cons.inj (h.symm.trans heq)
    rfl

/-- Whether it fails or visits the token, little changes in the walker. -/
theorem exists_step_of_eq_cons {t : Token} {ts : List Token} (hcancelled : w.isCancelled = false)
    (h : w.remaining = t :: ts) :
    ∃ pause visits logged, w.step =
      (if w.failOn = some t.text then .error (failure t)
        else .ok ⟨false, some (.atToken t), pause⟩,
      { w with remaining := ts, steps := w.steps + 1, visits, logged }) := by
  rw [step_of_eq_cons hcancelled h]
  split
  · exact ⟨false, w.visits, w.logged, rfl⟩
  · obtain ⟨pause, visits, logged, hvisit⟩ :=
      exists_visit { w with remaining := ts, steps := w.steps + 1 } t
    exact ⟨pause, visits, logged, by rw [hvisit]⟩

/-! ## Walks -/

/-- There are `k` first tokens, and none of them has the text that fails. -/
structure Passed (tokens : List Token) (failOn : Option String) (k : Nat) : Prop where
  le : k ≤ tokens.length
  ne : ∀ t ∈ tokens.take k, failOn ≠ some t.text

/-- The first `k` tokens of the run have been visited. Before the run, `start` steps were taken. -/
structure Visited (w : TokenWalker) (tokens : List Token) (failOn : Option String)
    (start k : Nat) : Prop where
  passed : Passed tokens failOn k
  remaining : w.remaining = tokens.drop k
  isCancelled : w.isCancelled = false
  failOn_eq : w.failOn = failOn
  steps : w.steps = start + k

/-- At which step a walk over the tokens ends, and how: behind the last token, or at the first one
with the text that fails. -/
inductive WalkEnd (tokens : List Token) (failOn : Option String) : Nat → RunOutcome → Prop
  | completed (passed : Passed tokens failOn tokens.length) :
      WalkEnd tokens failOn (tokens.length + 1) .completed
  | failed {i : Nat} {t : Token} (passed : Passed tokens failOn i) (get : tokens[i]? = some t)
      (fails : failOn = some t.text) : WalkEnd tokens failOn (i + 1) (.failed (failure t))

/-- A step visits the next token, or it ends the walk. -/
theorem Visited.step (h : w.Visited tokens failOn start k) :
    (∃ t pause, tokens[k]? = some t ∧ w.step.1 = .ok ⟨false, some (.atToken t), pause⟩ ∧
      w.step.2.Visited tokens failOn start (k + 1)) ∨
    ∃ outcome, RunOutcome.ofStep? w.step.1 = some outcome ∧
      WalkEnd tokens failOn (k + 1) outcome ∧ w.step.2.steps = start + (k + 1) := by
  have hsteps : w.steps + 1 = start + (k + 1) := by rw [h.steps, Nat.add_assoc]
  -- The walker is behind the last token, or token `k` is the next one.
  rcases Nat.eq_or_lt_of_le h.passed.le with rfl | hlt
  · right
    rw [step_of_eq_nil h.isCancelled (by rw [h.remaining, List.drop_length])]
    exact ⟨.completed, rfl, .completed h.passed, hsteps⟩
  · have hget : tokens[k]? = some tokens[k] := List.getElem?_eq_getElem hlt
    obtain ⟨pause, visits, logged, hstep⟩ := exists_step_of_eq_cons h.isCancelled
      (h.remaining.trans (List.drop_eq_getElem_cons hlt))
    rw [hstep, h.failOn_eq]
    by_cases hfails : failOn = some tokens[k].text
    · right
      rw [if_pos hfails]
      exact ⟨_, rfl, .failed h.passed hget hfails, hsteps⟩
    · left
      rw [if_neg hfails]
      refine ⟨tokens[k], pause, hget, rfl, ⟨hlt, ?_⟩, rfl, h.isCancelled, rfl, hsteps⟩
      rw [List.take_succ_eq_append_getElem hlt]
      intro t ht
      rcases List.mem_append.1 ht with hbefore | hlast
      · exact h.passed.ne t hbefore
      · rwa [List.mem_singleton.1 hlast]

end TokenWalker

/-! ## The controller -/

/-- The last event says that a run has ended in this way. -/
def EndsWith (events : List ControllerEvent) (outcome : RunOutcome) : Prop :=
  events.getLast? = some (.runFinished outcome)

section
variable {tokens : List Token} {failOn : Option String} {start k : Nat} {s : Standing}
  {w : TokenWalker} {reported reported' : RunOutcome → Prop} {stopped stopped' : Prop}

/-- The run that the evaluator walks is at the last token that was visited. -/
structure OnWalk (tokens : List Token) (failOn : Option String) (start k : Nat) (s : Standing)
    (w : TokenWalker) : Prop where
  visited : w.Visited tokens failOn start k
  position : s.position = (tokens.take k).getLast?.map .atToken
  cancel : s.cancel.isSome

theorem OnWalk.withState (h : OnWalk tokens failOn start k s w) (state : ExecutionState) :
    OnWalk tokens failOn start k { s with state } w :=
  ⟨h.visited, h.position, h.cancel⟩

/-- The evaluator has taken `k` steps of the run: the run is under way, or it has just ended and its
outcome is reported. It ends where the walk ends, or because it was stopped. -/
inductive WalkedTo (tokens : List Token) (failOn : Option String) (start k : Nat)
    (reported : RunOutcome → Prop) (stopped : Prop) (s : Standing) (w : TokenWalker) : Prop
  | underWay (active : s.state.isActive = true) (walk : OnWalk tokens failOn start k s w)
  | finished {outcome : RunOutcome} (idle : s.state = .idle) (steps : w.steps = start + k)
      (reported : reported outcome)
      (ended : TokenWalker.WalkEnd tokens failOn k outcome ∨
        outcome = .cancelled ∧ stopped ∧ TokenWalker.Passed tokens failOn k)

theorem WalkedTo.imp (h : WalkedTo tokens failOn start k reported stopped s w)
    (hreported : ∀ outcome, reported outcome → reported' outcome) (hstopped : stopped → stopped') :
    WalkedTo tokens failOn start k reported' stopped' s w := by
  cases h with
  | underWay active walk => exact .underWay active walk
  | finished idle steps reported ended =>
    exact .finished idle steps (hreported _ reported)
      (ended.imp_right fun ⟨hcancelled, h, hpassed⟩ => ⟨hcancelled, hstopped h, hpassed⟩)

/-- Under way or finished, a walk has been taken as far as it says. -/
theorem WalkedTo.steps (h : WalkedTo tokens failOn start k reported stopped s w) :
    w.steps = start + k := by
  cases h with
  | underWay active walk => exact walk.visited.steps
  | finished idle steps => exact steps

end

namespace Controller

variable {σ : Type} {c : Controller TokenWalker σ} {command : ControllerCommand} {accepted : Bool}
  {calls : List EvaluatorCall} {events : List ControllerEvent} {s s' : Standing}
  {tokens : List Token} {failOn : Option String} {start k : Nat} {w w' : TokenWalker}

/-- What follows a step of the walker. -/
theorem Aftermath.walkedTo {highlight : Bool} {result : Except EvalError StepResult}
    (h : Aftermath highlight s result events s') (hwalk : OnWalk tokens failOn start k s w)
    (hheard : HearsAll w [.step result] w') (stopped : Prop) :
    WalkedTo tokens failOn start (k + 1) (EndsWith events) stopped s' w' := by
  have hstep : w.step = (result, w') := hheard.step_eq
  have hvisited := hwalk.visited.step
  rw [hstep] at hvisited
  rcases hvisited with ⟨t, pause, hget, rfl, hvisited⟩ | ⟨outcome, hofStep, hend, hsteps⟩
  · have hposition : some (.atToken t) =
        (tokens.take (k + 1)).getLast?.map ExecutionPosition.atToken := by
      rw [List.take_add_one, hget]
      simp
    cases h with
    | ended outcome_eq => simp [RunOutcome.ofStep?] at outcome_eq
    | paused ok =>
      obtain rfl := Except.ok.inj ok
      exact .underWay rfl ⟨hvisited, hposition, hwalk.cancel⟩
    | wentOn ok done hit running =>
      obtain rfl := Except.ok.inj ok
      exact .underWay (by simp [running, ExecutionState.isActive])
        ⟨hvisited, hposition, hwalk.cancel⟩
  · -- A step that ends the walk leaves no choice.
    have hgoesOn : ∀ {r : StepResult}, result = .ok r → r.done ≠ false := by
      intro r hok hdone
      rw [RunOutcome.ofStep?_eq_none_iff.2 ⟨r, hok, hdone⟩] at hofStep
      cases hofStep
    cases h with
    | ended outcome_eq =>
      obtain rfl := Option.some.inj (outcome_eq.symm.trans hofStep)
      exact .finished rfl hsteps List.getLast?_concat (.inl hend)
    | paused ok done => exact absurd done (hgoesOn ok)
    | wentOn ok done => exact absurd done (hgoesOn ok)

/-- A new run is at the start of its walk. -/
theorem Opening.onWalk_of_idle {source : String} {bs : List Breakpoint}
    (h : c.Opening source bs calls s) (hheard : HearsAll c.evaluator calls w)
    (hidle : c.state = .idle) :
    OnWalk (tokenize source) c.evaluator.failOn c.evaluator.steps 0 s w := by
  cases h with
  | started =>
    obtain rfl := hheard.eq_foldl
    exact ⟨⟨⟨Nat.zero_le _, by simp⟩, rfl, rfl, rfl, rfl⟩, rfl, rfl⟩
  | resumed paused => cases hidle.symm.trans paused

/-- A run that is resumed is where it was. -/
theorem Opening.onWalk {source : String} {bs : List Breakpoint}
    (h : c.Opening source bs calls s) (hheard : HearsAll c.evaluator calls w)
    (hactive : c.state.isActive = true)
    (hwalk : OnWalk tokens failOn start k c.standing c.evaluator) :
    OnWalk tokens failOn start k s w := by
  cases h with
  | started idle =>
    rw [idle] at hactive
    cases hactive
  | resumed =>
    obtain rfl := hheard.eq_foldl
    obtain ⟨hvisited, hposition, hcancel⟩ := hwalk
    exact ⟨⟨hvisited.passed, hvisited.remaining, hvisited.isCancelled, hvisited.failOn_eq,
      hvisited.steps⟩, hposition, hcancel⟩

/-- A command takes a run that is under way one step further at most. -/
theorem Deed.walkedTo (h : c.Deed command accepted calls events s)
    (hheard : HearsAll c.evaluator calls w) (hactive : c.state.isActive = true)
    (hwalk : OnWalk tokens failOn start k c.standing c.evaluator) :
    ∃ k', (k' = k ∨ k' = k + 1) ∧
      WalkedTo tokens failOn start k' (EndsWith events) (command = .stop) s w := by
  cases h with
  | refused =>
    obtain rfl := hheard.eq_foldl
    exact ⟨k, .inl rfl, .underWay hactive hwalk⟩
  | ran opening =>
    have honWalk := opening.onWalk hheard hactive hwalk
    exact ⟨k, .inl rfl, .underWay rfl (honWalk.withState _)⟩
  | paused running =>
    obtain rfl := hheard.eq_foldl
    exact ⟨k, .inl rfl, .underWay rfl (hwalk.withState _)⟩
  | stepped opening aftermath =>
    obtain ⟨w₁, hcalls, hstep⟩ := hheard.exists_of_append
    have honWalk := opening.onWalk hcalls hactive hwalk
    exact ⟨k + 1, .inr rfl, aftermath.walkedTo honWalk hstep _⟩
  | stopped =>
    obtain rfl := hheard.eq_foldl
    refine ⟨k, .inl rfl, .finished rfl ?_ rfl (.inr ⟨rfl, rfl, hwalk.visited.passed⟩)⟩
    exact (TokenWalker.steps_trip _ _).trans hwalk.visited.steps
  | fired pending running aftermath =>
    exact ⟨k + 1, .inr rfl, aftermath.walkedTo hwalk hheard _⟩

/-- A command that starts a run walks the tokens of the source. -/
theorem Deed.walkedTo_of_idle {source : String} {bs : List Breakpoint}
    (h : c.Deed command true calls events s) (hheard : HearsAll c.evaluator calls w)
    (hidle : c.state = .idle) (hcommand : command = .run source bs ∨ command = .step source bs) :
    ∃ k, k ≤ 1 ∧ WalkedTo (tokenize source) c.evaluator.failOn c.evaluator.steps k
      (EndsWith events) (command = .stop) s w := by
  rcases hcommand with rfl | rfl
  · cases h with
    | ran opening =>
      have honWalk := opening.onWalk_of_idle hheard hidle
      exact ⟨0, Nat.zero_le 1, .underWay rfl (honWalk.withState _)⟩
  · cases h with
    | stepped opening aftermath =>
      obtain ⟨w₁, hcalls, hstep⟩ := hheard.exists_of_append
      have honWalk := opening.onWalk_of_idle hcalls hidle
      exact ⟨1, Nat.le_refl 1, aftermath.walkedTo honWalk hstep _⟩

end Controller

end StackEditor
