import StackEditor.Proofs.Execution.Walk

/-!
# Where a walker pauses

A walker asks for a pause at the keyword `debugger`, and at a token with a breakpoint that halts at
its first visit (`HaltsAt`); at a token with a breakpoint that logs it writes one line (`logLines`).
A run meets every place once, so if no two of the breakpoints are at one place, these two say all
that the tokens before a walker will make of it (`Ahead.step`).
-/

namespace StackEditor

/-- The breakpoint halts a run that meets it for the first time. -/
def Breakpoint.Halts (b : Breakpoint) : Prop :=
  b.kind = .unconditional ∨ (b.kind = .expression ∧ b.expression = some "true") ∨
    (b.kind = .hitCount ∧ b.expression.bind Text.count? = some 1)

instance (b : Breakpoint) : Decidable b.Halts := inferInstanceAs (Decidable (_ ∨ _))

/-- The token is the keyword `debugger`. -/
def Token.IsDebugger (t : Token) : Prop := t.kind = .keyword ∧ t.text = debuggerKeyword

instance (t : Token) : Decidable t.IsDebugger := inferInstanceAs (Decidable (_ ∧ _))

/-- With these breakpoints a run pauses at the token. -/
def HaltsAt (bs : List Breakpoint) (t : Token) : Prop :=
  t.IsDebugger ∨ ∃ b ∈ bs, b.position = t.start ∧ b.Halts

instance (bs : List Breakpoint) (t : Token) : Decidable (HaltsAt bs t) :=
  inferInstanceAs (Decidable (_ ∨ _))

/-- The lines that a run writes at the token: one for each breakpoint there that logs, unless the
token is `debugger`. -/
def logLines (bs : List Breakpoint) (t : Token) : List String :=
  if t.IsDebugger then []
  else (bs.filter fun b => b.position = t.start ∧ b.kind = .log).map fun b =>
    t.text ++ ": " ++ b.expression.getD ""

section
variable {bs : List Breakpoint} {b : Breakpoint} {t : Token}

/-- Where no two breakpoints are at one place, the place of each has only that. -/
theorem filter_position_eq (hnodup : (bs.map (·.position)).Nodup) (hb : b ∈ bs) :
    bs.filter (·.position = b.position) = [b] := by
  obtain ⟨before, after, rfl⟩ := List.append_of_mem hb
  simp only [List.map_append, List.map_cons, List.nodup_append, List.nodup_cons] at hnodup
  obtain ⟨-, ⟨hafter, -⟩, hbefore⟩ := hnodup
  have hne : ∀ x ∈ before, x.position ≠ b.position := fun x hx =>
    hbefore _ (List.mem_map_of_mem hx) _ List.mem_cons_self
  have hne' : ∀ x ∈ after, x.position ≠ b.position := fun x hx heq =>
    hafter (heq ▸ List.mem_map_of_mem hx)
  rw [List.filter_append, List.filter_cons_of_pos (by simp),
    List.filter_eq_nil_iff.2 (by simpa using hne),
    List.filter_eq_nil_iff.2 (by simpa using hne'), List.nil_append]

/-- At a token with one breakpoint that decides. -/
theorem haltsAt_iff (hnodup : (bs.map (·.position)).Nodup) (hb : b ∈ bs)
    (hpos : b.position = t.start) (hdebugger : ¬ t.IsDebugger) : HaltsAt bs t ↔ b.Halts := by
  refine ⟨fun h => ?_, fun h => .inr ⟨b, hb, hpos, h⟩⟩
  obtain ⟨b', hb', hpos', hhalts⟩ := h.resolve_left hdebugger
  have hmem : b' ∈ bs.filter (·.position = b.position) := by simp [hb', hpos', hpos]
  rw [filter_position_eq hnodup hb, List.mem_singleton] at hmem
  exact hmem ▸ hhalts

/-- The one breakpoint on a token decides what is logged there, unless the token stops the run by
itself. -/
theorem logLines_eq (hnodup : (bs.map (·.position)).Nodup) (hb : b ∈ bs)
    (hpos : b.position = t.start) (hdebugger : ¬ t.IsDebugger) :
    logLines bs t = if b.kind = .log then [t.text ++ ": " ++ b.expression.getD ""] else [] := by
  have hsplit : (bs.filter fun x => x.position = t.start ∧ x.kind = .log) =
      (bs.filter (·.position = b.position)).filter (·.kind = .log) := by
    rw [List.filter_filter, hpos]
    exact List.filter_congr fun x _ => by simp [and_comm]
  rw [logLines, if_neg hdebugger, hsplit, filter_position_eq hnodup hb]
  split
  · next hlog => simp [hlog]
  · next hlog => simp [hlog]

/-- A token without breakpoint counts only if it is `debugger`. -/
theorem haltsAt_iff_of_forall_ne (hnone : ∀ b ∈ bs, b.position ≠ t.start) :
    HaltsAt bs t ↔ t.IsDebugger :=
  or_iff_left fun ⟨b, hb, hpos, _⟩ => hnone b hb hpos

/-- Without a breakpoint on a token nothing is logged there. -/
theorem logLines_of_forall_ne (hnone : ∀ b ∈ bs, b.position ≠ t.start) : logLines bs t = [] := by
  have hfilter : (bs.filter fun b => b.position = t.start ∧ b.kind = .log) = [] :=
    List.filter_eq_nil_iff.2 fun b hb => by simp [hnone b hb]
  rw [logLines, hfilter, List.map_nil, ite_self]

end

namespace TokenWalker

variable {w : TokenWalker} {b : Breakpoint} {t : Token} {ts : List Token} {bs : List Breakpoint}

/-! ## One visit -/

theorem visit_of_isDebugger (h : t.IsDebugger) : w.visit t = (true, w) := if_pos h

/-- The walker passes a token without a breakpoint. -/
theorem visit_of_eq_none (h : ¬ t.IsDebugger) (hnone : w.breakpointAt? t.start = none) :
    w.visit t = (false, w) := by
  have hother : ¬ (t.kind = .keyword ∧ t.text = debuggerKeyword) := h
  rw [visit, if_neg hother, hnone]

/-- A breakpoint that is met for the first time halts the walker or not, and writes its line if it
logs. -/
theorem visit_of_eq_some (h : ¬ t.IsDebugger) (hb : w.breakpointAt? t.start = some b)
    (hfirst : t.start ∉ w.visits) : w.visit t = (decide b.Halts, { w with
      visits := t.start :: w.visits
      logged := w.logged ++
        if b.kind = .log then [t.text ++ ": " ++ b.expression.getD ""] else [] }) := by
  have hcount : (t.start :: w.visits).count t.start = 1 := by
    rw [List.count_cons_self, List.count_eq_zero.2 hfirst]
  have hempty : Text.count? "" = none := by decide +kernel
  have hother : ¬ (t.kind = .keyword ∧ t.text = debuggerKeyword) := h
  rw [visit, if_neg hother, hb]
  dsimp only
  obtain ⟨_, _, kind, expression⟩ := b
  cases kind with
  | unconditional => simp [Breakpoint.Halts]
  | expression => cases expression <;> simp [Breakpoint.Halts]
  | hitCount => cases expression <;> simp [Breakpoint.Halts, hcount, hempty]
  | log => simp [Breakpoint.Halts]

/-- At a place that it has not met, a walker asks for a pause if a run halts there, and writes the
lines of the place. -/
theorem exists_visit_of_notMem (hnodup : (w.breakpoints.map (·.position)).Nodup)
    (hfirst : t.start ∉ w.visits) :
    ∃ visits, visits ⊆ t.start :: w.visits ∧ w.visit t = (decide (HaltsAt w.breakpoints t),
      { w with visits, logged := w.logged ++ logLines w.breakpoints t }) := by
  by_cases hdebugger : t.IsDebugger
  · refine ⟨w.visits, List.subset_cons_self _ _, ?_⟩
    rw [visit_of_isDebugger hdebugger, decide_eq_true (.inl hdebugger), logLines,
      if_pos hdebugger, List.append_nil]
  cases hb : w.breakpointAt? t.start with
  | none =>
    have hnone : ∀ b ∈ w.breakpoints, b.position ≠ t.start := by simpa [breakpointAt?] using hb
    refine ⟨w.visits, List.subset_cons_self _ _, ?_⟩
    rw [visit_of_eq_none hdebugger hb, logLines_of_forall_ne hnone, List.append_nil,
      decide_eq_false (mt (haltsAt_iff_of_forall_ne hnone).1 hdebugger)]
  | some b =>
    have hmem : b ∈ w.breakpoints := List.mem_reverse.1 (List.mem_of_find?_eq_some hb)
    have hpos : b.position = t.start := by simpa using List.find?_some hb
    refine ⟨_, List.Subset.refl _, ?_⟩
    rw [visit_of_eq_some hdebugger hb hfirst, logLines_eq hnodup hmem hpos hdebugger,
      decide_eq_decide.2 (haltsAt_iff hnodup hmem hpos hdebugger)]

/-! ## The tokens before a walker -/

/-- The walker is in a run with the given breakpoints, has the given tokens before it, and has met
none of their places. -/
structure Ahead (bs : List Breakpoint) (ts : List Token) (w : TokenWalker) : Prop where
  remaining : w.remaining = ts
  isCancelled : w.isCancelled = false
  failOn : w.failOn = none
  breakpoints : w.breakpoints = bs
  fresh : ∀ t ∈ ts, t.start ∉ w.visits

/-- A step to the next token asks for a pause if a run halts there, and writes the lines of the
place. -/
theorem Ahead.step (h : w.Ahead bs (t :: ts)) (hnodup : (bs.map (·.position)).Nodup)
    (hfresh : t.start ∉ ts.map (·.start)) :
    w.step.1 = .ok ⟨false, some (.atToken t), decide (HaltsAt bs t)⟩ ∧ w.step.2.Ahead bs ts ∧
      w.step.2.steps = w.steps + 1 ∧ w.step.2.logged = w.logged ++ logLines bs t := by
  obtain ⟨hremaining, hcancelled, hfailOn, rfl, hfirst⟩ := h
  obtain ⟨visits, hvisits, hvisit⟩ :=
    exists_visit_of_notMem (w := { w with remaining := ts, steps := w.steps + 1 }) hnodup
      (hfirst t List.mem_cons_self)
  rw [step_of_eq_cons hcancelled hremaining, if_neg (by rw [hfailOn]; nofun), hvisit]
  refine ⟨rfl, ⟨rfl, hcancelled, hfailOn, rfl, fun x hx hmem => ?_⟩, rfl, rfl⟩
  rcases List.mem_cons.1 (hvisits hmem) with heq | hmem
  · exact hfresh (heq ▸ List.mem_map_of_mem hx)
  · exact hfirst x (List.mem_cons_of_mem t hx) hmem

/-- No call changes at which text a walker fails. -/
theorem failOn_step (w : TokenWalker) : w.step.2.failOn = w.failOn := by
  unfold step
  dsimp only
  split
  · rfl
  split
  · rfl
  next t ts _ =>
  split
  · rfl
  · obtain ⟨pause, visits, logged, hvisit⟩ :=
      exists_visit { w with steps := w.steps + 1, remaining := ts } t
    rw [hvisit]

theorem failOn_hear (w : TokenWalker) (call : EvaluatorCall) : (hear w call).failOn = w.failOn := by
  cases call with
  | trip token =>
    show (w.trip token).failOn = w.failOn
    unfold trip
    split
    · split <;> rfl
    · rfl
  | step result => exact w.failOn_step
  | _ => rfl

end TokenWalker

/-- No call changes the text on which a walker fails. -/
theorem HearsAll.failOn_eq {w w' : TokenWalker} {calls : List EvaluatorCall}
    (h : HearsAll w calls w') : w'.failOn = w.failOn := by
  rw [h.eq_foldl]
  clear h
  induction calls generalizing w with
  | nil => rfl
  | cons call calls ih => exact ih.trans (w.failOn_hear call)

/-! ## Commands -/

/-- How the run has ended that the event reports the end of. -/
def ControllerEvent.outcome? : ControllerEvent → Option RunOutcome
  | runFinished outcome => some outcome
  | _ => none

namespace Controller

/-- A change of the state is no end of a run. -/
@[simp] theorem filterMap_outcome?_stateEvents (old new : ExecutionState) :
    (stateEvents old new).filterMap ControllerEvent.outcome? = [] := by
  unfold stateEvents
  split <;> rfl

section
variable {ε σ : Type} {events : List ControllerEvent} {s s' : Standing}
  {result : Except EvalError StepResult} {highlight : Bool}

/-- Behind a step of a running run that is not the last one, the run is at the place of the step. It
is paused there if the evaluator asks for it. -/
theorem Aftermath.of_visit (h : Aftermath highlight s result events s') {p : ExecutionPosition}
    {hit : Bool} (hresult : result = .ok ⟨false, some p, hit⟩) (hrunning : s.state = .running) :
    s'.state = (if hit then .paused else .running) ∧ s'.position = some p ∧
      events.filterMap ControllerEvent.outcome? = [] := by
  subst hresult
  cases h with
  | ended outcome_eq => cases outcome_eq
  | paused ok done hit =>
    cases ok
    obtain rfl := hit hrunning
    exact ⟨rfl, rfl, by simp [ControllerEvent.outcome?]⟩
  | wentOn ok done hit running =>
    cases ok
    obtain rfl := hit
    exact ⟨running, rfl, by cases highlight <;> rfl⟩

/-- Behind a step that is done, the run is completed. -/
theorem Aftermath.of_done (h : Aftermath highlight s result events s') {r : StepResult}
    (hresult : result = .ok r) (hdone : r.done = true) :
    s'.state = .idle ∧ events.filterMap ControllerEvent.outcome? = [.completed] := by
  subst hresult
  cases h with
  | ended outcome_eq =>
    obtain rfl : RunOutcome.completed = _ := by
      simpa [RunOutcome.ofStep?, hdone] using outcome_eq
    refine ⟨rfl, ?_⟩
    rw [List.filterMap_append, List.filterMap_append, filterMap_outcome?_stateEvents]
    rfl
  | paused ok done | wentOn ok done =>
    cases ok
    rw [hdone] at done
    cases done

end

variable {σ : Type} {c : Controller TokenWalker σ} {source : String} {bs : List Breakpoint}
  {ts : List Token} {calls : List EvaluatorCall} {s : Standing} {w : TokenWalker}

/-- A new run has all tokens of the source before it. -/
theorem Opening.ahead_of_idle (h : c.Opening source bs calls s)
    (hheard : HearsAll c.evaluator calls w) (hidle : c.state = .idle)
    (hfailOn : c.evaluator.failOn = none) :
    w.Ahead bs (tokenize source) ∧ w.steps = c.evaluator.steps ∧
      w.logged = c.evaluator.logged := by
  cases h with
  | started =>
    obtain rfl := hheard.eq_foldl
    exact ⟨⟨rfl, rfl, hfailOn, rfl, fun _ _ => List.not_mem_nil⟩, rfl, rfl⟩
  | resumed paused => cases hidle.symm.trans paused

/-- A run that is resumed with the breakpoints that it has is where it was. -/
theorem Opening.ahead_of_paused (h : c.Opening source bs calls s)
    (hheard : HearsAll c.evaluator calls w) (hpaused : c.state = .paused)
    (hahead : c.evaluator.Ahead bs ts) :
    w.Ahead bs ts ∧ w.steps = c.evaluator.steps ∧ w.logged = c.evaluator.logged := by
  cases h with
  | started idle => cases hpaused.symm.trans idle
  | resumed =>
    obtain rfl := hheard.eq_foldl
    obtain ⟨hremaining, hcancelled, hfailOn, -, hfresh⟩ := hahead
    exact ⟨⟨hremaining, hcancelled, hfailOn, rfl, hfresh⟩, rfl, rfl⟩

/-- A controller that is idle or paused takes up a run and is running, and no run ends. -/
theorem exists_opening_run [StepScheduler σ] (hstate : c.state = .idle ∨ c.state = .paused)
    (source : String) (bs : List Breakpoint) :
    ∃ calls events s, c.Opening source bs calls s ∧
      Adds c (c.run source bs).2 calls events ∧ (c.run source bs).2.state = .running ∧
      events.filterMap ControllerEvent.outcome? = [] := by
  have haccepted : (c.run source bs).1 = true := by
    unfold run
    rcases hstate with hstate | hstate <;> rw [hstate]
  obtain ⟨calls, events, hdeed, hadds⟩ := c.exists_deed_run source bs
  rw [haccepted] at hdeed
  generalize hstanding : (c.run source bs).2.standing = s at hdeed
  cases hdeed with
  | ran opening =>
    refine ⟨calls, _, _, opening, hadds, congrArg Standing.state hstanding, ?_⟩
    split <;> rfl

end Controller

end StackEditor
