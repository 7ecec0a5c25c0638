import StackEditor.Proofs.Execution.History

/-!
# The runs that an evaluator hears

Whatever commands a controller is given, its evaluator hears one run after the other: it is reset,
told the breakpoints, started over some tokens with a token of its own, and from then on it is told
to step and given breakpoints (`EvaluatorRun`). Nothing follows in a run behind a step that ends it,
and nothing behind the tripping of its token (`EvaluatorRun.Orderly`). `Recorded` ties the calls to
where the controller stands: while it has a token, the last run is that of the token and is still
open. Every deed keeps that (`Recorded.deed`).
-/

namespace StackEditor

namespace EvaluatorCall

/-- The call changes the evaluator. Reading a source does not; the tripping of a token counts as a
call. -/
def isMutating : EvaluatorCall → Bool
  | tokenize _ => false
  | _ => true

/-- The token that the call names. -/
def token? : EvaluatorCall → Option CancellationToken
  | startRun _ token => some token
  | trip token => some token
  | _ => none

/-- The run is over behind the call: the step was done or failed, or the token is tripped. -/
def endsRun : EvaluatorCall → Bool
  | step result => (RunOutcome.ofStep? result).isSome
  | trip _ => true
  | _ => false

end EvaluatorCall

/-- The calls of one run. The course is what comes behind its start. -/
structure EvaluatorRun where
  breakpoints : List Breakpoint
  tokens : List Token
  token : CancellationToken
  course : List EvaluatorCall

namespace EvaluatorRun

def calls (r : EvaluatorRun) : List EvaluatorCall :=
  [.reset, .setBreakpoints r.breakpoints, .startRun r.tokens r.token] ++ r.course

/-- The call may stand in the course of the run. -/
def Admits (r : EvaluatorRun) (call : EvaluatorCall) : Prop :=
  (∃ bs, call = .setBreakpoints bs) ∨ (∃ result, call = .step result) ∨ call = .trip r.token

/-- The course of the run is made of steps and new breakpoints, and perhaps the tripping of the
run's own token; no call is followed by another one if it ends the run. -/
structure Orderly (r : EvaluatorRun) : Prop where
  admits : ∀ call ∈ r.course, r.Admits call
  ends : r.course.Pairwise fun earlier _ => earlier.endsRun = false

end EvaluatorRun

/-- The token of a run that is started has not been named by any call before. -/
def FreshTokens (log : List EvaluatorCall) : Prop :=
  log.Pairwise fun earlier later =>
    ∀ tokens token, later = .startRun tokens token → earlier.token? ≠ some token

/-- What an evaluator has heard is told run by run, and where the controller stands fits the last
run: while there is a token, it is that run's, and the run is not over. -/
structure Recorded (runs : List EvaluatorRun) (log : List EvaluatorCall) (s : Standing) : Prop where
  calls : log.filter (·.isMutating) = runs.flatMap (·.calls)
  orderly : ∀ r ∈ runs, r.Orderly
  fresh : FreshTokens log
  known : ∀ call ∈ log, ∀ token, call.token? = some token → token.run < s.runs
  current : ∀ token, s.cancel = some token → ∃ earlier r, runs = earlier ++ [r] ∧
    r.token = token ∧ token.run < s.runs ∧ ∀ call ∈ r.course, call.endsRun = false

namespace Recorded

variable {runs : List EvaluatorRun} {log : List EvaluatorCall} {s s' : Standing}

/-- Of where the controller stands only the token and the number of runs count. -/
theorem of_eq (h : Recorded runs log s) (hcancel : s'.cancel = s.cancel)
    (hruns : s'.runs = s.runs) : Recorded runs log s' where
  calls := h.calls
  orderly := h.orderly
  fresh := h.fresh
  known := by
    rw [hruns]
    exact h.known
  current := by
    rw [hcancel, hruns]
    exact h.current

/-- A new run is started, with the next token. -/
theorem start (h : Recorded runs log s) (source : String) (bs : List Breakpoint)
    (tokens : List Token) (hcancel : s'.cancel = some ⟨s.runs⟩) (hruns : s'.runs = s.runs + 1) :
    Recorded (runs ++ [⟨bs, tokens, ⟨s.runs⟩, []⟩])
      (log ++ [.reset, .setBreakpoints bs, .tokenize source, .startRun tokens ⟨s.runs⟩]) s' where
  calls := by
    rw [List.filter_append, h.calls, List.flatMap_append]
    rfl
  orderly := by
    intro r hr
    rcases List.mem_append.1 hr with hr | hr
    · exact h.orderly r hr
    · obtain rfl := List.mem_singleton.1 hr
      exact ⟨fun _ hcall => (nomatch hcall), .nil⟩
  fresh := by
    refine List.pairwise_append.2 ⟨h.fresh, by simp [EvaluatorCall.token?], ?_⟩
    intro earlier hearlier later hlater ts token hstart hnamed
    have hlt := h.known earlier hearlier token hnamed
    subst hstart
    obtain ⟨-, rfl⟩ : ts = tokens ∧ token = ⟨s.runs⟩ := by simpa using hlater
    exact Nat.lt_irrefl _ hlt
  known := by
    intro call hcall token htoken
    rw [hruns]
    rcases List.mem_append.1 hcall with hcall | hcall
    · exact Nat.lt_succ_of_lt (h.known call hcall token htoken)
    · simp only [List.mem_cons, List.not_mem_nil, or_false] at hcall
      rcases hcall with rfl | rfl | rfl | rfl <;> cases htoken
      exact Nat.lt_succ_self _
  current := by
    intro token htoken
    obtain rfl := Option.some.inj (hcancel.symm.trans htoken)
    exact ⟨runs, _, rfl, rfl, hruns ▸ Nat.lt_succ_self _, fun _ hcall => (nomatch hcall)⟩

/-- The run of the token goes on with a call. If the call ends it, the controller drops the
token. -/
theorem extend (h : Recorded runs log s) {token : CancellationToken}
    (htoken : s.cancel = some token) {call : EvaluatorCall}
    (hcall : (∃ bs, call = .setBreakpoints bs) ∨ (∃ result, call = .step result) ∨
      call = .trip token)
    (hcancel : s'.cancel = if call.endsRun then none else s.cancel) (hruns : s'.runs = s.runs) :
    ∃ runs', Recorded runs' (log ++ [call]) s' := by
  obtain ⟨earlier, r, rfl, rfl, hlt, hopen⟩ := h.current token htoken
  refine ⟨earlier ++ [{ r with course := r.course ++ [call] }], ?_⟩
  constructor
  case calls =>
    have hmutating : call.isMutating = true := by
      rcases hcall with ⟨bs, rfl⟩ | ⟨result, rfl⟩ | rfl <;> rfl
    rw [List.filter_append, h.calls]
    simp [EvaluatorRun.calls, hmutating]
  case orderly =>
    intro r' hr'
    rcases List.mem_append.1 hr' with hr' | hr'
    · exact h.orderly r' (List.mem_append_left _ hr')
    · obtain rfl := List.mem_singleton.1 hr'
      obtain ⟨hadmits, hends⟩ := h.orderly r (by simp)
      refine ⟨fun c hc => ?_, List.pairwise_append.2 ⟨hends, by simp, fun c hc _ _ => hopen c hc⟩⟩
      rcases List.mem_append.1 hc with hc | hc
      · exact hadmits c hc
      · rw [List.mem_singleton.1 hc]
        exact hcall
  case fresh =>
    refine List.pairwise_append.2 ⟨h.fresh, by simp, ?_⟩
    intro c _ later hlater tokens token hstart
    rw [List.mem_singleton.1 hlater] at hstart
    subst hstart
    simp at hcall
  case known =>
    intro c hc token hnamed
    rw [hruns]
    rcases List.mem_append.1 hc with hc | hc
    · exact h.known c hc token hnamed
    · obtain rfl := List.mem_singleton.1 hc
      rcases hcall with ⟨bs, rfl⟩ | ⟨result, rfl⟩ | rfl <;> cases hnamed
      exact hlt
  case current =>
    intro token htoken'
    rw [hcancel] at htoken'
    split at htoken'
    · cases htoken'
    · next hgoesOn =>
      rw [htoken] at htoken'
      obtain rfl := Option.some.inj htoken'
      refine ⟨earlier, _, rfl, rfl, hruns ▸ hlt, fun c hc => ?_⟩
      rcases List.mem_append.1 hc with hc | hc
      · exact hopen c hc
      · rw [List.mem_singleton.1 hc]
        simpa using hgoesOn

end Recorded

/-! ## Commands -/

namespace Controller

variable {ε σ : Type} [Evaluator ε] {c : Controller ε σ} {command : ControllerCommand}
  {accepted : Bool} {calls : List EvaluatorCall} {events : List ControllerEvent}
  {log : List EvaluatorCall} {s s' : Standing}

/-- A run that has been taken up has a token. -/
theorem Opening.exists_cancel (h : c.Steady) {source : String} {bs : List Breakpoint}
    (hopening : c.Opening source bs calls s) : ∃ token, s.cancel = some token := by
  cases hopening with
  | started => exact ⟨_, rfl⟩
  | resumed paused => exact Option.isSome_iff_exists.1 (h.cancel.2 (.inr paused))

/-- What opens a run starts a record of it, or goes on with the one there is. -/
theorem Opening.recorded (h : c.Steady) {source : String} {bs : List Breakpoint}
    (hopening : c.Opening source bs calls s) (hlog : ∃ runs, Recorded runs log c.standing) :
    ∃ runs, Recorded runs (log ++ calls) s := by
  obtain ⟨runs, hlog⟩ := hlog
  obtain ⟨token, htoken⟩ := hopening.exists_cancel h
  cases hopening with
  | started => exact ⟨_, hlog.start source bs _ rfl rfl⟩
  | resumed => exact hlog.extend htoken (.inl ⟨bs, rfl⟩) rfl rfl

omit [Evaluator ε] in
/-- A step is put on record with the run that it belongs to. -/
theorem Aftermath.recorded {highlight : Bool} {result : Except EvalError StepResult}
    (haftermath : Aftermath highlight s result events s') {token : CancellationToken}
    (htoken : s.cancel = some token) (hlog : ∃ runs, Recorded runs log s) :
    ∃ runs, Recorded runs (log ++ [.step result]) s' := by
  obtain ⟨runs, hlog⟩ := hlog
  refine hlog.extend htoken (.inr (.inl ⟨result, rfl⟩)) ?_ ?_
  · cases haftermath with
    | ended outcome => simp [EvaluatorCall.endsRun, outcome]
    | paused ok done | wentOn ok done =>
      simp [EvaluatorCall.endsRun, RunOutcome.ofStep?_eq_none_iff.2 ⟨_, ok, done⟩]
  · cases haftermath <;> rfl

/-- Every deed keeps what an evaluator has heard in runs. -/
theorem Deed.recorded (h : c.Steady) (hdeed : c.Deed command accepted calls events s)
    (hlog : ∃ runs, Recorded runs log c.standing) : ∃ runs, Recorded runs (log ++ calls) s := by
  cases hdeed with
  | refused => rwa [List.append_nil]
  | ran opening =>
    obtain ⟨runs, hrecorded⟩ := opening.recorded h hlog
    exact ⟨runs, hrecorded.of_eq rfl rfl⟩
  | paused =>
    obtain ⟨runs, hrecorded⟩ := hlog
    rw [List.append_nil]
    exact ⟨runs, hrecorded.of_eq rfl rfl⟩
  | stepped opening aftermath =>
    obtain ⟨token, htoken⟩ := opening.exists_cancel h
    rw [← List.append_assoc]
    exact aftermath.recorded htoken (opening.recorded h hlog)
  | stopped active cancel =>
    obtain ⟨runs, hrecorded⟩ := hlog
    exact hrecorded.extend cancel (.inr (.inr rfl)) rfl rfl
  | fired pending running aftermath =>
    obtain ⟨token, htoken⟩ := Option.isSome_iff_exists.1 (h.cancel.2 (.inl running))
    exact aftermath.recorded htoken hlog

/-- A token is tripped in the course of an accepted stop, and of nothing else. -/
theorem Deed.trip_iff (hdeed : c.Deed command accepted calls events s) :
    (∃ token, .trip token ∈ calls) ↔ command = .stop ∧ accepted = true := by
  cases hdeed with
  | refused | paused | stopped | fired => simp
  | ran opening | stepped opening => cases opening <;> simp

/-- The breakpoints handed over are those of the command. -/
theorem Opening.setBreakpoints_eq {source : String} {bs bs' : List Breakpoint}
    (hopening : c.Opening source bs calls s) (hbs : .setBreakpoints bs' ∈ calls) : bs' = bs := by
  cases hopening <;> simpa using hbs

/-- Breakpoints are those of the command that starts or resumes the run. -/
theorem Deed.setBreakpoints_cases (hdeed : c.Deed command accepted calls events s)
    {bs : List Breakpoint} (hbs : .setBreakpoints bs ∈ calls) :
    accepted = true ∧ ∃ source, command = .run source bs ∨ command = .step source bs := by
  cases hdeed with
  | refused | paused | stopped | fired => simp at hbs
  | ran opening =>
    obtain rfl := opening.setBreakpoints_eq hbs
    exact ⟨rfl, _, .inl rfl⟩
  | stepped opening =>
    obtain rfl := opening.setBreakpoints_eq (by simpa using hbs)
    exact ⟨rfl, _, .inr rfl⟩

variable [StepScheduler σ]

/-- Whatever calls a host makes, the evaluator hears runs, one after the other, and each of them is
orderly. A run has a token that was not named before; the token is tripped in the course of a stop
that is accepted, and at no other time. Breakpoints are those of the run or step that was accepted
and led to the call. -/
theorem evaluator_hears_runs (evaluator : ε) (scheduler : σ) (options : ControllerOptions)
    (calls : List (HostCall σ)) :
    let start := new (Traced.watch evaluator) scheduler options
    let log := (calls.foldl serve start).evaluator.calls
    let history := start.history calls
    log = history.flatMap (·.calls) ∧
      (∃ runs : List EvaluatorRun, log.filter (·.isMutating) = runs.flatMap (·.calls) ∧
        ∀ r ∈ runs, r.Orderly) ∧
      FreshTokens log ∧
      (∀ x ∈ history, (∃ token, .trip token ∈ x.calls) ↔
        x.command = .stop ∧ x.accepted = true) ∧
      ∀ x ∈ history, ∀ bs, .setBreakpoints bs ∈ x.calls →
        x.accepted = true ∧ ∃ source, x.command = .run source bs ∨ x.command = .step source bs := by
  intro start log history
  have hsteady : start.Steady := steady_new _ _ _
  have hdeed := fun x (hx : x ∈ history) => (Exchange.deed (hsteady.of_mem_history hx)).1
  obtain ⟨runs, hrecorded⟩ := logs_induction (P := fun log _ s => ∃ runs, Recorded runs log s)
    ⟨[], rfl, by simp, .nil, by simp, by simp⟩ (fun h hlog hdeed => hdeed.recorded h hlog)
    evaluator scheduler options calls
  exact ⟨(hsteady.calls_foldl_serve calls).trans (List.nil_append _),
    ⟨runs, hrecorded.calls, hrecorded.orderly⟩, hrecorded.fresh,
    fun x hx => (hdeed x hx).trip_iff, fun x hx bs hbs => (hdeed x hx).setBreakpoints_cases hbs⟩

end Controller

end StackEditor
