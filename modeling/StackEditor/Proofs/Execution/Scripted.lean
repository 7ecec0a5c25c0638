import StackEditor.Execution.Scripted
import StackEditor.Proofs.Execution.Alike
import StackEditor.Proofs.Execution.Runs

/-!
# Runs over a script

Without a script a scripted walker answers as its walker does, and a controller over it does what it
does over the walker (`Controller.alike_unscripted`). With a script its steps are laid down:
whatever a host does, in each of the runs that the evaluator hears the steps are answered by the
script from its start, and behind the end of the script a step is done
(`Controller.runs_follow_script`).
-/

namespace StackEditor

/-- The answer to a step, if the call is one. -/
def EvaluatorCall.result? : EvaluatorCall → Option (Except EvalError StepResult)
  | step result => some result
  | _ => none

/-- The answers to the steps among the calls. -/
def stepResults (calls : List EvaluatorCall) : List (Except EvalError StepResult) :=
  calls.filterMap (·.result?)

/-- Behind the end of a script a step is done, nowhere. -/
def scriptEnd : Except EvalError StepResult := .ok ⟨true, none, false⟩

/-- The first `n` answers of a script over these tokens. -/
def scriptAnswers (tokens : List Token) (script : List ScriptStep) (n : Nat) :
    List (Except EvalError StepResult) :=
  (script.take n).map (·.answer tokens) ++ List.replicate (n - script.length) scriptEnd

section
variable (tokens : List Token) (n : Nat)

/-- A script that is used up answers that it has ended. -/
theorem scriptAnswers_nil_succ :
    scriptAnswers tokens [] (n + 1) = scriptEnd :: scriptAnswers tokens [] n := by
  simp [scriptAnswers, List.replicate_succ]

/-- A script answers with its first entry first. -/
theorem scriptAnswers_cons_succ (e : ScriptStep) (rest : List ScriptStep) :
    scriptAnswers tokens (e :: rest) (n + 1) =
      e.answer tokens :: scriptAnswers tokens rest n := by
  simp [scriptAnswers]

end

namespace ScriptedWalker

/-- Without a script, a scripted walker answers as its walker does. -/
theorem evaluatorsAlike :
    EvaluatorsAlike fun (s : ScriptedWalker) w => s.script = none ∧ s.walker = w where
  tokenize := by
    rintro s _ ⟨hscript, rfl⟩ source
    exact ⟨rfl, hscript, rfl⟩
  reset := by
    rintro s _ ⟨hscript, rfl⟩
    exact ⟨hscript, rfl⟩
  setBreakpoints := by
    rintro s _ ⟨hscript, rfl⟩ bs
    exact ⟨hscript, rfl⟩
  startRun := by
    rintro s _ ⟨hscript, rfl⟩ tokens token
    exact ⟨hscript, rfl⟩
  trip := by
    rintro s _ ⟨hscript, rfl⟩ token
    exact ⟨hscript, rfl⟩
  step := by
    rintro ⟨w, script, remaining⟩ _ ⟨hscript, rfl⟩
    obtain rfl : script = none := hscript
    exact ⟨rfl, rfl, rfl⟩

variable {s s' : ScriptedWalker} {script : List ScriptStep} {calls : List EvaluatorCall}

/-! ## One call -/

/-- No call takes the script away. -/
theorem script_of_hears {call : EvaluatorCall} (h : Hears s call s') : s'.script = s.script := by
  cases h with
  | step =>
    obtain ⟨w, script, remaining⟩ := s
    cases script <;> cases remaining <;> rfl
  | tokenize | reset | setBreakpoints | startRun | trip => rfl

/-- No call changes the script. -/
theorem script_of_hearsAll (h : HearsAll s calls s') : s'.script = s.script := by
  induction h with
  | nil => rfl
  | cons head _ ih => exact ih.trans (script_of_hears head)

/-- Reading a source changes nothing, so only the other calls count. -/
theorem hearsAll_filter (h : HearsAll s calls s') :
    HearsAll s (calls.filter (·.isMutating)) s' := by
  induction h with
  | nil e => exact .nil e
  | cons head _ ih =>
    cases head with
    | tokenize => exact ih
    | reset => exact .cons (.reset _) ih
    | setBreakpoints => exact .cons (.setBreakpoints _ _) ih
    | startRun => exact .cons (.startRun _ _ _) ih
    | trip => exact .cons (.trip _ _) ih
    | step => exact .cons (.step _) ih

/-- A walker whose script is used up answers that it has ended. -/
theorem step_of_eq_nil (hscript : s.script = some script) (h : s.remaining = []) :
    Evaluator.step s = (scriptEnd, s) := by
  obtain ⟨w, _, _⟩ := s
  obtain rfl := hscript
  obtain rfl := h
  rfl

/-- A walker with a script takes the next entry of it. -/
theorem step_of_eq_cons {e : ScriptStep} {rest : List ScriptStep}
    (hscript : s.script = some script) (h : s.remaining = e :: rest) :
    Evaluator.step s = (e.answer s.walker.tokens, { s with remaining := rest }) := by
  obtain ⟨w, _, _⟩ := s
  obtain rfl := hscript
  obtain rfl := h
  rfl

/-- Tripping a token leaves the tokens of the run. -/
theorem tokens_trip (w : TokenWalker) (token : CancellationToken) :
    (w.trip token).tokens = w.tokens := by
  unfold TokenWalker.trip
  split
  · split <;> rfl
  · rfl

/-! ## Runs -/

/-- In the course of a run the steps take the script from where it is. -/
theorem results_of_hearsAll {r : EvaluatorRun} (h : HearsAll s calls s')
    (hscript : s.script = some script) (hadmits : ∀ call ∈ calls, r.Admits call) :
    stepResults calls =
      scriptAnswers s.walker.tokens s.remaining (stepResults calls).length := by
  induction h with
  | nil => simp [scriptAnswers, stepResults]
  | @cons s s₁ s' call calls head tail ih =>
    obtain ⟨hcall, hcalls⟩ := List.forall_mem_cons.1 hadmits
    have hrest := ih ((script_of_hears head).trans hscript) hcalls
    rcases hcall with ⟨bs, rfl⟩ | ⟨result, rfl⟩ | rfl
    · cases head
      exact hrest
    · have hstep : Evaluator.step s = (result, s₁) := head.all.step_eq
      have hresults : stepResults (.step result :: calls) = result :: stepResults calls := rfl
      rw [hresults, List.length_cons]
      cases hremaining : s.remaining with
      | nil =>
        obtain ⟨rfl, rfl⟩ := Prod.mk.inj ((step_of_eq_nil hscript hremaining).symm.trans hstep)
        rw [scriptAnswers_nil_succ, ← hremaining, ← hrest]
      | cons e rest =>
        obtain ⟨rfl, rfl⟩ := Prod.mk.inj ((step_of_eq_cons hscript hremaining).symm.trans hstep)
        rw [scriptAnswers_cons_succ, ← hrest]
    · cases head
      rw [← tokens_trip s.walker r.token]
      exact hrest

/-- The steps of a run are answered by the script from its start. -/
theorem results_of_run {r : EvaluatorRun} (h : HearsAll s r.calls s')
    (hscript : s.script = some script) (hr : r.Orderly) :
    stepResults r.course = scriptAnswers r.tokens script (stepResults r.course).length := by
  obtain ⟨s₁, hopening, hcourse⟩ := h.exists_of_append
  have hscript₁ := (script_of_hearsAll hopening).trans hscript
  obtain rfl := hopening.eq_foldl
  have hresults := results_of_hearsAll hcourse hscript₁ hr.admits
  have hremaining : s.script.getD [] = script := by rw [hscript]; rfl
  rw [← hremaining]
  exact hresults

/-- In orderly runs the steps answer from the start of the script in each run. -/
theorem results_of_runs {runs : List EvaluatorRun} (h : HearsAll s (runs.flatMap (·.calls)) s')
    (hscript : s.script = some script) (hruns : ∀ r ∈ runs, r.Orderly) :
    ∀ r ∈ runs, stepResults r.course =
      scriptAnswers r.tokens script (stepResults r.course).length := by
  induction runs generalizing s with
  | nil => simp
  | cons r runs ih =>
    obtain ⟨s₁, hr, hrest⟩ := HearsAll.exists_of_append h
    obtain ⟨hfirst, hruns⟩ := List.forall_mem_cons.1 hruns
    have hscript₁ := (script_of_hearsAll hr).trans hscript
    exact List.forall_mem_cons.2
      ⟨results_of_run hr hscript hfirst, ih hrest hscript₁ hruns⟩

end ScriptedWalker

/-- Without a script a controller does what it does over the walker. -/
theorem Controller.alike_unscripted {σ : Type} [StepScheduler σ] (failOn : Option String)
    (scheduler : σ) (options : ControllerOptions) (calls : List (HostCall σ)) :
    Alike (fun (s : ScriptedWalker) w => s.script = none ∧ s.walker = w)
      (calls.foldl serve (new (ScriptedWalker.new failOn none) scheduler options))
      (calls.foldl serve (new (TokenWalker.new failOn) scheduler options)) :=
  Alike.foldl_serve ScriptedWalker.evaluatorsAlike (.driving _ ⟨rfl, rfl⟩) calls

/-- Whatever calls a host makes of a controller over a script, the evaluator hears runs one after
the other, and in each of them the steps are answered by the script from its start. -/
theorem Controller.runs_follow_script {σ : Type} [StepScheduler σ] (failOn : Option String)
    (script : List ScriptStep) (scheduler : σ) (options : ControllerOptions)
    (calls : List (HostCall σ)) :
    let start := new (Traced.watch (ScriptedWalker.new failOn (some script))) scheduler options
    let log := (calls.foldl serve start).evaluator.calls
    ∃ runs : List EvaluatorRun, log.filter (·.isMutating) = runs.flatMap (·.calls) ∧
      ∀ r ∈ runs, r.Orderly ∧
        stepResults r.course = scriptAnswers r.tokens script (stepResults r.course).length := by
  intro start log
  obtain ⟨heard, hheard⟩ := (steady_new _ scheduler options : start.Steady).exists_heard calls
  have hlog : log = heard := hheard.calls_eq
  obtain ⟨runs, hrecorded⟩ := logs_induction (P := fun log _ s => ∃ runs, Recorded runs log s)
    ⟨[], rfl, by simp, .nil, by simp, by simp⟩ (fun h hlog hdeed => hdeed.recorded h hlog)
    (ScriptedWalker.new failOn (some script)) scheduler options calls
  have hruns := ScriptedWalker.hearsAll_filter hheard.evaluator
  rw [← hlog, hrecorded.calls] at hruns
  have hresults := ScriptedWalker.results_of_runs hruns rfl hrecorded.orderly
  exact ⟨runs, hrecorded.calls, fun r hr => ⟨hrecorded.orderly r hr, hresults r hr⟩⟩

end StackEditor
