import StackEditor.Analysis.Analyzer

/-!
# What built-in names and options change

The built-in names are looked up in the middle of the walk over the parameters of a list, and one of
the two options is asked there too. Neither has an effect on how the walk goes on, since all that it
keeps of a token is whether the token is a name (`checkParameters_cons`). So two analyzers can be
compared token by token (`Relates.checkParamLists`). What an option decides for a token is whether
there are reports of one kind, and what a look-up decides is whether there is a warning. Hence the
errors of a token sequence are the same for all analyzers, and the reports under some options are
those of all reports that the options want (`errors_fixed_and_options_filter`).
-/

namespace StackEditor

/-- The options want reports with this code. -/
def AnalysisOptions.wants (o : AnalysisOptions) : DiagnosticCode → Bool
  | .unresolvedReference => o.unresolvedReferences
  | .shadowedBuiltin => o.shadowedBuiltins
  | _ => true

namespace Analysis

variable {d : Definitions} {b b' : Builtins} {shadowed shadowed' : Bool}
  {R : List Diagnostic → List Diagnostic → Prop}

/-! ## One token after the other -/

/-- The reports on one token among the parameters. -/
def parameterReports (d : Definitions) (b : Builtins) (shadowed afterName : Bool) (t : Token) :
    List Diagnostic :=
  match t.kind with
  | .reference => if shadowed && b.isFunction t.text then [.shadowedBuiltin t] else []
  | .symbol => if afterName then checkTypeSymbol d b t else [.misplacedType t]
  | _ => [.invalidParameter t]

/-- The reports on one token among the return types. -/
def returnReports (d : Definitions) (b : Builtins) (t : Token) : List Diagnostic :=
  if t.kind = .symbol then checkTypeSymbol d b t else [.invalidReturn t]

/-- What stands behind a parameter is checked in a state that only the parameter's kind decides. -/
theorem checkParameters_cons (d : Definitions) (b : Builtins) (shadowed afterName : Bool)
    (t : Token) (ts : List Token) :
    checkParameters d b shadowed afterName (t :: ts) =
      parameterReports d b shadowed afterName t ++
        checkParameters d b shadowed (t.kind = .reference) ts := by
  cases hkind : t.kind <;> simp [checkParameters, parameterReports, hkind]

/-- The reports on return values, one token after the other. -/
theorem checkReturns_eq_flatMap (d : Definitions) (b : Builtins) (tokens : List Token) :
    checkReturns d b tokens = tokens.flatMap (returnReports d b) := rfl

/-- A relation between reports that holds of the whole if it holds of the parts. -/
structure Relates (R : List Diagnostic → List Diagnostic → Prop) : Prop where
  nil : R [] []
  append : ∀ {l₁ l₁' l₂ l₂'}, R l₁ l₁' → R l₂ l₂' → R (l₁ ++ l₂) (l₁' ++ l₂')

namespace Relates

variable (hR : Relates R)
include hR

/-- What relates the reports on each part relates those on the whole. -/
theorem flatMap {α : Type} {f g : α → List Diagnostic} (h : ∀ a, R (f a) (g a)) (as : List α) :
    R (as.flatMap f) (as.flatMap g) := by
  induction as with
  | nil => exact hR.nil
  | cons a as ih => exact hR.append (h a) ih

/-- The reports on parameters are related if those on each parameter are. -/
theorem checkParameters (h : ∀ afterName t, R (parameterReports d b shadowed afterName t)
      (parameterReports d b' shadowed' afterName t)) (afterName : Bool) (tokens : List Token) :
    R (checkParameters d b shadowed afterName tokens)
      (checkParameters d b' shadowed' afterName tokens) := by
  induction tokens generalizing afterName with
  | nil => exact hR.nil
  | cons t ts ih =>
    rw [checkParameters_cons, checkParameters_cons]
    exact hR.append (h afterName t) (ih _)

/-- The reports on parameter lists are related if those on each token are. -/
theorem checkParamLists (hparameter : ∀ afterName t, R (parameterReports d b shadowed afterName t)
      (parameterReports d b' shadowed' afterName t))
    (hreturn : ∀ t, R (returnReports d b t) (returnReports d b' t)) (tokens : List Token) :
    R (checkParamLists tokens d b shadowed) (checkParamLists tokens d b' shadowed') := by
  refine hR.flatMap (fun l => ?_) d.lists
  unfold checkParamList
  rw [checkReturns_eq_flatMap, checkReturns_eq_flatMap]
  exact hR.append (hR.checkParameters hparameter _ _) (hR.flatMap hreturn _)

end Relates

/-! ## Options -/

/-- The reports of the one analyzer that some options want are those of the other one. -/
theorem relates_wants (o : AnalysisOptions) :
    Relates fun l l' => l.filter (o.wants ·.code) = l' where
  nil := rfl
  append h h' := by rw [List.filter_append, h, h']

/-- No option turns off the reports on brackets. -/
theorem filter_checkBracketsFrom (o : AnalysisOptions) (stack tokens : List Token) :
    (checkBracketsFrom stack tokens).filter (o.wants ·.code) = checkBracketsFrom stack tokens := by
  refine List.filter_eq_self.2 ?_
  fun_induction checkBracketsFrom stack tokens with
  | case1 stack =>
    intro r hr
    obtain ⟨t, -, rfl⟩ := List.mem_map.1 hr
    rfl
  | case2 _ _ _ _ ih | case6 _ _ _ _ _ ih => exact ih
  | case3 _ _ _ _ ih => exact List.forall_mem_cons.2 ⟨rfl, ih⟩
  | case4 _ _ _ _ _ _ _ ih => exact ih
  | case5 _ _ _ _ _ _ _ ih => exact List.forall_mem_cons.2 ⟨rfl, ih⟩

/-- No option turns off the reports on type symbols. -/
theorem filter_checkTypeSymbol (o : AnalysisOptions) (d : Definitions) (b : Builtins) (t : Token) :
    (checkTypeSymbol d b t).filter (o.wants ·.code) = checkTypeSymbol d b t := by
  refine List.filter_eq_self.2 ?_
  dsimp only [checkTypeSymbol]
  split
  · exact List.forall_mem_singleton.2 rfl
  split
  · exact List.forall_mem_singleton.2 rfl
  · nofun

/-- Among the reports on a parameter, the options decide on shadowed names. -/
theorem filter_parameterReports (o : AnalysisOptions) (d : Definitions) (b : Builtins)
    (afterName : Bool) (t : Token) :
    (parameterReports d b true afterName t).filter (o.wants ·.code) =
      parameterReports d b o.shadowedBuiltins afterName t := by
  unfold parameterReports
  split
  · cases b.isFunction t.text <;> cases hshadowed : o.shadowedBuiltins <;>
      simp [AnalysisOptions.wants, Diagnostic.shadowedBuiltin, hshadowed]
  · cases afterName
    · rfl
    · exact filter_checkTypeSymbol o d b t
  · rfl

/-- No option turns off the reports on return values. -/
theorem filter_returnReports (o : AnalysisOptions) (d : Definitions) (b : Builtins) (t : Token) :
    (returnReports d b t).filter (o.wants ·.code) = returnReports d b t := by
  unfold returnReports
  split
  · exact filter_checkTypeSymbol o d b t
  · rfl

/-- One option turns the reports on references on and off as a whole. -/
theorem filter_checkReferences (o : AnalysisOptions) (d : Definitions) (b : Builtins)
    (tokens : List Token) : (checkReferences tokens d b).filter (o.wants ·.code) =
      if o.unresolvedReferences then checkReferences tokens d b else [] := by
  unfold checkReferences
  split
  · next hwanted =>
    refine List.filter_eq_self.2 fun r hr => ?_
    obtain ⟨_, -, rfl⟩ := List.mem_map.1 hr
    exact hwanted
  · next hwanted =>
    refine List.filter_eq_nil_iff.2 fun r hr => ?_
    obtain ⟨_, -, rfl⟩ := List.mem_map.1 hr
    exact hwanted

/-! ## Errors -/

/-- The two analyzers report the same errors. -/
theorem relates_errors :
    Relates fun l l' => l.filter (·.isError) = l'.filter (·.isError) where
  nil := rfl
  append h h' := by rw [List.filter_append, List.filter_append, h, h']

/-- Whether a type is known decides on a warning. -/
theorem errors_checkTypeSymbol (d : Definitions) (b b' : Builtins) (t : Token) :
    (checkTypeSymbol d b t).filter (·.isError) = (checkTypeSymbol d b' t).filter (·.isError) := by
  dsimp only [checkTypeSymbol]
  split
  · rfl
  · split <;> split <;> rfl

/-- Whether a built-in function has the name of a parameter decides on a warning, too. -/
theorem errors_parameterReports (d : Definitions) (b b' : Builtins)
    (shadowed shadowed' afterName : Bool) (t : Token) :
    (parameterReports d b shadowed afterName t).filter (·.isError) =
      (parameterReports d b' shadowed' afterName t).filter (·.isError) := by
  unfold parameterReports
  split
  · split <;> split <;> rfl
  · cases afterName
    · rfl
    · exact errors_checkTypeSymbol d b b' t
  · rfl

/-- The errors of a return value do not depend on the known names. -/
theorem errors_returnReports (d : Definitions) (b b' : Builtins) (t : Token) :
    (returnReports d b t).filter (·.isError) = (returnReports d b' t).filter (·.isError) := by
  unfold returnReports
  split
  · exact errors_checkTypeSymbol d b b' t
  · rfl

/-- A name that nobody defines is no error. -/
theorem errors_checkReferences (tokens : List Token) (d : Definitions) (b : Builtins) :
    (checkReferences tokens d b).filter (·.isError) = [] := by
  refine List.filter_eq_nil_iff.2 fun r hr => ?_
  obtain ⟨_, -, rfl⟩ := List.mem_map.1 hr
  nofun

end Analysis

/-! ## All reports -/

namespace Analyzer

open Analysis

/-- The errors are found in the brackets and in the parameter lists. -/
theorem errors_analyzeTokens (a : Analyzer) (tokens : List Token) :
    (a.analyzeTokens tokens).filter (·.isError) =
      (checkBrackets tokens).filter (·.isError) ++
        (checkParamLists tokens (.collect tokens) a.builtins
          a.options.shadowedBuiltins).filter (·.isError) := by
  have hreferences : (if a.options.unresolvedReferences then
      checkReferences tokens (.collect tokens) a.builtins else []).filter (·.isError) = [] := by
    split
    · exact errors_checkReferences _ _ _
    · rfl
  simp only [analyzeTokens, List.filter_append, hreferences, List.append_nil]

/-- All analyzers report the same errors, in the same order. Under given options there are the same
reports as under all options, without those that the options do not want. -/
theorem errors_fixed_and_options_filter (tokens : List Token) :
    (∀ a a' : Analyzer, (a.analyzeTokens tokens).filter (·.isError) =
      (a'.analyzeTokens tokens).filter (·.isError)) ∧
    ∀ (b : Builtins) (o : AnalysisOptions), analyzeTokens ⟨b, o⟩ tokens =
      (analyzeTokens ⟨b, .all⟩ tokens).filter (o.wants ·.code) := by
  refine ⟨fun a a' => ?_, fun b o => ?_⟩
  · have hlists := relates_errors.checkParamLists
      (errors_parameterReports (.collect tokens) a.builtins a'.builtins
        a.options.shadowedBuiltins a'.options.shadowedBuiltins)
      (errors_returnReports _ _ _) tokens
    rw [errors_analyzeTokens, errors_analyzeTokens, hlists]
  · have hlists := (relates_wants o).checkParamLists
      (filter_parameterReports o (.collect tokens) b) (filter_returnReports o _ b) tokens
    have hbrackets := filter_checkBracketsFrom o [] tokens
    simp only [analyzeTokens, List.filter_append, AnalysisOptions.all, if_true, hlists,
      filter_checkReferences]
    rw [checkBrackets, hbrackets]

end Analyzer

end StackEditor
