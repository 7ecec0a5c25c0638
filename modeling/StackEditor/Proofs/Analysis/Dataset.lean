import Mathlib.Data.List.Basic
import StackEditor.Proofs.Analysis.Options

/-!
# More built-in names

A larger set of built-in names can only explain more (`Explains`): names and types that were unknown
become known, parameters come to shadow functions, and nothing else changes. Each look-up decides on
one report, so this is shown token by token, and carried to all reports by `Relates`.

Merging lists of names makes the set larger, by the names in them and no others
(`Builtins.merged_foldl_extend`).
-/

namespace StackEditor

/-- Every name of the one set is in the other one. -/
structure Builtins.Within (b b' : Builtins) : Prop where
  functionNames : ∀ name, b.isFunction name = true → b'.isFunction name = true
  variableNames : ∀ name, b.isVariable name = true → b'.isVariable name = true
  typeNames : ∀ name, b.isType name = true → b'.isType name = true

/-- Whether there is such a report depends on built-in names. -/
def DiagnosticCode.looksUp : DiagnosticCode → Bool
  | unresolvedReference => true
  | unknownType => true
  | shadowedBuiltin => true
  | _ => false

/-- From the reports `l` to `l'` some unknown names and types have become known, some parameters
have come to shadow built-in functions, and the other reports are the same. -/
structure Explains (l l' : List Diagnostic) : Prop where
  unresolvedReference : (l'.filter (·.code = .unresolvedReference)).Sublist
    (l.filter (·.code = .unresolvedReference))
  unknownType : (l'.filter (·.code = .unknownType)).Sublist (l.filter (·.code = .unknownType))
  shadowedBuiltin : (l.filter (·.code = .shadowedBuiltin)).Sublist
    (l'.filter (·.code = .shadowedBuiltin))
  others : l.filter (!·.code.looksUp) = l'.filter (!·.code.looksUp)

/-- Any reports are related to themselves. -/
theorem Explains.refl (l : List Diagnostic) : Explains l l := ⟨.refl _, .refl _, .refl _, rfl⟩

namespace Analysis

variable {d : Definitions} {b b' : Builtins}

/-- Reports that are explained one by one are explained together. -/
theorem relates_explains : Relates Explains where
  nil := .refl []
  append h h' := by
    constructor <;> simp only [List.filter_append]
    · exact h.unresolvedReference.append h'.unresolvedReference
    · exact h.unknownType.append h'.unknownType
    · exact h.shadowedBuiltin.append h'.shadowedBuiltin
    · rw [h.others, h'.others]

/-- A type that becomes known is not reported any more. -/
theorem explains_checkTypeSymbol (h : b.Within b') (t : Token) :
    Explains (checkTypeSymbol d b t) (checkTypeSymbol d b' t) := by
  dsimp only [checkTypeSymbol]
  split
  · exact .refl _
  · cases hb : b.isType (typeName t.text)
    · cases hb' : b'.isType (typeName t.text)
      · exact .refl _
      · cases d.dataDefBefore (typeName t.text) t.start
        · exact ⟨.refl _, List.nil_sublist _, .refl _, rfl⟩
        · exact .refl _
    · rw [h.typeNames _ hb]
      exact .refl _

/-- A function that becomes known is shadowed by a parameter of its name. -/
theorem explains_parameterReports (h : b.Within b') (shadowed afterName : Bool) (t : Token) :
    Explains (parameterReports d b shadowed afterName t)
      (parameterReports d b' shadowed afterName t) := by
  unfold parameterReports
  split
  · cases hb : b.isFunction t.text
    · cases shadowed
      · exact .refl _
      · cases b'.isFunction t.text
        · exact .refl _
        · exact ⟨.refl _, .refl _, List.nil_sublist _, rfl⟩
    · rw [h.functionNames _ hb]
      exact .refl _
  · cases afterName
    · exact .refl _
    · exact explains_checkTypeSymbol h t
  · exact .refl _

/-- More names can only explain the reports on a return value. -/
theorem explains_returnReports (h : b.Within b') (t : Token) :
    Explains (returnReports d b t) (returnReports d b' t) := by
  unfold returnReports
  split
  · exact explains_checkTypeSymbol h t
  · exact .refl _

/-- A name that resolves goes on resolving. -/
theorem resolves_of_within (h : b.Within b') {t : Token} (hb : resolves d b t = true) :
    resolves d b' t = true := by
  have hnames : b.resolves t.text = true → b'.resolves t.text = true := by
    simp only [Builtins.resolves, Bool.or_eq_true]
    exact Or.imp (h.functionNames _) (h.variableNames _)
  simp only [resolves, Bool.or_eq_true] at hb ⊢
  exact hb.imp_left (Or.imp_left (Or.imp_left (Or.imp_left hnames)))

/-- More names leave fewer references without a meaning, in the same order. -/
theorem checkReferences_sublist (h : b.Within b') (tokens : List Token) :
    (checkReferences tokens d b').Sublist (checkReferences tokens d b) := by
  refine (List.monotone_filter_right _ fun (t, i) hunresolved => ?_).map _
  simp only [Bool.and_eq_true, Bool.not_eq_true'] at hunresolved ⊢
  refine ⟨hunresolved.1, ?_⟩
  cases hb : resolves d b t
  · rfl
  · rw [resolves_of_within h hb] at hunresolved
    cases hunresolved.2

/-- Reports of one kind, some of which are not made any more. -/
theorem explains_of_unresolved {l l' : List Diagnostic} (h : l'.Sublist l)
    (hl : ∀ r ∈ l, r.code = .unresolvedReference) : Explains l l' := by
  have hl' : ∀ r ∈ l', r.code = .unresolvedReference := fun r hr => hl r (h.subset hr)
  constructor
  case unresolvedReference => exact h.filter _
  case unknownType => exact h.filter _
  case shadowedBuiltin =>
    rw [List.filter_eq_nil_iff.2 fun r hr => by simp [hl r hr]]
    exact List.nil_sublist _
  case others =>
    rw [List.filter_eq_nil_iff.2 fun r hr => by simp [hl r hr, DiagnosticCode.looksUp],
      List.filter_eq_nil_iff.2 fun r hr => by simp [hl' r hr, DiagnosticCode.looksUp]]

/-- More names can only explain the reports on references. -/
theorem explains_checkReferences (h : b.Within b') (tokens : List Token) :
    Explains (checkReferences tokens d b) (checkReferences tokens d b') := by
  refine explains_of_unresolved (checkReferences_sublist h tokens) fun r hr => ?_
  obtain ⟨_, -, rfl⟩ := List.mem_map.1 hr
  rfl

end Analysis

namespace Analyzer

open Analysis

/-- More names can only explain the reports on any tokens, under any options. -/
theorem explains_analyzeTokens {b b' : Builtins} (h : b.Within b') (o : AnalysisOptions)
    (tokens : List Token) :
    Explains (analyzeTokens ⟨b, o⟩ tokens) (analyzeTokens ⟨b', o⟩ tokens) := by
  refine relates_explains.append (relates_explains.append (.refl _) ?lists) ?references
  case lists =>
    exact relates_explains.checkParamLists (explains_parameterReports h _)
      (explains_returnReports h) tokens
  case references =>
    dsimp only
    split
    · exact explains_checkReferences h tokens
    · exact .refl _

end Analyzer

/-! ## Merging more names -/

/-- Only the names in a list count, not how often or in which order they come. -/
theorem NameSet.insertAll_congr (s : NameSet) {xs ys : List String} (h : ∀ x, x ∈ xs ↔ x ∈ ys) :
    s.insertAll xs = s.insertAll ys :=
  NameSet.ext_mem fun x => by rw [mem_insertAll, mem_insertAll, h x]

/-- All names of some data. -/
def BuiltinsData.concat (ds : List BuiltinsData) : BuiltinsData :=
  ⟨ds.flatMap (·.functionNames), ds.flatMap (·.variableNames), ds.flatMap (·.typeNames)⟩

namespace Builtins

/-- The names of `b'` are those of `b` and those in the data, and no others. -/
structure Merged (b : Builtins) (ds : List BuiltinsData) (b' : Builtins) : Prop where
  functionNames : ∀ name, b'.isFunction name = true ↔
    b.isFunction name = true ∨ ∃ d ∈ ds, name ∈ d.functionNames
  variableNames : ∀ name, b'.isVariable name = true ↔
    b.isVariable name = true ∨ ∃ d ∈ ds, name ∈ d.variableNames
  typeNames : ∀ name, b'.isType name = true ↔
    b.isType name = true ∨ ∃ d ∈ ds, name ∈ d.typeNames

/-- What is merged holds what it was merged from. -/
theorem Merged.within {b b' : Builtins} {ds : List BuiltinsData} (h : b.Merged ds b') :
    b.Within b' where
  functionNames name hb := (h.functionNames name).2 (.inl hb)
  variableNames name hb := (h.variableNames name).2 (.inl hb)
  typeNames name hb := (h.typeNames name).2 (.inl hb)

/-- Merging data one after the other is merging all their names at once. -/
theorem foldl_extend (b : Builtins) (ds : List BuiltinsData) :
    ds.foldl extend b = b.extend (.concat ds) := by
  induction ds generalizing b with
  | nil => rfl
  | cons d ds ih =>
    rw [List.foldl_cons, ih]
    simp only [extend, BuiltinsData.concat, NameSet.insertAll, List.flatMap_cons, List.foldl_append]

/-- The merged names are those from the start and those in the data. -/
theorem merged_foldl_extend (b : Builtins) (ds : List BuiltinsData) :
    b.Merged ds (ds.foldl extend b) := by
  have hnames (s : NameSet) (names : BuiltinsData → List String) (name : String) :
      decide (name ∈ s.insertAll (ds.flatMap names)) = true ↔
        decide (name ∈ s) = true ∨ ∃ d ∈ ds, name ∈ names d := by
    rw [decide_eq_true_eq, decide_eq_true_eq, NameSet.mem_insertAll, List.mem_flatMap, or_comm]
  rw [foldl_extend]
  exact ⟨hnames _ (·.functionNames), hnames _ (·.variableNames), hnames _ (·.typeNames)⟩

/-- Data are merged to the same names whatever their order and repetition. -/
theorem foldl_extend_congr (b : Builtins) {ds ds' : List BuiltinsData}
    (h : ∀ d, d ∈ ds ↔ d ∈ ds') : ds.foldl extend b = ds'.foldl extend b := by
  have hnames (names : BuiltinsData → List String) (name : String) :
      name ∈ ds.flatMap names ↔ name ∈ ds'.flatMap names := by
    simp only [List.mem_flatMap, h]
  rw [foldl_extend, foldl_extend]
  simp only [extend, BuiltinsData.concat, NameSet.insertAll_congr _ (hnames _)]

end Builtins

/-- If every built-in name of `b` is one of `b'`, an analysis with `b'` reports no name and no type
as unknown that one with `b` does not, it reports all shadowed functions that one with `b` does, and
the other reports are the same. Merging any data in makes the names more, by those that are in the
data and no others, and how the data are ordered and repeated makes no difference. -/
theorem Analyzer.more_builtins_explain :
    (∀ b b' : Builtins, b.Within b' → ∀ (o : AnalysisOptions) (tokens : List Token),
      Explains (analyzeTokens ⟨b, o⟩ tokens) (analyzeTokens ⟨b', o⟩ tokens)) ∧
    ∀ (b : Builtins) (ds : List BuiltinsData), b.Within (ds.foldl Builtins.extend b) ∧
      b.Merged ds (ds.foldl Builtins.extend b) ∧
      ∀ ds' : List BuiltinsData, (∀ d, d ∈ ds ↔ d ∈ ds') →
        ds.foldl Builtins.extend b = ds'.foldl Builtins.extend b := by
  refine ⟨fun b b' h o tokens => explains_analyzeTokens h o tokens, fun b ds => ?_⟩
  have hmerged := b.merged_foldl_extend ds
  exact ⟨hmerged.within, hmerged, fun ds' h => b.foldl_extend_congr h⟩

end StackEditor
