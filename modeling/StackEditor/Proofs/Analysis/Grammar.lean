import StackEditor.Proofs.Analysis.Options
import StackEditor.Proofs.Analysis.Resolution

/-!
# The grammar of parameter lists

A parameter list is `(name type?)∗`, and behind that at most one arrow with types (`ListGrammar`).
The check walks over the tokens with one flag, and at the first arrow it changes over to another
rule; that it finds no error exactly in what the grammar derives is the one induction here
(`errorFree_checkParameters_iff`).

Each token has at most one report, so the reports on a list are told token by token
(`EachReports`). In a list without errors they are the warnings that the tokens deserve (`Warns`).
-/

namespace StackEditor

/-- A type symbol: a colon, a letter, and then letters, numbers, `_` and `-`. -/
structure Token.IsType (t : Token) : Prop where
  kind : t.kind = .symbol
  text : ∃ c cs, t.text.toList = ':' :: c :: cs ∧ Text.isAlphabetic c = true ∧
    ∀ d ∈ cs, Text.isAlphanumeric d = true ∨ d = '_' ∨ d = '-'

namespace Analysis

/-! ## The grammar -/

/-- Names, each with a type behind it or not. -/
inductive Parameters : List Token → Prop
  | nil : Parameters []
  | name {t : Token} {ts : List Token} (ht : t.kind = .reference) (hts : Parameters ts) :
      Parameters (t :: ts)
  | typed {t s : Token} {ts : List Token} (ht : t.kind = .reference) (hs : s.IsType)
      (hts : Parameters ts) : Parameters (t :: s :: ts)

/-- Parameters, and then an arrow with types behind it or not. -/
inductive ListGrammar : List Token → Prop
  | parameters {ts : List Token} (hts : Parameters ts) : ListGrammar ts
  | returns {ts rs : List Token} {a : Token} (hts : Parameters ts) (ha : a.kind = .arrow)
      (hrs : ∀ t ∈ rs, t.IsType) : ListGrammar (ts ++ a :: rs)

variable {tokens ts : List Token} {t : Token} {d : Definitions} {b : Builtins}
  {shadowed afterName : Bool} {l : ParamList}

/-- The first parameter is a name, alone or with a type behind it. -/
theorem parameters_cons_iff : Parameters (t :: ts) ↔ t.kind = .reference ∧
    (Parameters ts ∨ ∃ s rest, ts = s :: rest ∧ s.IsType ∧ Parameters rest) := by
  constructor
  · rintro (_ | ⟨ht, hts⟩ | ⟨ht, hs, hts⟩)
    · exact ⟨ht, .inl hts⟩
    · exact ⟨ht, .inr ⟨_, _, rfl, hs, hts⟩⟩
  · rintro ⟨ht, hts | ⟨s, rest, rfl, hs, hts⟩⟩
    · exact .name ht hts
    · exact .typed ht hs hts

/-- No parameter is an arrow. -/
theorem Parameters.kind_ne_arrow (h : Parameters ts) : ∀ t ∈ ts, t.kind ≠ .arrow := by
  induction h with
  | nil => nofun
  | name ht _ ih => exact List.forall_mem_cons.mpr ⟨by rw [ht]; nofun, ih⟩
  | typed ht hs _ ih =>
    exact List.forall_mem_cons.mpr ⟨by rw [ht]; nofun,
      List.forall_mem_cons.mpr ⟨by rw [hs.kind]; nofun, ih⟩⟩

/-! ## Lists without errors -/

/-- There is no error among the reports. -/
def ErrorFree (rs : List Diagnostic) : Prop := ∀ r ∈ rs, r.isError = false

/-- Where nothing is reported, there is no error. -/
theorem errorFree_nil : ErrorFree [] := nofun

/-- There is no error among two lists of reports if there is none in either. -/
theorem errorFree_append_iff {rs rs' : List Diagnostic} :
    ErrorFree (rs ++ rs') ↔ ErrorFree rs ∧ ErrorFree rs' := List.forall_mem_append

/-- The name of a type is a letter and then letters, digits, underscores and dashes. -/
theorem isTypeName_iff {cs : List Char} : isTypeName cs = true ↔ ∃ c rest, cs = c :: rest ∧
    Text.isAlphabetic c = true ∧ ∀ d ∈ rest, Text.isAlphanumeric d = true ∨ d = '_' ∨ d = '-' := by
  cases cs with
  | nil => simp [isTypeName]
  | cons c rest => simp [isTypeName, or_assoc]

/-- The name of a type is a type name only behind a colon. -/
theorem isType_iff (hkind : t.kind = .symbol) :
    t.IsType ↔ isTypeName (typeName t.text).toList = true := by
  rw [isTypeName_iff]
  constructor
  · rintro ⟨-, c, cs, htext, hc, hcs⟩
    refine ⟨c, cs, ?_, hc, hcs⟩
    simp [typeName, htext]
  · rintro ⟨c, cs, hname, hc, hcs⟩
    refine ⟨hkind, c, cs, ?_, hc, hcs⟩
    unfold typeName at hname
    split at hname
    · next htext => rw [htext, ← hname, String.toList_ofList]
    · simp at hname

/-- A type symbol that does not look like a type is an error. -/
theorem checkTypeSymbol_of_not_isType (hkind : t.kind = .symbol) (h : ¬ t.IsType) :
    checkTypeSymbol d b t = [.invalidSymbol t] := by
  rw [isType_iff hkind] at h
  simp [checkTypeSymbol, h]

/-- A type symbol that looks like a type is reported if nobody has defined the type. -/
theorem checkTypeSymbol_of_isType (h : t.IsType) : checkTypeSymbol d b t =
    if !b.isType (typeName t.text) && !d.dataDefBefore (typeName t.text) t.start then
      [.unknownType t (typeName t.text)]
    else [] := by
  rw [isType_iff h.kind] at h
  simp [checkTypeSymbol, h]

/-- The check of a type symbol finds no error exactly if the symbol looks like a type. -/
theorem errorFree_checkTypeSymbol_iff (hkind : t.kind = .symbol) :
    ErrorFree (checkTypeSymbol d b t) ↔ t.IsType := by
  by_cases h : t.IsType
  · refine iff_of_true ?_ h
    rw [checkTypeSymbol_of_isType h]
    split
    · exact List.forall_mem_singleton.mpr rfl
    · exact errorFree_nil
  · refine iff_of_false ?_ h
    rw [checkTypeSymbol_of_not_isType hkind h]
    exact fun herror => nomatch herror _ List.mem_cons_self

/-- Among parameters only names are in order, and types directly behind a name. -/
theorem errorFree_parameterReports_iff : ErrorFree (parameterReports d b shadowed afterName t) ↔
    t.kind = .reference ∨ afterName = true ∧ t.IsType := by
  unfold parameterReports
  split
  · next hkind =>
    refine iff_of_true ?_ (.inl hkind)
    split
    · exact List.forall_mem_singleton.mpr rfl
    · exact errorFree_nil
  · next hkind =>
    rw [or_iff_right (by rw [hkind]; nofun)]
    cases afterName with
    | false => exact iff_of_false (fun herror => nomatch herror _ List.mem_cons_self) nofun
    | true => exact (errorFree_checkTypeSymbol_iff hkind).trans (and_iff_right rfl).symm
  · next hreference hsymbol =>
    refine iff_of_false (fun herror => nomatch herror _ List.mem_cons_self) ?_
    rintro (hkind | ⟨-, htype⟩)
    · exact hreference hkind
    · exact hsymbol htype.kind

/-- Among the return types only types are in order. -/
theorem errorFree_returnReports_iff : ErrorFree (returnReports d b t) ↔ t.IsType := by
  unfold returnReports
  split
  · next hkind => exact errorFree_checkTypeSymbol_iff hkind
  · next hkind =>
    exact iff_of_false (fun herror => nomatch herror _ List.mem_cons_self) fun h => hkind h.kind

/-- The walk over the parameters finds no error exactly in parameters, where a type may come first
if a name stands directly before. -/
theorem errorFree_checkParameters_iff :
    ErrorFree (checkParameters d b shadowed afterName ts) ↔
      Parameters ts ∨ afterName = true ∧ ∃ s rest, ts = s :: rest ∧ s.IsType ∧ Parameters rest := by
  induction ts generalizing afterName with
  | nil => exact iff_of_true errorFree_nil (.inl .nil)
  | cons t ts ih =>
    rw [checkParameters_cons, errorFree_append_iff, errorFree_parameterReports_iff, ih,
      decide_eq_true_eq, parameters_cons_iff]
    constructor
    · rintro ⟨ht | ⟨hafter, ht⟩, hts⟩
      · exact .inl ⟨ht, hts.imp_right And.right⟩
      · rcases hts with hts | ⟨hkind, -⟩
        · exact .inr ⟨hafter, t, ts, rfl, ht, hts⟩
        · cases ht.kind.symm.trans hkind
    · rintro (⟨ht, hts⟩ | ⟨hafter, _, _, ⟨⟩, ht, hts⟩)
      · exact ⟨.inl ht, hts.imp_right (And.intro ht)⟩
      · exact ⟨.inr ⟨hafter, ht⟩, .inl hts⟩

/-- Return types are without error if each of them is a type. -/
theorem errorFree_checkReturns_iff :
    ErrorFree (checkReturns d b ts) ↔ ∀ t ∈ ts, t.IsType := by
  rw [checkReturns_eq_flatMap]
  induction ts with
  | nil => exact iff_of_true errorFree_nil nofun
  | cons t ts ih =>
    rw [List.flatMap_cons, errorFree_append_iff, errorFree_returnReports_iff, ih,
      List.forall_mem_cons]

/-- The tokens of a list are its parameters alone, or with an arrow and the returns behind them. -/
theorem inner_cases (tokens : List Token) (l : ParamList) :
    (l.inner tokens = l.parameters tokens ∧ l.returns tokens = []) ∨
      ∃ a, a.kind = .arrow ∧
        l.inner tokens = l.parameters tokens ++ a :: l.returns tokens := by
  have hsplit := List.takeWhile_append_dropWhile (p := (·.kind ≠ .arrow)) (l := l.inner tokens)
  unfold ParamList.parameters ParamList.returns
  cases hrest : (l.inner tokens).dropWhile (·.kind ≠ .arrow) with
  | nil =>
    rw [hrest, List.append_nil] at hsplit
    exact .inl ⟨hsplit.symm, rfl⟩
  | cons a rs =>
    have harrow := List.head?_dropWhile_not (·.kind ≠ .arrow) (l.inner tokens)
    rw [hrest] at hsplit harrow
    refine .inr ⟨a, by simpa using harrow, hsplit.symm⟩

/-- Where the check splits a list is where the grammar does. -/
theorem listGrammar_inner_iff : ListGrammar (l.inner tokens) ↔
    Parameters (l.parameters tokens) ∧ ∀ t ∈ l.returns tokens, t.IsType := by
  constructor
  · unfold ParamList.parameters ParamList.returns
    generalize l.inner tokens = inner
    intro h
    have hall {ts : List Token} (hts : Parameters ts) : ∀ t ∈ ts, decide (t.kind ≠ .arrow) = true :=
      fun t ht => decide_eq_true (hts.kind_ne_arrow t ht)
    cases h with
    | parameters hts =>
      rw [List.takeWhile_eq_self_iff.mpr (hall hts), List.dropWhile_eq_nil_iff.mpr (hall hts)]
      exact ⟨hts, nofun⟩
    | @returns ts rs a hts ha hrs =>
      rw [List.takeWhile_append_of_pos (hall hts), List.dropWhile_append_of_pos (hall hts),
        List.takeWhile_cons_of_neg (by simp [ha]), List.dropWhile_cons_of_neg (by simp [ha]),
        List.append_nil]
      exact ⟨hts, hrs⟩
  · rintro ⟨hparameters, hreturns⟩
    rcases inner_cases tokens l with ⟨hinner, -⟩ | ⟨a, ha, hinner⟩
    · exact hinner ▸ .parameters hparameters
    · exact hinner ▸ .returns hparameters ha hreturns

/-- The check of a parameter list finds no error exactly if the grammar derives what is in it. -/
theorem errorFree_checkParamList_iff : ErrorFree (checkParamList tokens d b shadowed l) ↔
    ListGrammar (l.inner tokens) := by
  rw [checkParamList, errorFree_append_iff, errorFree_checkParameters_iff,
    errorFree_checkReturns_iff, listGrammar_inner_iff, or_iff_left nofun]

/-! ## Reports token by token -/

/-- Each token has at most one report, and the reports come in the order of the tokens. What the
report on a token may be is told by `R`. -/
inductive EachReports (R : Token → Option Diagnostic → Prop) : List Token → List Diagnostic → Prop
  | nil : EachReports R [] []
  | cons {t : Token} {ts : List Token} {r? : Option Diagnostic} {rs : List Diagnostic}
      (hr : R t r?) (hrs : EachReports R ts rs) : EachReports R (t :: ts) (r?.toList ++ rs)

namespace EachReports

variable {R S : Token → Option Diagnostic → Prop} {rs : List Diagnostic}

/-- Reports on tokens, and reports on the tokens behind them. -/
theorem append (h : EachReports R ts rs) {ts' : List Token} {rs' : List Diagnostic}
    (h' : EachReports R ts' rs') : EachReports R (ts ++ ts') (rs ++ rs') := by
  induction h with
  | nil => exact h'
  | cons hr _ ih =>
    rw [List.append_assoc]
    exact .cons hr ih

/-- What is known of the reports together is known of each. -/
theorem mono (h : EachReports R ts rs)
    (himp : ∀ t r?, (∀ r ∈ r?, r ∈ rs) → R t r? → S t r?) : EachReports S ts rs := by
  induction h with
  | nil => exact .nil
  | @cons t ts r? rs hr hrs ih =>
    refine .cons (himp t r? (fun r hr => ?_) hr) (ih fun t' r?' hmem => himp t' r?' fun r hr => ?_)
    · exact List.mem_append_left _ (Option.mem_toList.mpr hr)
    · exact List.mem_append_right _ (hmem r hr)

end EachReports

/-- The warning that a token of a list without errors deserves: a name is that of a built-in
function, or a type is neither built in nor declared by a data definition before. -/
inductive Warns (tokens : List Token) (b : Builtins) (shadowed : Bool) (t : Token) :
    Diagnostic → Prop
  | shadowedBuiltin (kind : t.kind = .reference) (wanted : shadowed = true)
      (builtin : t.text ∈ b.functionNames) : Warns tokens b shadowed t (.shadowedBuiltin t)
  | unknownType {name : String} (kind : t.kind = .symbol) (text : t.text = ":" ++ name)
      (builtin : name ∉ b.typeNames)
      (data : ∀ k s, DeclaresAt tokens .data k name → tokens[k]? = some s → ¬ s.start < t.start) :
      Warns tokens b shadowed t (.unknownType t name)

/-- The report on a token is about its place, and if it is no error, it is the warning that the
token deserves. -/
def Fitting (tokens : List Token) (b : Builtins) (shadowed : Bool) (t : Token)
    (r? : Option Diagnostic) : Prop :=
  (∀ r ∈ r?, r.range = t.range) ∧
    ((∀ r ∈ r?, r.isError = false) → ∀ r, r? = some r ↔ Warns tokens b shadowed t r)

/-- An error on a token is the report that it may have. -/
theorem fitting_of_isError {r : Diagnostic} (hrange : r.range = t.range)
    (herror : r.isError = true) : Fitting tokens b shadowed t (some r) := by
  refine ⟨fun r' hr' => Option.some.inj hr' ▸ hrange, fun hfree => ?_⟩
  cases herror.symm.trans (hfree r rfl)

/-- The name of a type is its symbol without the colon. -/
theorem typeName_append (name : String) : typeName (":" ++ name) = name := by
  have hcolon : (":" ++ name).toList = ':' :: name.toList := String.toList_append
  simp [typeName, hcolon]

/-- The symbol of a type is a colon and the name. -/
theorem text_eq_of_isType (h : t.IsType) : t.text = ":" ++ typeName t.text := by
  obtain ⟨-, c, cs, htext, -⟩ := h
  refine String.toList_injective ?_
  rw [typeName, htext]
  simp

/-- A parameter is warned about if it shadows a built-in function, and that is asked for. -/
theorem warns_iff_of_reference (hkind : t.kind = .reference) {r : Diagnostic} :
    Warns tokens b shadowed t r ↔
      (shadowed && b.isFunction t.text) = true ∧ r = .shadowedBuiltin t := by
  rw [Bool.and_eq_true, Builtins.isFunction, decide_eq_true_eq]
  constructor
  · rintro (⟨-, hwanted, hbuiltin⟩ | ⟨hsymbol, -, -, -⟩)
    · exact ⟨⟨hwanted, hbuiltin⟩, rfl⟩
    · cases hkind.symm.trans hsymbol
  · rintro ⟨⟨hwanted, hbuiltin⟩, rfl⟩
    exact .shadowedBuiltin hkind hwanted hbuiltin

/-- A type is warned about if it is neither built in nor defined before. -/
theorem warns_iff_of_isType (h : t.IsType) {r : Diagnostic} :
    Warns tokens b shadowed t r ↔ (!b.isType (typeName t.text) &&
      !(Definitions.collect tokens).dataDefBefore (typeName t.text) t.start) = true ∧
        r = .unknownType t (typeName t.text) := by
  have hdata : (!(Definitions.collect tokens).dataDefBefore (typeName t.text) t.start) = true ↔
      ∀ k s, DeclaresAt tokens .data k (typeName t.text) → tokens[k]? = some s →
        ¬ s.start < t.start := by
    rw [Bool.not_eq_true', ← Bool.not_eq_true, dataDefBefore_iff]
    exact ⟨fun hno k s hk hs hbefore => hno ⟨k, s, hk, hs, hbefore⟩,
      fun hno ⟨k, s, hk, hs, hbefore⟩ => hno k s hk hs hbefore⟩
  rw [Bool.and_eq_true, hdata, Bool.not_eq_true', Builtins.isType, decide_eq_false_iff_not]
  constructor
  · rintro (⟨hreference, -, -⟩ | ⟨-, htext, hbuiltin, hdata⟩)
    · cases h.kind.symm.trans hreference
    · rw [htext, typeName_append]
      exact ⟨⟨hbuiltin, hdata⟩, rfl⟩
  · rintro ⟨⟨hbuiltin, hdata⟩, rfl⟩
    exact .unknownType h.kind (text_eq_of_isType h) hbuiltin hdata

/-- A token with at most one warning, which it deserves. -/
theorem exists_fitting_ite {c : Bool} {w : Diagnostic} (hrange : w.range = t.range)
    (hwarns : ∀ r, Warns tokens b shadowed t r ↔ c = true ∧ r = w) :
    ∃ r? : Option Diagnostic, (if c then [w] else []) = r?.toList ∧
      Fitting tokens b shadowed t r? := by
  cases c with
  | false => exact ⟨none, rfl, nofun, fun _ r => by simp [hwarns]⟩
  | true =>
    refine ⟨some w, rfl, fun r hr => Option.some.inj hr ▸ hrange, fun _ r => ?_⟩
    simp [hwarns, eq_comm]

/-- The check of a type symbol makes at most one report, and it fits the symbol. -/
theorem exists_fitting_checkTypeSymbol (hkind : t.kind = .symbol) :
    ∃ r? : Option Diagnostic, checkTypeSymbol (.collect tokens) b t = r?.toList ∧
      Fitting tokens b shadowed t r? := by
  by_cases h : t.IsType
  · rw [checkTypeSymbol_of_isType h]
    exact exists_fitting_ite rfl fun r => warns_iff_of_isType h
  · exact ⟨_, checkTypeSymbol_of_not_isType hkind h, fitting_of_isError rfl rfl⟩

/-- A token among the parameters has at most one report, and it fits the token. -/
theorem exists_fitting_parameterReports (tokens : List Token) (b : Builtins)
    (shadowed afterName : Bool) (t : Token) : ∃ r? : Option Diagnostic,
      parameterReports (.collect tokens) b shadowed afterName t = r?.toList ∧
      Fitting tokens b shadowed t r? := by
  unfold parameterReports
  split
  · next hkind => exact exists_fitting_ite rfl fun r => warns_iff_of_reference hkind
  · next hkind =>
    cases afterName with
    | false => exact ⟨some _, rfl, fitting_of_isError rfl rfl⟩
    | true => exact exists_fitting_checkTypeSymbol hkind
  · exact ⟨some _, rfl, fitting_of_isError rfl rfl⟩

/-- A token among the return types has at most one report, and it fits the token. -/
theorem exists_fitting_returnReports (tokens : List Token) (b : Builtins) (shadowed : Bool)
    (t : Token) : ∃ r? : Option Diagnostic, returnReports (.collect tokens) b t = r?.toList ∧
      Fitting tokens b shadowed t r? := by
  unfold returnReports
  split
  · next hkind => exact exists_fitting_checkTypeSymbol hkind
  · exact ⟨some _, rfl, fitting_of_isError rfl rfl⟩

/-- An arrow has no report, and deserves none. -/
theorem fitting_arrow (hkind : t.kind = .arrow) : Fitting tokens b shadowed t none := by
  refine ⟨nofun, fun _ r => iff_of_false nofun ?_⟩
  rintro (⟨hreference, -, -⟩ | ⟨hsymbol, -, -, -⟩)
  · cases hkind.symm.trans hreference
  · cases hkind.symm.trans hsymbol

/-- The reports on parameters are those on the tokens, one after the other. -/
theorem eachReports_checkParameters (tokens : List Token) (b : Builtins)
    (shadowed afterName : Bool) (ts : List Token) : EachReports (Fitting tokens b shadowed) ts
      (checkParameters (.collect tokens) b shadowed afterName ts) := by
  induction ts generalizing afterName with
  | nil => exact .nil
  | cons t ts ih =>
    obtain ⟨r?, hr, hfitting⟩ := exists_fitting_parameterReports tokens b shadowed afterName t
    rw [checkParameters_cons, hr]
    exact .cons hfitting (ih _)

/-- The reports on return types are those on the tokens, one after the other. -/
theorem eachReports_checkReturns (tokens : List Token) (b : Builtins) (shadowed : Bool)
    (ts : List Token) :
    EachReports (Fitting tokens b shadowed) ts (checkReturns (.collect tokens) b ts) := by
  rw [checkReturns_eq_flatMap]
  induction ts with
  | nil => exact .nil
  | cons t ts ih =>
    obtain ⟨r?, hr, hfitting⟩ := exists_fitting_returnReports tokens b shadowed t
    rw [List.flatMap_cons, hr]
    exact .cons hfitting ih

/-- The reports on a list are those on the tokens in it, one after the other; the arrow has none. -/
theorem eachReports_checkParamList (tokens : List Token) (b : Builtins) (shadowed : Bool)
    (l : ParamList) : EachReports (Fitting tokens b shadowed) (l.inner tokens)
      (checkParamList tokens (.collect tokens) b shadowed l) := by
  have hparameters := eachReports_checkParameters tokens b shadowed false (l.parameters tokens)
  have hreturns := eachReports_checkReturns tokens b shadowed (l.returns tokens)
  rcases inner_cases tokens l with ⟨hinner, hnone⟩ | ⟨a, ha, hinner⟩
  · have hall := hparameters.append hreturns
    rw [hnone, List.append_nil, ← hnone] at hall
    exact hinner ▸ hall
  · rw [hinner]
    exact hparameters.append (.cons (fitting_arrow ha) hreturns)

/-! ## The check -/

/-- All reports on parameter lists are those on the lists that are found, one after the other. There
is no error among the reports on a list exactly if the grammar derives it. Each token of it has at
most one report; and if there is no error, each has the warning that it deserves and nothing else.
-/
theorem checkParamLists_grammar (tokens : List Token) (b : Builtins) (shadowed : Bool) :
    checkParamLists tokens (.collect tokens) b shadowed =
        (paramLists tokens).flatMap (checkParamList tokens (.collect tokens) b shadowed) ∧
      ∀ l ∈ paramLists tokens,
        (ErrorFree (checkParamList tokens (.collect tokens) b shadowed l) ↔
          ListGrammar (l.inner tokens)) ∧
        EachReports (fun t r? => ∀ r ∈ r?, r.range = t.range) (l.inner tokens)
          (checkParamList tokens (.collect tokens) b shadowed l) ∧
        (ErrorFree (checkParamList tokens (.collect tokens) b shadowed l) →
          EachReports (fun t r? => ∀ r, r? = some r ↔ Warns tokens b shadowed t r) (l.inner tokens)
            (checkParamList tokens (.collect tokens) b shadowed l)) := by
  refine ⟨rfl, fun l _ => ⟨errorFree_checkParamList_iff, ?_, fun hfree => ?_⟩⟩
  · exact (eachReports_checkParamList tokens b shadowed l).mono fun t r? _ h => h.1
  · exact (eachReports_checkParamList tokens b shadowed l).mono fun t r? hmem h =>
      h.2 fun r hr => hfree r (hmem r hr)

end Analysis

end StackEditor
