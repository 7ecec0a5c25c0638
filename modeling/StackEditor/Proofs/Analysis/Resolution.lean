import StackEditor.Analysis.References
import StackEditor.Proofs.Analysis.Bodies
import StackEditor.Proofs.Analysis.ParamLists
import StackEditor.Proofs.Lexeme.Words

/-!
# What an unresolved reference is

The rules of scope, said of the tokens alone: what a keyword declares (`DeclaresAt`), which names a
data definition brings forth (`BringsForth`), and where functions and lambdas have their bodies and
their parameters (`HasBody`). A name that none of them accounts for is `Unaccounted`. The check
works with sets of names and with ranges of places that it has gathered beforehand; what it reports
is exactly the names that are unaccounted for, one after the other (`checkReferences_exact`).
-/

namespace StackEditor

/-! ## The rules -/

/-- The keyword with the index `k` declares the name `x`, which stands behind it. -/
def DeclaresAt (tokens : List Token) (what : Declares) (k : Nat) (x : String) : Prop :=
  ∃ t name, tokens[k]? = some t ∧ t.declares? = some what ∧
    tokens[k + 1]? = some name ∧ name.kind = .reference ∧ name.text = x

/-- The data definition whose keyword has the index `k` brings forth the name `x`: its constructor,
its predicate, or one of three names for a field. Its fields are the parameters of a list that
directly follows its name. -/
def BringsForth (tokens : List Token) (k : Nat) (x : String) : Prop :=
  ∃ name, DeclaresAt tokens .data k name ∧
    (x = Text.lowercase name ++ "-new" ∨ x = Text.lowercase name ++ "?" ∨
      ∃ field, StartsList tokens (k + 2) ∧ HasParameter tokens (k + 2) field ∧
        (x = Text.lowercase name ++ "-" ++ field ∨
          x = Text.lowercase name ++ "-" ++ field ++ "-set" ∨
          x = Text.lowercase name ++ "-" ++ field ++ "-do"))

/-- The tokens define the name `x` for the whole source: as a function, as a variable by an
assignment, or as one of the names of a data definition. -/
def Defines (tokens : List Token) (x : String) : Prop :=
  (∃ k, DeclaresAt tokens .function k x) ∨
    (∃ s ∈ tokens, s.kind = .assignment ∧ s.text = x ++ "!") ∨ ∃ k, BringsForth tokens k x

/-- The token with the index `b` starts an executable array. -/
def OpensBrace (tokens : List Token) (b : Nat) : Prop :=
  ∃ t, tokens[b]? = some t ∧ t.kind = .opening .brace

/-- The executable array that starts at the index `body` is the body of a function, or else of a
lambda, with the parameter list that starts at the index `list?`. -/
inductive HasBody (tokens : List Token) : (isFunction : Bool) → (list? : Option Nat) →
    (body : Nat) → Prop
  /-- A function with its body directly behind its name. -/
  | plain {k : Nat} {x : String} (declares : DeclaresAt tokens .function k x)
      (brace : OpensBrace tokens (k + 2)) : HasBody tokens true none (k + 2)
  /-- A function with a closed parameter list behind its name, and its body behind that. -/
  | function {k c : Nat} {x : String} (declares : DeclaresAt tokens .function k x)
      (starts : StartsList tokens (k + 2)) (closes : ClosesAt tokens (k + 2) c)
      (brace : OpensBrace tokens (c + 1)) : HasBody tokens true (some (k + 2)) (c + 1)
  /-- Any other closed parameter list with a body behind it, if no declaration owns the list. -/
  | lambda {o c : Nat} (starts : StartsList tokens o)
      (free : ∀ what k x, DeclaresAt tokens what k x → o ≠ k + 2) (closes : ClosesAt tokens o c)
      (brace : OpensBrace tokens (c + 1)) : HasBody tokens false (some o) (c + 1)

/-- A function or a lambda binds the name `x` for the token with the index `i`, which lies in its
body: as a parameter, or as the name by which a function calls itself. -/
def Binds (tokens : List Token) (i : Nat) (x : String) : Prop :=
  ∃ isFunction list? body, HasBody tokens isFunction list? body ∧ InGroup .brace tokens body i ∧
    ((isFunction = true ∧ x = recursionName) ∨ ∃ o, list? = some o ∧ HasParameter tokens o x)

/-- The token `t` with the index `i` is a name that is looked up, and nothing accounts for it. -/
structure Unaccounted (builtins : Builtins) (tokens : List Token) (i : Nat) (t : Token) : Prop where
  token : tokens[i]? = some t
  reference : t.kind = .reference
  noParameter : ∀ o, ¬ InParens tokens o i
  notDeclared : ∀ k s, k + 1 = i → tokens[k]? = some s → s.declares? = none
  noBuiltin : t.text ∉ builtins.functionNames ∧ t.text ∉ builtins.variableNames
  undefined : ¬ Defines tokens t.text
  unbound : ¬ Binds tokens i t.text

variable {tokens ts : List Token} {t : Token} {i k : Nat} {x : String} {l : ParamList}

/-! ## Declarations -/

/-- The tokens make the declaration. -/
structure Declaration.Stands (tokens : List Token) (e : Declaration) : Prop where
  keyword : tokens[e.index]? = some e.keyword
  declares : e.keyword.declares? = some e.declares
  name : tokens[e.index + 1]? = some e.name
  reference : e.name.kind = .reference

/-- The walk finds the declarations that stand at or behind the place where it starts. -/
theorem mem_declarationsFrom_iff {e : Declaration} (hts : tokens.drop i = ts) :
    e ∈ declarationsFrom i ts ↔ i ≤ e.index ∧ e.Stands tokens := by
  fun_induction declarationsFrom i ts with
  | case1 i =>
    refine iff_of_false nofun fun ⟨hle, hstands⟩ => ?_
    have := (List.getElem?_eq_some_iff.1 hstands.keyword).1
    have := List.drop_eq_nil_iff.1 hts
    omega
  | case2 i keyword d name ts hd hkind ih =>
    obtain ⟨hkeyword, hts⟩ := getElem?_of_drop_eq_cons hts
    obtain ⟨hname, -⟩ := getElem?_of_drop_eq_cons hts
    rw [List.mem_cons, ih hts]
    constructor
    · rintro (rfl | ⟨hle, hstands⟩)
      · exact ⟨Nat.le_refl i, hkeyword, hd, hname, hkind⟩
      · exact ⟨Nat.le_of_succ_le hle, hstands⟩
    · rintro ⟨hle, hstands⟩
      rcases Nat.eq_or_lt_of_le hle with heq | hlt
      · left
        obtain ⟨d', i', keyword', name'⟩ := e
        obtain rfl : i = i' := heq
        obtain rfl := Option.some.inj (hkeyword.symm.trans hstands.keyword)
        obtain rfl := Option.some.inj (hd.symm.trans hstands.declares)
        obtain rfl := Option.some.inj (hname.symm.trans hstands.name)
        rfl
      · exact .inr ⟨hlt, hstands⟩
  | case3 i keyword d name ts hd hkind ih =>
    obtain ⟨hkeyword, hts⟩ := getElem?_of_drop_eq_cons hts
    obtain ⟨hname, -⟩ := getElem?_of_drop_eq_cons hts
    rw [ih hts]
    refine and_congr_left fun hstands => ⟨Nat.le_of_succ_le, fun hle => ?_⟩
    refine Nat.lt_of_le_of_ne hle fun heq => hkind ?_
    obtain rfl := Option.some.inj (hname.symm.trans (heq ▸ hstands.name))
    exact hstands.reference
  | case4 i keyword ts hnone ih =>
    obtain ⟨hkeyword, hrest⟩ := getElem?_of_drop_eq_cons hts
    rw [ih hrest]
    refine and_congr_left fun hstands => ⟨Nat.le_of_succ_le, fun hle => ?_⟩
    refine Nat.lt_of_le_of_ne hle fun heq => ?_
    obtain rfl := Option.some.inj (hkeyword.symm.trans (heq ▸ hstands.keyword))
    have hname := hstands.name
    rw [← heq, ← List.head?_drop, hrest] at hname
    obtain ⟨rest, rfl⟩ := List.head?_eq_some_iff.1 hname
    exact hnone _ _ _ hstands.declares rfl

/-- The declarations that are found are those that the tokens make. -/
theorem mem_declarations_iff {e : Declaration} : e ∈ declarations tokens ↔ e.Stands tokens := by
  have h : e ∈ declarationsFrom 0 tokens ↔ 0 ≤ e.index ∧ e.Stands tokens :=
    mem_declarationsFrom_iff List.drop_zero
  exact h.trans (and_iff_right (Nat.zero_le _))

/-- What a token declares, by the list of declarations. -/
theorem declaresAt_iff {what : Declares} : DeclaresAt tokens what k x ↔
    ∃ e ∈ declarations tokens, e.declares = what ∧ e.index = k ∧ e.name.text = x := by
  simp only [mem_declarations_iff]
  constructor
  · rintro ⟨t, name, ht, hdeclares, hname, hkind, rfl⟩
    exact ⟨⟨what, k, t, name⟩, ⟨ht, hdeclares, hname, hkind⟩, rfl, rfl, rfl⟩
  · rintro ⟨e, hstands, rfl, rfl, rfl⟩
    exact ⟨e.keyword, e.name, hstands.keyword, hstands.declares, hstands.name, hstands.reference,
      rfl⟩

/-- A name is one that a declaration declares exactly if a declaring keyword stands before it. -/
theorem isDeclarationName_iff (ht : tokens[i]? = some t) (hkind : t.kind = .reference) :
    (Definitions.collect tokens).isDeclarationName i = true ↔
      ∃ k s, k + 1 = i ∧ tokens[k]? = some s ∧ s.declares? ≠ none := by
  unfold Definitions.isDeclarationName
  rw [decide_eq_true_eq]
  simp only [Definitions.collect, List.mem_map, mem_declarations_iff]
  constructor
  · rintro ⟨e, hstands, rfl⟩
    exact ⟨e.index, e.keyword, rfl, hstands.keyword, by rw [hstands.declares]; nofun⟩
  · rintro ⟨k, s, rfl, hs, hsome⟩
    obtain ⟨what, hwhat⟩ := Option.ne_none_iff_exists'.1 hsome
    exact ⟨⟨what, k, s, t⟩, ⟨hs, hwhat, ht, hkind⟩, rfl⟩

/-! ## The lists of declarations -/

/-- The list that a declaration owns starts directly behind its name. -/
theorem paramList?_eq_some {e : Declaration} (h : e.paramList? (paramLists tokens) = some l) :
    l.Spans tokens ∧ l.opening = e.index + 2 ∧ StartsList tokens (e.index + 2) := by
  unfold Declaration.paramList? at h
  have hmem := List.mem_of_find?_eq_some h
  have hopening := List.find?_some h
  rw [decide_eq_true_eq] at hopening
  exact ⟨spans_of_mem_paramLists hmem, hopening, exists_opening_eq_iff.1 ⟨l, hmem, hopening⟩⟩

/-- A declaration with an opening parenthesis behind its name has a parameter list. -/
theorem exists_paramList? {e : Declaration} (h : StartsList tokens (e.index + 2)) :
    ∃ l, e.paramList? (paramLists tokens) = some l := by
  obtain ⟨l, hl, hopening⟩ := exists_opening_eq_iff.2 h
  exact Option.isSome_iff_exists.1 (List.find?_isSome.2 ⟨l, hl, decide_eq_true hopening⟩)

/-- The names among the parameters of the list that a declaration owns. -/
theorem mem_ownParameters_iff {e : Declaration} :
    x ∈ ((e.paramList? (paramLists tokens)).map (·.parameterNames tokens)).getD [] ↔
      StartsList tokens (e.index + 2) ∧ HasParameter tokens (e.index + 2) x := by
  cases hl : e.paramList? (paramLists tokens) with
  | none =>
    refine iff_of_false List.not_mem_nil fun h => ?_
    obtain ⟨l, hl'⟩ := exists_paramList? h.1
    cases hl.symm.trans hl'
  | some l =>
    obtain ⟨hspans, hopening, hstarts⟩ := paramList?_eq_some hl
    rw [Option.map_some, Option.getD_some, hspans.mem_parameterNames_iff, hopening]
    exact (and_iff_right hstarts).symm

/-! ## Sets of names -/

/-- The names of functions are those that some token declares as a function. -/
theorem mem_functionNames_iff :
    x ∈ (Definitions.collect tokens).functionNames ↔ ∃ k, DeclaresAt tokens .function k x := by
  simp only [Definitions.collect, NameSet.mem_ofList, List.mem_map, List.mem_filter,
    decide_eq_true_eq, declaresAt_iff]
  constructor
  · rintro ⟨e, ⟨he, hfunction⟩, hname⟩
    exact ⟨e.index, e, he, hfunction, rfl, hname⟩
  · rintro ⟨_, e, he, hfunction, -, hname⟩
    exact ⟨e, ⟨he, hfunction⟩, hname⟩

/-- The names of variables are those in front of the mark of an assignment. -/
theorem mem_variableNames_iff : x ∈ (Definitions.collect tokens).variableNames ↔
    ∃ s ∈ tokens, s.kind = .assignment ∧ s.text = x ++ "!" := by
  simp only [Definitions.collect, NameSet.mem_ofList, List.mem_filterMap, assignedName?_eq_some_iff]

/-- A declaration of data brings forth a constructor, a test, and three names a field. -/
theorem DataDef.mem_generatedNames_iff {d : DataDef} :
    x ∈ d.generatedNames ↔ x = d.stem ++ "-new" ∨ x = d.stem ++ "?" ∨
      ∃ f ∈ d.fields, x = d.stem ++ "-" ++ f ∨ x = d.stem ++ "-" ++ f ++ "-set" ∨
        x = d.stem ++ "-" ++ f ++ "-do" := by
  simp [generatedNames]

/-- A declaration of data is read with the parameters of its list, and with none when it has no
list. -/
theorem dataDef?_eq_some_iff {e : Declaration} {lists : List ParamList} {d : DataDef} :
    e.dataDef? tokens lists = some d ↔ e.declares = .data ∧
      d = ⟨e.name.text, e.keyword.start,
        ((e.paramList? lists).map (·.parameterNames tokens)).getD []⟩ := by
  unfold Declaration.dataDef?
  cases e.declares with
  | function => exact iff_of_false nofun nofun
  | data => rw [Option.some.injEq, and_iff_right rfl, eq_comm]

/-- The collected names say exactly which names a declaration of data brings forth. -/
theorem isGenerated_iff :
    (Definitions.collect tokens).isGenerated x = true ↔ ∃ k, BringsForth tokens k x := by
  unfold Definitions.isGenerated BringsForth
  rw [decide_eq_true_eq]
  simp only [Definitions.collect, NameSet.mem_ofList, List.mem_flatMap, List.mem_filterMap,
    dataDef?_eq_some_iff, declaresAt_iff]
  constructor
  · rintro ⟨_, ⟨e, he, hdata, rfl⟩, hx⟩
    refine ⟨e.index, e.name.text, ⟨e, he, hdata, rfl, rfl⟩, ?_⟩
    rw [DataDef.mem_generatedNames_iff] at hx
    simp only [mem_ownParameters_iff, and_assoc] at hx
    exact hx
  · rintro ⟨_, _, ⟨e, he, hdata, rfl, rfl⟩, hx⟩
    refine ⟨_, ⟨e, he, hdata, rfl⟩, ?_⟩
    rw [DataDef.mem_generatedNames_iff]
    simp only [mem_ownParameters_iff, and_assoc]
    exact hx

/-- A data definition counts as one before a place if its keyword starts before it. -/
theorem dataDefBefore_iff {x : String} {p : Position} :
    (Definitions.collect tokens).dataDefBefore x p = true ↔
      ∃ k s, DeclaresAt tokens .data k x ∧ tokens[k]? = some s ∧ s.start < p := by
  simp only [Definitions.dataDefBefore, Definitions.collect, List.any_eq_true, List.mem_filterMap,
    dataDef?_eq_some_iff, Bool.and_eq_true, decide_eq_true_eq, declaresAt_iff, mem_declarations_iff]
  constructor
  · rintro ⟨_, ⟨e, he, hdata, rfl⟩, rfl, hbefore⟩
    exact ⟨e.index, e.keyword, ⟨e, he, hdata, rfl, rfl⟩, he.keyword, hbefore⟩
  · rintro ⟨_, s, ⟨e, he, hdata, rfl, rfl⟩, hs, hbefore⟩
    obtain rfl := Option.some.inj (hs.symm.trans he.keyword)
    exact ⟨_, ⟨e, he, hdata, rfl⟩, rfl, hbefore⟩

/-- The definitions have the name `x`, wherever it is used. -/
def Definitions.defines (d : Definitions) (x : String) : Bool :=
  decide (x ∈ d.functionNames) || decide (x ∈ d.variableNames) || d.isGenerated x

/-- The collected names say exactly which names the tokens define. -/
theorem defines_iff : (Definitions.collect tokens).defines x = true ↔ Defines tokens x := by
  unfold Definitions.defines Defines
  simp only [Bool.or_eq_true, decide_eq_true_eq, mem_functionNames_iff, mem_variableNames_iff,
    isGenerated_iff, or_assoc]

/-! ## Functions and lambdas -/

/-- A body starts at a place when a brace opens there. -/
theorem exists_bodyRange?_iff {b : Nat} :
    (∃ r, bodyRange? tokens b = some r) ↔ OpensBrace tokens b := by
  simp only [bodyRange?_eq_some_iff]
  constructor
  · rintro ⟨_, t, ht, hkind, rfl⟩
    exact ⟨t, ht, hkind⟩
  · rintro ⟨t, ht, hkind⟩
    exact ⟨_, t, ht, hkind, rfl⟩

/-- The callable has the body that starts at the index `body`, and the parameters of the list that
starts at the index `list?`. -/
structure Callable.Stands (tokens : List Token) (c : Callable) (list? : Option Nat) (body : Nat) :
    Prop where
  hasBody : HasBody tokens c.isFunction list? body
  range : bodyRange? tokens body = some c.body
  mem_params_iff : ∀ x, x ∈ c.params ↔ ∃ o, list? = some o ∧ HasParameter tokens o x

/-- A callable with a list has the parameters of the list. -/
theorem ParamList.Spans.stands {name : Option String} {b : Nat} {r : Range} (hl : l.Spans tokens)
    (hbody : HasBody tokens name.isSome (some l.opening) b) (hr : bodyRange? tokens b = some r) :
    Callable.Stands tokens ⟨name, l.parameterNames tokens, r⟩ (some l.opening) b := by
  refine ⟨hbody, hr, fun x => hl.mem_parameterNames_iff.trans ?_⟩
  simp only [Option.some.injEq, exists_eq_left']

/-- A function is read with its list when that is closed, with no parameters when it has none, and
with a brace behind either. -/
theorem callable?_eq_some_iff {e : Declaration} {lists : List ParamList} {c : Callable} :
    e.callable? tokens lists = some c ↔ e.declares = .function ∧
      ((e.paramList? lists = none ∧
        ∃ r, bodyRange? tokens (e.index + 2) = some r ∧ ⟨some e.name.text, [], r⟩ = c) ∨
      ∃ l, e.paramList? lists = some l ∧ ∃ n, l.closing = some n ∧
        ∃ r, bodyRange? tokens (n + 1) = some r ∧
          ⟨some e.name.text, l.parameterNames tokens, r⟩ = c) := by
  unfold Declaration.callable?
  cases e.declares with
  | data => exact iff_of_false nofun nofun
  | function => cases e.paramList? lists <;> simp [Option.bind_eq_some_iff]

/-- A lambda is a closed list with a brace directly behind it. -/
theorem lambda?_eq_some_iff {c : Callable} :
    l.lambda? tokens = some c ↔ ∃ n, l.closing = some n ∧
      ∃ r, bodyRange? tokens (n + 1) = some r ∧ ⟨none, l.parameterNames tokens, r⟩ = c := by
  simp [ParamList.lambda?, Option.bind_eq_some_iff]

/-- No declaration owns the list. -/
theorem opening_not_mem_iff : l.opening ∉ (declarations tokens).map (·.index + 2) ↔
    ∀ what k x, DeclaresAt tokens what k x → l.opening ≠ k + 2 := by
  simp only [List.mem_map, declaresAt_iff]
  constructor
  · rintro h _ _ _ ⟨e, he, rfl, rfl, rfl⟩ heq
    exact h ⟨e, he, heq.symm⟩
  · rintro h ⟨e, he, heq⟩
    exact h _ _ _ ⟨e, he, rfl, rfl, rfl⟩ heq.symm

/-- What a declaration brings into scope is a function, with its body behind its name or behind the
list there. -/
theorem Declaration.exists_stands {e : Declaration} {c : Callable} (he : e ∈ declarations tokens)
    (hc : e.callable? tokens (paramLists tokens) = some c) : ∃ list? body,
      c.Stands tokens list? body ∧ c.isFunction = true ∧
        ((list? = none ∧ body = e.index + 2) ∨ list? = some (e.index + 2)) := by
  obtain ⟨hfunction, hc⟩ := callable?_eq_some_iff.1 hc
  have hdeclares : DeclaresAt tokens .function e.index e.name.text :=
    declaresAt_iff.2 ⟨e, he, hfunction, rfl, rfl⟩
  rcases hc with ⟨-, r, hr, rfl⟩ | ⟨l, hl, n, hn, r, hr, rfl⟩
  · refine ⟨none, e.index + 2, ⟨?_, hr, fun x => iff_of_false List.not_mem_nil nofun⟩, rfl,
      .inl ⟨rfl, rfl⟩⟩
    exact .plain hdeclares (exists_bodyRange?_iff.1 ⟨r, hr⟩)
  · obtain ⟨hspans, hopening, hstarts⟩ := paramList?_eq_some hl
    refine ⟨_, n + 1, hspans.stands ?_ hr, rfl, .inr (congrArg some hopening)⟩
    rw [hspans.closing_eq_some_iff] at hn
    rw [hopening] at hn ⊢
    exact .function hdeclares hstarts hn (exists_bodyRange?_iff.1 ⟨r, hr⟩)

/-- A list that nobody owns is the list of a lambda, if a body follows. -/
theorem ParamList.exists_stands {c : Callable} (hl : l ∈ paramLists tokens)
    (hfree : ∀ what k x, DeclaresAt tokens what k x → l.opening ≠ k + 2)
    (hc : l.lambda? tokens = some c) :
    ∃ body, c.Stands tokens (some l.opening) body ∧ c.isFunction = false := by
  obtain ⟨n, hn, r, hr, rfl⟩ := lambda?_eq_some_iff.1 hc
  have hspans := spans_of_mem_paramLists hl
  refine ⟨n + 1, hspans.stands ?_ hr, rfl⟩
  exact .lambda (exists_opening_eq_iff.1 ⟨l, hl, rfl⟩) hfree (hspans.closing_eq_some_iff.1 hn)
    (exists_bodyRange?_iff.1 ⟨r, hr⟩)

/-- Every callable that is found is a function or a lambda of the tokens. -/
theorem exists_stands_of_mem {c : Callable} (hc : c ∈ (Definitions.collect tokens).callables) :
    ∃ list? body, c.Stands tokens list? body := by
  simp only [Definitions.collect, List.mem_append, List.mem_filterMap, List.mem_filter,
    decide_eq_true_eq, opening_not_mem_iff] at hc
  rcases hc with ⟨e, he, hc⟩ | ⟨l, ⟨hl, hfree⟩, hc⟩
  · obtain ⟨list?, body, hstands, -⟩ := e.exists_stands he hc
    exact ⟨list?, body, hstands⟩
  · obtain ⟨body, hstands, -⟩ := l.exists_stands hl hfree hc
    exact ⟨_, body, hstands⟩

/-- Every function and every lambda of the tokens is found. -/
theorem exists_callable_of_hasBody {f : Bool} {list? : Option Nat} {b : Nat}
    (h : HasBody tokens f list? b) :
    ∃ c ∈ (Definitions.collect tokens).callables, c.isFunction = f ∧ c.Stands tokens list? b := by
  have hbody := h
  simp only [Definitions.collect, List.mem_append, List.mem_filterMap, List.mem_filter,
    decide_eq_true_eq, callable?_eq_some_iff, lambda?_eq_some_iff, opening_not_mem_iff]
  cases h with
  | plain hdeclares hbrace =>
    obtain ⟨e, he, hfunction, rfl, rfl⟩ := declaresAt_iff.1 hdeclares
    obtain ⟨r, hr⟩ := exists_bodyRange?_iff.2 hbrace
    have hnone : e.paramList? (paramLists tokens) = none := by
      refine Option.eq_none_iff_forall_ne_some.2 fun l hl => ?_
      obtain ⟨-, -, hstarts⟩ := paramList?_eq_some hl
      obtain ⟨t, ht, hkind⟩ := hbrace
      exact hstarts.1.noBrace _ t (Nat.le_refl _) (Nat.le_refl _) ht (.inl hkind)
    exact ⟨_, .inl ⟨e, he, hfunction, .inl ⟨hnone, r, hr, rfl⟩⟩, rfl, hbody, hr,
      fun x => iff_of_false List.not_mem_nil nofun⟩
  | function hdeclares hstarts hcloses hbrace =>
    obtain ⟨e, he, hfunction, rfl, rfl⟩ := declaresAt_iff.1 hdeclares
    obtain ⟨r, hr⟩ := exists_bodyRange?_iff.2 hbrace
    obtain ⟨l, hl⟩ := exists_paramList? hstarts
    obtain ⟨hspans, hopening, -⟩ := paramList?_eq_some hl
    rw [← hopening] at hbody hcloses ⊢
    exact ⟨_, .inl ⟨e, he, hfunction, .inr ⟨l, hl, _, hspans.closing_eq_some_iff.2 hcloses, r, hr,
      rfl⟩⟩, rfl, hspans.stands hbody hr⟩
  | lambda hstarts hfree hcloses hbrace =>
    obtain ⟨r, hr⟩ := exists_bodyRange?_iff.2 hbrace
    obtain ⟨l, hl, rfl⟩ := exists_opening_eq_iff.2 hstarts
    have hspans := spans_of_mem_paramLists hl
    exact ⟨_, .inr ⟨l, ⟨hl, hfree⟩, _, hspans.closing_eq_some_iff.2 hcloses, r, hr, rfl⟩, rfl,
      hspans.stands hbody hr⟩

/-- A callable binds its parameters, and a function the name it calls itself by. -/
theorem bindsName_iff {c : Callable} : Analysis.bindsName x c = true ↔
    (c.isFunction = true ∧ x = recursionName) ∨ x ∈ c.params := by
  simp [Analysis.bindsName, and_comm]

/-- The callables around a token account for the names that are bound there. -/
theorem any_bindsName_iff (horder : InOrder tokens) (hhold : BodiesHold tokens)
    (ht : tokens[i]? = some t) :
    ((Definitions.collect tokens).enclosing t.start).any (Analysis.bindsName x) = true ↔
      Binds tokens i x := by
  simp only [Definitions.enclosing, List.any_eq_true, List.mem_filter, bindsName_iff]
  constructor
  · rintro ⟨c, ⟨hc, hcontains⟩, hbinds⟩
    obtain ⟨list?, body, hstands⟩ := exists_stands_of_mem hc
    rw [contains_start_iff horder hhold hstands.range ht] at hcontains
    rw [hstands.mem_params_iff] at hbinds
    exact ⟨_, list?, body, hstands.hasBody, hcontains, hbinds⟩
  · rintro ⟨_, list?, body, hbody, hgroup, hbinds⟩
    obtain ⟨c, hc, rfl, hstands⟩ := exists_callable_of_hasBody hbody
    refine ⟨c, ⟨hc, (contains_start_iff horder hhold hstands.range ht).2 hgroup⟩, ?_⟩
    rw [hstands.mem_params_iff]
    exact hbinds

/-! ## Unresolved references -/

/-- A token is in a parameter list when it is in some parentheses. -/
theorem inParamList_iff :
    (Definitions.collect tokens).inParamList i = true ↔ ∃ o, InParens tokens o i := by
  rw [← exists_holdsIndex_iff]
  exact List.any_eq_true

/-- A token is looked up if it is a name that is no parameter and that no declaration declares. -/
theorem isLookedUp_iff (ht : tokens[i]? = some t) :
    Analysis.isLookedUp (Definitions.collect tokens) t i = true ↔
      t.kind = .reference ∧ (∀ o, ¬ InParens tokens o i) ∧
        ∀ k s, k + 1 = i → tokens[k]? = some s → s.declares? = none := by
  unfold Analysis.isLookedUp
  simp only [Bool.and_eq_true, decide_eq_true_eq, Bool.not_eq_true', Bool.eq_false_iff, ne_eq,
    inParamList_iff, not_exists, and_assoc]
  refine and_congr_right fun hkind => and_congr_right fun _ => ?_
  rw [isDeclarationName_iff ht hkind]
  constructor
  · rintro h k s hk hs
    exact Option.eq_none_iff_forall_ne_some.2 fun d hd =>
      h ⟨k, s, hk, hs, by rw [hd]; nofun⟩
  · rintro h ⟨k, s, hk, hs, hdeclares⟩
    exact hdeclares (h k s hk hs)

/-- A token resolves by a built-in name, by a definition of the source, or in a body. -/
theorem resolves_iff (horder : InOrder tokens) (hhold : BodiesHold tokens) (b : Builtins)
    (ht : tokens[i]? = some t) :
    Analysis.resolves (Definitions.collect tokens) b t = true ↔
      (t.text ∈ b.functionNames ∨ t.text ∈ b.variableNames) ∨ Defines tokens t.text ∨
        Binds tokens i t.text := by
  rw [← defines_iff, ← any_bindsName_iff horder hhold ht]
  unfold Analysis.resolves Builtins.resolves Builtins.isFunction Builtins.isVariable
    Definitions.defines
  simp only [Bool.or_eq_true, decide_eq_true_eq, or_assoc]

/-- The check reports the token `t` with the index `i`. -/
def Analysis.isReported (tokens : List Token) (b : Builtins) (t : Token) (i : Nat) : Bool :=
  isLookedUp (Definitions.collect tokens) t i && !resolves (Definitions.collect tokens) b t

/-- The reports on references, as a filter of the tokens with their places. -/
theorem checkReferences_eq (tokens : List Token) (b : Builtins) :
    Analysis.checkReferences tokens (Definitions.collect tokens) b =
      (tokens.zipIdx.filter fun (t, i) => Analysis.isReported tokens b t i).map
        fun (t, _) => .unresolvedReference t := rfl

/-- The check reports the names that are unaccounted for. -/
theorem isReported_iff (horder : InOrder tokens) (hhold : BodiesHold tokens) (b : Builtins)
    (ht : tokens[i]? = some t) :
    Analysis.isReported tokens b t i = true ↔ Unaccounted b tokens i t := by
  unfold Analysis.isReported
  rw [Bool.and_eq_true, isLookedUp_iff ht, Bool.not_eq_true', ← Bool.not_eq_true,
    resolves_iff horder hhold b ht, not_or, not_or, not_or]
  constructor
  · rintro ⟨⟨hkind, hparameter, hdeclared⟩, hbuiltin, hdefines, hbinds⟩
    exact ⟨ht, hkind, hparameter, hdeclared, hbuiltin, hdefines, hbinds⟩
  · rintro ⟨-, hkind, hparameter, hdeclared, hbuiltin, hdefines, hbinds⟩
    exact ⟨⟨hkind, hparameter, hdeclared⟩, hbuiltin, hdefines, hbinds⟩

open Classical in
/-- The check reports the names that are unaccounted for, each of them once, in the order of the
source. The characters of the source are counted in 64 bits; in a longer text a token could stand
behind the end of a body that is never closed. -/
theorem checkReferences_exact (source : String) (hsource : source.length ≤ maxWord64)
    (builtins : Builtins) :
    Analysis.checkReferences (tokenize source) (Definitions.collect (tokenize source)) builtins =
      ((tokenize source).zipIdx.filter fun (t, i) =>
        Unaccounted builtins (tokenize source) i t).map fun (t, _) => .unresolvedReference t := by
  rw [checkReferences_eq]
  congr 1
  refine List.filter_congr fun ⟨t, i⟩ hmem => ?_
  have ht : (tokenize source)[i]? = some t := List.mem_zipIdx_iff_getElem?.1 hmem
  rw [Bool.eq_iff_iff, decide_eq_true_eq]
  exact isReported_iff (inOrder_tokenize source) (.inl fun _ => start_lt_last hsource) builtins ht

open Classical in
/-- A parameter is bound in the body that follows it, and behind that body it is unaccounted for. -/
theorem unaccounted_behind_body :
    "fn f ( x ) \x7b x \x7d x".length ≤ maxWord64 ∧
      (((tokenize "fn f ( x ) \x7b x \x7d x").zipIdx.filter fun (t, i) =>
        Unaccounted .empty (tokenize "fn f ( x ) \x7b x \x7d x") i t).map fun (t, _) =>
          Diagnostic.unresolvedReference t) =
        [.unresolvedReference ⟨.reference, "x", 0, 17, 18⟩] :=
  ⟨by decide, (checkReferences_exact _ (by decide) _).symm.trans (by decide +kernel)⟩

end StackEditor
