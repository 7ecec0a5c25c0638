import StackEditor.Proofs.Analysis.Resolution

/-!
# Scopes are nested like braces

The body of a function or a lambda is found from where its braces stand and kept as a range of
places. Places do not know of braces; still they tell who is inside of whom. No two bodies start at
one place, two bodies are apart or one lies within the other, and a token lies in a body exactly if
it stands within the body's braces (`ScopesNest`).

A brace is the body of one callable only, since what stands before it decides whose body it is
(`HasBody.unique`). For the nesting, groups of braces are compared first: the brace that ends an
inner group does not come behind the one that ends the outer group, because what is open in the
inner group is open in the outer one too (`InGroup.surplus_of_surplus`).
-/

namespace StackEditor

variable {tokens : List Token} {t s : Token} {b b' c i j o o' : Nat} {l : ParamList}
  {f f' : Callable} {list? list?' : Option Nat}

/-! ## Braces and tokens -/

/-- The token with the index `i` does not come before the brace with the index `b`, nor behind the
brace that matches it, if there is one. Only braces are counted. -/
def WithinBraces (tokens : List Token) (b i : Nat) : Prop :=
  b ≤ i ∧ ∀ e, CountsOut .brace tokens b e → i ≤ e

/-- A token is in the group of a brace when it is within the braces. -/
theorem inGroup_brace_iff (hbrace : OpensBrace tokens b) (hi : i < tokens.length) :
    InGroup .brace tokens b i ↔ WithinBraces tokens b i := by
  constructor
  · exact fun h => ⟨h.le, fun e he => he.le_of_inGroup h⟩
  · rintro ⟨hbi, hends⟩
    obtain ⟨t, ht, hopen⟩ := hbrace
    rcases (Pending.start ht hopen).bodyStop_cases rfl with ⟨e, s, he, -, -⟩ | ⟨hsurplus, -⟩
    · exact he.inGroup ⟨t, ht, hopen⟩ hbi (hends e he)
    · exact ⟨⟨t, ht, hopen⟩, hbi, hi, fun j hbj hji =>
        hsurplus j hbj (Nat.le_trans hji (Nat.le_of_lt hi))⟩

/-- A body holds the starts of the tokens within its braces. -/
theorem Callable.Stands.contains_iff (h : f.Stands tokens list? b) (horder : InOrder tokens)
    (hhold : BodiesHold tokens) (hi : tokens[i]? = some t) :
    f.body.contains t.start = true ↔ WithinBraces tokens b i := by
  obtain ⟨s, hs, hopen, -⟩ := bodyRange?_eq_some_iff.1 h.range
  rw [contains_start_iff horder hhold h.range hi]
  exact inGroup_brace_iff ⟨s, hs, hopen⟩ (List.getElem?_eq_some_iff.1 hi).1

/-! ## Whose body it is -/

/-- A token belongs to one parameter list only. -/
theorem StartsList.unique (h : StartsList tokens o) (h' : StartsList tokens o')
    (hi : InParens tokens o i) (hi' : InParens tokens o' i) : o = o' := by
  obtain ⟨l, hl, rfl⟩ := exists_opening_eq_iff.2 h
  obtain ⟨l', hl', rfl⟩ := exists_opening_eq_iff.2 h'
  exact congrArg ParamList.opening (eq_of_holdsIndex hl hl'
    ((spans_of_mem_paramLists hl).holdsIndex_iff.2 hi)
    ((spans_of_mem_paramLists hl').holdsIndex_iff.2 hi'))

/-- A name closes no list. -/
theorem DeclaresAt.not_closesAt {what : Declares} {k : Nat} {x : String}
    (h : DeclaresAt tokens what k x) : ¬ ClosesAt tokens o (k + 1) := by
  rintro ⟨hin, hend⟩
  obtain ⟨-, name, -, -, hname, hkind, -⟩ := h
  have hne : o ≠ k + 1 := by
    rintro rfl
    obtain ⟨t, ht, hopen⟩ := hin.opens
    obtain rfl := Option.some.inj (ht.symm.trans hname)
    cases hopen.symm.trans hkind
  obtain ⟨t, ht, hclose⟩ := (hin.toInGroup.countsOut (Nat.lt_of_le_of_ne hin.le hne) hend).closes
  obtain rfl := Option.some.inj (ht.symm.trans hname)
  cases hclose.symm.trans hkind

/-- What stands before a brace decides whether it is the body of a function or of a lambda, and with
which list. -/
theorem HasBody.unique {p p' : Bool} (h : HasBody tokens p list? b)
    (h' : HasBody tokens p' list?' b) : p = p' ∧ list? = list?' := by
  cases h with
  | plain hdeclares =>
    cases h' with
    | plain => exact ⟨rfl, rfl⟩
    | function _ _ hcloses' => exact absurd hcloses' hdeclares.not_closesAt
    | lambda _ _ hcloses' => exact absurd hcloses' hdeclares.not_closesAt
  | function hdeclares hstarts hcloses =>
    cases h' with
    | plain hdeclares' => exact absurd hcloses hdeclares'.not_closesAt
    | function _ hstarts' hcloses' =>
      exact ⟨rfl, congrArg some (hstarts.unique hstarts' hcloses.1 hcloses'.1)⟩
    | lambda hstarts' hfree' hcloses' =>
      exact absurd (hstarts'.unique hstarts hcloses'.1 hcloses.1) (hfree' _ _ _ hdeclares)
  | lambda hstarts hfree hcloses =>
    cases h' with
    | plain hdeclares' => exact absurd hcloses hdeclares'.not_closesAt
    | function hdeclares' hstarts' hcloses' =>
      exact absurd (hstarts.unique hstarts' hcloses.1 hcloses'.1) (hfree _ _ _ hdeclares')
    | lambda hstarts' _ hcloses' =>
      exact ⟨rfl, congrArg some (hstarts.unique hstarts' hcloses.1 hcloses'.1)⟩

/-- Bodies that start at one place start with one brace. -/
theorem Callable.Stands.brace_eq (h : f.Stands tokens list? b) (h' : f'.Stands tokens list?' b')
    (horder : InOrder tokens) (hstart : f.body.start = f'.body.start) : b = b' := by
  obtain ⟨t, ht, -, hr⟩ := bodyRange?_eq_some_iff.1 h.range
  obtain ⟨t', ht', -, hr'⟩ := bodyRange?_eq_some_iff.1 h'.range
  exact horder.eq_of_start_eq ht ht' (by rwa [hr, hr'] at hstart)

theorem le_index_of_mem_declarationsFrom {ts : List Token} {e : Declaration}
    (he : e ∈ declarationsFrom i ts) : i ≤ e.index := by
  fun_induction declarationsFrom i ts with
  | case1 => cases he
  | case2 i keyword d name ts _ _ ih =>
    rcases List.mem_cons.1 he with rfl | he
    · exact Nat.le_refl i
    · exact Nat.le_of_succ_le (ih he)
  | case3 _ _ _ _ _ _ _ ih | case4 _ _ _ _ ih => exact Nat.le_of_succ_le (ih he)

/-- Declarations come in the order of their keywords. -/
theorem pairwise_declarationsFrom (i : Nat) (ts : List Token) :
    (declarationsFrom i ts).Pairwise fun e e' => e.index < e'.index := by
  fun_induction declarationsFrom i ts with
  | case1 => exact .nil
  | case2 i keyword d name ts _ _ ih =>
    exact .cons (fun e he => le_index_of_mem_declarationsFrom he) ih
  | case3 _ _ _ _ _ _ _ ih | case4 _ _ _ _ ih => exact ih

/-- Bodies that start at one place are of one kind, and have one list. -/
theorem Callable.Stands.unique (h : f.Stands tokens list? b) (h' : f'.Stands tokens list?' b')
    (horder : InOrder tokens) (hstart : f.body.start = f'.body.start) :
    b = b' ∧ f.isFunction = f'.isFunction ∧ list? = list?' := by
  obtain rfl := h.brace_eq h' horder hstart
  exact ⟨rfl, h.hasBody.unique h'.hasBody⟩

/-- No two bodies start at one place. -/
theorem nodup_body_start (horder : InOrder tokens) :
    ((Definitions.collect tokens).callables.map (·.body.start)).Nodup := by
  refine List.pairwise_map.2 (List.pairwise_append.2 ⟨?functions, ?lambdas, ?both⟩)
  case functions =>
    refine List.pairwise_filterMap.2 ((pairwise_declarationsFrom 0 tokens).imp_of_mem ?_)
    intro e e' he he' hlt f hf f' hf' hstart
    obtain ⟨list?, b, hstands, -, hbody⟩ := e.exists_stands he hf
    obtain ⟨list?', b', hstands', -, hbody'⟩ := e'.exists_stands he' hf'
    obtain ⟨rfl, -, rfl⟩ := hstands.unique hstands' horder hstart
    rcases hbody with ⟨rfl, hb⟩ | rfl
    · rcases hbody' with ⟨-, hb'⟩ | hlist
      · omega
      · cases hlist
    · rcases hbody' with ⟨hlist, -⟩ | hlist
      · cases hlist
      · have heq := Option.some.inj hlist
        omega
  case lambdas =>
    refine List.pairwise_filterMap.2
      (((pairwise_paramListsFrom 0 none tokens).filter _).imp_of_mem ?_)
    intro l l' hl hl' hlt f hf f' hf' hstart
    simp only [List.mem_filter, decide_eq_true_eq, opening_not_mem_iff] at hl hl'
    obtain ⟨b, hstands, -⟩ := l.exists_stands hl.1 hl.2 hf
    obtain ⟨b', hstands', -⟩ := l'.exists_stands hl'.1 hl'.2 hf'
    obtain ⟨-, -, hlist⟩ := hstands.unique hstands' horder hstart
    have heq := Option.some.inj hlist
    have hstop := (spans_of_mem_paramLists hl.1).lt
    omega
  case both =>
    intro f hf f' hf' hstart
    obtain ⟨e, he, hf⟩ := List.mem_filterMap.1 hf
    simp only [List.mem_filterMap, List.mem_filter, decide_eq_true_eq, opening_not_mem_iff] at hf'
    obtain ⟨l, ⟨hl, hfree⟩, hf'⟩ := hf'
    obtain ⟨list?, b, hstands, hfunction, -⟩ := e.exists_stands he hf
    obtain ⟨b', hstands', hlambda⟩ := l.exists_stands hl hfree hf'
    obtain ⟨-, hkind, -⟩ := hstands.unique hstands' horder hstart
    cases hfunction.symm.trans (hkind.trans hlambda)

/-! ## Ranges -/

/-- The ranges have no place in common. -/
def Range.Apart (r r' : Range) : Prop := ∀ p, r.contains p = true → r'.contains p = false

/-- All places of the one range are places of the other. -/
def Range.Within (r r' : Range) : Prop := ∀ p, r.contains p = true → r'.contains p = true

/-- A range has its start and does not have its end. -/
theorem Range.contains_iff {r : Range} {p : Position} :
    r.contains p = true ↔ r.start ≤ p ∧ p < r.stop := by
  simp [Range.contains]

theorem Range.Apart.symm {r r' : Range} (h : r.Apart r') : r'.Apart r :=
  fun p hp' => Bool.eq_false_iff.2 fun hp => by cases hp'.symm.trans (h p hp)

/-- The body of a brace within another group of braces does not end behind that of the other. -/
theorem bodyStop_le_bodyStop (horder : InOrder tokens) (hlast : ∀ t ∈ tokens, t.stop ≤ .last)
    (hin : InGroup .brace tokens b b') (hbrace : OpensBrace tokens b') :
    bodyStop 0 (tokens.drop (b' + 1)) ≤ bodyStop 0 (tokens.drop (b + 1)) := by
  obtain ⟨t, ht, hopen⟩ := hin.opens
  obtain ⟨t', ht', hopen'⟩ := hbrace
  have hinner := (Pending.start ht' hopen').bodyStop_cases rfl
  rcases (Pending.start ht hopen).bodyStop_cases rfl with ⟨e, s, he, hs, hstop⟩ | ⟨-, hstop⟩
  · rw [hstop]
    rcases hinner with ⟨e', s', he', hs', hstop'⟩ | ⟨hsurplus, -⟩
    · rw [hstop']
      have hin' := he'.inGroup ⟨t', ht', hopen'⟩ (Nat.le_of_lt he'.lt) (Nat.le_refl e')
      exact horder.stop_le_stop (he.le_of_inGroup (hin.trans hin')) hs' hs
    · -- What the inner group leaves open, the outer one does, too.
      have hlt := Nat.lt_succ_of_le (he.le_of_inGroup hin)
      have houter := hin.surplus_of_surplus (Nat.le_of_lt hlt) he.lt_length
        (hsurplus (e + 1) hlt he.lt_length)
      exact absurd houter he.not_surplus
  · rw [hstop]
    rcases hinner with ⟨e', s', -, hs', hstop'⟩ | ⟨-, hstop'⟩
    · rw [hstop']
      exact hlast s' (List.mem_of_getElem? hs')
    · rw [hstop']
      exact Position.le_refl _

/-- Of two bodies, the one that starts later lies within the other, or apart from it. -/
theorem Callable.Stands.within_or_apart (h : f.Stands tokens list? b)
    (h' : f'.Stands tokens list?' b') (horder : InOrder tokens)
    (hlast : ∀ t ∈ tokens, t.stop ≤ .last) (hle : b ≤ b') :
    f'.body.Within f.body ∨ f.body.Apart f'.body := by
  obtain ⟨t, ht, hopen, hr⟩ := bodyRange?_eq_some_iff.1 h.range
  obtain ⟨t', ht', hopen', hr'⟩ := bodyRange?_eq_some_iff.1 h'.range
  by_cases hin : InGroup .brace tokens b b'
  · refine .inl fun p hp => ?_
    rw [Range.contains_iff, hr'] at hp
    rw [Range.contains_iff, hr]
    exact ⟨Position.le_trans (horder.start_le_start hle ht ht') hp.1,
      Position.lt_of_lt_of_le hp.2 (bodyStop_le_bodyStop horder hlast hin ⟨t', ht', hopen'⟩)⟩
  · refine .inr fun p hp => Bool.eq_false_iff.2 fun hp' => hin ?_
    rw [Range.contains_iff, hr] at hp
    rw [Range.contains_iff, hr'] at hp'
    have hlength := (List.getElem?_eq_some_iff.1 ht').1
    rcases (Pending.start ht hopen).bodyStop_cases rfl with ⟨e, s, he, hs, hstop⟩ | ⟨hsurplus, -⟩
    · refine he.inGroup ⟨t, ht, hopen⟩ hle (Nat.le_of_not_lt fun hlt => ?_)
      rw [hstop] at hp
      exact Position.lt_irrefl _ (Position.lt_of_lt_of_le hp.2
        (Position.le_trans (horder.stop_le_start hlt hs ht') hp'.1))
    · exact ⟨⟨t, ht, hopen⟩, hle, hlength, fun j hbj hj =>
        hsurplus j hbj (Nat.le_trans hj (Nat.le_of_lt hlength))⟩

/-! ## All scopes of a source -/

/-- The bodies of the functions and lambdas are nested like their braces. -/
structure ScopesNest (tokens : List Token) : Prop where
  nodup_start : ((Definitions.collect tokens).callables.map (·.body.start)).Nodup
  apart_or_within : ∀ f ∈ (Definitions.collect tokens).callables,
    ∀ f' ∈ (Definitions.collect tokens).callables,
      f.body.Apart f'.body ∨ f.body.Within f'.body ∨ f'.body.Within f.body
  /-- A body holds the starts of the tokens within its own braces, and of no others. -/
  contains_iff : ∀ f ∈ (Definitions.collect tokens).callables, ∃ list? b,
    f.Stands tokens list? b ∧ ∀ i t, tokens[i]? = some t →
      (f.body.contains t.start = true ↔ WithinBraces tokens b i)
  /-- A token sees the parameters of the functions and lambdas within whose braces it stands, and in
  a function the name for a call of itself. -/
  visible_iff : ∀ i t x, tokens[i]? = some t →
    (((Definitions.collect tokens).enclosing t.start).any (Analysis.bindsName x) = true ↔
      ∃ f ∈ (Definitions.collect tokens).callables,
        ((f.isFunction = true ∧ x = recursionName) ∨ x ∈ f.params) ∧
          ∃ list? b, f.Stands tokens list? b ∧ WithinBraces tokens b i)

/-- Where tokens come in order and stop before the last place, bodies are nested. -/
theorem scopesNest_of_inOrder (horder : InOrder tokens) (hlast : ∀ t ∈ tokens, t.stop ≤ .last) :
    ScopesNest tokens := by
  have hhold : BodiesHold tokens :=
    .inl fun t ht => Position.lt_of_lt_of_le (horder.start_lt_stop t ht) (hlast t ht)
  refine ⟨nodup_body_start horder, fun f hf f' hf' => ?nested, fun f hf => ?braces,
    fun i t x ht => ?visible⟩
  case nested =>
    obtain ⟨list?, b, h⟩ := exists_stands_of_mem hf
    obtain ⟨list?', b', h'⟩ := exists_stands_of_mem hf'
    rcases Nat.le_total b b' with hle | hle
    · rcases h.within_or_apart h' horder hlast hle with hwithin | hapart
      · exact .inr (.inr hwithin)
      · exact .inl hapart
    · rcases h'.within_or_apart h horder hlast hle with hwithin | hapart
      · exact .inr (.inl hwithin)
      · exact .inl hapart.symm
  case braces =>
    obtain ⟨list?, b, h⟩ := exists_stands_of_mem hf
    exact ⟨list?, b, h, fun i t ht => h.contains_iff horder hhold ht⟩
  case visible =>
    simp only [Definitions.enclosing, List.any_eq_true, List.mem_filter, bindsName_iff]
    constructor
    · rintro ⟨f, ⟨hf, hcontains⟩, hbinds⟩
      obtain ⟨list?, b, h⟩ := exists_stands_of_mem hf
      exact ⟨f, hf, hbinds, list?, b, h, (h.contains_iff horder hhold ht).1 hcontains⟩
    · rintro ⟨f, hf, hbinds, list?, b, h, hwithin⟩
      exact ⟨f, ⟨hf, (h.contains_iff horder hhold ht).2 hwithin⟩, hbinds⟩

/-- The scopes of a source are nested. Its characters are counted in 64 bits; in a longer text a
token could stand behind the end of a body that is never closed. -/
theorem scopesNest_tokenize (source : String) (hsource : source.length ≤ maxWord64) :
    ScopesNest (tokenize source) :=
  scopesNest_of_inOrder (inOrder_tokenize source) fun _ ht =>
    Position.le_of_lt (stop_lt_last hsource ht)

/-- A lambda within a function, and a name directly behind the closing brace of each. -/
theorem scopesNest_lambda_in_function :
    "fn f ( x ) \x7b ( y ) \x7b y \x7dy \x7dx".length ≤ maxWord64 ∧
      (Definitions.collect (tokenize "fn f ( x ) \x7b ( y ) \x7b y \x7dy \x7dx")).callables =
        [⟨some "f", ["x"], ⟨⟨0, 11⟩, ⟨0, 27⟩⟩⟩, ⟨none, ["y"], ⟨⟨0, 19⟩, ⟨0, 24⟩⟩⟩] ∧
      ScopesNest (tokenize "fn f ( x ) \x7b ( y ) \x7b y \x7dy \x7dx") :=
  ⟨by decide, by decide +kernel, scopesNest_tokenize _ (by decide)⟩

end StackEditor
