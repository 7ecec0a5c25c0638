import StackEditor.Analysis.ParamList
import StackEditor.Proofs.Analysis.Nesting

/-!
# Which tokens belong to a parameter list

A round bracket that opens starts a group, and a brace cuts off what is still open (`InParens`). A
parameter list is such a group that lies in no other one (`StartsList`). The walk that finds the
parameter lists finds exactly these (`exists_opening_eq_iff`), each up to its end
(`holdsIndex_iff`, `closing_eq_some_iff`) and with its parameters (`mem_parameterNames_iff`); so a
token belongs to one of them exactly if it belongs to the group of some round bracket
(`exists_holdsIndex_iff`).
-/

namespace StackEditor

/-! ## Groups that a brace cuts off -/

/-- An executable array starts or ends with the token. -/
def Token.IsBrace (t : Token) : Prop := t.kind = .opening .brace ∨ t.kind = .closing .brace

/-- The token with the index `i` belongs to the group of round brackets that the token with the
index `o` opens, and no brace comes before it in the group. -/
structure InParens (tokens : List Token) (o i : Nat) : Prop extends
    InGroup .paren tokens o i where
  noBrace : ∀ j t, o ≤ j → j ≤ i → tokens[j]? = some t → ¬ t.IsBrace

variable {tokens ts : List Token} {t : Token} {o i j c d : Nat} {inside : Option (Nat × Nat)}
  {l : ParamList}

/-- A parenthesis is no brace. -/
theorem Token.not_isBrace (h : t.kind = .opening .paren ∨ t.kind = .closing .paren) :
    ¬ t.IsBrace := by
  rintro (hbrace | hbrace) <;> rcases h with h | h <;> cases h.symm.trans hbrace

/-- An opening parenthesis is in its own group. -/
theorem InParens.refl (ht : tokens[o]? = some t) (hopen : t.kind = .opening .paren) :
    InParens tokens o o := by
  refine ⟨.refl ht hopen, fun j t' hoj hjo ht' => ?_⟩
  obtain rfl := Nat.le_antisymm hjo hoj
  obtain rfl := Option.some.inj (ht.symm.trans ht')
  exact Token.not_isBrace (.inl hopen)

/-- What is in a group within a group is in the outer one. -/
theorem InParens.trans (h : InParens tokens o i) (h' : InParens tokens i j) :
    InParens tokens o j := by
  refine ⟨h.toInGroup.trans h'.toInGroup, fun m t hom hmj ht => ?_⟩
  rcases Nat.le_total m i with hmi | him
  · exact h.noBrace m t hom hmi ht
  · exact h'.noBrace m t him hmj ht

/-- The round bracket with the index `o` starts a parameter list: it opens, and it belongs to the
group of no earlier one. -/
def StartsList (tokens : List Token) (o : Nat) : Prop :=
  InParens tokens o o ∧ ∀ o' < o, ¬ InParens tokens o' o

/-- The group that the token with the index `o` opens is closed by the token with the index `c`. -/
def ClosesAt (tokens : List Token) (o c : Nat) : Prop :=
  InParens tokens o c ∧ ¬ Surplus .paren (between tokens o (c + 1))

/-- The name `x` is among the parameters of the list that the token with the index `o` opens: it
stands in the list, with no arrow before it. -/
def HasParameter (tokens : List Token) (o : Nat) (x : String) : Prop :=
  ∃ i t, InParens tokens o i ∧ tokens[i]? = some t ∧ t.kind = .reference ∧ t.text = x ∧
    ∀ j s, o < j → j < i → tokens[j]? = some s → s.kind ≠ .arrow

/-! ## The walk -/

/-- Before the token with the index `i`, the walk is inside of the list that the token with the
index `o` opens, and `d` brackets more are open. -/
structure Inside (tokens : List Token) (o i d : Nat) : Prop extends
    Pending .paren tokens o i d where
  noBrace : ∀ j t, o ≤ j → j < i → tokens[j]? = some t → ¬ t.IsBrace

namespace Inside

/-- Behind an opening parenthesis one is inside it, at depth zero. -/
theorem start (ht : tokens[o]? = some t) (hopen : t.kind = .opening .paren) :
    Inside tokens o (o + 1) 0 :=
  ⟨.start ht hopen, fun j t' hoj hjo => (InParens.refl ht hopen).noBrace j t' hoj (by omega)⟩

/-- One token more that is no brace. -/
theorem succ {d' : Nat} (h : Inside tokens o i d) (hp : Pending .paren tokens o (i + 1) d')
    (ht : tokens[i]? = some t) (hbrace : ¬ t.IsBrace) : Inside tokens o (i + 1) d' := by
  refine ⟨hp, fun j t' hoj hji ht' => ?_⟩
  rcases Nat.lt_or_ge j i with hlt | hge
  · exact h.noBrace j t' hoj hlt ht'
  · obtain rfl : j = i := by omega
    obtain rfl := Option.some.inj (ht.symm.trans ht')
    exact hbrace

/-- All tokens on the way belong to the group. -/
theorem inParens (h : Inside tokens o i d) (hi : i ≤ tokens.length) (hoj : o ≤ j) (hji : j < i) :
    InParens tokens o j :=
  ⟨⟨h.opens, hoj, by omega, fun m hom hmj => h.surplus m hom (by omega)⟩,
    fun m t hom hmj => h.noBrace m t hom (by omega)⟩

end Inside

/-- The list starts with a round bracket and goes on up to its end: the bracket that closes it, or a
brace, or the end of the tokens. -/
structure ParamList.Spans (tokens : List Token) (l : ParamList) : Prop where
  inside : ∃ d, Inside tokens l.opening l.stop d
  stop_le : l.stop ≤ tokens.length
  ends : (l.closing = some l.stop ∧ ClosesAt tokens l.opening l.stop) ∨
    (l.closing = none ∧ ∀ t, tokens[l.stop]? = some t → t.IsBrace)

/-- The walk that has no token left is at the end. -/
theorem length_eq_of_drop_eq_nil (h : tokens.drop i = []) (hi : i ≤ tokens.length) :
    i = tokens.length :=
  Nat.le_antisymm hi (List.drop_eq_nil_iff.1 h)

/-- A list that a brace cuts off. -/
theorem Inside.spans_of_isBrace (h : Inside tokens o i d) (ht : tokens[i]? = some t)
    (hbrace : t.IsBrace) : ParamList.Spans tokens ⟨o, none, i⟩ := by
  refine ⟨⟨d, h⟩, Nat.le_of_lt (List.getElem?_eq_some_iff.1 ht).1, .inr ⟨rfl, fun t' ht' => ?_⟩⟩
  exact Option.some.inj (ht.symm.trans ht') ▸ hbrace

/-- A list that is closed. -/
theorem Inside.spans_of_closing (h : Inside tokens o i 0) (ht : tokens[i]? = some t)
    (hclose : t.kind = .closing .paren) : ParamList.Spans tokens ⟨o, some i, i⟩ := by
  have hi := (List.getElem?_eq_some_iff.1 ht).1
  have hgroup := h.toPending.inGroup (Nat.le_of_lt h.lt) (Nat.le_refl i) hi
  refine ⟨⟨0, h⟩, Nat.le_of_lt hi, .inl ⟨rfl, ⟨hgroup, fun j t' hoj hji ht' => ?_⟩,
    h.toPending.not_surplus ht hclose⟩⟩
  rcases Nat.lt_or_ge j i with hlt | hge
  · exact h.noBrace j t' hoj hlt ht'
  · obtain rfl := Nat.le_antisymm hji hge
    obtain rfl := Option.some.inj (ht.symm.trans ht')
    exact Token.not_isBrace (.inr hclose)

/-- What the walk finds are groups, up to their ends. -/
theorem spans_of_mem_paramListsFrom (hts : tokens.drop i = ts) (hi : i ≤ tokens.length)
    (hin : ∀ o d, inside = some (o, d) → Inside tokens o i d) :
    ∀ l ∈ paramListsFrom i inside ts, l.Spans tokens := by
  fun_induction paramListsFrom i inside ts with
  | case1 => nofun
  | case2 i o d =>
    intro l hl
    obtain rfl := List.mem_singleton.1 hl
    have hend := length_eq_of_drop_eq_nil hts hi
    refine ⟨⟨d, hin o d rfl⟩, hi, .inr ⟨rfl, fun t ht => ?_⟩⟩
    have := (List.getElem?_eq_some_iff.1 ht).1
    dsimp only at this
    omega
  | case3 i t ts hopen ih =>
    obtain ⟨ht, hts⟩ := getElem?_of_drop_eq_cons hts
    refine ih hts (List.getElem?_eq_some_iff.1 ht).1 ?_
    rintro _ _ ⟨⟩
    exact .start ht hopen
  | case4 i t ts o d hopen ih =>
    obtain ⟨ht, hts⟩ := getElem?_of_drop_eq_cons hts
    refine ih hts (List.getElem?_eq_some_iff.1 ht).1 ?_
    rintro _ _ ⟨⟩
    have h := hin o d rfl
    exact h.succ (h.toPending.opening ht hopen) ht (Token.not_isBrace (.inl hopen))
  | case5 i t ts o hclose ih =>
    obtain ⟨ht, hts⟩ := getElem?_of_drop_eq_cons hts
    intro l hl
    rcases List.mem_cons.1 hl with rfl | hl
    · exact (hin o 0 rfl).spans_of_closing ht hclose
    · exact ih hts (List.getElem?_eq_some_iff.1 ht).1 nofun l hl
  | case6 i t ts o d hclose ih =>
    obtain ⟨ht, hts⟩ := getElem?_of_drop_eq_cons hts
    refine ih hts (List.getElem?_eq_some_iff.1 ht).1 ?_
    rintro _ _ ⟨⟩
    have h := hin o (d + 1) rfl
    exact h.succ (h.toPending.closing ht hclose) ht (Token.not_isBrace (.inr hclose))
  | case7 i t ts o d hbrace ih =>
    obtain ⟨ht, hts⟩ := getElem?_of_drop_eq_cons hts
    intro l hl
    rcases List.mem_cons.1 hl with rfl | hl
    · exact (hin o d rfl).spans_of_isBrace ht (.inl hbrace)
    · exact ih hts (List.getElem?_eq_some_iff.1 ht).1 nofun l hl
  | case8 i t ts o d hbrace ih =>
    obtain ⟨ht, hts⟩ := getElem?_of_drop_eq_cons hts
    intro l hl
    rcases List.mem_cons.1 hl with rfl | hl
    · exact (hin o d rfl).spans_of_isBrace ht (.inr hbrace)
    · exact ih hts (List.getElem?_eq_some_iff.1 ht).1 nofun l hl
  | case9 i inside t ts _ hopen hlast hclose hbrace hbrace' ih =>
    obtain ⟨ht, hts⟩ := getElem?_of_drop_eq_cons hts
    refine ih hts (List.getElem?_eq_some_iff.1 ht).1 ?_
    rintro o d rfl
    have h := hin o d rfl
    have hplain : t.kind ≠ .closing .paren := by
      cases d with
      | zero => exact hlast o rfl
      | succ d => exact hclose o d rfl
    refine h.succ (h.toPending.other ht (hopen o d rfl) hplain) ht ?_
    rintro (hb | hb)
    · exact hbrace o d rfl hb
    · exact hbrace' o d rfl hb

/-- The walk finds no list that starts before it does, but for the one that it is inside of. -/
theorem le_opening_of_mem_paramListsFrom {k : Nat} (hk : k ≤ i)
    (hin : ∀ o d, inside = some (o, d) → k ≤ o) :
    ∀ l ∈ paramListsFrom i inside ts, k ≤ l.opening := by
  fun_induction paramListsFrom i inside ts with
  | case1 => nofun
  | case2 i o d =>
    intro l hl
    obtain rfl := List.mem_singleton.1 hl
    exact hin o d rfl
  | case3 i t ts hopen ih =>
    refine ih (Nat.le_succ_of_le hk) ?_
    rintro _ _ ⟨⟩
    exact hk
  | case4 i t ts o d hopen ih =>
    refine ih (Nat.le_succ_of_le hk) ?_
    rintro _ _ ⟨⟩
    exact hin o d rfl
  | case6 i t ts o d hclose ih =>
    refine ih (Nat.le_succ_of_le hk) ?_
    rintro _ _ ⟨⟩
    exact hin o (d + 1) rfl
  | case5 i t ts o _ ih | case7 i t ts o d _ ih | case8 i t ts o d _ ih =>
    intro l hl
    rcases List.mem_cons.1 hl with rfl | hl
    · exact hin o _ rfl
    · exact ih (Nat.le_succ_of_le hk) nofun l hl
  | case9 i inside t ts _ _ _ _ _ _ ih => exact ih (Nat.le_succ_of_le hk) hin

/-- From outside of all lists, the walk finds only lists that start later. -/
theorem le_opening_of_mem_paramListsFrom_none (h : l ∈ paramListsFrom i none ts) :
    i ≤ l.opening := by
  refine le_opening_of_mem_paramListsFrom (Nat.le_refl i) ?_ l h
  nofun

/-- The lists come in order and do not overlap. -/
theorem pairwise_paramListsFrom (i : Nat) (inside : Option (Nat × Nat)) (ts : List Token) :
    (paramListsFrom i inside ts).Pairwise fun l l' => l.stop < l'.opening := by
  fun_induction paramListsFrom i inside ts with
  | case1 => exact .nil
  | case2 => exact List.pairwise_singleton _ _
  | case3 _ _ _ _ ih | case4 _ _ _ _ _ _ ih | case6 _ _ _ _ _ _ ih
  | case9 _ _ _ _ _ _ _ _ _ _ ih => exact ih
  | case5 i t ts o _ ih | case7 i t ts o d _ ih | case8 i t ts o d _ ih =>
    exact .cons (fun l hl => le_opening_of_mem_paramListsFrom_none hl) ih

/-- The list that the walk is inside of is found. -/
theorem exists_mem_paramListsFrom (i o d : Nat) (ts : List Token) :
    ∃ l ∈ paramListsFrom i (some (o, d)) ts, l.opening = o ∧ i ≤ l.stop := by
  generalize hinside : some (o, d) = inside
  fun_induction paramListsFrom i inside ts generalizing d with
  | case1 => cases hinside
  | case2 i o' d' =>
    cases hinside
    exact ⟨_, List.mem_singleton_self _, rfl, Nat.le_refl i⟩
  | case3 => cases hinside
  | case4 i t ts o' d' _ ih | case6 i t ts o' d' _ ih =>
    cases hinside
    obtain ⟨l, hl, ho, hstop⟩ := ih _ rfl
    exact ⟨l, hl, ho, Nat.le_of_succ_le hstop⟩
  | case5 i t ts o' _ ih | case7 i t ts o' d' _ ih | case8 i t ts o' d' _ ih =>
    cases hinside
    exact ⟨_, List.mem_cons_self, rfl, Nat.le_refl i⟩
  | case9 i inside t ts _ _ _ _ _ _ ih =>
    obtain ⟨l, hl, ho, hstop⟩ := ih d hinside
    exact ⟨l, hl, ho, Nat.le_of_succ_le hstop⟩

/-- A list holds all tokens from its first one up to its end. -/
theorem ParamList.Spans.holdsIndex_of_lt (h : l.Spans tokens) (hoj : l.opening ≤ j)
    (hj : j < l.stop) : l.holdsIndex j = true := by
  rcases h.ends with ⟨hclosing, -⟩ | ⟨hclosing, -⟩
  · simp [holdsIndex, hclosing, hoj, Nat.le_of_lt hj]
  · simp [holdsIndex, hclosing, hoj, Nat.le_sub_one_of_lt hj]

/-- Every round bracket that opens belongs to a list. -/
theorem exists_holdsIndex_of_opening (hts : tokens.drop i = ts)
    (hspans : ∀ l ∈ paramListsFrom i inside ts, l.Spans tokens)
    (hin : ∀ o d, inside = some (o, d) → o ≤ i) (hij : i ≤ j)
    (hj : tokens[j]? = some t) (hopen : t.kind = .opening .paren) :
    ∃ l ∈ paramListsFrom i inside ts, l.holdsIndex j = true := by
  -- A token of another kind is not the bracket, so that comes later.
  have hnext : ∀ {i s}, tokens[i]? = some s → s.kind ≠ .opening .paren → i ≤ j → i + 1 ≤ j := by
    intro i s hs hkind hij
    rcases Nat.lt_or_ge i j with hlt | hge
    · exact hlt
    · obtain rfl := Nat.le_antisymm hij hge
      obtain rfl := Option.some.inj (hs.symm.trans hj)
      exact absurd hopen hkind
  fun_induction paramListsFrom i inside ts with
  | case1 i | case2 i =>
    have := (List.getElem?_eq_some_iff.1 hj).1
    have := List.drop_eq_nil_iff.1 hts
    omega
  | case3 i s ts _ ih =>
    obtain ⟨hs, hts⟩ := getElem?_of_drop_eq_cons hts
    rcases Nat.eq_or_lt_of_le hij with rfl | hlt
    · obtain ⟨l, hl, ho, hstop⟩ := exists_mem_paramListsFrom (i + 1) i 0 ts
      exact ⟨l, hl, (hspans l hl).holdsIndex_of_lt (Nat.le_of_eq ho) hstop⟩
    · refine ih hts hspans ?_ hlt
      rintro _ _ ⟨⟩
      exact Nat.le_succ i
  | case4 i s ts o d _ ih =>
    obtain ⟨hs, hts⟩ := getElem?_of_drop_eq_cons hts
    have hoi := hin o d rfl
    rcases Nat.eq_or_lt_of_le hij with rfl | hlt
    · obtain ⟨l, hl, rfl, hstop⟩ := exists_mem_paramListsFrom (i + 1) o (d + 1) ts
      exact ⟨l, hl, (hspans l hl).holdsIndex_of_lt hoi hstop⟩
    · refine ih hts hspans ?_ hlt
      rintro _ _ ⟨⟩
      exact Nat.le_succ_of_le hoi
  | case6 i s ts o d hkind ih =>
    obtain ⟨hs, hts⟩ := getElem?_of_drop_eq_cons hts
    refine ih hts hspans ?_ (hnext hs (by rw [hkind]; nofun) hij)
    rintro _ _ ⟨⟩
    exact Nat.le_succ_of_le (hin o (d + 1) rfl)
  | case5 i s ts o hkind ih | case7 i s ts o d hkind ih | case8 i s ts o d hkind ih =>
    obtain ⟨hs, hts⟩ := getElem?_of_drop_eq_cons hts
    obtain ⟨l, hl, hholds⟩ := ih hts (fun l hl => hspans l (List.mem_cons_of_mem _ hl)) nofun
      (hnext hs (by rw [hkind]; nofun) hij)
    exact ⟨l, List.mem_cons_of_mem _ hl, hholds⟩
  | case9 i inside s ts hnone hsome _ _ _ _ ih =>
    obtain ⟨hs, hts⟩ := getElem?_of_drop_eq_cons hts
    refine ih hts hspans (fun o d h => Nat.le_succ_of_le (hin o d h)) (hnext hs ?_ hij)
    cases inside with
    | none => exact hnone rfl
    | some p => exact hsome p.1 p.2 rfl

/-! ## The lists -/

/-- Each list that the walk records spans a group. -/
theorem spans_of_mem_paramLists (h : l ∈ paramLists tokens) : l.Spans tokens := by
  refine spans_of_mem_paramListsFrom rfl (Nat.zero_le _) ?_ l h
  nofun

namespace ParamList.Spans

variable (h : l.Spans tokens)
include h

/-- A list ends behind the parenthesis that opens it. -/
theorem lt : l.opening < l.stop := by
  obtain ⟨d, hin⟩ := h.inside
  exact hin.lt

/-- The tokens of a list, but for a bracket that closes it. -/
theorem inParens_of_lt (hoi : l.opening ≤ i) (hi : i < l.stop) :
    InParens tokens l.opening i := by
  obtain ⟨d, hin⟩ := h.inside
  exact hin.inParens h.stop_le hoi hi

/-- If a list is not closed, its group stops before its end. -/
theorem not_inParens_stop (hclosing : l.closing = none) :
    ¬ InParens tokens l.opening l.stop := by
  intro hstop
  rcases h.ends with ⟨hsome, -⟩ | ⟨-, hbrace⟩
  · cases hclosing.symm.trans hsome
  · have ht := List.getElem?_eq_getElem hstop.lt_length
    exact hstop.noBrace _ _ (Nat.le_of_lt h.lt) (Nat.le_refl _) ht (hbrace _ ht)

/-- A group does not go on behind the end of its list. -/
theorem le_stop (hi : InParens tokens l.opening i) : i ≤ l.stop := by
  rcases Nat.lt_or_ge l.stop i with hlt | hle
  · rcases h.ends with ⟨-, hcloses⟩ | ⟨hclosing, -⟩
    · exact absurd (hi.surplus _ (Nat.lt_succ_of_lt h.lt) hlt) hcloses.2
    · have hstop : InParens tokens l.opening l.stop :=
        ⟨hi.toInGroup.of_le (Nat.le_of_lt h.lt) (Nat.le_of_lt hlt), fun j t hoj hj =>
          hi.noBrace j t hoj (Nat.le_trans hj (Nat.le_of_lt hlt))⟩
      exact absurd hstop (h.not_inParens_stop hclosing)
  · exact hle

/-- A group is not closed before the end of its list. -/
theorem stop_le_of_closesAt (hc : ClosesAt tokens l.opening c) : l.stop ≤ c := by
  obtain ⟨d, hin⟩ := h.inside
  rcases Nat.lt_or_ge c l.stop with hlt | hle
  · exact absurd (hin.surplus (c + 1) (Nat.lt_succ_of_le hc.1.le) hlt) hc.2
  · exact hle

/-- Only a bracket closes a list. -/
theorem lt_stop_of_kind (hi : InParens tokens l.opening i) (ht : tokens[i]? = some t)
    (hopen : t.kind ≠ .opening .paren) (hclose : t.kind ≠ .closing .paren) : i < l.stop := by
  rcases Nat.eq_or_lt_of_le (h.le_stop hi) with rfl | hlt
  · obtain ⟨d, hin⟩ := h.inside
    have hnext := hin.toPending.other ht hopen hclose
    rcases h.ends with ⟨-, hcloses⟩ | ⟨hclosing, -⟩
    · exact absurd (hnext.surplus _ hnext.lt (Nat.le_refl _)) hcloses.2
    · exact absurd hi (h.not_inParens_stop hclosing)
  · exact hlt

/-- A list holds the tokens of the group that it starts with. -/
theorem holdsIndex_iff : l.holdsIndex i = true ↔ InParens tokens l.opening i := by
  have hlt := h.lt
  constructor
  · intro hi
    simp only [holdsIndex, Bool.and_eq_true, decide_eq_true_eq] at hi
    rcases h.ends with ⟨hclosing, hcloses⟩ | ⟨hclosing, -⟩
    · rw [hclosing, Option.getD_some] at hi
      rcases Nat.eq_or_lt_of_le hi.2 with rfl | hlt
      · exact hcloses.1
      · exact h.inParens_of_lt hi.1 hlt
    · rw [hclosing, Option.getD_none] at hi
      exact h.inParens_of_lt hi.1 (by omega)
  · intro hi
    have hle := h.le_stop hi
    rcases h.ends with ⟨hclosing, -⟩ | ⟨hclosing, -⟩
    · simp [holdsIndex, hclosing, hi.le, hle]
    · have hne : i ≠ l.stop := fun he => h.not_inParens_stop hclosing (he ▸ hi)
      exact h.holdsIndex_of_lt hi.le (by omega)

/-- A list is closed where its group is. -/
theorem closing_eq_some_iff : l.closing = some c ↔ ClosesAt tokens l.opening c := by
  constructor
  · intro hclosing
    rcases h.ends with ⟨hstop, hcloses⟩ | ⟨hnone, -⟩
    · obtain rfl := Option.some.inj (hclosing.symm.trans hstop)
      exact hcloses
    · cases hclosing.symm.trans hnone
  · intro hc
    have hstop := Nat.le_antisymm (h.le_stop hc.1) (h.stop_le_of_closesAt hc)
    rcases h.ends with ⟨hclosing, -⟩ | ⟨hclosing, -⟩
    · rw [hclosing, hstop]
    · exact absurd (hstop ▸ hc.1) (h.not_inParens_stop hclosing)

end ParamList.Spans

/-- A token belongs to a parameter list exactly if it belongs to the group of a round bracket. -/
theorem exists_holdsIndex_iff :
    (∃ l ∈ paramLists tokens, l.holdsIndex i = true) ↔ ∃ o, InParens tokens o i := by
  constructor
  · rintro ⟨l, hl, hi⟩
    exact ⟨l.opening, (spans_of_mem_paramLists hl).holdsIndex_iff.1 hi⟩
  · rintro ⟨o, ho⟩
    obtain ⟨t, ht, hopen⟩ := ho.opens
    obtain ⟨l, hl, hholds⟩ := exists_holdsIndex_of_opening (j := o) rfl
      (fun l hl => spans_of_mem_paramLists hl) nofun (Nat.zero_le o) ht hopen
    have hspans := spans_of_mem_paramLists hl
    exact ⟨l, hl, hspans.holdsIndex_iff.2 ((hspans.holdsIndex_iff.1 hholds).trans ho)⟩

/-- Two lists that hold one token are one. -/
theorem eq_of_holdsIndex {l' : ParamList} (hl : l ∈ paramLists tokens)
    (hl' : l' ∈ paramLists tokens) (hi : l.holdsIndex i = true) (hi' : l'.holdsIndex i = true) :
    l = l' := by
  have hs := spans_of_mem_paramLists hl
  have hs' := spans_of_mem_paramLists hl'
  rw [hs.holdsIndex_iff] at hi
  rw [hs'.holdsIndex_iff] at hi'
  have hapart := List.pairwise_iff_getElem.1 (pairwise_paramListsFrom 0 none tokens)
  obtain ⟨n, hn, rfl⟩ := List.getElem_of_mem hl
  obtain ⟨n', hn', rfl⟩ := List.getElem_of_mem hl'
  have hle := hs.le_stop hi
  have hle' := hs'.le_stop hi'
  have hge := hi.le
  have hge' := hi'.le
  rcases Nat.lt_trichotomy n n' with hlt | rfl | hlt
  · have := hapart n n' hn hn' hlt
    unfold paramLists at *
    omega
  · rfl
  · have := hapart n' n hn' hn hlt
    unfold paramLists at *
    omega

/-- The parameter lists are the groups that lie in no other one. -/
theorem exists_opening_eq_iff :
    (∃ l ∈ paramLists tokens, l.opening = o) ↔ StartsList tokens o := by
  constructor
  · rintro ⟨l, hl, rfl⟩
    have hspans := spans_of_mem_paramLists hl
    have hself := hspans.inParens_of_lt (Nat.le_refl _) hspans.lt
    refine ⟨hself, fun o' ho' hin => ?_⟩
    obtain ⟨t, ht, hopen⟩ := hin.opens
    obtain ⟨l', hl', hholds⟩ := exists_holdsIndex_iff.2 ⟨o', .refl ht hopen⟩
    have hspans' := spans_of_mem_paramLists hl'
    have hin' := hspans'.holdsIndex_iff.1 hholds
    obtain rfl := eq_of_holdsIndex hl' hl (hspans'.holdsIndex_iff.2 (hin'.trans hin))
      (hspans.holdsIndex_iff.2 hself)
    exact absurd hin'.le (Nat.not_le.2 ho')
  · rintro ⟨hself, hfirst⟩
    obtain ⟨l, hl, hholds⟩ := exists_holdsIndex_iff.2 ⟨o, hself⟩
    have hin := (spans_of_mem_paramLists hl).holdsIndex_iff.1 hholds
    refine ⟨l, hl, ?_⟩
    rcases Nat.eq_or_lt_of_le hin.le with heq | hlt
    · exact heq
    · exact absurd hin (hfirst _ hlt)

/-! ## Parameters -/

/-- A run ends before the first element that does not belong to it. -/
theorem mem_takeWhile_iff {α : Type} {p : α → Bool} {a : α} {as : List α} :
    a ∈ as.takeWhile p ↔
      ∃ n : Nat, as[n]? = some a ∧ ∀ (m : Nat) (b : α), m ≤ n → as[m]? = some b → p b = true := by
  induction as with
  | nil => simp
  | cons b as ih =>
    by_cases hb : p b = true
    · rw [List.takeWhile_cons_of_pos hb, List.mem_cons, ih]
      constructor
      · rintro (rfl | ⟨n, hn, hall⟩)
        · refine ⟨0, rfl, fun m c hm hc => ?_⟩
          obtain rfl := Nat.le_zero.1 hm
          obtain rfl : a = c := Option.some.inj hc
          exact hb
        · refine ⟨n + 1, hn, fun m c hm hc => ?_⟩
          cases m with
          | zero => exact Option.some.inj hc ▸ hb
          | succ m => exact hall m c (Nat.le_of_succ_le_succ hm) hc
      · rintro ⟨n, hn, hall⟩
        cases n with
        | zero => exact .inl (Option.some.inj hn).symm
        | succ n =>
          exact .inr ⟨n, hn, fun m c hm hc => hall (m + 1) c (Nat.succ_le_succ hm) hc⟩
    · rw [List.takeWhile_cons_of_neg hb]
      constructor
      · nofun
      · rintro ⟨n, -, hall⟩
        exact absurd (hall 0 b (Nat.zero_le n) rfl) hb

/-- The parameters of a list are its tokens before the first arrow. -/
theorem ParamList.mem_parameters_iff :
    t ∈ l.parameters tokens ↔ ∃ i, l.opening < i ∧ i < l.stop ∧ tokens[i]? = some t ∧
      ∀ j s, l.opening < j → j ≤ i → tokens[j]? = some s → s.kind ≠ .arrow := by
  have hinner : ∀ n s, (l.inner tokens)[n]? = some s ↔
      l.opening + 1 + n < l.stop ∧ tokens[l.opening + 1 + n]? = some s := by
    intro n s
    rw [inner, List.getElem?_take, List.getElem?_drop]
    split
    · next hn => exact ⟨fun h => ⟨by omega, h⟩, And.right⟩
    · next hn => exact ⟨nofun, fun h => absurd h.1 (by omega)⟩
  rw [parameters, mem_takeWhile_iff]
  constructor
  · rintro ⟨n, hn, hall⟩
    obtain ⟨hlt, hget⟩ := (hinner n t).1 hn
    refine ⟨l.opening + 1 + n, by omega, hlt, hget, fun j s hoj hj hs => ?_⟩
    obtain ⟨m, rfl⟩ := Nat.exists_eq_add_of_le (Nat.succ_le_of_lt hoj)
    exact of_decide_eq_true (hall m s (by omega) ((hinner m s).2 ⟨by omega, hs⟩))
  · rintro ⟨i, hoi, hi, hget, hall⟩
    obtain ⟨n, rfl⟩ := Nat.exists_eq_add_of_le (Nat.succ_le_of_lt hoi)
    refine ⟨n, (hinner n t).2 ⟨hi, hget⟩, fun m s hm hs => decide_eq_true ?_⟩
    exact hall _ s (by omega) (by omega) ((hinner m s).1 hs).2

/-- The parameter names of a list are those that stand in its group. -/
theorem ParamList.Spans.mem_parameterNames_iff (h : l.Spans tokens) {x : String} :
    x ∈ l.parameterNames tokens ↔ HasParameter tokens l.opening x := by
  rw [ParamList.parameterNames, List.mem_map]
  simp only [List.mem_filter, decide_eq_true_eq, ParamList.mem_parameters_iff]
  constructor
  · rintro ⟨t, ⟨⟨i, hoi, hi, ht, hall⟩, hkind⟩, htext⟩
    exact ⟨i, t, h.inParens_of_lt (Nat.le_of_lt hoi) hi, ht, hkind, htext,
      fun j s hoj hj => hall j s hoj (Nat.le_of_lt hj)⟩
  · rintro ⟨i, t, hin, ht, hkind, htext, hall⟩
    have hne : l.opening ≠ i := by
      rintro rfl
      obtain ⟨t', ht', hopen⟩ := hin.opens
      obtain rfl := Option.some.inj (ht.symm.trans ht')
      cases hkind.symm.trans hopen
    have hstop := h.lt_stop_of_kind hin ht (by rw [hkind]; nofun) (by rw [hkind]; nofun)
    refine ⟨t, ⟨⟨i, Nat.lt_of_le_of_ne hin.le hne, hstop, ht, fun j s hoj hji hs => ?_⟩, hkind⟩,
      htext⟩
    rcases Nat.eq_or_lt_of_le hji with rfl | hlt
    · obtain rfl := Option.some.inj (ht.symm.trans hs)
      rw [hkind]
      nofun
    · exact hall j s hoj hlt hs

end StackEditor
