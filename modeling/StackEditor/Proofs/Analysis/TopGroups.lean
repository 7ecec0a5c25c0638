import Mathlib.Logic.ExistsUnique
import StackEditor.Proofs.Analysis.Resolution

/-!
# Parameter lists are the outermost groups of round brackets

The walk keeps an opener and a number. What it finds is said here without either: each list starts
with a round bracket and goes on up to the bracket that counts it out (`CountsOut`), or up to a
brace or the end of the tokens if there is no such bracket before (`ParamList.Delimits`). The lists
come in order, hold no token in common, and hold together exactly the tokens of the groups that
round brackets start; stray brackets and braces around them change nothing
(`paramLists_topGroups`).
-/

namespace StackEditor

variable {tokens : List Token} {t : Token} {o c i j : Nat} {l : ParamList}

/-- A round bracket opens at the index `o`. -/
def OpensParen (tokens : List Token) (o : Nat) : Prop :=
  ∃ t, tokens[o]? = some t ∧ t.kind = .opening .paren

/-- A list from its opening bracket to its end. The tokens inside are those between the two. -/
structure ParamList.Delimits (tokens : List Token) (l : ParamList) : Prop where
  opens : OpensParen tokens l.opening
  lt : l.opening < l.stop
  stop_le : l.stop ≤ tokens.length
  /-- The first arrow lies inside, so both parts of the list do. -/
  arrow : ∀ a, l.arrow? tokens = some a → l.opening < a ∧ a < l.stop
  noBrace : ∀ j t, l.opening ≤ j → j < l.stop → tokens[j]? = some t → ¬ t.IsBrace
  ends : (l.closing = some l.stop ∧ CountsOut .paren tokens l.opening l.stop) ∨
    (l.closing = none ∧ ¬ CountsOut .paren tokens l.opening l.stop ∧
      (l.stop = tokens.length ∨ ∃ t, tokens[l.stop]? = some t ∧ t.IsBrace))

/-- The arrow of a list stands inside it. -/
theorem ParamList.arrow?_bounds {a : Nat} (hlt : l.opening < l.stop) (hle : l.stop ≤ tokens.length)
    (h : l.arrow? tokens = some a) : l.opening < a ∧ a < l.stop := by
  have hlength : (l.inner tokens).length = l.stop - (l.opening + 1) := by
    rw [inner, List.length_take, List.length_drop]
    omega
  unfold arrow? at h
  split at h
  · cases h
    omega
  · cases h

theorem ParamList.Spans.delimits (h : l.Spans tokens) : l.Delimits tokens := by
  obtain ⟨d, hin⟩ := h.inside
  refine ⟨hin.opens, h.lt, h.stop_le, fun a => ParamList.arrow?_bounds h.lt h.stop_le, hin.noBrace,
    ?_⟩
  rcases h.ends with ⟨hclosing, hcloses⟩ | ⟨hclosing, hbrace⟩
  · exact .inl ⟨hclosing, hcloses.1.toInGroup.countsOut h.lt hcloses.2⟩
  · refine .inr ⟨hclosing, fun hcounts => ?_, ?_⟩
    · obtain ⟨t, ht, hclose⟩ := hcounts.closes
      exact Token.not_isBrace (.inr hclose) (hbrace t ht)
    · rcases Nat.eq_or_lt_of_le h.stop_le with heq | hlt
      · exact .inl heq
      · have ht := List.getElem?_eq_getElem hlt
        exact .inr ⟨_, ht, hbrace _ ht⟩

/-- A token belongs to the group of a round bracket if the bracket is still open before it, and no
brace stands from the bracket up to it. -/
theorem inParens_iff (hi : i < tokens.length) : InParens tokens o i ↔
    o ≤ i ∧ OpensParen tokens o ∧
      (∀ j t, o ≤ j → j ≤ i → tokens[j]? = some t → ¬ t.IsBrace) ∧
        ∀ j, o ≤ j → j < i → Surplus .paren (between tokens o (j + 1)) := by
  constructor
  · intro h
    exact ⟨h.le, h.opens, h.noBrace, fun j hoj hji => h.surplus _ (Nat.lt_succ_of_le hoj) hji⟩
  · rintro ⟨hle, hopens, hbrace, hsurplus⟩
    refine ⟨⟨hopens, hle, hi, fun j hoj hji => ?_⟩, hbrace⟩
    obtain ⟨j, rfl⟩ := Nat.exists_eq_add_one_of_ne_zero (Nat.ne_zero_of_lt hoj)
    exact hsurplus j (Nat.le_of_lt_succ hoj) hji

/-- What comes up to the end of a list comes before the next list. -/
theorem ParamList.Spans.lt_of_holdsIndex {l' : ParamList} (h : l.Spans tokens)
    (h' : l'.Spans tokens) (hlt : l.stop < l'.opening) (hi : l.holdsIndex i = true)
    (hj : l'.holdsIndex j = true) : i < j := by
  have hle := h.le_stop (h.holdsIndex_iff.1 hi)
  have hge := (h'.holdsIndex_iff.1 hj).le
  omega

/-- The parameter lists come in order, and every token of a list comes before those of the next.
Each is delimited as it should be. A token belongs to one of them exactly if a round bracket before
it, or it itself, is still open up to it with no brace on the way; so every round bracket that opens
belongs to exactly one list. -/
theorem paramLists_topGroups (tokens : List Token) :
    ((paramLists tokens).Pairwise fun l l' => l.stop < l'.opening ∧
        ∀ i j, l.holdsIndex i = true → l'.holdsIndex j = true → i < j) ∧
      (∀ l ∈ paramLists tokens, l.Delimits tokens) ∧
      (∀ i < tokens.length, (Definitions.collect tokens).inParamList i = true ↔
        ∃ o ≤ i, OpensParen tokens o ∧
          (∀ j t, o ≤ j → j ≤ i → tokens[j]? = some t → ¬ t.IsBrace) ∧
            ∀ j, o ≤ j → j < i → Surplus .paren (between tokens o (j + 1))) ∧
      ∀ i, OpensParen tokens i → ∃! l, l ∈ paramLists tokens ∧ l.holdsIndex i = true := by
  refine ⟨?order, fun l hl => (spans_of_mem_paramLists hl).delimits, fun i hi => ?inside,
    fun i ⟨t, ht, hopen⟩ => ?unique⟩
  case order =>
    refine (pairwise_paramListsFrom 0 none tokens).imp_of_mem fun hl hl' hlt => ⟨hlt, fun i j => ?_⟩
    exact (spans_of_mem_paramLists hl).lt_of_holdsIndex (spans_of_mem_paramLists hl') hlt
  case inside =>
    rw [inParamList_iff]
    exact exists_congr fun o => inParens_iff hi
  case unique =>
    obtain ⟨l, hl, hholds⟩ := exists_holdsIndex_iff.2 ⟨i, .refl ht hopen⟩
    exact ⟨l, ⟨hl, hholds⟩, fun l' h' => eq_of_holdsIndex h'.1 hl h'.2 hholds⟩

end StackEditor
