import StackEditor.Analysis.Brackets
import StackEditor.Proofs.Analysis.Nesting

/-!
# Tokens whose brackets match

Where the bracket check reports nothing, all groups end (`groupsEnd_of_checkBrackets`): the check
keeps the open brackets on a stack, and what it reads of the tokens that are left closes them all.
-/

namespace StackEditor

/-- All groups end with the tokens at the latest: from each token on, brackets of a pair are closed
as often as opened, or more often. -/
def GroupsEnd (tokens : List Token) : Prop := ∀ pair i, ¬ Surplus pair (tokens.drop i)

/-- Where the groups of two stretches end, so do those of both. -/
theorem GroupsEnd.append {tokens tokens' : List Token} (h : GroupsEnd tokens)
    (h' : GroupsEnd tokens') : GroupsEnd (tokens ++ tokens') := by
  intro pair i
  have hleft := h pair i
  have hright := h' pair (i - tokens.length)
  unfold Surplus at *
  rw [List.drop_append, List.countP_append, List.countP_append]
  omega

open Analysis

variable {stack tokens : List Token} {t : Token} {pair : Bracket}

theorem isOpening_iff {k : Token.Kind} : k.isOpening = true ↔ ∃ p, k = .opening p := by
  cases k <;> simp [Token.Kind.isOpening]

/-- Each opening kind has the closing kind of its pair, and no other kind has one. -/
theorem closingPair?_eq_some_iff {k k' : Token.Kind} :
    k.closingPair? = some k' ↔ ∃ p, k = .opening p ∧ k' = .closing p := by
  cases k <;> simp [Token.Kind.closingPair?, eq_comm]

/-- A check without reports closes what it opens and what is on the stack. -/
theorem countP_closing_of_checkBracketsFrom (h : checkBracketsFrom stack tokens = [])
    (pair : Bracket) :
    tokens.countP (·.kind = .closing pair) =
      tokens.countP (·.kind = .opening pair) + stack.countP (·.kind = .opening pair) := by
  fun_induction checkBracketsFrom stack tokens with
  | case1 stack =>
    rw [List.map_eq_nil_iff, List.reverse_eq_nil_iff] at h
    subst h
    rfl
  | case2 stack t ts hopening ih =>
    have hcount := ih h
    obtain ⟨p, hp⟩ := isOpening_iff.1 hopening
    simp only [List.countP_cons, hp, reduceCtorEq, decide_false, Bool.false_eq_true, if_false]
      at hcount ⊢
    omega
  | case3 => cases h
  | case4 t ts hopening hclosing o rest hpair ih =>
    have hcount := ih h
    obtain ⟨p, ho, hp⟩ := closingPair?_eq_some_iff.1 hpair
    simp only [List.countP_cons, ho, hp, Token.Kind.opening.injEq, Token.Kind.closing.injEq,
      reduceCtorEq, decide_false, Bool.false_eq_true, if_false] at hcount ⊢
    omega
  | case5 => cases h
  | case6 stack t ts hopening hclosing ih =>
    have hcount := ih h
    have ho : t.kind ≠ .opening pair := fun hk => hopening (by rw [hk]; rfl)
    have hc : t.kind ≠ .closing pair := fun hk => hclosing (by rw [hk]; rfl)
    rw [List.countP_cons_of_neg (by simpa using hc), List.countP_cons_of_neg (by simpa using ho)]
    exact hcount

/-- After one token a check without reports goes on without reports. -/
theorem exists_checkBracketsFrom_tail (h : checkBracketsFrom stack (t :: tokens) = []) :
    ∃ stack', checkBracketsFrom stack' tokens = [] := by
  unfold checkBracketsFrom at h
  split at h
  · exact ⟨_, h⟩
  split at h
  · split at h
    · cases h
    split at h
    · exact ⟨_, h⟩
    · cases h
  · exact ⟨_, h⟩

/-- The check passes from any place on, with what is open there. -/
theorem exists_checkBracketsFrom_drop (h : checkBracketsFrom stack tokens = []) (i : Nat) :
    ∃ stack', checkBracketsFrom stack' (tokens.drop i) = [] := by
  induction i generalizing stack tokens with
  | zero => exact ⟨stack, h⟩
  | succ i ih =>
    cases tokens with
    | nil => exact ⟨stack, h⟩
    | cons t ts =>
      obtain ⟨stack', h'⟩ := exists_checkBracketsFrom_tail h
      exact ih h'

/-- Where the bracket check reports nothing, all groups end. -/
theorem groupsEnd_of_checkBrackets (h : checkBrackets tokens = []) : GroupsEnd tokens := by
  intro pair i
  obtain ⟨stack, hdrop⟩ := exists_checkBracketsFrom_drop h i
  have hcount := countP_closing_of_checkBracketsFrom hdrop pair
  unfold Surplus
  omega

end StackEditor
