import StackEditor.Proofs.Analysis.Balance
import StackEditor.Proofs.Analysis.Resolution

/-!
# Partners

Two brackets of a pair are partners if what stands between them is balanced (`Partners`). Where the
bracket check reports nothing, every bracket that opens has its partner (`exists_partners`), and the
check meets the partner with that bracket on top of its stack (`checkBracketsFrom_drop`).

Parameter lists and bodies are found by other walks. They keep no stack: the one counts round
brackets and stops at braces, the other counts braces. On such tokens they come to the same ends
nevertheless (`lists_and_bodies_end_at_partners`). Balance bounds the counts of every pair alike, so
the group that a walk counts out ends at the partner of its bracket, and a brace that cuts off a
list is one that opens.
-/

namespace StackEditor

open Analysis

variable {tokens ts stack : List Token} {t : Token} {pair : Bracket} {o c i j d b : Nat}

/-! ## Counting in balanced tokens -/

/-- Balanced tokens open and close as many brackets of each pair. -/
theorem Balanced.countP_closing (h : Balanced ts) (pair : Bracket) :
    ts.countP (·.kind = .closing pair) = ts.countP (·.kind = .opening pair) := by
  have hcount := countP_closing_of_checkBracketsFrom (checkBrackets_eq_nil_iff.2 h) pair
  rwa [List.countP_nil, Nat.add_zero] at hcount

/-- Up to any token, balanced tokens close no more brackets of a pair than they open. -/
theorem Balanced.countP_closing_take_le (h : Balanced ts) (pair : Bracket) (n : Nat) :
    (ts.take n).countP (·.kind = .closing pair) ≤ (ts.take n).countP (·.kind = .opening pair) := by
  have hwhole := h.countP_closing pair
  have hends := groupsEnd_of_checkBrackets (checkBrackets_eq_nil_iff.2 h) pair n
  unfold Surplus at hends
  rw [← List.take_append_drop n ts, List.countP_append, List.countP_append] at hwhole
  omega

/-! ## Parts of the tokens -/

/-- What lies between two places, as a part of what follows the first. -/
theorem between_eq_take (tokens : List Token) (o i : Nat) :
    between tokens o i = (tokens.drop o).take (i - o) :=
  List.drop_take

/-- What lies between two places and what follows the second make up what follows the first. -/
theorem between_append_drop (h : o ≤ i) : between tokens o i ++ tokens.drop i = tokens.drop o := by
  obtain ⟨n, rfl⟩ := Nat.exists_eq_add_of_le h
  rw [between_eq_take, Nat.add_sub_cancel_left, ← List.drop_drop, List.take_append_drop]

/-- The first token, and those behind it. -/
theorem between_eq_cons (ht : tokens[o]? = some t) (h : o < i) (hi : i ≤ tokens.length) :
    between tokens o i = t :: between tokens (o + 1) i := by
  rw [← between_append (Nat.le_succ o) h hi, between_succ ht (Nat.le_refl o), between_self]
  rfl

/-- The tokens up to an index before are the first ones. -/
theorem between_eq_take_between (h : j ≤ i) :
    between tokens o j = (between tokens o i).take (j - o) := by
  rw [between_eq_take, between_eq_take, List.take_take, Nat.min_eq_left (by omega)]

/-- What lies between two places stands at a place between them. -/
theorem mem_between (h : t ∈ between tokens o i) : ∃ j, o ≤ j ∧ j < i ∧ tokens[j]? = some t := by
  obtain ⟨n, hn⟩ := List.mem_iff_getElem?.1 h
  rw [between_eq_take, List.getElem?_take, List.getElem?_drop] at hn
  split at hn
  · exact ⟨o + n, Nat.le_add_right o n, by omega, hn⟩
  · cases hn

/-- What follows a place starts with the token there. -/
theorem drop_eq_cons (ht : tokens[o]? = some t) : tokens.drop o = t :: tokens.drop (o + 1) := by
  obtain ⟨ho, rfl⟩ := List.getElem?_eq_some_iff.1 ht
  exact List.drop_eq_getElem_cons ho

/-! ## Partners -/

/-- The tokens with the indices `o` and `c` are two brackets of a pair that belong together: the one
opens, the other closes, and the brackets in between are balanced. -/
structure Partners (pair : Bracket) (tokens : List Token) (o c : Nat) : Prop where
  opens : ∃ t, tokens[o]? = some t ∧ t.kind = .opening pair
  closes : ∃ t, tokens[c]? = some t ∧ t.kind = .closing pair
  lt : o < c
  balanced : Balanced (between tokens (o + 1) c)

/-- Where the bracket check reports nothing, every bracket that opens has a partner. -/
theorem exists_partners (h : checkBrackets tokens = []) (ht : tokens[o]? = some t)
    (hopen : t.kind = .opening pair) : ∃ c, Partners pair tokens o c := by
  obtain ⟨stack, hdrop⟩ := exists_checkBracketsFrom_drop h o
  rw [drop_eq_cons ht, checkBracketsFrom_opening hopen] at hdrop
  obtain ⟨ts, s, rest, hts, hbalanced, hclose, -⟩ :=
    exists_closing_of_checkBracketsFrom hopen hdrop
  refine ⟨o + 1 + ts.length, ⟨t, ht, hopen⟩, ⟨s, ?_, hclose⟩, by omega, ?_⟩
  · rw [← List.getElem?_drop, hts, List.getElem?_append_right (Nat.le_refl _), Nat.sub_self]
    rfl
  · rwa [between_eq_take, Nat.add_sub_cancel_left, hts, List.take_left]

namespace Partners

variable (h : Partners pair tokens o c)
include h

/-- The check comes to a bracket that closes with its partner on top of the stack. -/
theorem checkBracketsFrom_drop (ht : tokens[o]? = some t) (stack : List Token) :
    checkBracketsFrom stack (tokens.drop o) = checkBracketsFrom (t :: stack) (tokens.drop c) := by
  obtain ⟨t', ht', hopen⟩ := h.opens
  obtain rfl := Option.some.inj (ht.symm.trans ht')
  rw [drop_eq_cons ht, checkBracketsFrom_opening hopen, ← between_append_drop h.lt,
    checkBracketsFrom_append_of_balanced h.balanced]

/-- A partner stands in the source. -/
theorem lt_length : c < tokens.length := by
  obtain ⟨t, ht, -⟩ := h.closes
  exact (List.getElem?_eq_some_iff.1 ht).1

/-- Up to its partner, a bracket is open. -/
theorem surplus (hoj : o < j) (hjc : j ≤ c) : Surplus pair (between tokens o j) := by
  obtain ⟨t, ht, hopen⟩ := h.opens
  have hlength := h.lt_length
  have hle := h.balanced.countP_closing_take_le pair (j - (o + 1))
  rw [← between_eq_take_between hjc] at hle
  unfold Surplus
  rw [between_eq_cons ht hoj (by omega)]
  simp only [List.countP_cons, hopen, decide_true, if_true, reduceCtorEq, decide_false,
    Bool.false_eq_true, if_false]
  omega

/-- Behind its partner, a bracket is closed. -/
theorem not_surplus : ¬ Surplus pair (between tokens o (c + 1)) := by
  obtain ⟨t, ht, hopen⟩ := h.opens
  obtain ⟨s, hs, hclose⟩ := h.closes
  have hlt := h.lt
  have hcount := h.balanced.countP_closing pair
  unfold Surplus
  rw [between_succ hs (Nat.le_of_lt hlt), between_eq_cons ht hlt (Nat.le_of_lt h.lt_length)]
  simp only [List.cons_append, List.countP_cons, List.countP_append, List.countP_nil, hopen, hclose,
    decide_true, if_true, reduceCtorEq, decide_false, Bool.false_eq_true, if_false]
  omega

/-- The partner counts the bracket out. -/
theorem countsOut : CountsOut pair tokens o c :=
  InGroup.countsOut ⟨h.opens, Nat.le_of_lt h.lt, h.lt_length, fun _ => h.surplus⟩ h.lt h.not_surplus

/-- As long as a walk counts a bracket as open, it is not behind the partner. -/
theorem le_of_pending (hp : Pending pair tokens o i d) : i ≤ c := by
  rcases Nat.lt_or_ge c i with hlt | hle
  · exact absurd (hp.surplus (c + 1) (Nat.lt_succ_of_lt h.lt) hlt) h.not_surplus
  · exact hle

/-- Where a walk counts a bracket as closed, it has come to the partner. -/
theorem le_of_not_surplus (hoi : o ≤ i) (hi : ¬ Surplus pair (between tokens o (i + 1))) :
    c ≤ i := by
  rcases Nat.lt_or_ge i c with hlt | hle
  · exact absurd (h.surplus (Nat.lt_succ_of_le hoi) hlt) hi
  · exact hle

/-- Balanced tokens have no closing brace without an opening one before it. -/
theorem kind_eq_opening_brace (hoi : o < i) (hic : i < c) (ht : tokens[i]? = some t)
    (hbrace : t.IsBrace) (hfirst : ∀ j s, o ≤ j → j < i → tokens[j]? = some s → ¬ s.IsBrace) :
    t.kind = .opening .brace := by
  rcases hbrace with hopen | hclose
  · exact hopen
  · have hle := h.balanced.countP_closing_take_le .brace (i + 1 - (o + 1))
    rw [← between_eq_take_between hic, between_succ ht (show o + 1 ≤ i from hoi)] at hle
    have hnone : (between tokens (o + 1) i).countP (·.kind = .opening .brace) = 0 := by
      refine List.countP_eq_zero.2 fun s hs hopen => ?_
      obtain ⟨j, hoj, hji, hj⟩ := mem_between hs
      exact hfirst j s (Nat.le_of_succ_le hoj) hji hj (.inl (of_decide_eq_true hopen))
    simp only [List.countP_append, List.countP_singleton, hclose, decide_true, if_true,
      reduceCtorEq, decide_false, Bool.false_eq_true, if_false] at hle
    omega

end Partners

/-! ## Parameter lists -/

/-- The parameter list ends at the partner of its bracket, or before that at a brace that opens. -/
inductive ParamList.Fits (tokens : List Token) (l : ParamList) : Prop
  | closed {c : Nat} (partners : Partners .paren tokens l.opening c) (closing : l.closing = some c)
      (stop : l.stop = c)
  | cut {c : Nat} (partners : Partners .paren tokens l.opening c) (closing : l.closing = none)
      (lt_stop : l.opening < l.stop) (stop_lt : l.stop < c) (brace : OpensBrace tokens l.stop)

/-- A list that ends where it should ends in the source. -/
theorem ParamList.Fits.stop_lt_length {l : ParamList} (h : l.Fits tokens) :
    l.stop < tokens.length := by
  cases h with
  | closed hpartners _ hstop => exact hstop ▸ hpartners.lt_length
  | cut hpartners _ _ hlt => exact Nat.lt_trans hlt hpartners.lt_length

/-- With balanced brackets every list ends at its partner or at a brace before it. -/
theorem ParamList.Spans.fits {l : ParamList} (hspans : l.Spans tokens)
    (h : checkBrackets tokens = []) : l.Fits tokens := by
  obtain ⟨d, hinside⟩ := hspans.inside
  obtain ⟨t, ht, hopen⟩ := hinside.opens
  obtain ⟨c, hc⟩ := exists_partners h ht hopen
  have hle := hc.le_of_pending hinside.toPending
  rcases hspans.ends with ⟨hclosing, hcloses⟩ | ⟨hclosing, hbrace⟩
  · have hstop := Nat.le_antisymm hle (hc.le_of_not_surplus hcloses.1.le hcloses.2)
    exact .closed hc (hstop ▸ hclosing) hstop
  · have hs := List.getElem?_eq_getElem (Nat.lt_of_le_of_lt hle hc.lt_length)
    -- The list does not end at the partner, for that is no brace.
    have hlt : l.stop < c := by
      refine Nat.lt_of_le_of_ne hle fun heq => ?_
      obtain ⟨s, hs', hclose⟩ := hc.closes
      exact Token.not_isBrace (.inr hclose) (hbrace s (heq ▸ hs'))
    exact .cut hc hclosing hspans.lt hlt
      ⟨_, hs, hc.kind_eq_opening_brace hspans.lt hlt hs (hbrace _ hs) hinside.noBrace⟩

/-! ## Bodies -/

/-- A body ends behind the partner of its brace. -/
theorem Partners.bodyStop_eq (h : Partners .brace tokens b c) (hc : tokens[c]? = some t)
    (hts : tokens.drop i = ts) (hp : Pending .brace tokens b i d) : bodyStop d ts = t.stop := by
  rcases hp.bodyStop_cases hts with ⟨e, s, hends, hs, hstop⟩ | ⟨hopen, -⟩
  · obtain rfl := hends.unique h.countsOut
    obtain rfl := Option.some.inj (hs.symm.trans hc)
    exact hstop
  · exact absurd (hopen (c + 1) (Nat.lt_succ_of_lt h.lt) h.lt_length) h.not_surplus

/-- The body of the callable goes from a brace to behind the partner of the brace. -/
def Callable.EndsAtPartner (tokens : List Token) (f : Callable) : Prop :=
  ∃ list? b c s t, HasBody tokens f.isFunction list? b ∧ Partners .brace tokens b c ∧
    tokens[b]? = some s ∧ tokens[c]? = some t ∧ f.body = ⟨s.start, t.stop⟩

/-- With balanced brackets every body ends at the partner of its brace. -/
theorem Callable.Stands.endsAtPartner {f : Callable} {list? : Option Nat}
    (hstands : f.Stands tokens list? b) (h : checkBrackets tokens = []) :
    f.EndsAtPartner tokens := by
  obtain ⟨s, hs, hopen, hbody⟩ := bodyRange?_eq_some_iff.1 hstands.range
  obtain ⟨c, hc⟩ := exists_partners h hs hopen
  obtain ⟨t, ht, -⟩ := hc.closes
  rw [hc.bodyStop_eq ht rfl (.start hs hopen)] at hbody
  exact ⟨list?, b, c, s, t, hstands.hasBody, hc, hs, ht, hbody⟩

/-! ## Three walks, one nesting -/

/-- Where the bracket check reports nothing, every parameter list is closed by the partner of its
bracket, or cut off by a brace that opens before it; none goes on up to the end of the tokens. And
every body ends right behind the partner of its brace. -/
theorem lists_and_bodies_end_at_partners (tokens : List Token) (h : checkBrackets tokens = []) :
    (∀ l ∈ paramLists tokens, l.Fits tokens ∧ l.stop < tokens.length) ∧
      ∀ f ∈ (Definitions.collect tokens).callables, f.EndsAtPartner tokens := by
  refine ⟨fun l hl => ?_, fun f hf => ?_⟩
  · have hfits := (spans_of_mem_paramLists hl).fits h
    exact ⟨hfits, hfits.stop_lt_length⟩
  · obtain ⟨list?, b, hstands⟩ := exists_stands_of_mem hf
    exact hstands.endsAtPartner h

/-- A parameter list that is closed, one that a brace cuts off, and the body around the latter. -/
theorem cutList_ends_at_partners :
    checkBrackets (tokenize "fn f ( x ) \x7b ( y \x7b x \x7d ) \x7d") = [] ∧
      paramLists (tokenize "fn f ( x ) \x7b ( y \x7b x \x7d ) \x7d") =
        [⟨2, some 4, 4⟩, ⟨6, none, 8⟩] ∧
      (∀ l ∈ paramLists (tokenize "fn f ( x ) \x7b ( y \x7b x \x7d ) \x7d"),
        l.Fits (tokenize "fn f ( x ) \x7b ( y \x7b x \x7d ) \x7d") ∧
          l.stop < (tokenize "fn f ( x ) \x7b ( y \x7b x \x7d ) \x7d").length) ∧
      Callable.EndsAtPartner (tokenize "fn f ( x ) \x7b ( y \x7b x \x7d ) \x7d")
        ⟨some "f", ["x"], ⟨⟨0, 11⟩, ⟨0, 26⟩⟩⟩ := by
  have h : checkBrackets (tokenize "fn f ( x ) \x7b ( y \x7b x \x7d ) \x7d") = [] := by
    decide +kernel
  obtain ⟨hlists, hbodies⟩ := lists_and_bodies_end_at_partners _ h
  exact ⟨h, by decide +kernel, hlists, hbodies _ (by decide +kernel)⟩

end StackEditor
