import StackEditor.Token

/-!
# Groups of brackets

A bracket that opens starts a group. The group goes on as long as more brackets of its pair were
opened than closed in it, so it ends with the bracket that brings the two numbers together, or with
the last token if no bracket does (`InGroup`). This is said by counting. A walk over the tokens
keeps a number of open brackets instead, and `Pending` says what that number means: every case of
such a walk is one lemma here. The bracket that ends a group is the one that counts it out
(`CountsOut`).
-/

namespace StackEditor

/-! ## Counting -/

/-- The tokens from index `o` up to, and not including, index `i`. -/
def between (tokens : List Token) (o i : Nat) : List Token := (tokens.take i).drop o

/-- More brackets of the pair are opened than closed. -/
def Surplus (pair : Bracket) (tokens : List Token) : Prop :=
  tokens.countP (·.kind = .closing pair) < tokens.countP (·.kind = .opening pair)

variable {pair : Bracket} {tokens : List Token} {t : Token} {o i j c d : Nat}

theorem between_self (tokens : List Token) (o : Nat) : between tokens o o = [] :=
  List.drop_eq_nil_of_le (List.length_take_le o tokens)

/-- From an index on up to the end. -/
theorem between_of_length_le (hi : tokens.length ≤ i) : between tokens o i = tokens.drop o := by
  unfold between
  rw [List.take_of_length_le hi]

/-- One token more. -/
theorem between_succ (ht : tokens[i]? = some t) (hle : o ≤ i) :
    between tokens o (i + 1) = between tokens o i ++ [t] := by
  obtain ⟨hi, -⟩ := List.getElem?_eq_some_iff.1 ht
  have htake : tokens.take (i + 1) = tokens.take i ++ [t] := by
    rw [List.take_add_one, ht]
    rfl
  unfold between
  rw [htake, List.drop_append_of_le_length]
  rw [List.length_take]
  omega

/-- The tokens up to `i` are those up to an index before, and those from it on. -/
theorem between_append (hoj : o ≤ j) (hji : j ≤ i) (hi : i ≤ tokens.length) :
    between tokens o j ++ between tokens j i = between tokens o i := by
  obtain ⟨n, rfl⟩ := Nat.exists_eq_add_of_le hji
  have hlength : (tokens.take j).length = j := by
    rw [List.length_take]
    omega
  unfold between
  rw [List.take_add, List.drop_left' hlength, List.drop_append_of_le_length (by omega)]

/-- More brackets are opened if this is so of two parts. -/
theorem Surplus.append {ts us : List Token} (hts : Surplus pair ts) (hus : Surplus pair us) :
    Surplus pair (ts ++ us) := by
  unfold Surplus at *
  rw [List.countP_append, List.countP_append]
  omega

/-! ## Groups -/

/-- The token with the index `i` belongs to the group that the token with the index `o` opens, its
brackets included. Only brackets of the pair count. -/
structure InGroup (pair : Bracket) (tokens : List Token) (o i : Nat) : Prop where
  opens : ∃ t, tokens[o]? = some t ∧ t.kind = .opening pair
  le : o ≤ i
  lt_length : i < tokens.length
  /-- Up to each token before, the group is not at its end. -/
  surplus : ∀ j, o < j → j ≤ i → Surplus pair (between tokens o j)

/-- A bracket that opens belongs to its own group. -/
theorem InGroup.refl (ht : tokens[o]? = some t) (hopen : t.kind = .opening pair) :
    InGroup pair tokens o o :=
  ⟨⟨t, ht, hopen⟩, Nat.le_refl o, (List.getElem?_eq_some_iff.1 ht).1,
    fun _ hlt hle => absurd hlt (Nat.not_lt.2 hle)⟩

/-- The group goes on where more brackets are opened behind one of its tokens. -/
theorem InGroup.surplus_of_surplus (h : InGroup pair tokens o i) (hij : i ≤ j)
    (hj : j ≤ tokens.length) (hsurplus : Surplus pair (between tokens i j)) :
    Surplus pair (between tokens o j) := by
  rcases Nat.lt_or_ge o i with hoi | hio
  · rw [← between_append h.le hij hj]
    exact (h.surplus i hoi (Nat.le_refl i)).append hsurplus
  · obtain rfl := Nat.le_antisymm hio h.le
    exact hsurplus

/-- The group of a bracket lies in every group that the bracket belongs to. -/
theorem InGroup.trans (h : InGroup pair tokens o i) (h' : InGroup pair tokens i j) :
    InGroup pair tokens o j := by
  refine ⟨h.opens, Nat.le_trans h.le h'.le, h'.lt_length, fun m hm hmj => ?_⟩
  rcases Nat.lt_or_ge i m with him | hmi
  · exact h.surplus_of_surplus (Nat.le_of_lt him) (Nat.le_trans hmj (Nat.le_of_lt h'.lt_length))
      (h'.surplus m him hmj)
  · exact h.surplus m hm hmi

/-- A group that goes on up to `j` goes on up to every index before. -/
theorem InGroup.of_le (h : InGroup pair tokens o j) (hoi : o ≤ i) (hij : i ≤ j) :
    InGroup pair tokens o i :=
  ⟨h.opens, hoi, Nat.lt_of_le_of_lt hij h.lt_length,
    fun m hm hmi => h.surplus m hm (Nat.le_trans hmi hij)⟩

/-! ## The end of a group -/

/-- The token with the index `c` is the first one behind the index `o` that closes as many brackets
as were opened from there on. -/
structure CountsOut (pair : Bracket) (tokens : List Token) (o c : Nat) : Prop where
  lt : o < c
  closes : ∃ t, tokens[c]? = some t ∧ t.kind = .closing pair
  surplus : ∀ j, o ≤ j → j < c → Surplus pair (between tokens o (j + 1))
  count : (between tokens o (c + 1)).countP (·.kind = .opening pair) =
    (between tokens o (c + 1)).countP (·.kind = .closing pair)

/-- Where a group ends, the bracket counts it out: one token takes the surplus away, so it is a
bracket that closes, and the surplus was one. -/
theorem InGroup.countsOut (h : InGroup pair tokens o c) (hoc : o < c)
    (hend : ¬ Surplus pair (between tokens o (c + 1))) : CountsOut pair tokens o c := by
  obtain ⟨t, ht⟩ : ∃ t, tokens[c]? = some t := ⟨_, List.getElem?_eq_getElem h.lt_length⟩
  have hbefore := h.surplus c hoc (Nat.le_refl c)
  have hsplit := between_succ ht h.le
  unfold Surplus at hend hbefore
  rw [hsplit, List.countP_append, List.countP_append] at hend
  by_cases hclose : t.kind = .closing pair
  · refine ⟨hoc, ⟨t, ht, hclose⟩, fun j hoj hjc => h.surplus _ (Nat.lt_succ_of_le hoj) hjc, ?_⟩
    rw [hsplit, List.countP_append, List.countP_append]
    simp only [List.countP_singleton, hclose, decide_true, if_true, reduceCtorEq, decide_false,
      Bool.false_eq_true, if_false] at hend ⊢
    omega
  · simp only [List.countP_singleton, hclose, decide_false, Bool.false_eq_true, if_false] at hend
    omega

namespace CountsOut

variable (h : CountsOut pair tokens o c)
include h

theorem not_surplus : ¬ Surplus pair (between tokens o (c + 1)) := by
  have hcount := h.count
  unfold Surplus
  omega

theorem lt_length : c < tokens.length := by
  obtain ⟨t, ht, -⟩ := h.closes
  exact (List.getElem?_eq_some_iff.1 ht).1

/-- No token behind the end belongs to the group. -/
theorem le_of_inGroup (hi : InGroup pair tokens o i) : i ≤ c := by
  rcases Nat.lt_or_ge c i with hlt | hge
  · exact absurd (hi.surplus (c + 1) (Nat.lt_succ_of_lt h.lt) hlt) h.not_surplus
  · exact hge

/-- All tokens up to the end belong to the group. -/
theorem inGroup (hopens : ∃ t, tokens[o]? = some t ∧ t.kind = .opening pair) (hoi : o ≤ i)
    (hic : i ≤ c) : InGroup pair tokens o i := by
  refine ⟨hopens, hoi, Nat.lt_of_le_of_lt hic h.lt_length, fun j hoj hji => ?_⟩
  obtain ⟨j, rfl⟩ := Nat.exists_eq_add_one_of_ne_zero (Nat.ne_zero_of_lt hoj)
  exact h.surplus j (Nat.le_of_lt_succ hoj) (Nat.lt_of_lt_of_le hji hic)

/-- A group is counted out once. -/
theorem unique {c' : Nat} (h' : CountsOut pair tokens o c') : c = c' := by
  rcases Nat.lt_trichotomy c c' with hlt | heq | hlt
  · exact absurd (h'.surplus c (Nat.le_of_lt h.lt) hlt) h.not_surplus
  · exact heq
  · exact absurd (h.surplus c' (Nat.le_of_lt h'.lt) hlt) h'.not_surplus

end CountsOut

/-! ## The walk over a group -/

/-- The first of the tokens that are left. -/
theorem getElem?_of_drop_eq_cons {ts : List Token} (h : tokens.drop i = t :: ts) :
    tokens[i]? = some t ∧ tokens.drop (i + 1) = ts := by
  constructor
  · rw [← List.head?_drop, h]
    rfl
  · rw [← List.tail_drop, h]
    rfl

/-- Before the token with the index `i`, the group of the token with the index `o` is not at its
end: `d` brackets more are open in it than its own. -/
structure Pending (pair : Bracket) (tokens : List Token) (o i d : Nat) : Prop where
  opens : ∃ t, tokens[o]? = some t ∧ t.kind = .opening pair
  lt : o < i
  surplus : ∀ j, o < j → j ≤ i → Surplus pair (between tokens o j)
  count : (between tokens o i).countP (·.kind = .opening pair) =
    (between tokens o i).countP (·.kind = .closing pair) + (d + 1)

namespace Pending

/-- A bracket starts its group. -/
theorem start (ht : tokens[o]? = some t) (hopen : t.kind = .opening pair) :
    Pending pair tokens o (o + 1) 0 := by
  have hone : between tokens o (o + 1) = [t] := by
    rw [between_succ ht (Nat.le_refl o), between_self, List.nil_append]
  have hsurplus : Surplus pair (between tokens o (o + 1)) := by
    simp [hone, Surplus, hopen]
  refine ⟨⟨t, ht, hopen⟩, Nat.lt_succ_self o, fun j hlt hle => ?_, ?_⟩
  · obtain rfl : j = o + 1 := by omega
    exact hsurplus
  · simp [hone, hopen]

/-- A group that is not at its end has the tokens on the way, and the next one. -/
theorem inGroup (h : Pending pair tokens o i d) (hoj : o ≤ j) (hji : j ≤ i)
    (hj : j < tokens.length) : InGroup pair tokens o j :=
  ⟨h.opens, hoj, hj, fun m hm hmj => h.surplus m hm (Nat.le_trans hmj hji)⟩

/-- One token more, if the group is not at its end then. -/
theorem succ {d' : Nat} (h : Pending pair tokens o i d)
    (hcount : (between tokens o (i + 1)).countP (·.kind = .opening pair) =
      (between tokens o (i + 1)).countP (·.kind = .closing pair) + (d' + 1)) :
    Pending pair tokens o (i + 1) d' := by
  refine ⟨h.opens, Nat.lt_succ_of_lt h.lt, fun j hlt hle => ?_, hcount⟩
  rcases Nat.lt_or_ge i j with hij | hji
  · obtain rfl : j = i + 1 := by omega
    unfold Surplus
    omega
  · exact h.surplus j hlt hji

/-- One more bracket is open behind one that opens. -/
theorem opening (h : Pending pair tokens o i d) (ht : tokens[i]? = some t)
    (hopen : t.kind = .opening pair) : Pending pair tokens o (i + 1) (d + 1) := by
  have hcount := h.count
  refine h.succ ?_
  rw [between_succ ht (Nat.le_of_lt h.lt)]
  simp only [List.countP_append, List.countP_singleton, hopen, decide_true, if_true, reduceCtorEq,
    decide_false, Bool.false_eq_true, if_false]
  omega

/-- One bracket less is open behind one that closes, if that is not the group's own. -/
theorem closing (h : Pending pair tokens o i (d + 1)) (ht : tokens[i]? = some t)
    (hclose : t.kind = .closing pair) : Pending pair tokens o (i + 1) d := by
  have hcount := h.count
  refine h.succ ?_
  rw [between_succ ht (Nat.le_of_lt h.lt)]
  simp only [List.countP_append, List.countP_singleton, hclose, decide_true, if_true, reduceCtorEq,
    decide_false, Bool.false_eq_true, if_false]
  omega

/-- Another token changes nothing. -/
theorem other (h : Pending pair tokens o i d) (ht : tokens[i]? = some t)
    (hopen : t.kind ≠ .opening pair) (hclose : t.kind ≠ .closing pair) :
    Pending pair tokens o (i + 1) d := by
  have hcount := h.count
  refine h.succ ?_
  rw [between_succ ht (Nat.le_of_lt h.lt)]
  simp only [List.countP_append, List.countP_singleton, hopen, hclose, decide_false,
    Bool.false_eq_true, if_false]
  omega

/-- Where the last bracket is closed, the brackets opened and closed are as many. -/
theorem not_surplus (h : Pending pair tokens o i 0) (ht : tokens[i]? = some t)
    (hclose : t.kind = .closing pair) : ¬ Surplus pair (between tokens o (i + 1)) := by
  have hcount := h.count
  unfold Surplus
  rw [between_succ ht (Nat.le_of_lt h.lt)]
  simp only [List.countP_append, List.countP_singleton, hclose, decide_true, if_true, reduceCtorEq,
    decide_false, Bool.false_eq_true, if_false]
  omega

/-- There the group is counted out. -/
theorem countsOut (h : Pending pair tokens o i 0) (ht : tokens[i]? = some t)
    (hclose : t.kind = .closing pair) : CountsOut pair tokens o i :=
  (h.inGroup (Nat.le_of_lt h.lt) (Nat.le_refl i) (List.getElem?_eq_some_iff.1 ht).1).countsOut h.lt
    (h.not_surplus ht hclose)

end Pending

end StackEditor
