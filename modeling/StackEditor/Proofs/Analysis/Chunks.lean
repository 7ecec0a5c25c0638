import StackEditor.Proofs.Analysis.Brackets
import StackEditor.Proofs.Analysis.Resolution

/-!
# A part of the tokens with scopes of its own

A `Chunk` is a stretch of the tokens whose groups of brackets end in it, with no group and no
declaration that reaches over one of its ends. The rules of scope can then be read off the chunk
alone: which tokens belong to a parameter list (`inParens_add`), what is declared
(`declaresAt_add`), and which names a body binds (`binds_add`). Only definitions are seen from
everywhere, so a name that is unaccounted for in the chunk may have its definition outside of it
(`unaccounted_add`).
-/

namespace StackEditor

variable {pair : Bracket} {tokens whole part : List Token} {s t : Token} {x : String}
  {what : Declares} {n m o o' i j b c k : Nat}

/-! ## Tokens further down -/

/-- Moving tokens down changes no count of brackets. -/
theorem surplus_map_down : Surplus pair (tokens.map (Token.down m)) ↔ Surplus pair tokens := by
  unfold Surplus
  rw [List.countP_map, List.countP_map]
  rfl

/-- Groups that end do so further down as well. -/
theorem GroupsEnd.map_down (h : GroupsEnd tokens) (m : Nat) :
    GroupsEnd (tokens.map (Token.down m)) := by
  intro pair i
  rw [← List.map_drop, surplus_map_down]
  exact h pair i

/-! ## Chunks -/

/-- The token starts neither a parameter list nor a body. -/
def Token.StartsNoGroup (t : Token) : Prop := t.kind ≠ .opening .paren ∧ t.kind ≠ .opening .brace

instance (t : Token) : Decidable t.StartsNoGroup :=
  inferInstanceAs (Decidable (_ ∧ _))

/-- The tokens `part` stand in `whole` behind `n` others, moved down by `m` lines, and nothing goes
on over their ends. -/
structure Chunk (whole part : List Token) (n m : Nat) : Prop where
  context : ∃ before behind, whole = before ++ part.map (Token.down m) ++ behind ∧ before.length = n
  endsBefore : ∀ pair o, o < n → ¬ Surplus pair (between whole o n)
  ends : GroupsEnd part
  lastBefore : ∀ k t, k + 1 = n → whole[k]? = some t → t.declares? = none
  first : 0 < n → ∀ t, part[0]? = some t → t.StartsNoGroup
  last : ∀ k t, k + 1 = part.length → n + part.length < whole.length → part[k]? = some t →
    t.declares? = none
  behind : ∀ t, whole[n + part.length]? = some t → t.StartsNoGroup

namespace Chunk

/-- The tokens of a chunk, with their indices in the chunk. -/
theorem getElem?_add (h : Chunk whole part n m) (hi : i < part.length) :
    whole[n + i]? = part[i]?.map (Token.down m) := by
  obtain ⟨before, behind, rfl, rfl⟩ := h.context
  rw [List.append_assoc, List.getElem?_append_right (Nat.le_add_right _ _),
    Nat.add_sub_cancel_left, List.getElem?_append_left (by rwa [List.length_map]),
    List.getElem?_map]

/-- A token of the part stands in the whole, moved down. -/
theorem token (h : Chunk whole part n m) (ht : part[i]? = some t) :
    whole[n + i]? = some (t.down m) := by
  rw [h.getElem?_add (List.getElem?_eq_some_iff.1 ht).1, ht]
  rfl

/-- What stands in the whole where the part is, is a token of the part, moved down. -/
theorem exists_token (h : Chunk whole part n m) (hi : i < part.length)
    (hs : whole[n + i]? = some s) : ∃ t, part[i]? = some t ∧ t.down m = s := by
  rw [h.getElem?_add hi] at hs
  exact Option.map_eq_some_iff.1 hs

/-- The part ends inside the whole. -/
theorem length_le (h : Chunk whole part n m) : n + part.length ≤ whole.length := by
  obtain ⟨before, behind, rfl, rfl⟩ := h.context
  simp only [List.length_append, List.length_map]
  omega

/-- What lies between two places of the part lies between the same places of the whole. -/
theorem between_add (h : Chunk whole part n m) (hi : i ≤ part.length) :
    between whole (n + o) (n + i) = (between part o i).map (Token.down m) := by
  obtain ⟨before, behind, rfl, rfl⟩ := h.context
  unfold between
  rw [List.append_assoc, List.take_length_add_append, List.drop_length_add_append,
    List.take_append_of_le_length (by rwa [List.length_map]), List.map_drop, List.map_take]

/-- A stretch of the part has the same surplus of brackets in the whole. -/
theorem surplus_add (h : Chunk whole part n m) (hi : i ≤ part.length) :
    Surplus pair (between whole (n + o) (n + i)) ↔ Surplus pair (between part o i) := by
  rw [h.between_add hi, surplus_map_down]

/-! ### Groups -/

/-- A token of the part is in a group of the whole exactly as it is in the part. -/
theorem inGroup_add (h : Chunk whole part n m) (hi : i < part.length) :
    InGroup pair whole (n + o) (n + i) ↔ InGroup pair part o i := by
  constructor
  · intro hg
    have hoi : o ≤ i := Nat.le_of_add_le_add_left hg.le
    obtain ⟨s, hs, hkind⟩ := hg.opens
    obtain ⟨t, ht, rfl⟩ := h.exists_token (Nat.lt_of_le_of_lt hoi hi) hs
    refine ⟨⟨t, ht, hkind⟩, hoi, hi, fun j hoj hji => ?_⟩
    exact (h.surplus_add (by omega)).1 (hg.surplus (n + j) (by omega) (by omega))
  · intro hg
    obtain ⟨t, ht, hkind⟩ := hg.opens
    have hlength := h.length_le
    refine ⟨⟨_, h.token ht, hkind⟩, Nat.add_le_add_left hg.le n, by omega, fun j hoj hji => ?_⟩
    obtain ⟨j, rfl⟩ := Nat.exists_eq_add_of_le (show n ≤ j by omega)
    exact (h.surplus_add (by omega)).2 (hg.surplus j (by omega) (by omega))

/-- No group from before the chunk goes on in it. -/
theorem not_inGroup_of_lt (h : Chunk whole part n m) (ho : o < n) (hi : n ≤ i) :
    ¬ InGroup pair whole o i :=
  fun hg => h.endsBefore pair o ho (hg.surplus n ho hi)

/-- No group of the chunk goes on behind it. -/
theorem not_inGroup_of_le (h : Chunk whole part n m) (ho : o < part.length)
    (hi : part.length ≤ i) : ¬ InGroup pair whole (n + o) (n + i) := by
  intro hg
  have hsurplus := hg.surplus (n + part.length) (by omega) (by omega)
  rw [h.surplus_add (Nat.le_refl _), between_of_length_le (Nat.le_refl _)] at hsurplus
  exact h.ends pair o hsurplus

/-- A token of the chunk belongs to groups of the chunk only. -/
theorem exists_of_inGroup (h : Chunk whole part n m) (hi : i < part.length)
    (hg : InGroup pair whole o' (n + i)) : ∃ o, o' = n + o ∧ InGroup pair part o i := by
  rcases Nat.lt_or_ge o' n with hlt | hge
  · exact absurd hg (h.not_inGroup_of_lt hlt (Nat.le_add_right n i))
  · obtain ⟨o, rfl⟩ := Nat.exists_eq_add_of_le hge
    exact ⟨o, rfl, (h.inGroup_add hi).1 hg⟩

/-! ### Parameter lists -/

/-- A token of the part is in the same parentheses in the whole. -/
theorem inParens_add (h : Chunk whole part n m) (hi : i < part.length) :
    InParens whole (n + o) (n + i) ↔ InParens part o i := by
  constructor
  · intro hin
    refine ⟨(h.inGroup_add hi).1 hin.toInGroup, fun j t hoj hji ht => ?_⟩
    exact hin.noBrace (n + j) (t.down m) (by omega) (by omega) (h.token ht)
  · intro hin
    refine ⟨(h.inGroup_add hi).2 hin.toInGroup, fun j s hoj hji hs => ?_⟩
    obtain ⟨j, rfl⟩ := Nat.exists_eq_add_of_le (show n ≤ j by omega)
    obtain ⟨t, ht, rfl⟩ := h.exists_token (by omega) hs
    exact hin.noBrace j t (by omega) (by omega) ht

/-- The parentheses around a token of the part open in the part. -/
theorem exists_of_inParens (h : Chunk whole part n m) (hi : i < part.length)
    (hin : InParens whole o' (n + i)) : ∃ o, o' = n + o ∧ InParens part o i := by
  obtain ⟨o, rfl, -⟩ := h.exists_of_inGroup hi hin.toInGroup
  exact ⟨o, rfl, (h.inParens_add hi).1 hin⟩

/-- No parameter list starts directly behind the chunk. -/
theorem not_inParens_length (h : Chunk whole part n m) :
    ¬ InParens whole (n + part.length) i := by
  intro hin
  obtain ⟨t, ht, hopen⟩ := hin.opens
  exact (h.behind t ht).1 hopen

/-- A parameter list starts in the whole where it starts in the part. -/
theorem startsList_add (h : Chunk whole part n m) (ho : o ≤ part.length) :
    StartsList whole (n + o) ↔ StartsList part o := by
  rcases Nat.eq_or_lt_of_le ho with rfl | hlt
  · exact iff_of_false (fun hs => h.not_inParens_length hs.1)
      fun hs => Nat.lt_irrefl _ hs.1.lt_length
  · refine and_congr (h.inParens_add hlt) ⟨fun hfirst o' ho' hin => ?_, fun hfirst o' ho' hin => ?_⟩
    · exact hfirst (n + o') (by omega) ((h.inParens_add hlt).2 hin)
    · obtain ⟨o'', rfl, hin'⟩ := h.exists_of_inParens hlt hin
      exact hfirst o'' (by omega) hin'

/-- A parenthesis of the part is closed in the whole where it is closed in the part. -/
theorem closesAt_add (h : Chunk whole part n m) (hc : c < part.length) :
    ClosesAt whole (n + o) (n + c) ↔ ClosesAt part o c :=
  and_congr (h.inParens_add hc) (not_congr (h.surplus_add hc))

/-- A list of the part has the same parameters in the whole. -/
theorem hasParameter_add (h : Chunk whole part n m) (ho : o < part.length) :
    HasParameter whole (n + o) x ↔ HasParameter part o x := by
  constructor
  · rintro ⟨i, s, hin, hs, hkind, htext, hall⟩
    obtain ⟨i, rfl⟩ := Nat.exists_eq_add_of_le (Nat.le_trans (Nat.le_add_right n o) hin.le)
    have hi : i < part.length := by
      refine Nat.lt_of_not_ge fun hge => ?_
      exact h.not_inGroup_of_le ho hge hin.toInGroup
    obtain ⟨t, ht, rfl⟩ := h.exists_token hi hs
    exact ⟨i, t, (h.inParens_add hi).1 hin, ht, hkind, htext,
      fun j s hoj hji hs => hall (n + j) (s.down m) (by omega) (by omega) (h.token hs)⟩
  · rintro ⟨i, t, hin, ht, hkind, htext, hall⟩
    refine ⟨n + i, _, (h.inParens_add hin.lt_length).2 hin, h.token ht, hkind, htext,
      fun j s hoj hji hs => ?_⟩
    obtain ⟨j, rfl⟩ := Nat.exists_eq_add_of_le (show n ≤ j by omega)
    have hi := hin.lt_length
    obtain ⟨t, ht, rfl⟩ := h.exists_token (show j < part.length by omega) hs
    exact hall j t (by omega) (by omega) ht

/-! ### Declarations -/

/-- A token of the part declares in the whole what it declares in the part. -/
theorem declaresAt_add (h : Chunk whole part n m) (hk : k < part.length) :
    DeclaresAt whole what (n + k) x ↔ DeclaresAt part what k x := by
  constructor
  · rintro ⟨s, name, hs, hdeclares, hname, hkind, htext⟩
    obtain ⟨t, ht, rfl⟩ := h.exists_token hk hs
    rcases Nat.eq_or_lt_of_le (Nat.succ_le_of_lt hk) with heq | hlt
    · have hlength := (List.getElem?_eq_some_iff.1 hname).1
      cases (h.last k t heq (by omega) ht).symm.trans hdeclares
    · obtain ⟨name', hname', rfl⟩ := h.exists_token hlt hname
      exact ⟨t, name', ht, hdeclares, hname', hkind, htext⟩
  · rintro ⟨t, name, ht, hdeclares, hname, hkind, htext⟩
    exact ⟨_, _, h.token ht, hdeclares, h.token hname, hkind, htext⟩

/-- A declaration from before the chunk does not name its first token. -/
theorem add_one_ne_of_declaresAt (h : Chunk whole part n m) (hd : DeclaresAt whole what k x) :
    k + 1 ≠ n := by
  rintro hk
  obtain ⟨t, -, ht, hdeclares, -⟩ := hd
  cases (h.lastBefore k t hk ht).symm.trans hdeclares

/-- A declaration of the part brings forth the same names in the whole. -/
theorem bringsForth_add (h : Chunk whole part n m) (hk : k < part.length) :
    BringsForth whole (n + k) x ↔ BringsForth part k x := by
  unfold BringsForth
  simp only [h.declaresAt_add hk, Nat.add_assoc]
  refine exists_congr fun name => and_congr_right fun hd => ?_
  obtain ⟨-, name, -, -, hname, -⟩ := hd
  have hlength := (List.getElem?_eq_some_iff.1 hname).1
  refine or_congr_right (or_congr_right (exists_congr fun field => ?_))
  rw [h.startsList_add (show k + 2 ≤ part.length by omega)]
  refine and_congr_right fun hstarts => ?_
  rw [h.hasParameter_add hstarts.1.lt_length]

/-- What the part defines the whole defines. -/
theorem defines_of_defines (h : Chunk whole part n m) (hx : Defines part x) : Defines whole x := by
  rcases hx with ⟨k, hk⟩ | ⟨t, ht, hkind, htext⟩ | ⟨k, hk⟩
  · obtain ⟨t, -, ht, -⟩ := id hk
    exact .inl ⟨n + k, (h.declaresAt_add (List.getElem?_eq_some_iff.1 ht).1).2 hk⟩
  · obtain ⟨i, hi⟩ := List.mem_iff_getElem?.1 ht
    exact .inr (.inl ⟨_, List.mem_of_getElem? (h.token hi), hkind, htext⟩)
  · obtain ⟨-, ⟨t, -, ht, -⟩, -⟩ := id hk
    exact .inr (.inr ⟨n + k, (h.bringsForth_add (List.getElem?_eq_some_iff.1 ht).1).2 hk⟩)

/-! ### Bodies -/

/-- A brace of the part opens a body of the whole. -/
theorem opensBrace_add (h : Chunk whole part n m) (hb : b < part.length) :
    OpensBrace whole (n + b) ↔ OpensBrace part b := by
  constructor
  · rintro ⟨s, hs, hkind⟩
    obtain ⟨t, ht, rfl⟩ := h.exists_token hb hs
    exact ⟨t, ht, hkind⟩
  · rintro ⟨t, ht, hkind⟩
    exact ⟨_, h.token ht, hkind⟩

/-- The first token of the chunk starts no body, if other tokens stand before it. -/
theorem ne_zero_of_opensBrace (h : Chunk whole part n m) (hn : 0 < n) (hb : OpensBrace part b) :
    b ≠ 0 := by
  rintro rfl
  obtain ⟨t, ht, hkind⟩ := hb
  exact (h.first hn t ht).2 hkind

/-- The first token of the chunk starts no parameter list, if other tokens stand before it. -/
theorem ne_zero_of_startsList (h : Chunk whole part n m) (hn : 0 < n) (ho : StartsList part o) :
    o ≠ 0 := by
  rintro rfl
  obtain ⟨t, ht, hkind⟩ := ho.1.opens
  exact (h.first hn t ht).1 hkind

/-- A list that is closed directly before a body of the chunk belongs to the chunk. -/
theorem le_of_closesAt (h : Chunk whole part n m) (hcloses : ClosesAt whole o c)
    (hb : OpensBrace part b) (hc : c + 1 = n + b) : n ≤ o := by
  refine Nat.le_of_not_lt fun hlt => ?_
  have hbne := h.ne_zero_of_opensBrace (by omega) hb
  exact h.not_inGroup_of_lt hlt (show n ≤ c by omega) hcloses.1.toInGroup

/-- A declaration that owns the first tokens of the chunk behind its name belongs to the chunk. -/
theorem le_of_declaresAt (h : Chunk whole part n m) (hd : DeclaresAt whole what k x)
    (hk : k + 2 = n + b) (hb : 0 < n → b ≠ 0) : n ≤ k := by
  have hne := h.add_one_ne_of_declaresAt hd
  omega

/-- The bodies that start in the chunk are those that it has alone. -/
theorem hasBody_add (h : Chunk whole part n m) (hb : b < part.length) {f : Bool}
    {list? : Option Nat} :
    HasBody whole f list? (n + b) ↔ ∃ list, list? = list.map (n + ·) ∧ HasBody part f list b := by
  constructor
  -- What belongs to the body stands before it, and all of it stands in the chunk: a list that comes
  -- earlier is at its end before the chunk, and then the body would be the chunk's first token.
  · intro hbody
    generalize hbody' : n + b = body at hbody
    cases hbody with
    | @plain k x hdeclares hbrace =>
      rw [← hbody', h.opensBrace_add hb] at hbrace
      have hk := h.le_of_declaresAt hdeclares hbody'.symm
        fun hn => h.ne_zero_of_opensBrace hn hbrace
      obtain ⟨k, rfl⟩ := Nat.exists_eq_add_of_le hk
      obtain rfl : b = k + 2 := by omega
      exact ⟨none, rfl, .plain ((h.declaresAt_add (by omega)).1 hdeclares) hbrace⟩
    | @function k c x hdeclares hstarts hcloses hbrace =>
      rw [← hbody', h.opensBrace_add hb] at hbrace
      obtain ⟨o, ho⟩ := Nat.exists_eq_add_of_le (h.le_of_closesAt hcloses hbrace hbody'.symm)
      have hoc := hcloses.1.le
      rw [ho] at hstarts hcloses hoc ⊢
      rw [h.startsList_add (by omega)] at hstarts
      have hk := h.le_of_declaresAt hdeclares ho fun hn => h.ne_zero_of_startsList hn hstarts
      obtain ⟨k, rfl⟩ := Nat.exists_eq_add_of_le hk
      obtain rfl : o = k + 2 := by omega
      obtain ⟨c, rfl⟩ := Nat.exists_eq_add_of_le (show n ≤ c by omega)
      obtain rfl : b = c + 1 := by omega
      exact ⟨some (k + 2), rfl, .function ((h.declaresAt_add (by omega)).1 hdeclares) hstarts
        ((h.closesAt_add (by omega)).1 hcloses) hbrace⟩
    | @lambda o c hstarts hfree hcloses hbrace =>
      rw [← hbody', h.opensBrace_add hb] at hbrace
      obtain ⟨o, rfl⟩ := Nat.exists_eq_add_of_le (h.le_of_closesAt hcloses hbrace hbody'.symm)
      have hoc := hcloses.1.le
      obtain ⟨c, rfl⟩ := Nat.exists_eq_add_of_le (show n ≤ c by omega)
      obtain rfl : b = c + 1 := by omega
      refine ⟨some o, rfl, .lambda ((h.startsList_add (by omega)).1 hstarts) ?_
        ((h.closesAt_add (by omega)).1 hcloses) hbrace⟩
      rintro what k x hd rfl
      exact hfree what (n + k) x ((h.declaresAt_add (by omega)).2 hd) rfl
  -- The other way round, the only question is whether a declaration before the chunk owns the list.
  · rintro ⟨_, rfl, hbody⟩
    cases hbody with
    | @plain k x hdeclares hbrace =>
      exact .plain ((h.declaresAt_add (by omega)).2 hdeclares) ((h.opensBrace_add hb).2 hbrace)
    | @function k c x hdeclares hstarts hcloses hbrace =>
      have hoc := hcloses.1.le
      exact .function ((h.declaresAt_add (by omega)).2 hdeclares)
        ((h.startsList_add (by omega)).2 hstarts) ((h.closesAt_add (by omega)).2 hcloses)
        ((h.opensBrace_add hb).2 hbrace)
    | @lambda o c hstarts hfree hcloses hbrace =>
      have hoc := hcloses.1.le
      refine .lambda ((h.startsList_add (by omega)).2 hstarts) ?_
        ((h.closesAt_add (by omega)).2 hcloses) ((h.opensBrace_add hb).2 hbrace)
      intro what k x hd (hk : n + o = k + 2)
      have hle := h.le_of_declaresAt hd hk.symm fun hn => h.ne_zero_of_startsList hn hstarts
      obtain ⟨k, rfl⟩ := Nat.exists_eq_add_of_le hle
      exact hfree what k x ((h.declaresAt_add (by omega)).1 hd) (by omega)

/-- The parameters of a body that starts in the chunk are those that it has there. -/
theorem exists_hasParameter_add (h : Chunk whole part n m) {f : Bool} {list : Option Nat}
    (hb : b < part.length) (hbody : HasBody part f list b) :
    (∃ o, list.map (n + ·) = some o ∧ HasParameter whole o x) ↔
      ∃ o, list = some o ∧ HasParameter part o x := by
  cases hbody with
  | plain => exact iff_of_false nofun nofun
  | @function k c x hdeclares hstarts hcloses hbrace =>
    simp only [Option.map_some, Option.some.injEq, exists_eq_left']
    exact h.hasParameter_add hstarts.1.lt_length
  | @lambda o c hstarts hfree hcloses hbrace =>
    simp only [Option.map_some, Option.some.injEq, exists_eq_left']
    exact h.hasParameter_add hstarts.1.lt_length

/-- The names that are bound for a token of the chunk are those that are bound for it there. -/
theorem binds_add (h : Chunk whole part n m) (hi : i < part.length) :
    Binds whole (n + i) x ↔ Binds part i x := by
  constructor
  · rintro ⟨f, list?, body, hbody, hgroup, hbinds⟩
    obtain ⟨b, rfl, hgroup'⟩ := h.exists_of_inGroup hi hgroup
    have hb := Nat.lt_of_le_of_lt hgroup'.le hi
    obtain ⟨list, rfl, hbody'⟩ := (h.hasBody_add hb).1 hbody
    rw [h.exists_hasParameter_add hb hbody'] at hbinds
    exact ⟨f, list, b, hbody', hgroup', hbinds⟩
  · rintro ⟨f, list, b, hbody, hgroup, hbinds⟩
    have hb := Nat.lt_of_le_of_lt hgroup.le hi
    rw [← h.exists_hasParameter_add hb hbody] at hbinds
    exact ⟨f, _, n + b, (h.hasBody_add hb).2 ⟨list, rfl, hbody⟩, (h.inGroup_add hi).2 hgroup,
      hbinds⟩

/-! ### References -/

/-- The token before a token of the chunk declares nothing exactly if it does not do so there. -/
theorem notDeclared_add (h : Chunk whole part n m) (hi : i < part.length) :
    (∀ k s, k + 1 = n + i → whole[k]? = some s → s.declares? = none) ↔
      ∀ k s, k + 1 = i → part[k]? = some s → s.declares? = none := by
  constructor
  · intro hnone k t hk ht
    exact hnone (n + k) (t.down m) (by omega) (h.token ht)
  · intro hnone k s hk hs
    cases i with
    | zero => exact h.lastBefore k s hk hs
    | succ i =>
      obtain rfl : k = n + i := by omega
      obtain ⟨t, ht, rfl⟩ := h.exists_token (Nat.lt_of_succ_lt hi) hs
      exact hnone i t rfl ht

/-- A name of the chunk is unaccounted for if it is so in the chunk, and if nothing outside of the
chunk defines it. -/
theorem unaccounted_add (h : Chunk whole part n m) (builtins : Builtins)
    (ht : part[i]? = some t) :
    Unaccounted builtins whole (n + i) (t.down m) ↔
      Unaccounted builtins part i t ∧ ¬ Defines whole t.text := by
  have hi := (List.getElem?_eq_some_iff.1 ht).1
  constructor
  · rintro ⟨-, hkind, hparameter, hdeclared, hbuiltin, hundefined, hunbound⟩
    refine ⟨⟨ht, hkind, fun o hin => ?_, (h.notDeclared_add hi).1 hdeclared, hbuiltin,
      fun hx => hundefined (h.defines_of_defines hx), fun hx => ?_⟩, hundefined⟩
    · exact hparameter (n + o) ((h.inParens_add hi).2 hin)
    · exact hunbound ((h.binds_add hi).2 hx)
  · rintro ⟨⟨-, hkind, hparameter, hdeclared, hbuiltin, -, hunbound⟩, hundefined⟩
    refine ⟨h.token ht, hkind, fun o hin => ?_, (h.notDeclared_add hi).2 hdeclared, hbuiltin,
      hundefined, fun hx => ?_⟩
    · obtain ⟨o, rfl, hin'⟩ := h.exists_of_inParens hi hin
      exact hparameter o hin'
    · exact hunbound ((h.binds_add hi).1 hx)

end Chunk

end StackEditor
