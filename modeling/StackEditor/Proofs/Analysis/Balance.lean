import StackEditor.Lexeme.Tokens
import StackEditor.Proofs.Analysis.Brackets

/-!
# Balanced brackets

The brackets of a token sequence are balanced if they form a word of the Dyck language over the
three pairs (`Dyck`, `Balanced`). The bracket check does not see a balanced stretch: it comes out of
it with the open brackets that it went in with (`checkBracketsFrom_append_of_balanced`). Conversely,
a check that goes on without reports from an open bracket goes on through a balanced stretch up to
the bracket that closes it (`exists_closing_of_checkBracketsFrom`). Hence a check without reports is
the same as balance, and a sequence that is balanced but for some brackets has one report for each
of these (`checkBrackets_blames`). Among tokens of any kind, however malformed, the balanced
stretches are those that the check does not see (`balanced_iff_unseen`).
-/

namespace StackEditor

open Analysis

/-! ## The language -/

/-- The words of brackets in which every bracket has its partner. -/
inductive Dyck : List Token.Kind → Prop
  | nil : Dyck []
  /-- A word in brackets of one pair, and a word behind them. -/
  | wrap (pair : Bracket) {inner rest : List Token.Kind} (hinner : Dyck inner)
      (hrest : Dyck rest) : Dyck (.opening pair :: inner ++ .closing pair :: rest)

/-- A bracket of any pair. -/
def Token.Kind.isBracket (k : Token.Kind) : Bool := k.isOpening || k.isClosing

/-- The kinds of the brackets among the tokens, in order. -/
def bracketKinds (tokens : List Token) : List Token.Kind :=
  (tokens.filter (·.kind.isBracket)).map (·.kind)

/-- The brackets of the tokens form a word of the Dyck language. -/
def Balanced (tokens : List Token) : Prop := Dyck (bracketKinds tokens)

variable {tokens ts us stack rest : List Token} {t o c : Token} {pair : Bracket}

/-- The closing kinds are one a pair. -/
theorem isClosing_iff {k : Token.Kind} : k.isClosing = true ↔ ∃ p, k = .closing p := by
  cases k <;> simp [Token.Kind.isClosing]

/-- A token is no bracket, or it opens or closes one. -/
theorem isBracket_cases (k : Token.Kind) :
    k.isBracket = false ∨ (∃ p, k = .opening p) ∨ ∃ p, k = .closing p := by
  cases k <;> simp [Token.Kind.isBracket, Token.Kind.isOpening, Token.Kind.isClosing]

/-- The brackets of two stretches are those of the first and those of the second. -/
theorem bracketKinds_append (ts us : List Token) :
    bracketKinds (ts ++ us) = bracketKinds ts ++ bracketKinds us := by
  simp [bracketKinds]

/-- A bracket is one of the brackets. -/
theorem bracketKinds_cons_of_isBracket (h : t.kind.isBracket = true) :
    bracketKinds (t :: ts) = t.kind :: bracketKinds ts := by
  simp [bracketKinds, h]

/-- Other tokens do not count among the brackets. -/
theorem bracketKinds_cons_of_not (h : t.kind.isBracket = false) :
    bracketKinds (t :: ts) = bracketKinds ts := by
  simp [bracketKinds, h]

/-- The tokens up to a bracket, and those behind it. -/
theorem exists_of_bracketKinds_eq {w w' : List Token.Kind} {k : Token.Kind}
    (h : bracketKinds tokens = w ++ k :: w') :
    ∃ us c vs, tokens = us ++ c :: vs ∧ bracketKinds us = w ∧ c.kind = k ∧
      bracketKinds vs = w' := by
  obtain ⟨_, _, hfilter, rfl, hbehind⟩ := List.map_eq_append_iff.1 h
  obtain ⟨c, _, rfl, rfl, rfl⟩ := List.map_eq_cons_iff.1 hbehind
  obtain ⟨us, _, rfl, rfl, hcut⟩ := List.filter_eq_append_iff.1 hfilter
  obtain ⟨ps, vs, rfl, hplain, -, rfl⟩ := List.filter_eq_cons_iff.1 hcut
  refine ⟨us ++ ps, c, vs, by simp, ?_, rfl, rfl⟩
  rw [bracketKinds_append, bracketKinds, bracketKinds, List.filter_eq_nil_iff.2 hplain]
  simp

namespace Balanced

theorem nil : Balanced [] := Dyck.nil

/-- A token that is no bracket does not matter. -/
theorem cons_of_not (h : t.kind.isBracket = false) (hts : Balanced ts) : Balanced (t :: ts) := by
  unfold Balanced
  rwa [bracketKinds_cons_of_not h]

/-- Balanced tokens between two brackets of a pair, and balanced tokens behind them. -/
theorem wrap (ho : o.kind = .opening pair) (hc : c.kind = .closing pair) (hts : Balanced ts)
    (hrest : Balanced rest) : Balanced (o :: ts ++ c :: rest) := by
  unfold Balanced
  rw [bracketKinds_append, bracketKinds_cons_of_isBracket (by rw [ho]; rfl),
    bracketKinds_cons_of_isBracket (by rw [hc]; rfl), ho, hc]
  exact .wrap pair hts hrest

/-- Balanced tokens are put together from the first token on. -/
@[elab_as_elim]
theorem induction {motive : (tokens : List Token) → Balanced tokens → Prop} (nil : motive [] nil)
    (other : ∀ {t ts} (h : t.kind.isBracket = false) (hts : Balanced ts), motive ts hts →
      motive (t :: ts) (cons_of_not h hts))
    (wrap : ∀ {pair o ts c rest} (ho : o.kind = .opening pair) (hc : c.kind = .closing pair)
      (hts : Balanced ts) (hrest : Balanced rest), motive ts hts → motive rest hrest →
      motive (o :: ts ++ c :: rest) (wrap ho hc hts hrest))
    (h : Balanced tokens) : motive tokens h := by
  induction hn : tokens.length using Nat.strongRecOn generalizing tokens with
  | ind n ih =>
    subst hn
    cases tokens with
    | nil => exact nil
    | cons o ts =>
      cases ho : o.kind.isBracket with
      | false =>
        have hts : Balanced ts := by
          unfold Balanced at h
          rwa [bracketKinds_cons_of_not ho] at h
        exact other ho hts (ih _ (Nat.lt_succ_self _) hts rfl)
      | true =>
        unfold Balanced at h
        rw [bracketKinds_cons_of_isBracket ho] at h
        generalize hw : bracketKinds ts = w at h
        generalize hk : o.kind = k at h
        cases h with
        | @wrap pair inner behind hinner hbehind =>
          obtain ⟨us, c, vs, rfl, rfl, hc, rfl⟩ := exists_of_bracketKinds_eq hw
          simp only [List.length_cons, List.length_append] at ih
          exact wrap hk hc hinner hbehind (ih us.length (by omega) hinner rfl)
            (ih vs.length (by omega) hbehind rfl)

end Balanced

/-! ## The check -/

/-- An opening bracket is put on the stack. -/
theorem checkBracketsFrom_opening (h : t.kind = .opening pair) :
    checkBracketsFrom stack (t :: ts) = checkBracketsFrom (t :: stack) ts := by
  simp [checkBracketsFrom, h, Token.Kind.isOpening]

/-- A closing bracket takes its partner from the stack. -/
theorem checkBracketsFrom_closing (ho : o.kind = .opening pair) (hc : t.kind = .closing pair) :
    checkBracketsFrom (o :: stack) (t :: ts) = checkBracketsFrom stack ts := by
  simp [checkBracketsFrom, ho, hc, Token.Kind.isOpening, Token.Kind.isClosing,
    Token.Kind.closingPair?]

/-- Where no bracket is open, a closing bracket is reported. -/
theorem checkBracketsFrom_nil_closing (h : t.kind.isClosing = true) :
    checkBracketsFrom [] (t :: ts) = .unmatchedClosing t :: checkBracketsFrom [] ts := by
  obtain ⟨p, hp⟩ := isClosing_iff.1 h
  simp [checkBracketsFrom, hp, Token.Kind.isOpening, Token.Kind.isClosing]

/-- Another token is passed over. -/
theorem checkBracketsFrom_other (h : t.kind.isBracket = false) :
    checkBracketsFrom stack (t :: ts) = checkBracketsFrom stack ts := by
  obtain ⟨ho, hc⟩ := Bool.or_eq_false_iff.1 h
  simp [checkBracketsFrom, ho, hc]

/-- What the check makes of a closing bracket if it reports nothing: the innermost open bracket is
its partner. -/
theorem exists_of_checkBracketsFrom_closing (hc : t.kind = .closing pair)
    (h : checkBracketsFrom stack (t :: ts) = []) :
    ∃ o stack', stack = o :: stack' ∧ o.kind = .opening pair ∧
      checkBracketsFrom stack' ts = [] := by
  cases stack with
  | nil =>
    rw [checkBracketsFrom_nil_closing (isClosing_iff.2 ⟨pair, hc⟩)] at h
    cases h
  | cons o stack' =>
    simp only [checkBracketsFrom, hc, Token.Kind.isOpening, Token.Kind.isClosing, if_true,
      Bool.false_eq_true, if_false] at h
    split at h
    · next hpair =>
      obtain ⟨p, ho, ⟨⟩⟩ := closingPair?_eq_some_iff.1 hpair
      exact ⟨o, stack', rfl, ho, h⟩
    · cases h

/-- The check does not see balanced tokens. -/
theorem checkBracketsFrom_append_of_balanced (h : Balanced ts) (stack rest : List Token) :
    checkBracketsFrom stack (ts ++ rest) = checkBracketsFrom stack rest := by
  induction h using Balanced.induction generalizing stack rest with
  | nil => rfl
  | other hplain _ ih => rw [List.cons_append, checkBracketsFrom_other hplain, ih]
  | wrap ho hc _ _ ihinner ihrest =>
    rw [List.cons_append, List.cons_append, List.append_assoc, checkBracketsFrom_opening ho,
      ihinner, List.cons_append, checkBracketsFrom_closing ho hc, ihrest]

/-- A check without reports goes on from an open bracket through balanced tokens, up to the bracket
that closes it. -/
theorem exists_closing_of_checkBracketsFrom (ho : o.kind = .opening pair)
    (h : checkBracketsFrom (o :: stack) tokens = []) :
    ∃ ts c rest, tokens = ts ++ c :: rest ∧ Balanced ts ∧ c.kind = .closing pair ∧
      checkBracketsFrom stack rest = [] := by
  induction hn : tokens.length using Nat.strongRecOn generalizing o pair stack tokens with
  | ind n ih =>
    subst hn
    cases tokens with
    | nil => simp [checkBracketsFrom] at h
    | cons t ts =>
      rcases isBracket_cases t.kind with hplain | ⟨p, hopen⟩ | ⟨p, hclose⟩
      · rw [checkBracketsFrom_other hplain] at h
        obtain ⟨us, c, rest, rfl, hus, hc, hrest⟩ := ih _ (Nat.lt_succ_self _) ho h rfl
        exact ⟨t :: us, c, rest, rfl, hus.cons_of_not hplain, hc, hrest⟩
      -- A bracket that opens on the way is closed first; the rest goes on from behind it.
      · rw [checkBracketsFrom_opening hopen] at h
        obtain ⟨us, c', vs, rfl, hus, hc', hvs⟩ := ih _ (Nat.lt_succ_self _) hopen h rfl
        simp only [List.length_cons, List.length_append] at ih
        obtain ⟨ws, c, rest, rfl, hws, hc, hrest⟩ := ih vs.length (by omega) ho hvs rfl
        exact ⟨t :: us ++ c' :: ws, c, rest, by simp, hus.wrap hopen hc' hws, hc, hrest⟩
      · obtain ⟨o', stack', ⟨⟩, ho', hrest⟩ := exists_of_checkBracketsFrom_closing hclose h
        obtain ⟨⟩ := ho.symm.trans ho'
        exact ⟨[], t, ts, rfl, .nil, hclose, hrest⟩

/-- Tokens without a report are balanced. -/
theorem balanced_of_checkBracketsFrom (h : checkBracketsFrom [] tokens = []) :
    Balanced tokens := by
  induction hn : tokens.length using Nat.strongRecOn generalizing tokens with
  | ind n ih =>
    subst hn
    cases tokens with
    | nil => exact .nil
    | cons t ts =>
      rcases isBracket_cases t.kind with hplain | ⟨p, hopen⟩ | ⟨p, hclose⟩
      · rw [checkBracketsFrom_other hplain] at h
        exact (ih _ (Nat.lt_succ_self _) h rfl).cons_of_not hplain
      · rw [checkBracketsFrom_opening hopen] at h
        obtain ⟨us, c, rest, rfl, hus, hc, hrest⟩ := exists_closing_of_checkBracketsFrom hopen h
        simp only [List.length_cons, List.length_append] at ih
        exact hus.wrap hopen hc (ih rest.length (by omega) hrest rfl)
      · obtain ⟨o, stack, hnil, -⟩ := exists_of_checkBracketsFrom_closing hclose h
        cases hnil

/-- The check reports nothing exactly if the brackets are balanced. -/
theorem checkBrackets_eq_nil_iff : checkBrackets tokens = [] ↔ Balanced tokens := by
  refine ⟨balanced_of_checkBracketsFrom, fun h => ?_⟩
  have hend := checkBracketsFrom_append_of_balanced h [] []
  rwa [List.append_nil] at hend

instance : DecidablePred Balanced := fun _ => decidable_of_iff _ checkBrackets_eq_nil_iff

/-! ## Balanced stretches among other tokens -/

/-- What the check makes of two endings alike from every stack, it makes alike of them behind any
tokens: whatever these leave on the stack, and have reported by then, is the same for both. -/
theorem checkBracketsFrom_append_congr
    (h : ∀ stack, checkBracketsFrom stack ts = checkBracketsFrom stack us)
    (front stack : List Token) :
    checkBracketsFrom stack (front ++ ts) = checkBracketsFrom stack (front ++ us) := by
  induction front generalizing stack with
  | nil => exact h stack
  | cons t front ih => simp only [List.cons_append, checkBracketsFrom, ih]

/-- The balanced stretches are those that can be put among any tokens, or taken out, with no report
coming, going or changing. Around them brackets may be missing, or have the wrong partners. -/
theorem balanced_iff_unseen : Balanced tokens ↔ ∀ front behind,
    checkBrackets (front ++ tokens ++ behind) = checkBrackets (front ++ behind) := by
  constructor
  · intro h front behind
    rw [List.append_assoc]
    exact checkBracketsFrom_append_congr
      (fun stack => checkBracketsFrom_append_of_balanced h stack behind) front []
  · -- Between no tokens at all, not to be seen is to be without reports.
    intro h
    have halone := h [] []
    rw [List.append_nil, List.append_nil, List.nil_append] at halone
    exact checkBrackets_eq_nil_iff.1 halone

/-! ## Brackets without a partner -/

/-- A token sequence cut at brackets that have no partner: at closing ones first, and at opening
ones behind these. Each goes with the tokens up to the next cut, and between the cuts the brackets
are balanced. -/
structure Cut where
  front : List Token
  closers : List (Token × List Token)
  openers : List (Token × List Token)
  balanced_front : Balanced front
  isClosing : ∀ p ∈ closers, p.1.kind.isClosing = true
  isOpening : ∀ p ∈ openers, p.1.kind.isOpening = true
  balanced : ∀ p ∈ closers ++ openers, Balanced p.2

/-- The token sequence that is cut. -/
def Cut.whole (c : Cut) : List Token :=
  c.front ++ (c.closers ++ c.openers).flatMap fun (t, ts) => t :: ts

/-- Each closing bracket of a cut is reported. -/
theorem checkBracketsFrom_closers {closers : List (Token × List Token)}
    (hclosing : ∀ p ∈ closers, p.1.kind.isClosing = true)
    (hbalanced : ∀ p ∈ closers, Balanced p.2) (rest : List Token) :
    checkBracketsFrom [] ((closers.flatMap fun (t, ts) => t :: ts) ++ rest) =
      (closers.map fun (t, _) => .unmatchedClosing t) ++ checkBracketsFrom [] rest := by
  induction closers with
  | nil => rfl
  | cons p closers ih =>
    obtain ⟨t, ts⟩ := p
    rw [List.forall_mem_cons] at hclosing hbalanced
    rw [List.flatMap_cons, List.append_assoc, List.cons_append,
      checkBracketsFrom_nil_closing hclosing.1,
      checkBracketsFrom_append_of_balanced hbalanced.1, ih hclosing.2 hbalanced.2]
    rfl

/-- Each opening bracket of a cut is reported, behind those that are open already. -/
theorem checkBracketsFrom_openers {openers : List (Token × List Token)}
    (hopening : ∀ p ∈ openers, p.1.kind.isOpening = true)
    (hbalanced : ∀ p ∈ openers, Balanced p.2) (stack : List Token) :
    checkBracketsFrom stack (openers.flatMap fun (t, ts) => t :: ts) =
      stack.reverse.map .unmatchedOpening ++ openers.map fun (t, _) => .unmatchedOpening t := by
  induction openers generalizing stack with
  | nil => simp [checkBracketsFrom]
  | cons p openers ih =>
    obtain ⟨t, ts⟩ := p
    rw [List.forall_mem_cons] at hopening hbalanced
    obtain ⟨pair, hpair⟩ := isOpening_iff.1 hopening.1
    rw [List.flatMap_cons, List.cons_append, checkBracketsFrom_opening hpair,
      checkBracketsFrom_append_of_balanced hbalanced.1, ih hopening.2 hbalanced.2]
    simp

/-- The check accepts the balanced sequences. In a sequence that is balanced but for some brackets,
it blames each of these once: the closing ones first, and then the opening ones, both in the order
of the source. -/
theorem checkBrackets_blames :
    (∀ tokens, checkBrackets tokens = [] ↔ Balanced tokens) ∧
      ∀ c : Cut, checkBrackets c.whole =
        (c.closers.map fun (t, _) => .unmatchedClosing t) ++
          c.openers.map fun (t, _) => .unmatchedOpening t := by
  refine ⟨fun _ => checkBrackets_eq_nil_iff, fun c => ?_⟩
  have hbalanced := List.forall_mem_append.1 c.balanced
  unfold checkBrackets Cut.whole
  rw [checkBracketsFrom_append_of_balanced c.balanced_front, List.flatMap_append,
    checkBracketsFrom_closers c.isClosing hbalanced.1,
    checkBracketsFrom_openers c.isOpening hbalanced.2]
  rfl

/-- The source `a ] ( b ) ) [ c`, cut at its three brackets without a partner. -/
def strayBrackets : Cut where
  front := [⟨.reference, "a", 0, 0, 1⟩]
  closers := [
    (⟨.closing .square, "]", 0, 2, 3⟩, [⟨.opening .paren, "(", 0, 4, 5⟩,
      ⟨.reference, "b", 0, 6, 7⟩, ⟨.closing .paren, ")", 0, 8, 9⟩]),
    (⟨.closing .paren, ")", 0, 10, 11⟩, [])]
  openers := [(⟨.opening .square, "[", 0, 12, 13⟩, [⟨.reference, "c", 0, 14, 15⟩])]
  balanced_front := by decide
  isClosing := by decide
  isOpening := by decide
  balanced := by decide

/-- The check blames the three brackets that the cut leaves without a partner, and no other. -/
theorem strayBrackets_blamed :
    strayBrackets.whole = tokenize "a ] ( b ) ) [ c" ∧
      checkBrackets strayBrackets.whole =
        [.unmatchedClosing ⟨.closing .square, "]", 0, 2, 3⟩,
          .unmatchedClosing ⟨.closing .paren, ")", 0, 10, 11⟩,
          .unmatchedOpening ⟨.opening .square, "[", 0, 12, 13⟩] :=
  ⟨by decide +kernel, checkBrackets_blames.2 strayBrackets⟩

end StackEditor
