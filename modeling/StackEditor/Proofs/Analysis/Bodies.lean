import StackEditor.Analysis.Definitions
import StackEditor.Proofs.Analysis.Nesting
import StackEditor.Proofs.Lexeme.Joining
import StackEditor.Proofs.Lexeme.Tiling

/-!
# Which tokens lie in a body

A body is kept as a range of places, from its brace to behind the brace that closes it. The tokens
of a source come in order, so the range holds the start of a token exactly if the token belongs to
the group of the brace (`contains_start_iff`). A body that is not closed goes up to the last place
there is. All tokens of a text that can be addressed lie before that place (`start_lt_last`), and
where all bodies are closed it does not matter (`BodiesHold`).
-/

namespace StackEditor

/-! ## Tokens in order -/

/-- The tokens take places one behind the other. -/
structure InOrder (tokens : List Token) : Prop where
  start_lt_stop : ∀ t ∈ tokens, t.start < t.stop
  pairwise : tokens.Pairwise fun t t' => t.stop ≤ t'.start

/-- The tokens of a source stand in order. -/
theorem inOrder_tokenize (source : String) : InOrder (tokenize source) := by
  have htiles := tiles_tokenize source
  constructor
  · intro t ht
    exact .inr ⟨rfl, (htiles.placed t ht).1⟩
  · refine htiles.ordered.imp fun {t t'} h => ?_
    rcases h.1 with hline | ⟨hline, -⟩
    · exact .inl hline
    · exact .inr ⟨hline, h.2 hline⟩

/-- The tokens of a text whose characters can be counted in 64 bits lie on lines before the last. -/
theorem line_lt_last {source : String} (h : source.length ≤ maxWord64) {t : Token}
    (ht : t ∈ tokenize source) : t.line < Position.last.line := by
  obtain ⟨s, -, -, hs, hstart⟩ := exists_offset_of_mem_tokenize ht
  have hcount := List.count_le_length (a := '\n') (l := source.toList.take s.offset)
  have hline : (positionAt source.toList s.offset).line ≤ s.offset := by
    rw [positionAt, Position.line_after]
    simp only [Position.zero, List.length_take] at hcount ⊢
    omega
  have htoken : t.line = (positionAt source.toList s.offset).line := congrArg Position.line hstart
  rw [String.length_toList] at hs
  simp only [Position.last]
  omega

/-- So they start and stop before the last place. -/
theorem start_lt_last {source : String} (h : source.length ≤ maxWord64) {t : Token}
    (ht : t ∈ tokenize source) : t.start < .last := .inl (line_lt_last h ht)

/-- No token of a source reaches the last position there is. -/
theorem stop_lt_last {source : String} (h : source.length ≤ maxWord64) {t : Token}
    (ht : t ∈ tokenize source) : t.stop < .last := .inl (line_lt_last h ht)

variable {tokens ts : List Token} {t s : Token} {b i j d : Nat} {p : Position} {r : Range}

/-- A later token starts where an earlier one has ended, or behind that. -/
theorem InOrder.stop_le_start (h : InOrder tokens) (hij : i < j) (hi : tokens[i]? = some t)
    (hj : tokens[j]? = some s) : t.stop ≤ s.start := by
  obtain ⟨hi', rfl⟩ := List.getElem?_eq_some_iff.1 hi
  obtain ⟨hj', rfl⟩ := List.getElem?_eq_some_iff.1 hj
  exact List.pairwise_iff_getElem.1 h.pairwise i j hi' hj' hij

/-- A later token does not start earlier. -/
theorem InOrder.start_le_start (h : InOrder tokens) (hij : i ≤ j) (hi : tokens[i]? = some t)
    (hj : tokens[j]? = some s) : t.start ≤ s.start := by
  rcases Nat.eq_or_lt_of_le hij with rfl | hlt
  · obtain rfl := Option.some.inj (hi.symm.trans hj)
    exact Position.le_refl _
  · have ht := h.start_lt_stop t (List.mem_of_getElem? hi)
    exact Position.le_trans (Position.le_of_lt ht) (h.stop_le_start hlt hi hj)

/-- A token starts before the end of any token that is not earlier. -/
theorem InOrder.start_lt_stop_of_le (h : InOrder tokens) (hij : i ≤ j) (hi : tokens[i]? = some t)
    (hj : tokens[j]? = some s) : t.start < s.stop :=
  Position.lt_of_le_of_lt (h.start_le_start hij hi hj)
    (h.start_lt_stop s (List.mem_of_getElem? hj))

/-- A later token starts later. -/
theorem InOrder.start_lt_start (h : InOrder tokens) (hij : i < j) (hi : tokens[i]? = some t)
    (hj : tokens[j]? = some s) : t.start < s.start :=
  Position.lt_of_lt_of_le (h.start_lt_stop t (List.mem_of_getElem? hi)) (h.stop_le_start hij hi hj)

/-- No two tokens start at one place. -/
theorem InOrder.eq_of_start_eq (h : InOrder tokens) (hi : tokens[i]? = some t)
    (hj : tokens[j]? = some s) (hstart : t.start = s.start) : i = j := by
  rcases Nat.lt_trichotomy i j with hlt | heq | hlt
  · exact absurd (hstart ▸ h.start_lt_start hlt hi hj) (Position.lt_irrefl _)
  · exact heq
  · exact absurd (hstart ▸ h.start_lt_start hlt hj hi) (Position.lt_irrefl _)

/-- A later token does not end earlier. -/
theorem InOrder.stop_le_stop (h : InOrder tokens) (hij : i ≤ j) (hi : tokens[i]? = some t)
    (hj : tokens[j]? = some s) : t.stop ≤ s.stop := by
  rcases Nat.eq_or_lt_of_le hij with rfl | hlt
  · obtain rfl := Option.some.inj (hi.symm.trans hj)
    exact Position.le_refl _
  · exact Position.le_trans (h.stop_le_start hlt hi hj)
      (Position.le_of_lt (h.start_lt_stop s (List.mem_of_getElem? hj)))

/-! ## The end of a body -/

/-- Bodies hold their tokens: no token starts behind the last place, where a body ends that is never
closed, or else there is no such body. -/
def BodiesHold (tokens : List Token) : Prop :=
  (∀ t ∈ tokens, t.start < .last) ∨ ∀ b, ¬ Surplus .brace (tokens.drop b)

/-- A body ends behind the brace that counts it out, or at the last place if no brace does. -/
theorem Pending.bodyStop_cases (hp : Pending .brace tokens b i d) (hts : tokens.drop i = ts) :
    (∃ e t, CountsOut .brace tokens b e ∧ tokens[e]? = some t ∧ bodyStop d ts = t.stop) ∨
      ((∀ j, b < j → j ≤ tokens.length → Surplus .brace (between tokens b j)) ∧
        bodyStop d ts = .last) := by
  fun_induction bodyStop d ts generalizing i with
  | case1 =>
    have hi := List.drop_eq_nil_iff.1 hts
    exact .inr ⟨fun j hbj hj => hp.surplus j hbj (Nat.le_trans hj hi), rfl⟩
  | case2 t ts d hopen ih =>
    obtain ⟨ht, hts⟩ := getElem?_of_drop_eq_cons hts
    exact ih (hp.opening ht hopen) hts
  | case3 t ts hclose =>
    obtain ⟨ht, hts⟩ := getElem?_of_drop_eq_cons hts
    exact .inl ⟨i, t, hp.countsOut ht hclose, ht, rfl⟩
  | case4 t ts d hclose ih =>
    obtain ⟨ht, hts⟩ := getElem?_of_drop_eq_cons hts
    exact ih (hp.closing ht hclose) hts
  | case5 t ts d hopen hclose hclose' ih =>
    obtain ⟨ht, hts⟩ := getElem?_of_drop_eq_cons hts
    have hplain : t.kind ≠ .closing .brace := by
      cases d with
      | zero => exact fun hkind => hclose hkind rfl
      | succ d => exact fun hkind => hclose' d hkind rfl
    exact ih (hp.other ht hopen hplain) hts

/-- A token starts before the end of a body exactly if the group of its brace goes on up to it. -/
theorem start_lt_bodyStop_iff (horder : InOrder tokens) (hhold : BodiesHold tokens)
    (hts : tokens.drop i = ts) (hp : Pending .brace tokens b i d) (hbj : b ≤ j)
    (hj : tokens[j]? = some s) :
    s.start < bodyStop d ts ↔ InGroup .brace tokens b j := by
  have hlength := (List.getElem?_eq_some_iff.1 hj).1
  rcases hp.bodyStop_cases hts with ⟨e, t, hends, ht, hstop⟩ | ⟨hopen, hstop⟩
  · rw [hstop]
    rcases Nat.lt_or_ge e j with hlt | hge
    · refine iff_of_false (fun hbefore => ?_) fun hin => ?_
      · exact Position.lt_irrefl _
          (Position.lt_of_lt_of_le hbefore (horder.stop_le_start hlt ht hj))
      · exact absurd (hends.le_of_inGroup hin) (Nat.not_le.2 hlt)
    · exact iff_of_true (horder.start_lt_stop_of_le hge hj ht) (hends.inGroup hp.opens hbj hge)
  · rw [hstop]
    refine iff_of_true ?_ ⟨hp.opens, hbj, hlength, fun m hbm hmj =>
      hopen m hbm (Nat.le_trans hmj (Nat.le_of_lt hlength))⟩
    rcases hhold with hlast | hclosed
    · exact hlast s (List.mem_of_getElem? hj)
    · have hwhole := hopen _ (Nat.lt_of_le_of_lt hbj hlength) (Nat.le_refl _)
      exact absurd (between_of_length_le (Nat.le_refl _) ▸ hwhole) (hclosed b)

/-! ## Bodies -/

/-- A body starts with a brace. -/
theorem bodyRange?_eq_some_iff : bodyRange? tokens b = some r ↔
    ∃ t, tokens[b]? = some t ∧ t.kind = .opening .brace ∧
      r = ⟨t.start, bodyStop 0 (tokens.drop (b + 1))⟩ := by
  unfold bodyRange?
  cases hdrop : tokens.drop b with
  | nil =>
    have hnone : tokens[b]? = none := List.getElem?_eq_none (List.drop_eq_nil_iff.1 hdrop)
    simp [hnone]
  | cons t ts =>
    obtain ⟨ht, rfl⟩ := getElem?_of_drop_eq_cons hdrop
    dsimp only
    split
    · next hkind =>
      constructor
      · rintro ⟨⟩
        exact ⟨t, ht, hkind, rfl⟩
      · rintro ⟨t', ht', -, rfl⟩
        obtain rfl := Option.some.inj (ht.symm.trans ht')
        rfl
    · next hkind =>
      constructor
      · nofun
      · rintro ⟨t', ht', hkind', -⟩
        obtain rfl := Option.some.inj (ht.symm.trans ht')
        exact absurd hkind' hkind

/-- The range of a body holds the start of a token exactly if the token belongs to the group of the
body's brace. -/
theorem contains_start_iff (horder : InOrder tokens) (hhold : BodiesHold tokens)
    (hr : bodyRange? tokens b = some r) (hj : tokens[j]? = some s) :
    r.contains s.start = true ↔ InGroup .brace tokens b j := by
  obtain ⟨t, ht, hkind, rfl⟩ := bodyRange?_eq_some_iff.1 hr
  simp only [Range.contains, Bool.and_eq_true, decide_eq_true_eq]
  rcases Nat.lt_or_ge j b with hlt | hge
  · refine iff_of_false (fun h => ?_) fun h => absurd h.le (Nat.not_le.2 hlt)
    exact Position.lt_irrefl _ (Position.lt_of_lt_of_le (horder.start_lt_start hlt hj ht) h.1)
  · rw [start_lt_bodyStop_iff horder hhold rfl (.start ht hkind) hge hj]
    exact and_iff_right (horder.start_le_start hge ht hj)

end StackEditor
