import StackEditor.Proofs.Lexeme.Lines
import StackEditor.Proofs.Text.Overlap

/-!
# White space between lexemes

Text that consists of skipped characters is put into a source. If the lexemes are the same before
and after, in kind and text, then each of them lies where it lay before, or behind the text that was
put in (`pushes`). The lexemes alone do not say so: a lexeme may take a part of what was put in (a
string without its end), and white space may end a comment. In the first case the lexeme ends in
white space itself, and in the second what was freed of the comment has no lexeme.
-/

namespace StackEditor.Lexeme

/-- The spot after `n` characters were put in at the offset `a`. -/
def Spot.push (a n : Nat) (s : Spot) : Spot :=
  if s.offset < a then s else { s with offset := s.offset + n }

/-- The spots behind the offset `a` are all pushed. -/
theorem map_push_spots {a o : Nat} (h : a ≤ o) (n : Nat) (ps : List Piece) :
    (spots o ps).map (Spot.push a n) = spots (o + n) ps := by
  rw [spots_add]
  refine List.map_congr_left fun s hs => ?_
  have hle := le_offset_of_mem_spots hs
  rw [Spot.push, if_neg (by omega)]

/-! ## Comments -/

/-- A comment goes to the end of its line. -/
theorem spots_comment (o : Nat) (cs : List Char) :
    spots o (pieces ('#' :: cs)) =
      spots (o + 1 + (cs.takeWhile (· ≠ '\n')).length) (pieces (cs.dropWhile (· ≠ '\n'))) := by
  have hfirst : firstPiece '#' cs = .gap ('#' :: cs.takeWhile (· ≠ '\n')) := by
    rw [firstPiece, if_neg (by decide), if_pos rfl]
  have hsplit : (firstPiece '#' cs).text ++ cs.dropWhile (· ≠ '\n') = '#' :: cs := by
    rw [hfirst, Piece.text, List.cons_append, List.takeWhile_append_dropWhile]
  rw [pieces_cons hsplit, hfirst, spots, List.length_cons, Nat.add_assoc, Nat.add_comm 1]

/-- The spots of a text are those of its first line and those of the rest. -/
theorem spots_line (o : Nat) (cs : List Char) :
    spots o (pieces cs) = spots o (pieces (cs.takeWhile (· ≠ '\n'))) ++
      spots (o + (cs.takeWhile (· ≠ '\n')).length) (pieces (cs.dropWhile (· ≠ '\n'))) := by
  conv => lhs; rw [← List.takeWhile_append_dropWhile (p := (· ≠ '\n')) (l := cs)]
  cases hd : cs.dropWhile (· ≠ '\n') with
  | nil => simp
  | cons c rest =>
    obtain rfl : c = '\n' := by
      have hhead := List.head?_dropWhile_not (· ≠ '\n') cs
      rw [hd] at hhead
      simpa using hhead
    rw [spots_append_newline]

/-- A comment that starts with `u` goes on to the end of the line. -/
theorem spots_comment_append {u : List Char} (hu : '\n' ∉ u) (o : Nat) (cs : List Char) :
    spots o (pieces ('#' :: u ++ cs)) =
      spots (o + (u.length + 1) + (cs.takeWhile (· ≠ '\n')).length)
        (pieces (cs.dropWhile (· ≠ '\n'))) := by
  have hall : ∀ c ∈ u, decide (c ≠ '\n') = true := fun c hc =>
    decide_eq_true fun he => hu (he ▸ hc)
  rw [List.cons_append, spots_comment, List.takeWhile_append_of_pos hall,
    List.dropWhile_append_of_pos hall, List.length_append]
  congr 1
  omega

/-- A comment ends where its line does. -/
theorem spots_comment_line {u : List Char} (hu : '\n' ∉ u) (o : Nat) (cs : List Char) :
    spots o (pieces ('#' :: u ++ '\n' :: cs)) =
      spots (o + (u.length + 1)) (pieces ('\n' :: cs)) := by
  rw [spots_comment_append hu, List.takeWhile_cons_of_neg (by simp),
    List.dropWhile_cons_of_neg (by simp)]
  rfl

/-! ## White space that is put in -/

/-- If `w`, put in between `u` and `v`, changes no lexeme, then it only pushes those behind it. -/
def Pushes (u w v : List Char) : Prop :=
  ∀ o a b : Nat, (spots a (pieces (u ++ (w ++ v)))).map Spot.content =
      (spots b (pieces (u ++ v))).map Spot.content →
    spots o (pieces (u ++ (w ++ v))) =
      (spots o (pieces (u ++ v))).map (Spot.push (o + u.length) w.length)

section
variable {u w v : List Char} (hw : ∀ c ∈ w, isSkipped c = true)
include hw

/-- At the start of a text. -/
theorem pushes_nil : Pushes [] w v := by
  intro o a b _
  rw [List.nil_append, List.nil_append, spots_append_of_isSkipped hw, map_push_spots (by simp)]

/-- Into a comment, which may end early for it. What is freed of the comment then has no lexeme,
since the lexemes behind the comment are all there are. -/
theorem pushes_comment (hu : '\n' ∉ u) : Pushes ('#' :: u) w v := by
  intro o a b h
  rw [List.length_cons, spots_comment_append hu o v, map_push_spots (Nat.le_add_right _ _)]
  by_cases hn : '\n' ∈ w
  · obtain ⟨w₁, w₂, rfl, hw₁⟩ := List.eq_append_cons_of_mem hn
    have hskip : ∀ c ∈ '\n' :: w₂, isSkipped c = true := fun c hc =>
      hw c (List.mem_append_right w₁ hc)
    have hline : '\n' ∉ u ++ w₁ := fun hm => (List.mem_append.1 hm).elim hu hw₁
    have hfree : ∀ o, spots o (pieces ('#' :: u ++ (w₁ ++ '\n' :: w₂ ++ v))) =
        spots (o + (u.length + 1) + (w₁ ++ '\n' :: w₂).length) (pieces v) := by
      intro o
      have hassoc : '#' :: u ++ (w₁ ++ '\n' :: w₂ ++ v) =
          '#' :: (u ++ w₁) ++ '\n' :: (w₂ ++ v) := by
        simp only [List.cons_append, List.append_assoc]
      rw [hassoc, spots_comment_line hline, ← List.cons_append, spots_append_of_isSkipped hskip]
      congr 1
      simp only [List.length_append]
      omega
    have hnone : ∀ o, spots o (pieces (v.takeWhile (· ≠ '\n'))) = [] := by
      intro o
      rw [hfree, spots_comment_append hu b v, spots_line _ v, List.map_append,
        map_content_spots _ (b + (u.length + 1) + (v.takeWhile (· ≠ '\n')).length)
          (pieces (v.dropWhile (· ≠ '\n'))), List.append_left_eq_self,
        map_content_spots _ o] at h
      exact List.map_eq_nil_iff.1 h
    rw [hfree, spots_line _ v, hnone, List.nil_append]
    congr 1
    omega
  · have hall : ∀ c ∈ w, decide (c ≠ '\n') = true := fun c hc =>
      decide_eq_true fun he => hn (he ▸ hc)
    rw [spots_comment_append hu, List.takeWhile_append_of_pos hall,
      List.dropWhile_append_of_pos hall, List.length_append]
    congr 1
    omega

omit hw in
/-- Behind a skipped character. -/
theorem Pushes.cons_of_isSkipped {c : Char} (h : Pushes u w v) (hc : isSkipped c = true) :
    Pushes (c :: u) w v := by
  intro o a b heq
  simp only [List.cons_append, spots_cons_of_isSkipped hc] at heq ⊢
  rw [h (o + 1) (a + 1) (b + 1) heq, List.length_cons, Nat.add_assoc, Nat.add_comm 1]

omit hw in
/-- Behind the line of a comment. -/
theorem Pushes.comment_line {u₁ : List Char} (h : Pushes ('\n' :: u) w v) (hu₁ : '\n' ∉ u₁) :
    Pushes ('#' :: u₁ ++ '\n' :: u) w v := by
  intro o a b heq
  have hcut : ∀ o cs, spots o (pieces ('#' :: u₁ ++ '\n' :: u ++ cs)) =
      spots (o + (u₁.length + 1)) (pieces ('\n' :: u ++ cs)) := by
    intro o cs
    rw [List.append_assoc]
    exact spots_comment_line hu₁ o (u ++ cs)
  rw [hcut, hcut] at heq
  rw [hcut, hcut, h _ _ _ heq]
  congr 2
  simp only [List.length_cons, List.length_append]
  omega

end

/-- A piece that starts with neither a skipped character nor a `#` is a lexeme. -/
theorem exists_firstPiece_eq_lexeme {c : Char} (hc : isSkipped c = false) (hh : c ≠ '#')
    (rest : List Char) : ∃ k t, firstPiece c rest = .lexeme k t := by
  unfold firstPiece
  rw [if_neg (by simp [hc]), if_neg hh]
  split
  · exact ⟨_, _, rfl⟩
  split
  · exact ⟨_, _, rfl⟩
  split
  · exact ⟨_, _, rfl⟩
  split
  · exact ⟨_, _, rfl⟩
  · exact ⟨_, _, rfl⟩

/-- A text that starts with a lexeme starts with the spot of it. -/
theorem exists_spots_eq_cons {c : Char} (hc : isSkipped c = false) (hh : c ≠ '#')
    (rest : List Char) : ∃ k t r, t ++ r = c :: rest ∧ t ≠ [] ∧
      ∀ o, spots o (pieces (c :: rest)) = ⟨o, k, t⟩ :: spots (o + t.length) (pieces r) := by
  obtain ⟨k, t, ht⟩ := exists_firstPiece_eq_lexeme hc hh rest
  obtain ⟨r, hr⟩ := firstPiece_text_isPrefix c rest
  have hne := firstPiece_text_ne_nil c rest
  have hcons := pieces_cons hr
  rw [ht] at hr hne hcons
  exact ⟨k, t, r, hr, hne, fun o => by rw [hcons]; rfl⟩

variable {u w v : List Char}

/-- Behind a lexeme, or into one. Both texts start with the same lexeme; if it goes on behind the
place of `w`, then what follows it is pushed as a whole. -/
theorem pushes_cons (hne : w ≠ []) (hw : ∀ c ∈ w, isSkipped c = true) {c : Char}
    (hc : isSkipped c = false) (hh : c ≠ '#')
    (ih : ∀ u', u'.length ≤ u.length → Pushes u' w v) : Pushes (c :: u) w v := by
  intro o a b h
  obtain ⟨k, t, r, hr, hpos, hspots⟩ := exists_spots_eq_cons hc hh (u ++ v)
  obtain ⟨k', t', r', hr', -, hspots'⟩ := exists_spots_eq_cons hc hh (u ++ (w ++ v))
  rw [List.cons_append, List.cons_append, hspots, hspots', List.map_cons, List.map_cons] at h
  obtain ⟨hhead, hrest⟩ := List.cons.inj h
  obtain ⟨rfl, rfl⟩ := Prod.mk.inj hhead
  have hstay : Spot.push (o + (c :: u).length) w.length ⟨o, k', t'⟩ = ⟨o, k', t'⟩ :=
    if_pos (by simp)
  rw [List.cons_append, List.cons_append, hspots, hspots', List.map_cons, hstay]
  congr 1
  rw [← List.cons_append] at hr hr'
  rcases Nat.le_total t'.length (c :: u).length with hle | hle
  · obtain ⟨u', hu'⟩ : t' <+: c :: u :=
      List.prefix_of_prefix_length_le ⟨r, hr⟩ (List.prefix_append (c :: u) v) hle
    rw [← hu', List.append_assoc] at hr hr'
    obtain rfl := List.append_cancel_left hr
    obtain rfl := List.append_cancel_left hr'
    have hlen : t'.length + u'.length = (c :: u).length := by
      rw [← List.length_append, hu']
    have hshort : u'.length ≤ u.length := by
      have hlt : 0 < t'.length := List.length_pos_iff.2 hpos
      rw [List.length_cons] at hlen
      omega
    rw [ih u' hshort _ _ _ hrest, Nat.add_assoc, hlen]
  · obtain ⟨x, rfl⟩ : c :: u <+: t' :=
      List.prefix_of_prefix_length_le (List.prefix_append (c :: u) v) ⟨r, hr⟩ hle
    rw [List.append_assoc] at hr hr'
    obtain ⟨y, rfl, hlen, -, hy⟩ := exists_of_overlap hne hw (List.append_cancel_left hr).symm
      (List.append_cancel_left hr').symm
    rw [spots_append_of_isSkipped hy, hlen, map_push_spots (by simp)]

/-- White space that changes no lexeme only pushes the lexemes behind it. -/
theorem pushes (hne : w ≠ []) (hw : ∀ c ∈ w, isSkipped c = true) (u v : List Char) :
    Pushes u w v := by
  induction hn : u.length using Nat.strongRecOn generalizing u with
  | ind n ih =>
  subst hn
  cases u with
  | nil => exact pushes_nil hw
  | cons c u =>
  have hshorter : ∀ u' : List Char, u'.length ≤ u.length → Pushes u' w v := fun u' hu' =>
    ih u'.length (Nat.lt_succ_of_le hu') u' rfl
  by_cases hc : isSkipped c = true
  · exact (hshorter u (Nat.le_refl _)).cons_of_isSkipped hc
  by_cases hh : c = '#'
  · subst hh
    by_cases hu : '\n' ∈ u
    · obtain ⟨u₁, u₂, rfl, hu₁⟩ := List.eq_append_cons_of_mem hu
      exact (hshorter ('\n' :: u₂) (by simp)).comment_line hu₁
    · exact pushes_comment hw hu
  · exact pushes_cons hne hw (Bool.eq_false_iff.2 hc) hh hshorter

end StackEditor.Lexeme
