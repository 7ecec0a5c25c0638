import Mathlib.Data.List.Find
import Mathlib.Data.List.TakeWhile
import StackEditor.Lexeme.Tokens
import StackEditor.Proofs.Anchor.Offset

/-!
# Where lexemes lie

A `Spot` is a lexeme together with the offset of its first character. The spots of a source do not
overlap (`pairwise_spots`), each starts with a character that is not skipped and stays on one line
(`spot_sound`), and the tokens of the source are its spots, placed by line and column
(`tokenize_eq_map`). So the token at the position of an offset is the one whose spot holds that
offset (`tokenAt?_positionAt`), and at its own start a token finds itself
(`tokenAt?_spot`).
-/

namespace StackEditor

namespace Lexeme

/-- A lexeme and the offset of its first character. -/
structure Spot where
  offset : Nat
  kind : Token.Kind
  text : List Char
  deriving DecidableEq

namespace Spot

/-- The offset behind the lexeme. -/
def stop (s : Spot) : Nat := s.offset + s.text.length

/-- The offset belongs to one of the lexeme's characters. -/
def holds (s : Spot) (i : Nat) : Bool := s.offset ≤ i && i < s.stop

/-- The token that the lexeme is in `source`. -/
def token (source : List Char) (s : Spot) : Token :=
  let p := positionAt source s.offset
  ⟨s.kind, String.ofList s.text, p.line, p.col, p.col + s.text.length⟩

/-- What a lexeme is, wherever it lies. -/
def content (s : Spot) : Token.Kind × List Char := (s.kind, s.text)

/-- A spot of `source`: its text is there, it is not empty and starts with a character that is not
skipped, and it stays on its line. -/
structure Sound (source : List Char) (s : Spot) : Prop where
  text_isPrefix : s.text <+: source.drop s.offset
  head : ∃ c r, s.text = c :: r ∧ isSkipped c = false
  newline : '\n' ∉ s.text

end Spot

/-- The spots of pieces, the first of which starts at the offset `o`. -/
def spots (o : Nat) : List Piece → List Spot
  | [] => []
  | .gap t :: ps => spots (o + t.length) ps
  | .lexeme k t :: ps => ⟨o, k, t⟩ :: spots (o + t.length) ps

/-! ## Lexemes -/

/-- What is not skipped is no line break. -/
theorem not_isSkipped_of_ne {c : Char} (h : isSkipped c = false) : c ≠ '\n' := by
  rintro rfl
  exact absurd h (by decide)

/-- Blanks are no word characters. -/
theorem isSkipped_not_isWordChar {c : Char} (h : isSkipped c = true) : isWordChar c = false := by
  simp only [isSkipped, Bool.or_eq_true, beq_iff_eq] at h
  rcases h with (((rfl | rfl) | rfl) | rfl) | rfl <;> decide +kernel

/-- A word has no newline. -/
theorem newline_notMem_takeWhile (cs : List Char) : '\n' ∉ cs.takeWhile isWordChar := by
  intro hm
  have hword := List.mem_takeWhile_imp hm
  rw [isSkipped_not_isWordChar (by decide)] at hword
  cases hword

/-- A string has no newline, whether its closing quote was met or not. -/
theorem newline_notMem_quotedPart (cs : List Char) : '\n' ∉ (quotedPart cs).1 := by
  fun_induction quotedPart cs with
  | case1 | case2 | case3 | case4 | case5 => simp
  | case6 c rest hc r ih =>
    simp only [List.mem_cons, not_or]
    exact ⟨by decide, fun h => hc h.symm, ih⟩
  | case7 c rest _ hc _ _ r ih =>
    simp only [List.mem_cons, not_or]
    exact ⟨fun h => hc h.symm, ih⟩

/-- A first piece that is a lexeme starts with a character that is not skipped and has no
newline. -/
theorem firstPiece_lexeme {c : Char} {rest t : List Char} {k : Token.Kind}
    (h : firstPiece c rest = .lexeme k t) :
    isSkipped c = false ∧ (∃ r, t = c :: r) ∧ '\n' ∉ t := by
  unfold firstPiece at h
  split at h
  · cases h
  next hc =>
  have hs : isSkipped c = false := by simpa using hc
  have hn : '\n' ≠ c := (not_isSkipped_of_ne hs).symm
  split at h
  · cases h
  split at h
  · cases h; exact ⟨hs, ⟨_, rfl⟩, by simpa using hn⟩
  split at h
  · cases h
    exact ⟨hs, ⟨_, rfl⟩, by simpa using ⟨hn, newline_notMem_quotedPart rest⟩⟩
  split at h
  · cases h
    exact ⟨hs, ⟨_, rfl⟩, by
      simpa only [List.mem_cons, not_or] using ⟨hn, newline_notMem_takeWhile rest⟩⟩
  split at h
  · cases h
    exact ⟨hs, ⟨_, rfl⟩, by
      simpa only [List.mem_cons, not_or] using ⟨hn, newline_notMem_takeWhile rest⟩⟩
  · cases h; exact ⟨hs, ⟨_, rfl⟩, by simpa using hn⟩

/-- The pieces of a text are its first piece and the pieces of what follows that. -/
theorem pieces_cons {c : Char} {rest cs : List Char}
    (h : (firstPiece c rest).text ++ cs = c :: rest) :
    pieces (c :: rest) = firstPiece c rest :: pieces cs := by
  have hdrop : (c :: rest).drop (firstPiece c rest).text.length = cs := by
    rw [← h, List.drop_left]
  rw [pieces, hdrop]

/-! ## Spots -/

@[simp] theorem spots_nil (o : Nat) : spots o [] = [] := rfl

/-- The spots behind a first piece. -/
theorem spots_cons (o : Nat) (p : Piece) (ps : List Piece) :
    spots o (p :: ps) = spots o [p] ++ spots (o + p.text.length) ps := by
  cases p <;> rfl

/-- Moving pieces moves their spots. -/
theorem spots_add (o n : Nat) (ps : List Piece) :
    spots (o + n) ps = (spots o ps).map fun s => { s with offset := s.offset + n } := by
  induction ps generalizing o with
  | nil => rfl
  | cons p ps ih =>
    cases p with
    | gap t => simp only [spots, Nat.add_right_comm o n, ih]
    | lexeme k t => simp only [spots, Nat.add_right_comm o n, ih, List.map_cons]

/-- Where a lexeme lies does not change what it is. -/
theorem map_content_spots (o o' : Nat) (ps : List Piece) :
    (spots o ps).map Spot.content = (spots o' ps).map Spot.content := by
  induction ps generalizing o o' with
  | nil => rfl
  | cons p ps ih =>
    cases p with
    | gap t => exact ih _ _
    | lexeme k t => simp only [spots, List.map_cons, ih (o + t.length) (o' + t.length)]; rfl

/-- The spots behind an offset do not start before it. -/
theorem le_offset_of_mem_spots {o : Nat} {ps : List Piece} {s : Spot} (h : s ∈ spots o ps) :
    o ≤ s.offset := by
  induction ps generalizing o with
  | nil => cases h
  | cons p ps ih =>
    cases p with
    | gap t => have := ih h; omega
    | lexeme k t =>
      rcases List.mem_cons.1 h with rfl | h
      · exact Nat.le_refl _
      · have := ih h; omega

/-- Lexemes do not overlap, and come in the order of their offsets. -/
theorem pairwise_spots (o : Nat) (ps : List Piece) :
    (spots o ps).Pairwise fun s s' => s.stop ≤ s'.offset := by
  induction ps generalizing o with
  | nil => exact .nil
  | cons p ps ih =>
    cases p with
    | gap t => exact ih _
    | lexeme k t => exact .cons (fun s hs => le_offset_of_mem_spots hs) (ih _)

/-- The spots of the pieces of a text that lies behind `a` are spots of the whole text. -/
theorem spot_sound_of_mem {a cs : List Char} {s : Spot} (h : s ∈ spots a.length (pieces cs)) :
    s.Sound (a ++ cs) := by
  fun_induction pieces cs generalizing a with
  | case1 => cases h
  | case2 c rest ih =>
    obtain ⟨t, ht⟩ := firstPiece_text_isPrefix c rest
    have hdrop : (c :: rest).drop (firstPiece c rest).text.length = t := by
      rw [← ht, List.drop_left]
    rw [hdrop] at ih h
    rw [spots_cons, List.mem_append, ← List.length_append] at h
    rcases h with h | h
    · cases hp : firstPiece c rest with
      | gap g => rw [hp] at h; cases h
      | lexeme k l =>
        rw [hp] at h
        obtain rfl : s = ⟨a.length, k, l⟩ := by simpa [spots] using h
        obtain ⟨hs, ⟨r, hr⟩, hn⟩ := firstPiece_lexeme hp
        refine ⟨?_, ⟨c, r, hr, hs⟩, hn⟩
        rw [hp] at ht
        rw [List.drop_left, ← ht]
        exact List.prefix_append _ _
    · rw [← ht, ← List.append_assoc]
      exact ih h

/-- Every spot of a source is sound. -/
theorem spot_sound {source : List Char} {s : Spot} (h : s ∈ spots 0 (pieces source)) :
    s.Sound source :=
  spot_sound_of_mem (a := []) h

namespace Spot

variable {source : List Char} {s : Spot}

/-- A spot has at least one character. -/
theorem Sound.offset_lt_stop (h : s.Sound source) : s.offset < s.stop := by
  obtain ⟨c, r, hr, -⟩ := h.head
  simp [stop, hr]

/-- A spot ends within the source. -/
theorem Sound.stop_le_length (h : s.Sound source) : s.stop ≤ source.length := by
  have hlen := h.text_isPrefix.length_le
  have hlt := h.offset_lt_stop
  rw [List.length_drop] at hlen
  unfold stop at *
  omega

/-- A spot starts within the source. -/
theorem Sound.offset_lt_length (h : s.Sound source) : s.offset < source.length :=
  Nat.lt_of_lt_of_le h.offset_lt_stop h.stop_le_length

/-- The character at a spot's offset is not skipped. -/
theorem Sound.getElem?_offset (h : s.Sound source) :
    ∃ c, source[s.offset]? = some c ∧ isSkipped c = false := by
  obtain ⟨c, r, hr, hs⟩ := h.head
  obtain ⟨t, ht⟩ := h.text_isPrefix
  refine ⟨c, ?_, hs⟩
  rw [← List.head?_drop, ← ht, hr]
  rfl

/-- Inside a lexeme, and right behind it, positions stay on its line. -/
theorem Sound.positionAt_offset_add (h : s.Sound source) {n : Nat} (hn : n ≤ s.text.length) :
    positionAt source (s.offset + n) =
      ⟨(positionAt source s.offset).line, (positionAt source s.offset).col + n⟩ := by
  obtain ⟨t, ht⟩ := h.text_isPrefix
  have hline : '\n' ∉ s.text.take n := fun hm => h.newline (List.mem_of_mem_take hm)
  rw [positionAt_add, ← ht, List.take_append_of_le_length hn, Position.after_of_not_mem hline,
    List.length_take, Nat.min_eq_left hn]

/-- A token covers exactly the positions of the offsets that its spot holds. -/
theorem Sound.covers_iff (h : s.Sound source) {p : Position} :
    (s.token source).covers p = true ↔ ∃ i, s.holds i = true ∧ positionAt source i = p := by
  simp only [Token.covers, holds, Bool.and_eq_true, beq_iff_eq, decide_eq_true_eq]
  simp only [token, stop]
  constructor
  · rintro ⟨⟨hline, hcol⟩, hstop⟩
    obtain ⟨n, hn⟩ := Nat.exists_eq_add_of_le hcol
    refine ⟨s.offset + n, by omega, ?_⟩
    rw [h.positionAt_offset_add (by omega), ← hn, ← hline]
  · rintro ⟨i, ⟨hoff, hstop⟩, rfl⟩
    obtain ⟨n, rfl⟩ := Nat.exists_eq_add_of_le hoff
    rw [h.positionAt_offset_add (by omega)]
    refine ⟨⟨rfl, ?_⟩, ?_⟩ <;> dsimp only <;> omega

/-- The token at a spot starts at the position of the spot's offset. -/
@[simp] theorem token_start (source : List Char) (s : Spot) :
    (s.token source).start = positionAt source s.offset := rfl

end Spot

end Lexeme

open Lexeme

/-! ## Tokens -/

/-- Placing the pieces of a text that lies behind `a` gives the tokens of their spots. -/
theorem Lexeme.place_eq_map (a : List Char) (ps : List Piece) :
    place (Position.zero.after a) ps =
      (spots a.length ps).map (Spot.token (a ++ ps.flatMap Piece.text)) := by
  induction ps generalizing a with
  | nil => rfl
  | cons p ps ih =>
    have hrest := ih (a ++ p.text)
    rw [Position.after_append, List.length_append, List.append_assoc] at hrest
    cases p with
    | gap t =>
      rw [place, spots, List.flatMap_cons]
      exact hrest
    | lexeme k t =>
      have hpos : positionAt (a ++ (t ++ ps.flatMap Piece.text)) a.length =
          Position.zero.after a := positionAt_append_length _ _
      rw [place, spots, List.map_cons, List.flatMap_cons]
      refine congrArg₂ List.cons ?_ hrest
      simp only [Spot.token, Piece.text, hpos]

/-- The tokens of a source are those of its spots. -/
theorem tokenize_eq_map (source : String) :
    tokenize source = (spots 0 (pieces source.toList)).map (Spot.token source.toList) := by
  have h := place_eq_map [] (pieces source.toList)
  rwa [flatMap_text_pieces] at h

/-- Every token of a source starts at the position of an offset of it. -/
theorem exists_offset_of_mem_tokenize {source : String} {t : Token} (h : t ∈ tokenize source) :
    ∃ s ∈ spots 0 (pieces source.toList), s.token source.toList = t ∧
      s.offset < source.toList.length ∧ t.start = positionAt source.toList s.offset := by
  rw [tokenize_eq_map] at h
  obtain ⟨s, hs, rfl⟩ := List.mem_map.1 h
  exact ⟨s, hs, rfl, (spot_sound hs).offset_lt_length, rfl⟩

/-- The token at the position of an offset is the one whose spot holds the offset. -/
theorem tokenAt?_positionAt (source : String) {i : Nat} (hi : i ≤ source.toList.length) :
    tokenAt? (tokenize source) (positionAt source.toList i) =
      ((spots 0 (pieces source.toList)).find? (·.holds i)).map (Spot.token source.toList) := by
  rw [tokenAt?, tokenize_eq_map, List.find?_map]
  congr 1
  refine List.find?_congr fun s hs => ?_
  have hsound := spot_sound hs
  rw [Function.comp_apply, Bool.eq_iff_iff, hsound.covers_iff]
  constructor
  · rintro ⟨j, hj, heq⟩
    have hlen := hsound.stop_le_length
    have hjs : j < s.stop := by simp_all [Spot.holds]
    rwa [← positionAt_inj (by omega) hi heq]
  · exact fun h => ⟨i, h, rfl⟩

/-- Among lexemes that do not overlap, the one that holds its own offset is found there. -/
theorem Lexeme.find?_holds_offset {ss : List Spot} {s : Spot}
    (hp : ss.Pairwise fun s s' => s.stop ≤ s'.offset) (hs : s ∈ ss) (hne : s.offset < s.stop) :
    ss.find? (·.holds s.offset) = some s := by
  induction ss with
  | nil => cases hs
  | cons x ss ih =>
    rw [List.pairwise_cons] at hp
    rcases List.mem_cons.1 hs with rfl | hs
    · rw [List.find?_cons_of_pos]
      simpa [Spot.holds] using hne
    · rw [List.find?_cons_of_neg, ih hp.2 hs]
      have := hp.1 s hs
      simp [Spot.holds]
      omega

/-- At the start of a token of a source there is that token. -/
theorem tokenAt?_spot {source : String} {s : Spot} (h : s ∈ spots 0 (pieces source.toList)) :
    tokenAt? (tokenize source) (positionAt source.toList s.offset) =
      some (s.token source.toList) := by
  have hsound := spot_sound h
  rw [tokenAt?_positionAt source (Nat.le_of_lt hsound.offset_lt_length),
    find?_holds_offset (pairwise_spots 0 _) h hsound.offset_lt_stop]
  rfl

end StackEditor
