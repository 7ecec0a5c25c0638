import StackEditor.Proofs.Lexeme.Placement
import StackEditor.Proofs.Text.Lines

/-!
# Tokens tile their source

Nothing of a source is lost between its tokens. A character that no token covers is skipped, or it
belongs to a comment (`uncovered_cases`), and the tokens lie on the lines of the source where they
say (`tokenize_tiles`). So asking for the token at a place finds the one that covers it.
-/

namespace StackEditor

/-- A token covers the columns from its first up to its end, on its line. -/
theorem Token.covers_eq_true_iff {t : Token} {p : Position} :
    t.covers p = true ↔ p.line = t.line ∧ t.col ≤ p.col ∧ p.col < t.endCol := by
  simp [covers, and_assoc]

/-- A token that is not empty covers its start. -/
theorem Token.covers_start {t : Token} (h : t.col < t.endCol) : t.covers t.start = true :=
  covers_eq_true_iff.2 ⟨rfl, Nat.le_refl _, h⟩

namespace Lexeme

/-- A gap is a run of skipped characters, or a comment. -/
theorem firstPiece_gap {c : Char} {rest t : List Char} (h : firstPiece c rest = .gap t) :
    (∀ d ∈ t, isSkipped d = true) ∨ c = '#' ∧ t = '#' :: rest.takeWhile (· ≠ '\n') := by
  unfold firstPiece at h
  split at h
  · next hc =>
    cases h
    left
    intro d hd
    rcases List.mem_cons.1 hd with rfl | hd
    · exact hc
    · exact List.mem_takeWhile_imp hd
  split at h
  · next hc =>
    cases h
    exact .inr ⟨hc, by rw [hc]⟩
  split at h
  · cases h
  split at h
  · cases h
  split at h
  · cases h
  split at h
  · cases h
  · cases h

/-- A comment that starts at the offset `start` of the text `cs`: a `#` and the rest `body` of its
line. The spots of the text, which lies at the offset `o`, are in front of it or behind it. -/
structure Comment (o : Nat) (cs : List Char) (ss : List Spot) (start : Nat)
    (body : List Char) : Prop where
  drop : ∃ r, cs.drop start = '#' :: r ∧ body = r.takeWhile (· ≠ '\n')
  apart : ∀ s ∈ ss, s.stop ≤ o + start ∨ o + start + body.length < s.offset

/-- The spot of a piece reaches as far as the piece. -/
theorem stop_of_mem_spots_singleton {o : Nat} {p : Piece} {s : Spot} (h : s ∈ spots o [p]) :
    s.stop = o + p.text.length := by
  cases p with
  | gap t => cases h
  | lexeme k t =>
    obtain rfl : s = ⟨o, k, t⟩ := by simpa [spots] using h
    rfl

/-- A character of the first piece belongs to a spot, or is skipped, or belongs to a comment. -/
theorem uncovered_cases_firstPiece (o : Nat) (c : Char) (rest r : List Char) {i : Nat}
    (hr : (firstPiece c rest).text ++ r = c :: rest) (hi : i < (firstPiece c rest).text.length) :
    (∃ s ∈ spots o (pieces (c :: rest)), s.holds (o + i) = true) ∨
      (∃ d, (c :: rest)[i]? = some d ∧ isSkipped d = true) ∨
      ∃ start body, start ≤ i ∧ i ≤ start + body.length ∧
        Comment o (c :: rest) (spots o (pieces (c :: rest))) start body := by
  rw [pieces_cons hr, spots_cons]
  cases hp : firstPiece c rest with
  | lexeme k t =>
    rw [hp] at hi
    refine .inl ⟨⟨o, k, t⟩, by simp [spots], ?_⟩
    simpa [Spot.holds, Spot.stop, Piece.text] using hi
  | gap t =>
    rw [hp] at hi hr
    right
    rcases firstPiece_gap hp with hskip | ⟨rfl, rfl⟩
    · left
      refine ⟨t[i], ?_, hskip _ (List.getElem_mem hi)⟩
      rw [← hr, List.getElem?_append_left hi]
      exact List.getElem?_eq_getElem hi
    · right
      refine ⟨0, rest.takeWhile (· ≠ '\n'), Nat.zero_le i, ?_, ⟨rest, rfl, rfl⟩, ?_⟩
      · simp only [Piece.text, List.length_cons] at hi
        omega
      · intro s hs
        right
        have hle := le_offset_of_mem_spots hs
        simp only [Piece.text, List.length_cons] at hle
        omega

/-- A character of a text belongs to a spot, or it is skipped, or it belongs to a comment. -/
theorem uncovered_cases (o : Nat) {cs : List Char} {i : Nat} (hi : i < cs.length) :
    (∃ s ∈ spots o (pieces cs), s.holds (o + i) = true) ∨
      (∃ c, cs[i]? = some c ∧ isSkipped c = true) ∨
      ∃ start body, start ≤ i ∧ i ≤ start + body.length ∧
        Comment o cs (spots o (pieces cs)) start body := by
  induction hn : cs.length using Nat.strongRecOn generalizing o cs i with
  | ind n ih =>
  subst hn
  cases cs with
  | nil => cases hi
  | cons c rest =>
  obtain ⟨r, hr⟩ := firstPiece_text_isPrefix c rest
  rcases Nat.lt_or_ge i (firstPiece c rest).text.length with hlt | hge
  · exact uncovered_cases_firstPiece o c rest r hr hlt
  -- The character belongs to what follows the first piece.
  obtain ⟨j, rfl⟩ := Nat.exists_eq_add_of_le hge
  have hlen := congrArg List.length hr
  rw [List.length_append] at hlen
  have hpos := List.length_pos_iff.2 (firstPiece_text_ne_nil c rest)
  have hget : (c :: rest)[(firstPiece c rest).text.length + j]? = r[j]? := by
    rw [← hr, List.getElem?_append_right (Nat.le_add_right _ _), Nat.add_sub_cancel_left]
  rw [pieces_cons hr, spots_cons, hget]
  rcases ih r.length (by omega) (o + (firstPiece c rest).text.length) (i := j) (by omega) rfl with
    ⟨s, hs, hholds⟩ | hskip | ⟨start, body, hstart, hbody, ⟨t, hdrop, rfl⟩, hapart⟩
  · exact .inl ⟨s, List.mem_append_right _ hs, by rwa [← Nat.add_assoc]⟩
  · exact .inr (.inl hskip)
  · refine .inr (.inr ⟨(firstPiece c rest).text.length + start, _, by omega, by omega,
      ⟨t, ?_, rfl⟩, fun s hs => ?_⟩)
    · rw [← hr, List.drop_length_add_append]
      exact hdrop
    · rcases List.mem_append.1 hs with hs | hs
      · left
        rw [stop_of_mem_spots_singleton hs]
        omega
      · have := hapart s hs
        omega

/-! ## Lines -/

variable {source : List Char}

/-- A lexeme is what the line of its token has in the columns of its token. -/
theorem Spot.Sound.exists_line {s : Spot} (h : s.Sound source) :
    ∃ line, (source.splitOn '\n')[(s.token source).line]? = some line ∧
      (s.token source).endCol ≤ line.length ∧
      s.text = (line.take (s.token source).endCol).drop (s.token source).col := by
  obtain ⟨line, hline, hdrop⟩ := exists_line_positionAt source s.offset
  obtain ⟨t, ht⟩ := h.text_isPrefix
  rw [← ht, takeWhile_append_of_newline_notMem h.newline] at hdrop
  have hlen := congrArg List.length hdrop
  have hpos := h.offset_lt_stop
  rw [List.length_drop, List.length_append] at hlen
  refine ⟨line, hline, ?_, ?_⟩
  · simp only [Spot.token, Spot.stop] at hpos ⊢
    omega
  · rw [List.drop_take, Spot.token]
    dsimp only
    rw [hdrop, Nat.add_sub_cancel_left, List.take_left]

variable {ss : List Spot} {start : Nat} {body : List Char}

/-- A comment stays on its line. -/
theorem Comment.positionAt_add (h : Comment 0 source ss start body) {n : Nat}
    (hn : n ≤ body.length) :
    positionAt source (start + n) =
      ⟨(positionAt source start).line, (positionAt source start).col + n⟩ := by
  obtain ⟨r, hr, rfl⟩ := h.drop
  have hsplit : source.drop start =
      ('#' :: r.takeWhile (· ≠ '\n')) ++ r.dropWhile (· ≠ '\n') := by
    rw [hr, List.cons_append, List.takeWhile_append_dropWhile]
  have hline : '\n' ∉ '#' :: r.takeWhile (· ≠ '\n') := by
    simpa using fun hm => by simpa using List.mem_takeWhile_imp hm
  have hle : n ≤ ('#' :: r.takeWhile (· ≠ '\n')).length := Nat.le_succ_of_le hn
  rw [StackEditor.positionAt_add, hsplit, List.take_append_of_le_length hle,
    Position.after_of_not_mem fun hm => hline (List.mem_of_mem_take hm), List.length_take,
    Nat.min_eq_left hle]

/-- The line of a comment goes on with the comment, up to its end. -/
theorem Comment.exists_line (h : Comment 0 source ss start body) :
    ∃ line, (source.splitOn '\n')[(positionAt source start).line]? = some line ∧
      line.drop (positionAt source start).col = '#' :: body := by
  obtain ⟨r, hr, rfl⟩ := h.drop
  obtain ⟨line, hline, hdrop⟩ := exists_line_positionAt source start
  rw [hr, List.takeWhile_cons_of_pos (by decide)] at hdrop
  exact ⟨line, hline, hdrop⟩

end Lexeme

open Lexeme

/-! ## Tiling -/

/-- The character at `p` belongs to a comment: before it on its line, or at it, there is a `#`, and
from that on no token covers anything of the line. -/
def InComment (source : List Char) (tokens : List Token) (p : Position) : Prop :=
  ∃ text start, (source.splitOn '\n')[p.line]? = some text ∧ text[start]? = some '#' ∧
    start ≤ p.col ∧ p.col < text.length ∧
    ∀ col, start ≤ col → ∀ t ∈ tokens, t.covers ⟨p.line, col⟩ = false

/-- The tokens tile the source, but for what is skipped. -/
structure Tiles (source : List Char) (tokens : List Token) : Prop where
  /-- They come in the order of their starts, and those on one line do not overlap. -/
  ordered : tokens.Pairwise fun t t' =>
    t.start < t'.start ∧ (t.line = t'.line → t.endCol ≤ t'.col)
  /-- Each is what its line has in its columns, which is something. -/
  placed : ∀ t ∈ tokens, t.col < t.endCol ∧ '\n' ∉ t.text.toList ∧
    ∃ line, (source.splitOn '\n')[t.line]? = some line ∧ t.endCol ≤ line.length ∧
      t.text.toList = (line.take t.endCol).drop t.col
  /-- Each starts at the position of an offset, counted from the start of the source, where the
  source goes on with its text. -/
  counted : ∀ t ∈ tokens, ∃ o, positionAt source o = t.start ∧ t.text.toList <+: source.drop o
  /-- What none of them covers is skipped or belongs to a comment. -/
  uncovered : ∀ i c, source[i]? = some c →
    (∀ t ∈ tokens, t.covers (positionAt source i) = false) →
      isSkipped c = true ∨ InComment source tokens (positionAt source i)

/-- The tokens of two spots, one behind the other. -/
theorem Lexeme.Spot.Sound.ordered {s s' : Spot} (h : s.Sound source) (h' : s'.Sound source)
    (hle : s.stop ≤ s'.offset) :
    (s.token source).start < (s'.token source).start ∧
      ((s.token source).line = (s'.token source).line →
        (s.token source).endCol ≤ (s'.token source).col) := by
  have hlength := Nat.le_of_lt h'.offset_lt_length
  refine ⟨positionAt_lt (Nat.lt_of_lt_of_le h.offset_lt_stop hle) hlength, fun hline => ?_⟩
  have hstop := positionAt_le source hle
  rw [Spot.stop, h.positionAt_offset_add (Nat.le_refl _), Position.le_def] at hstop
  simp only [Spot.token] at hline hstop ⊢
  omega

/-- A character of a comment is in it, as the tokens of the spots show it. -/
theorem Lexeme.Comment.inComment (hsound : ∀ s ∈ ss, s.Sound source)
    (h : Comment 0 source ss start body) {n : Nat} (hn : n ≤ body.length) :
    InComment source (ss.map (Spot.token source)) (positionAt source (start + n)) := by
  obtain ⟨line, hline, hdrop⟩ := h.exists_line
  have hlen := congrArg List.length hdrop
  rw [List.length_drop, List.length_cons] at hlen
  rw [h.positionAt_add hn]
  refine ⟨line, (positionAt source start).col, hline, ?_, Nat.le_add_right _ _, ?_, ?_⟩
  · rw [← List.head?_drop, hdrop]
    rfl
  · dsimp only
    omega
  intro col hcol t ht
  obtain ⟨s, hs, rfl⟩ := List.mem_map.1 ht
  rw [Bool.eq_false_iff]
  intro hcovers
  -- The token ends with its line, so what it covers is a character of the comment.
  obtain ⟨hsame, -, hend⟩ := Token.covers_eq_true_iff.1 hcovers
  obtain ⟨line', hline', hle, -⟩ := (hsound s hs).exists_line
  rw [← hsame, hline] at hline'
  obtain rfl := Option.some.inj hline'
  obtain ⟨m, rfl⟩ := Nat.exists_eq_add_of_le hcol
  have hm : m ≤ body.length := by
    dsimp only at hend
    omega
  obtain ⟨i, hholds, hi⟩ := (hsound s hs).covers_iff.1 hcovers
  have hbound : start + m ≤ source.length := by
    obtain ⟨r, hr, rfl⟩ := h.drop
    have hlength := congrArg List.length hr
    have hbody := (List.takeWhile_prefix (· ≠ '\n') (l := r)).length_le
    rw [List.length_drop, List.length_cons] at hlength
    omega
  have hstop := (hsound s hs).stop_le_length
  simp only [Spot.holds, Bool.and_eq_true, decide_eq_true_eq] at hholds
  rw [← h.positionAt_add hm] at hi
  obtain rfl := positionAt_inj (by omega) hbound hi
  have hapart := h.apart s hs
  omega

theorem tiles_tokenize (source : String) : Tiles source.toList (tokenize source) := by
  rw [tokenize_eq_map]
  constructor
  case ordered =>
    rw [List.pairwise_map]
    exact (pairwise_spots 0 _).imp_of_mem fun hs hs' hle =>
      (spot_sound hs).ordered (spot_sound hs') hle
  case placed =>
    intro t ht
    obtain ⟨s, hs, rfl⟩ := List.mem_map.1 ht
    have hsound := spot_sound hs
    have hpos := hsound.offset_lt_stop
    have htext : ((s.token source.toList).text).toList = s.text := String.toList_ofList
    rw [htext]
    refine ⟨?_, hsound.newline, hsound.exists_line⟩
    simp only [Spot.token, Spot.stop] at hpos ⊢
    omega
  case counted =>
    intro t ht
    obtain ⟨s, hs, rfl⟩ := List.mem_map.1 ht
    refine ⟨s.offset, rfl, ?_⟩
    rw [Spot.token, String.toList_ofList]
    exact (spot_sound hs).text_isPrefix
  case uncovered =>
    intro i c hc hnone
    obtain ⟨hi, -⟩ := List.getElem?_eq_some_iff.1 hc
    rcases uncovered_cases 0 hi with ⟨s, hs, hholds⟩ | ⟨d, hd, hskip⟩ |
      ⟨start, body, hstart, hbody, hcomment⟩
    · rw [Nat.zero_add] at hholds
      have hcovers := (spot_sound hs).covers_iff.2 ⟨i, hholds, rfl⟩
      rw [hnone _ (List.mem_map_of_mem hs)] at hcovers
      cases hcovers
    · obtain rfl := Option.some.inj (hc.symm.trans hd)
      exact .inl hskip
    · obtain ⟨n, rfl⟩ := Nat.exists_eq_add_of_le hstart
      exact .inr (hcomment.inComment (fun s hs => spot_sound hs) (Nat.le_of_add_le_add_left hbody))

/-- No two of the tokens cover one position. -/
def TokensApart (tokens : List Token) : Prop :=
  tokens.Pairwise fun t t' => ∀ p, t.covers p = true → t'.covers p = false

/-- Tokens that are apart are found at the positions that they cover. -/
theorem TokensApart.tokenAt?_eq_some_iff {tokens : List Token} (h : TokensApart tokens)
    {p : Position} {t : Token} : tokenAt? tokens p = some t ↔ t ∈ tokens ∧ t.covers p = true := by
  unfold tokenAt?
  refine ⟨fun hfind => ?_, ?_⟩
  · have hcovers := List.find?_some hfind
    exact ⟨List.mem_of_find?_eq_some hfind, hcovers⟩
  rintro ⟨ht, hcovers⟩
  obtain ⟨before, after, rfl⟩ := List.append_of_mem ht
  refine List.find?_eq_some_iff_append.2 ⟨hcovers, before, after, rfl, fun t' ht' => ?_⟩
  have hapart := (List.pairwise_append.1 h).2.2 t' ht' t List.mem_cons_self p
  rw [Bool.not_eq_true', Bool.eq_false_iff]
  intro hcovers'
  rw [hapart hcovers'] at hcovers
  cases hcovers

/-- Tokens that come in order, and do not overlap, are apart. -/
theorem Tiles.apart {tokens : List Token} (h : Tiles source tokens) : TokensApart tokens := by
  refine h.ordered.imp fun hordered p hcovers => ?_
  rw [Bool.eq_false_iff]
  intro hcovers'
  rw [Token.covers_eq_true_iff] at hcovers hcovers'
  have := hordered.2 (hcovers.1.symm.trans hcovers'.1)
  omega

/-- The leftmost token of a line is the first one that is found on it. -/
theorem Tiles.find?_line {tokens : List Token} (h : Tiles source tokens) {t : Token}
    (ht : t ∈ tokens) (hfirst : ∀ t' ∈ tokens, t'.line = t.line → t.col ≤ t'.col) :
    tokens.find? (·.line = t.line) = some t := by
  obtain ⟨before, after, rfl⟩ := List.append_of_mem ht
  refine List.find?_eq_some_iff_append.2 ⟨by simp, before, after, rfl, fun t' ht' => ?_⟩
  have hordered := (List.pairwise_append.1 h.ordered).2.2 t' ht' t List.mem_cons_self
  have hmem : t' ∈ before ++ t :: after := List.mem_append_left _ ht'
  have hplaced := (h.placed t' hmem).1
  rw [Bool.not_eq_true', decide_eq_false_iff_not]
  intro hline
  have hend := hordered.2 hline
  have hcol := hfirst t' hmem hline
  omega

/-- The tokens of a source tile it. So at every place they find the one token that covers it, and
where none does they find none. -/
theorem tokenize_tiles (source : String) :
    Tiles source.toList (tokenize source) ∧ ∀ p,
      (∀ t, tokenAt? (tokenize source) p = some t ↔ t ∈ tokenize source ∧ t.covers p = true) ∧
        (tokenAt? (tokenize source) p = none ↔ ∀ t ∈ tokenize source, t.covers p = false) := by
  have htiles := tiles_tokenize source
  refine ⟨htiles, fun p => ⟨fun t => htiles.apart.tokenAt?_eq_some_iff, ?_⟩⟩
  simp only [tokenAt?, List.find?_eq_none, Bool.not_eq_true]

end StackEditor
