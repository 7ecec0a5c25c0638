import Mathlib.Data.List.Induction
import StackEditor.Breakpoint.Tracker
import StackEditor.Proofs.Breakpoint.Holding
import StackEditor.Proofs.Lexeme.Placement

/-!
# Where breakpoints settle

`settleAll` puts breakpoints on the tokens of a text, one after the other. What it makes of them is
said by a fold that knows no anchors: `carry` gives every breakpoint the place that a function has
for it, and drops it if there is none or an earlier one is there. `settle_eq_none` and
`exists_settle` are the step and `settleAll_spec` the run: the places are those that the anchors had
at the start, and every breakpoint ends up with its anchor where it is.
-/

namespace StackEditor

open Tracker TextAnchors

/-- What a breakpoint shows of itself. -/
def Breakpoint.mark (b : Breakpoint) : Position × BreakpointKind × Option String :=
  (b.position, b.kind, b.expression)

theorem map_fst_mark (bs : List Breakpoint) :
    (bs.map Breakpoint.mark).map (·.1) = bs.map (·.position) := by
  rw [List.map_map]
  rfl

/-- The marks, and behind them that of the breakpoint at its place. It is dropped if it has none,
or if there is a mark at it. -/
def carry (place : Breakpoint → Option Position)
    (marks : List (Position × BreakpointKind × Option String)) (b : Breakpoint) :
    List (Position × BreakpointKind × Option String) :=
  match place b with
  | none => marks
  | some p => if p ∈ marks.map (·.1) then marks else marks ++ [(p, b.kind, b.expression)]

/-- The start of the token where the anchor of the breakpoint is. -/
def TextAnchors.berth? (s : TextAnchors) (tokens : List Token) (b : Breakpoint) :
    Option Position :=
  (s.resolve b.anchor).bind fun r => (tokenAt? tokens r.start).map (·.start)

variable {place place' : Breakpoint → Option Position} {s s' : TextAnchors} {tokens : List Token}
  {kept bs : List Breakpoint} {b : Breakpoint} {p : Position}
  {marks : List (Position × BreakpointKind × Option String)}

/-! ## Carrying -/

/-- A breakpoint without a place of its own is dropped. -/
theorem carry_eq_self (h : ∀ p, place b = some p → p ∈ marks.map (·.1)) :
    carry place marks b = marks := by
  unfold carry
  split
  · rfl
  · next p hp => rw [if_pos (h p hp)]

/-- A breakpoint with a place of its own is put behind the others. -/
theorem carry_of_notMem (h : place b = some p) (hp : p ∉ marks.map (·.1)) :
    carry place marks b = marks ++ [(p, b.kind, b.expression)] := by
  simp [carry, h, hp]

/-- Either of the two happens. -/
theorem carry_cases (place : Breakpoint → Option Position)
    (marks : List (Position × BreakpointKind × Option String)) (b : Breakpoint) :
    carry place marks b = marks ∨ ∃ p, place b = some p ∧ p ∉ marks.map (·.1) ∧
      carry place marks b = marks ++ [(p, b.kind, b.expression)] := by
  by_cases h : ∀ p, place b = some p → p ∈ marks.map (·.1)
  · exact .inl (carry_eq_self h)
  · push Not at h
    obtain ⟨p, hplace, hp⟩ := h
    exact .inr ⟨p, hplace, hp, carry_of_notMem hplace hp⟩

/-- Only the places of the breakpoints that are carried count. -/
theorem foldl_carry_congr (h : ∀ b ∈ bs, place b = place' b)
    (marks : List (Position × BreakpointKind × Option String)) :
    bs.foldl (carry place) marks = bs.foldl (carry place') marks := by
  refine List.foldl_ext _ _ _ fun marks b hb => ?_
  rw [carry, carry, h b hb]

/-- The places of the marks stay distinct. -/
theorem nodup_foldl_carry (h : (marks.map (·.1)).Nodup) :
    ((bs.foldl (carry place) marks).map (·.1)).Nodup := by
  induction bs generalizing marks with
  | nil => exact h
  | cons b bs ih =>
    refine ih ?_
    rcases carry_cases place marks b with heq | ⟨p, -, hp, heq⟩
    · rwa [heq]
    · rw [heq, List.map_append]
      exact h.append (List.nodup_singleton _) (by simpa using hp)

/-- Every mark is one that was there, or at the place of a breakpoint. -/
theorem mem_foldl_carry {m : Position × BreakpointKind × Option String}
    (h : m ∈ bs.foldl (carry place) marks) :
    m ∈ marks ∨ ∃ b ∈ bs, place b = some m.1 := by
  induction bs generalizing marks with
  | nil => exact .inl h
  | cons b bs ih =>
    rcases ih h with hm | ⟨x, hx, hplace⟩
    · rcases carry_cases place marks b with heq | ⟨p, hplace, -, heq⟩
      · rw [heq] at hm
        exact .inl hm
      · rw [heq, List.mem_append, List.mem_singleton] at hm
        rcases hm with hm | rfl
        · exact .inl hm
        · exact .inr ⟨b, List.mem_cons_self, hplace⟩
    · exact .inr ⟨x, List.mem_cons_of_mem _ hx, hplace⟩

/-- If all breakpoints have places, and different ones where they were at different positions, then
none is dropped. -/
theorem foldl_carry_eq_map (hplace : ∀ b ∈ bs, (place b).isSome)
    (hinj : ∀ b ∈ bs, ∀ b' ∈ bs, place b = place b' → b.position = b'.position)
    (hnodup : (bs.map (·.position)).Nodup) :
    bs.foldl (carry place) [] =
      bs.map fun b => ((place b).getD b.position, b.kind, b.expression) := by
  induction bs using List.reverseRecOn with
  | nil => rfl
  | append_singleton bs b ih =>
    rw [List.map_append, List.nodup_append] at hnodup
    obtain ⟨p, hp⟩ := Option.isSome_iff_exists.1 (hplace b (by simp))
    have hrest := ih (fun x hx => hplace x (by simp [hx]))
      (fun x hx y hy => hinj x (by simp [hx]) y (by simp [hy])) hnodup.1
    rw [List.foldl_append, hrest, List.foldl_cons, List.foldl_nil, carry_of_notMem hp,
      List.map_append, List.map_singleton, hp, Option.getD_some]
    rw [List.map_map]
    intro hmem
    obtain ⟨x, hx, heq⟩ := List.mem_map.1 hmem
    obtain ⟨q, hq⟩ := Option.isSome_iff_exists.1 (hplace x (by simp [hx]))
    simp only [Function.comp_apply, hq, Option.getD_some] at heq
    subst heq
    exact hnodup.2.2 _ (List.mem_map_of_mem hx) _ (by simp)
      (hinj x (by simp [hx]) b (by simp) (hq.trans hp.symm))

/-! ## One breakpoint -/

@[simp] theorem anchorHost_create (s : TextAnchors) (r : Range) :
    AnchorHost.create s r = s.create r := rfl

@[simp] theorem anchorHost_resolve (s : TextAnchors) (a : AnchorId) :
    AnchorHost.resolve s a = s.resolve a := rfl

@[simp] theorem anchorHost_remove (s : TextAnchors) (a : AnchorId) :
    AnchorHost.remove s a = s.remove a := rfl

/-- Stores that agree on a breakpoint have the same berth for it. -/
theorem TextAnchors.Agrees.berth? (h : s.Agrees s' bs) (hb : b ∈ bs) :
    s'.berth? tokens b = s.berth? tokens b := by
  rw [TextAnchors.berth?, TextAnchors.berth?, h.resolve hb]

/-- A text that has a token is there. -/
theorem text?_eq_of_mem_tokenize {t : Token} (h : t ∈ tokenize s.text) :
    s.text? = some s.chars := by
  cases htext : s.text? with
  | some cs => simp [chars, htext]
  | none =>
    have hempty : s.text = "" := by simp [text, chars, htext]
    rw [hempty] at h
    obtain ⟨o, ho, -⟩ := exists_offset_of_mem_tokenize h
    simp at ho

/-- A new anchor can be at the start of every token of the text. -/
theorem create_start {t : Token} (h : t ∈ tokenize s.text) :
    ∃ o, o ≤ s.chars.length ∧ positionAt s.chars o = t.start ∧
      s.create (.point t.start) = some (⟨s.nextId⟩, s.grown (.point o)) := by
  obtain ⟨spot, -, -, hoffset, hpos⟩ := exists_offset_of_mem_tokenize h
  rw [text, String.toList_ofList] at hoffset hpos
  have hle := Nat.le_of_lt hoffset
  refine ⟨spot.offset, hle, hpos.symm, ?_⟩
  rw [hpos]
  exact create_point (text?_eq_of_mem_tokenize h) hle

/-- A breakpoint without a berth of its own is dropped with its anchor. -/
theorem settle_eq_none (h : ∀ p, s.berth? tokens b = some p → p ∈ kept.map (·.position)) :
    settle tokens kept s b = (none, s.remove b.anchor) := by
  unfold settle
  simp only [TextAnchors.berth?] at h
  rw [anchorHost_resolve]
  cases hr : s.resolve b.anchor with
  | none => rfl
  | some r =>
    cases ht : tokenAt? tokens r.start with
    | none => simp [ht]
    | some t =>
      have htaken : t.start ∈ kept.map (·.position) := h _ (by simp [hr, ht])
      have hany : (kept.any (·.position = t.start)) = true := by simpa using htaken
      simp [ht, hany]

/-- A breakpoint with a berth of its own goes there, with an anchor at the place. No other anchor is
touched. -/
theorem exists_settle (h : Holds s (kept ++ b :: bs)) (htokens : tokens = tokenize s.text)
    (hberth : s.berth? tokens b = some p) (hp : p ∉ kept.map (·.position)) :
    ∃ b' s', settle tokens kept s b = (some b', s') ∧ b'.mark = (p, b.kind, b.expression) ∧
      Holds s' (kept ++ b' :: bs) ∧ s.Agrees s' (kept ++ bs) ∧ s'.Bears b' := by
  obtain ⟨r, hr, hstart⟩ := Option.bind_eq_some_iff.1 hberth
  obtain ⟨t, ht, rfl⟩ := Option.map_eq_some_iff.1 hstart
  have hany : (kept.any (·.position = t.start)) = false := by simpa using hp
  simp only [settle, anchorHost_resolve, hr, ht, hany, Bool.false_eq_true, if_false]
  split
  · next hstart =>
    obtain ⟨span, hspan, hrange⟩ := Option.map_eq_some_iff.1 hr
    obtain ⟨o, ho, rfl⟩ := h.points b (by simp) span hspan
    have hpos : positionAt s.chars o = t.start := by rw [← hstart, ← hrange]; rfl
    exact ⟨_, _, rfl, rfl, h.of_map_eq (by simp), .refl s _, o, ho, hspan, hpos⟩
  · -- The token is one of the text, so the host has an anchor for its start.
    have hmem : t ∈ tokenize (s.remove b.anchor).text := htokens ▸ List.mem_of_find?_eq_some ht
    obtain ⟨o, hle, hpos, hcreate⟩ := create_start hmem
    rw [anchorHost_remove, anchorHost_create, hcreate]
    have hholds := h.remove
    exact ⟨_, _, rfl, rfl, hholds.grown hle rfl,
      h.named.agrees_remove.trans hholds.named.agrees_grown, hholds.bears_grown hle rfl hpos⟩

/-! ## All of them -/

/-- What `settleAll` makes of the breakpoints `bs` on the tokens of a text, with the breakpoints
`kept` settled before: the places are those of their anchors, and in the end everybody's anchor is
where the breakpoint is. -/
theorem settleAll_spec (htokens : tokens = tokenize s.text) (h : Holds s (kept ++ bs))
    (hkept : ∀ k ∈ kept, s.Bears k) (changed : Bool) :
    ∃ bs' s' changed', settleAll tokens kept s changed bs = (bs', s', changed') ∧
      s'.text? = s.text? ∧ Holds s' bs' ∧ (∀ b ∈ bs', s'.Bears b) ∧
      bs'.map Breakpoint.mark = bs.foldl (carry (s.berth? tokens)) (kept.map Breakpoint.mark) := by
  induction bs generalizing kept s changed with
  | nil => exact ⟨kept, s, changed, rfl, rfl, by simpa using h, hkept, rfl⟩
  | cons b bs ih =>
    have hmarks := map_fst_mark kept
    by_cases hdrop : ∀ p, s.berth? tokens b = some p → p ∈ kept.map (·.position)
    · have hagrees := h.named.agrees_remove
      obtain ⟨bs', s', changed', hrun, htext, hholds', hbears, hmarked⟩ :=
        ih (s := s.remove b.anchor) htokens h.remove
          (fun k hk => (hkept k hk).of_agrees hagrees (by simp [hk])) true
      refine ⟨bs', s', changed', ?_, htext, hholds', hbears, ?_⟩
      · rw [settleAll, settle_eq_none hdrop]
        exact hrun
      rw [hmarked, List.foldl_cons, carry_eq_self (hmarks ▸ hdrop)]
      exact foldl_carry_congr (fun x hx => hagrees.berth? (by simp [hx])) _
    · push Not at hdrop
      obtain ⟨p, hberth, hp⟩ := hdrop
      obtain ⟨b', s₁, hsettle, hmark, hholds, hagrees, hb'⟩ := exists_settle h htokens hberth hp
      rw [List.append_cons] at hholds
      obtain ⟨bs', s', changed', hrun, htext, hholds', hbears, hmarked⟩ := ih
        (by rw [htokens, text, text, hagrees.chars]) hholds (fun k hk => by
          rcases List.mem_append.1 hk with hk | hk
          · exact (hkept k hk).of_agrees hagrees (by simp [hk])
          · exact List.mem_singleton.1 hk ▸ hb') (changed || b'.position ≠ b.position)
      refine ⟨bs', s', changed', ?_, htext.trans hagrees.text?, hholds', hbears, ?_⟩
      · rw [settleAll, hsettle]
        exact hrun
      rw [hmarked, List.foldl_cons, carry_of_notMem hberth (hmarks ▸ hp), List.map_append,
        List.map_singleton, hmark]
      exact foldl_carry_congr (fun x hx => hagrees.berth? (by simp [hx])) _

end StackEditor
