import StackEditor.Proofs.Anchor.Operations

/-!
# Anchors stay on their characters

An edit replaces the text between two offsets, and keeps what stands in front of it and what stands
behind it. `Carries` says so of two stores, and where the anchors are then: what starts in front
stays, what starts behind keeps its distance from the end, and of what starts in between only an
anchor at the very start is left, if something took its place. So every anchor that is left and was
not at the start of what was replaced has the same text before it up to its own character, or the
same text from there on.

Every edit is of this kind (`EditedBy.carries`). Which offsets it replaces is said by the two texts,
or by the range (`edits_carry`).
-/

namespace StackEditor

namespace TextAnchors

variable {s s' : TextAnchors} {a : AnchorId} {e : Edit}

/-- The offset where an anchor starts. -/
def start? (s : TextAnchors) (a : AnchorId) : Option Nat := (s.find? a).map (·.start)

/-- From `s` to `s'` the text between the offsets `first` and `stop` is replaced, and ends at
`stop'` then; the anchors are carried along. -/
structure Carries (s s' : TextAnchors) (first stop stop' : Nat) : Prop where
  first_le : first ≤ stop ∧ first ≤ stop'
  stop_le : stop ≤ s.chars.length ∧ stop' ≤ s'.chars.length
  stop_eq : stop' = stop + s'.chars.length - s.chars.length
  front : s'.chars.take first = s.chars.take first
  rest : s'.chars.drop stop' = s.chars.drop stop
  /-- An anchor in front stays. -/
  before : ∀ {a o}, s.start? a = some o → o < first → s'.start? a = some o
  /-- An anchor behind keeps its distance from the end of what is replaced. -/
  behind : ∀ {a o}, s.start? a = some o → stop ≤ o → s'.start? a = some (o - stop + stop')
  /-- An anchor at the start of what is deleted stays if something takes its place. -/
  replaced : ∀ {a}, s.start? a = some first → first < stop →
    s'.start? a = if first < stop' then some first else none
  /-- Every other anchor on what is deleted is gone. -/
  deleted : ∀ {a o}, s.start? a = some o → first < o → o < stop → s'.start? a = none
  /-- There are no others. -/
  others : ∀ {a}, s.start? a = none → s'.start? a = none

/-- Every anchor that is left, and was not at the offset `first`, has the same text before it up to
its own character, or the same text from there on. -/
def KeepsText (s s' : TextAnchors) (first : Nat) : Prop :=
  ∀ a o o', s.start? a = some o → s'.start? a = some o' → o ≠ first →
    (o' = o ∧ ShareStart s.chars s'.chars (o + 1)) ∨ s'.chars.drop o' = s.chars.drop o

/-- The start of an anchor goes where the edit moves it. -/
theorem EditedBy.start?_eq_bind (h : s.EditedBy e s') (hs : s.Sound) (a : AnchorId) :
    s'.start? a = (s.start? a).bind e.move := by
  rw [start?, start?, h.find?_eq_bind hs]
  cases s.find? a with
  | none => rfl
  | some span =>
    show (span.move e).map (·.start) = e.move span.start
    rw [AnchorSpan.move, Option.map_map]
    exact Option.map_id'

/-- An edit carries the anchors along. -/
theorem EditedBy.carries (h : s.EditedBy e s') (hs : s.Sound) :
    s.Carries s' e.start (e.start + e.deleted) (e.start + e.inserted) := by
  have hinside := h.inside
  have hlength := h.length
  constructor
  case first_le => exact ⟨Nat.le_add_right _ _, Nat.le_add_right _ _⟩
  case stop_le => exact ⟨hinside, by omega⟩
  case stop_eq => omega
  case front => exact h.front
  case rest => exact h.rest
  case before =>
    intro a o ho hlt
    rw [h.start?_eq_bind hs, ho, Option.bind_some, Edit.move_of_lt hlt]
  case behind =>
    intro a o ho hle
    rw [h.start?_eq_bind hs, ho, Option.bind_some, Edit.move_of_le hle]
    congr 1
    omega
  case replaced =>
    intro a ho hlt
    rw [h.start?_eq_bind hs, ho, Option.bind_some, Edit.move_start (Nat.pos_of_lt_add_right hlt)]
    exact if_congr (Nat.lt_add_right_iff_pos.symm) rfl rfl
  case deleted =>
    intro a o ho hlt hlt'
    rw [h.start?_eq_bind hs, ho, Option.bind_some, Edit.move_of_inside hlt hlt']
  case others =>
    intro a ho
    rw [h.start?_eq_bind hs, ho, Option.bind_none]

/-- Anchors that are carried along keep their text. -/
theorem Carries.keepsText {first stop stop' : Nat} (h : s.Carries s' first stop stop') :
    s.KeepsText s' first := by
  intro a o o' ho ho' hne
  obtain ⟨hfirst, hfirst'⟩ := h.first_le
  obtain ⟨hstop, hstop'⟩ := h.stop_le
  rcases Nat.lt_or_gt_of_ne hne with hlt | hgt
  · left
    have hsame := ho'.symm.trans (h.before ho hlt)
    refine ⟨Option.some.inj hsame, by omega, by omega, ?_⟩
    -- the shared start of length `first` is cut down to `o + 1`
    have htake := congrArg (List.take (o + 1)) h.front
    rw [List.take_take, List.take_take, Nat.min_eq_left hlt] at htake
    exact htake.symm
  · right
    have hle : stop ≤ o := by
      by_contra hlt'
      rw [h.deleted ho hgt (Nat.not_le.1 hlt')] at ho'
      cases ho'
    obtain rfl := Option.some.inj (ho'.symm.trans (h.behind ho hle))
    obtain ⟨d, rfl⟩ := Nat.exists_eq_add_of_le hle
    rw [Nat.add_sub_cancel_left, Nat.add_comm d, ← List.drop_drop, ← List.drop_drop, h.rest]

/-- Whatever has happened to a store: when the text is replaced, what stands between the longest
start and the longest end that it shares with the new text is replaced; and when it is replaced
within a range, what stands in the range. Either way the anchors are carried along, and those that
are left have kept their text. -/
theorem edits_carry (text : Option String) (ops : List AnchorOperation) :
    let s := ops.foldl perform (ofText? text)
    (∀ new : String, ∃ first final, IsGreatest {n | ShareStart s.chars new.toList n} first ∧
      IsGreatest {n | ShareEnd s.chars new.toList n ∧ first + n ≤ s.chars.length ∧
        first + n ≤ new.toList.length} final ∧
      (s.replaceText new).text = new ∧
      s.Carries (s.replaceText new) first (s.chars.length - final) (new.toList.length - final) ∧
      s.KeepsText (s.replaceText new) first) ∧
    ∀ r replacement s', s.replaceRange? r replacement = some s' →
      ∃ first stop, s.offset? r.start = some first ∧ s.offset? r.stop = some stop ∧
        s'.chars = s.chars.take first ++ replacement.toList ++ s.chars.drop stop ∧
        s.Carries s' first stop (stop + s'.chars.length - s.chars.length) ∧
        s.KeepsText s' first := by
  intro s
  have hs : s.Sound := sound_foldl_perform text ops
  constructor
  · intro new
    have hfirst := isGreatest_commonStart s.chars new.toList
    have hfinal := isGreatest_commonEnd hfirst.1.1 hfirst.1.2.1
    have hcarries := (editedBy_replaceText s new).carries hs
    obtain ⟨-, hold, hnew⟩ := hfinal.1
    refine ⟨_, _, hfirst, hfinal, String.ofList_toList, ?_, hcarries.keepsText⟩
    rw [Edit.between_eq hfirst hfinal] at hcarries
    convert hcarries using 1 <;> dsimp only <;> omega
  · intro r replacement s' hreplace
    obtain ⟨span, hspan, hchars, hedit⟩ := exists_of_replaceRange? hreplace
    obtain ⟨hfirst, hstop, hle⟩ := span?_eq_some_iff.1 hspan
    have hcarries := hedit.carries hs
    refine ⟨span.start, span.stop, hfirst, hstop, hchars, ?_, hcarries.keepsText⟩
    rw [hcarries.stop_eq] at hcarries
    dsimp only at hcarries
    rwa [Nat.add_sub_cancel' hle] at hcarries

/-- A word that starts at an anchor: the anchor is gone when the start of the word is deleted, and
stays when other characters take its place. -/
theorem secondWord_carried :
    let s := [AnchorOperation.create (.point ⟨0, 3⟩)].foldl perform (ofText? (some "ab cd"))
    let r : Range := ⟨⟨0, 3⟩, ⟨0, 4⟩⟩
    (∃ s', s.replaceRange? r "" = some s' ∧ s'.text = "ab d" ∧ s'.start? ⟨0⟩ = none) ∧
      ∃ s', s.replaceRange? r "xy" = some s' ∧ s'.text = "ab xyd" ∧ s'.start? ⟨0⟩ = some 3 := by
  intro s r
  obtain ⟨-, hrange⟩ := edits_carry (some "ab cd") [.create (.point ⟨0, 3⟩)]
  obtain ⟨first, stop, hfirst, hstop, -, hdeleted, -⟩ := hrange r "" _ rfl
  obtain ⟨first', stop', hfirst', hstop', -, hreplaced, -⟩ := hrange r "xy" _ rfl
  obtain rfl : 3 = first := Option.some.inj hfirst
  obtain rfl : 4 = stop := Option.some.inj hstop
  obtain rfl : 3 = first' := Option.some.inj hfirst'
  obtain rfl : 4 = stop' := Option.some.inj hstop'
  exact ⟨⟨_, rfl, rfl, hdeleted.replaced rfl (by decide)⟩,
    ⟨_, rfl, rfl, hreplaced.replaced rfl (by decide)⟩⟩

end TextAnchors

end StackEditor
