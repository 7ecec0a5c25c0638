import StackEditor.Proofs.Breakpoint.Mooring
import StackEditor.Proofs.Lexeme.Tiling

/-!
# Toggling a breakpoint

On a moored tracker a toggle at a token never fails: a breakpoint at the start of the token goes
with its anchor, and where there is none an unconditional one comes last (`Toggled`,
`Moored.toggle_covered`). It depends on the token only (`toggle_congr`). Where no token is, it does
nothing (`Moored.toggle_uncovered`). Two toggles in a row undo each other, but for the order if the
breakpoint was there at first (`Toggled.twice`).
-/

namespace StackEditor

namespace Tracker

open TextAnchors

/-- A toggle at `start` turns `t` into another tracker: the breakpoint there is taken from the list
and its anchor from the anchors, or there is none and an unconditional one with a new anchor is
added to both. The others stay as they are. -/
inductive Toggled (start : Position) (t : Tracker TextAnchors) :
    ToggleOutcome → Tracker TextAnchors → Prop
  | removed {b : Breakpoint} {t' : Tracker TextAnchors} (mem : b ∈ t.breakpoints)
      (position : b.position = start)
      (breakpoints : t'.breakpoints = t.breakpoints.filter (·.position ≠ start))
      (live : t'.host.live = t.host.live.filter (·.1 ≠ b.anchor)) : Toggled start t .removed t'
  | added {a : AnchorId} {span : AnchorSpan} {t' : Tracker TextAnchors}
      (free : ∀ b ∈ t.breakpoints, b.position ≠ start) (new : a ∉ t.host.live.map (·.1))
      (breakpoints : t'.breakpoints = t.breakpoints ++ [⟨a, start, .unconditional, none⟩])
      (live : t'.host.live = t.host.live ++ [(a, span)]) : Toggled start t .added t'

variable {t t' t'' : Tracker TextAnchors} {p q start : Position} {tok : Token}
  {outcome outcome' : ToggleOutcome} {bs : List Breakpoint}

/-! ## Two toggles -/

/-- The reports do not count. -/
theorem Toggled.withEvents (h : Toggled start t outcome t') (events : List (List Breakpoint)) :
    Toggled start t outcome { t' with events } := by
  cases h with
  | removed mem position breakpoints live => exact .removed mem position breakpoints live
  | added free new breakpoints live => exact .added free new breakpoints live

/-- A place that is taken from different ones and added again is among them as before. -/
theorem perm_filter_append_singleton (hnodup : (bs.map (·.position)).Nodup)
    (hstart : start ∈ bs.map (·.position)) :
    ((bs.filter (·.position ≠ start)).map (·.position) ++ [start]).Perm (bs.map (·.position)) := by
  have herase : (bs.filter (·.position ≠ start)).map (·.position) =
      (bs.map (·.position)).erase start := by
    rw [hnodup.erase_eq_filter, List.filter_map]
    congr 2
    funext b
    simp [bne, beq_eq_decide]
  rw [herase]
  exact (List.perm_append_singleton _ _).trans (List.perm_cons_erase hstart).symm

/-- A second toggle brings the positions back, and the breakpoint that the first one has added is
gone without a trace. -/
theorem Toggled.twice (h : Toggled start t outcome t') (h' : Toggled start t' outcome' t'')
    (hnodup : (t.breakpoints.map (·.position)).Nodup) :
    (t''.breakpoints.map (·.position)).Perm (t.breakpoints.map (·.position)) ∧
      (outcome = .added → t''.breakpoints = t.breakpoints ∧ t''.host.live = t.host.live) := by
  cases h with
  | removed mem position breakpoints live =>
    cases h' with
    | removed mem' position' =>
      rw [breakpoints, List.mem_filter, decide_eq_true_eq] at mem'
      exact absurd position' mem'.2
    | added free' new' breakpoints' live' =>
      refine ⟨?_, nofun⟩
      rw [breakpoints', breakpoints, List.map_append]
      exact perm_filter_append_singleton hnodup (position ▸ List.mem_map_of_mem mem)
  | @added a span _ free new breakpoints live =>
    cases h' with
    | @removed b' _ mem' position' breakpoints' live' =>
      have hanchor : b'.anchor = a := by
        rw [breakpoints, List.mem_append, List.mem_singleton] at mem'
        rcases mem' with hmem | rfl
        · exact absurd position' (free b' hmem)
        · rfl
      have hbreakpoints : t''.breakpoints = t.breakpoints := by
        rw [breakpoints', breakpoints, List.filter_append,
          List.filter_eq_self.2 (by simpa using free)]
        simp
      have hothers : ∀ x ∈ t.host.live, decide (x.1 ≠ a) = true := fun x hx =>
        decide_eq_true fun hx' => new (hx' ▸ List.mem_map_of_mem hx)
      have hlive : t''.host.live = t.host.live := by
        rw [live', live, hanchor, List.filter_append, List.filter_eq_self.2 hothers]
        simp
      exact ⟨hbreakpoints ▸ .refl _, fun _ => ⟨hbreakpoints, hlive⟩⟩
    | added free' =>
      rw [breakpoints] at free'
      exact absurd rfl (free' _ (List.mem_append_right _ List.mem_cons_self))

/-! ## One toggle -/

/-- Where positions are different, the first breakpoint at a place is the only one. -/
theorem eraseP_eq_filter (h : (bs.map (·.position)).Nodup) (p : Position) :
    bs.eraseP (·.position = p) = bs.filter (·.position ≠ p) := by
  induction bs with
  | nil => rfl
  | cons b bs ih =>
    rw [List.map_cons, List.nodup_cons] at h
    by_cases hb : b.position = p
    · have hothers : ∀ x ∈ bs, decide (x.position ≠ p) = true := fun x hx =>
        decide_eq_true fun hx' => h.1 ((hx'.trans hb.symm) ▸ List.mem_map_of_mem hx)
      rw [List.eraseP_cons_of_pos (by simpa using hb), List.filter_cons_of_neg (by simpa using hb),
        List.filter_eq_self.2 hothers]
    · rw [List.eraseP_cons_of_neg (by simpa using hb), List.filter_cons_of_pos (by simpa using hb),
        ih h.2]

/-- A toggle depends on the token only that is at the place. -/
theorem toggle_congr (hp : t.startAt? p = some start) (hq : t.startAt? q = some start) :
    t.toggle q = t.toggle p := by
  rw [Tracker.toggle, Tracker.toggle, hp, hq, Option.getD_some, Option.getD_some]

theorem Moored.startAt?_of_covers (h : t.Moored) (htok : tok ∈ t.tokens)
    (hcovers : tok.covers p = true) : t.startAt? p = some tok.start := by
  have hapart : TokensApart t.tokens := h.tokens ▸ (tiles_tokenize _).apart
  rw [startAt?, hapart.tokenAt?_eq_some_iff.2 ⟨htok, hcovers⟩]
  rfl

/-- The start of a token belongs to the token. -/
theorem Moored.startAt?_start (h : t.Moored) (htok : tok ∈ t.tokens) :
    t.startAt? tok.start = some tok.start := by
  have htiles : Tiles t.host.text.toList t.tokens := h.tokens ▸ tiles_tokenize _
  exact h.startAt?_of_covers htok (Token.covers_start (htiles.placed tok htok).1)

/-- At the start of a token without a breakpoint one is added with a new anchor. -/
theorem Moored.set_free (h : t.Moored) (htok : tok ∈ t.tokens) (hfree : t.get? tok.start = none) :
    ∃ span, t.set tok.start .unconditional none = (.ok tok.start,
      { t with host := t.host.grown span }.publish (t.breakpoints ++
        [(⟨⟨t.host.nextId⟩, tok.start, .unconditional, none⟩ : Breakpoint)])) := by
  obtain ⟨o, -, -, hcreate⟩ := create_start (h.tokens ▸ htok)
  have hcheck : checkExpression .unconditional none = .ok none := rfl
  refine ⟨.point o, ?_⟩
  rw [Tracker.set, hcheck, h.startAt?_start htok]
  dsimp only
  rw [hfree, anchorHost_create, hcreate]
  rfl

/-- At a token a toggle removes the breakpoint or adds one. -/
theorem Moored.toggle_covered (h : t.Moored) (htok : tok ∈ t.tokens)
    (hcovers : tok.covers p = true) :
    ∃ outcome t', t.toggle p = (.ok outcome, t') ∧ Toggled tok.start t outcome t' := by
  rw [Tracker.toggle, h.startAt?_of_covers htok hcovers, Option.getD_some, Tracker.unset]
  cases hget : t.get? tok.start with
  | some b =>
    have hposition : b.position = tok.start := by simpa using List.find?_some hget
    have hbreakpoints := eraseP_eq_filter h.nodup tok.start
    exact ⟨.removed, _, rfl, .removed (List.mem_of_find?_eq_some hget) hposition hbreakpoints rfl⟩
  | none =>
    obtain ⟨span, hset⟩ := h.set_free htok hget
    have hfree : ∀ b ∈ t.breakpoints, b.position ≠ tok.start := by simpa [get?] using hget
    have hnew : (⟨t.host.nextId⟩ : AnchorId) ∉ t.host.live.map (·.1) :=
      lookup_eq_none_iff.1 h.holds.tidy.find?_nextId
    dsimp only
    rw [hset]
    exact ⟨.added, _, rfl, .added hfree hnew rfl rfl⟩

/-- Where no token is, there is nothing to remove, and nothing can be set. -/
theorem Moored.toggle_uncovered (h : t.Moored) (hnone : t.startAt? p = none) :
    t.toggle p = (.error (.noToken p), t) := by
  have hget : t.get? p = none := by
    rw [get?, List.find?_eq_none]
    intro b hb hposition
    obtain ⟨tok, htok, hstart⟩ := h.starts b hb
    have hsome := h.startAt?_start htok
    rw [hstart, of_decide_eq_true hposition, hnone] at hsome
    cases hsome
  have hcheck : checkExpression .unconditional none = .ok none := rfl
  rw [Tracker.toggle, hnone, Option.getD_none, Tracker.unset, hget]
  dsimp only
  rw [Tracker.set, hcheck, hnone]
  rfl

end Tracker

end StackEditor
