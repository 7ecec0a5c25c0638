import StackEditor.Proofs.Breakpoint.Exits
import StackEditor.Proofs.Breakpoint.Settle

/-!
# Moored trackers

A tracker over the anchors of a text is moored if its tokens are those of the text, its breakpoints
are at starts of tokens with no two at one, and the anchors of the text are those of the breakpoints
and lie where these are. Every operation keeps a tracker moored, and no breakpoint is refused for
want of an anchor (`Moored.set`, `Moored.toggle`). An edit sets a tracker adrift; `reconcile_spec`
says that it is moored again after it has been reconciled, and with which breakpoints.
-/

namespace StackEditor

namespace Tracker

open TextAnchors

/-- Tokens, breakpoints and anchors of the tracker fit its text. -/
structure Moored (t : Tracker TextAnchors) : Prop where
  holds : Holds t.host t.breakpoints
  bears : ∀ b ∈ t.breakpoints, t.host.Bears b
  tokens : t.tokens = tokenize t.host.text
  nodup : (t.breakpoints.map (·.position)).Nodup
  starts : ∀ b ∈ t.breakpoints, ∃ tok ∈ t.tokens, tok.start = b.position

variable {t : Tracker TextAnchors}

/-- The reports do not count. -/
theorem Moored.withEvents (h : t.Moored) (events : List (List Breakpoint)) :
    Moored { t with events } :=
  ⟨h.holds, h.bears, h.tokens, h.nodup, h.starts⟩

@[simp] theorem publish_host (t : Tracker TextAnchors) (bs : List Breakpoint) :
    (t.publish bs).host = t.host := rfl

@[simp] theorem publish_breakpoints (t : Tracker TextAnchors) (bs : List Breakpoint) :
    (t.publish bs).breakpoints = bs := rfl

@[simp] theorem publish_tokens (t : Tracker TextAnchors) (bs : List Breakpoint) :
    (t.publish bs).tokens = t.tokens := rfl

/-! ## Reconciling -/

/-- Reconciled with the tokens of its text, a tracker is moored. Its breakpoints are carried to the
berths of their anchors, and there is at most one report. -/
theorem reconcile_spec (h : Holds t.host t.breakpoints) :
    (t.reconcile (tokenize t.host.text)).2.Moored ∧
      (t.reconcile (tokenize t.host.text)).2.host.text? = t.host.text? ∧
      (t.reconcile (tokenize t.host.text)).2.breakpoints.map Breakpoint.mark =
        t.breakpoints.foldl (carry (t.host.berth? (tokenize t.host.text))) [] ∧
      ∃ reports, (t.reconcile (tokenize t.host.text)).2.events = t.events ++ reports ∧
        reports.length ≤ 1 := by
  have hnone : Holds t.host ([] ++ t.breakpoints) := h
  obtain ⟨bs, host, changed, hrun, htext, hholds, hbears, hmarks⟩ :=
    settleAll_spec rfl hnone (fun _ hk => (nomatch hk)) false
  have hmoored : ∀ events, Moored ⟨host, bs, tokenize t.host.text, events⟩ := fun events => by
    refine ⟨hholds, hbears, by rw [text_eq_of_text?_eq htext], ?_, fun b hb => ?_⟩
    · rw [← map_fst_mark, hmarks]
      exact nodup_foldl_carry List.nodup_nil
    · have hm : b.mark ∈ bs.map Breakpoint.mark := List.mem_map_of_mem hb
      rw [hmarks] at hm
      obtain hm | ⟨x, -, hberth⟩ := mem_foldl_carry hm
      · cases hm
      · obtain ⟨r, -, hstart⟩ := Option.bind_eq_some_iff.1 hberth
        obtain ⟨tok, htok, heq⟩ := Option.map_eq_some_iff.1 hstart
        exact ⟨tok, List.mem_of_find?_eq_some htok, heq⟩
  unfold reconcile
  rw [hrun]
  cases changed with
  | false => exact ⟨hmoored _, htext, hmarks, [], (List.append_nil _).symm, Nat.zero_le 1⟩
  | true => exact ⟨hmoored _, htext, hmarks, [bs], rfl, Nat.le_refl 1⟩

/-! ## Setting and removing -/

/-- What does not depend on kind and expression stays when these are replaced. -/
theorem map_replaceAt {β : Type} (p : Position) (kind : BreakpointKind)
    (expression : Option String) (g : Breakpoint → β)
    (hg : ∀ b : Breakpoint, g { b with kind, expression } = g b) (bs : List Breakpoint) :
    (replaceAt p kind expression bs).map g = bs.map g := by
  rw [replaceAt, List.map_map]
  refine List.map_congr_left fun b _ => ?_
  rw [Function.comp_apply]
  split
  · exact hg b
  · rfl

/-- Kinds and expressions can be replaced. -/
theorem Moored.publish_replaceAt (h : t.Moored) (p : Position) (kind : BreakpointKind)
    (expression : Option String) :
    (t.publish (replaceAt p kind expression t.breakpoints)).Moored := by
  have hanchors := map_replaceAt p kind expression (·.anchor) (fun _ => rfl) t.breakpoints
  have hpositions := map_replaceAt p kind expression (·.position) (fun _ => rfl) t.breakpoints
  have hmem : ∀ x ∈ replaceAt p kind expression t.breakpoints,
      ∃ b ∈ t.breakpoints, b.anchor = x.anchor ∧ b.position = x.position := by
    intro x hx
    obtain ⟨b, hb, rfl⟩ := List.mem_map.1 hx
    refine ⟨b, hb, ?_⟩
    split <;> exact ⟨rfl, rfl⟩
  constructor
  case holds => exact h.holds.of_map_eq hanchors
  case bears =>
    intro x hx
    obtain ⟨b, hb, ha, hp⟩ := hmem x hx
    obtain ⟨o, ho, hfind, hpos⟩ := h.bears b hb
    exact ⟨o, ho, ha ▸ hfind, hpos.trans hp⟩
  case tokens => exact h.tokens
  case nodup => exact hpositions ▸ h.nodup
  case starts =>
    intro x hx
    obtain ⟨b, hb, -, hp⟩ := hmem x hx
    exact hp ▸ h.starts b hb

/-- A breakpoint with a new anchor can come to the start of a token that has none. -/
theorem Moored.publish_grown (h : t.Moored) {p start : Position}
    (htoken : t.startAt? p = some start) (hfree : t.get? start = none) (kind : BreakpointKind)
    (expression : Option String) :
    ∃ a host, t.host.create (.point start) = some (a, host) ∧ host.text? = t.host.text? ∧
      ({ t with host }.publish (t.breakpoints ++
        [(⟨a, start, kind, expression⟩ : Breakpoint)])).Moored := by
  obtain ⟨tok, hfound, rfl⟩ := Option.map_eq_some_iff.1 htoken
  have htok : tok ∈ t.tokens := List.mem_of_find?_eq_some hfound
  obtain ⟨o, hle, hpos, hcreate⟩ := create_start (h.tokens ▸ htok)
  have hheld : Holds t.host (t.breakpoints ++ []) := by simpa using h.holds
  refine ⟨_, _, hcreate, rfl, ?_⟩
  constructor
  case holds => exact hheld.grown hle rfl
  case bears =>
    intro b hb
    rcases List.mem_append.1 hb with hb | hb
    · exact (h.bears b hb).of_agrees h.holds.named.agrees_grown hb
    · rw [List.mem_singleton.1 hb]
      exact h.holds.bears_grown hle rfl hpos
  case tokens => exact h.tokens
  case nodup =>
    have hnot : ∀ b ∈ t.breakpoints, b.position ≠ tok.start := by
      simpa [get?] using hfree
    rw [publish_breakpoints, List.map_append]
    exact h.nodup.append (List.nodup_singleton _) (by simpa using hnot)
  case starts =>
    intro b hb
    rcases List.mem_append.1 hb with hb | hb
    · exact h.starts b hb
    · rw [List.mem_singleton.1 hb]
      exact ⟨tok, htok, rfl⟩

/-- The check of an expression has nothing to do with anchors. -/
theorem checkExpression_ne_anchorRejected (kind : BreakpointKind) (expression : Option String)
    (p : Position) : checkExpression kind expression ≠ .error (.anchorRejected p) := by
  unfold checkExpression
  split
  · split
    · simp
    · split <;> simp
  · simp

/-- A breakpoint that is set leaves the tracker moored, and the text as it is. No anchor for it is
refused. -/
theorem Moored.set (h : t.Moored) (p : Position) (kind : BreakpointKind)
    (expression : Option String) :
    (t.set p kind expression).2.Moored ∧
      (t.set p kind expression).2.host.text? = t.host.text? ∧
      ∀ q, (t.set p kind expression).1 ≠ .error (.anchorRejected q) := by
  have hexit := t.setExit p kind expression
  generalize t.set p kind expression = result at hexit ⊢
  cases hexit with
  | unfit check =>
    refine ⟨h, rfl, fun q hq => checkExpression_ne_anchorRejected kind expression q ?_⟩
    cases hq
    exact check
  | noToken => exact ⟨h, rfl, nofun⟩
  | replaced => exact ⟨h.publish_replaceAt _ _ _, rfl, nofun⟩
  | rejected token free create =>
    obtain ⟨a, host, hcreate, -, -⟩ := h.publish_grown token free kind expression
    cases hcreate.symm.trans create
  | added check token free create =>
    obtain ⟨a, host, hcreate, htext, hmoored⟩ := h.publish_grown token free kind _
    cases hcreate.symm.trans create
    exact ⟨hmoored, htext, nofun⟩

/-- A breakpoint that goes leaves the tracker moored, and the text as it is. -/
theorem Moored.unset (h : t.Moored) (p : Position) :
    (t.unset p).2.Moored ∧ (t.unset p).2.host.text? = t.host.text? := by
  unfold Tracker.unset
  split
  · exact ⟨h, rfl⟩
  next b hb =>
  obtain ⟨hp, before, after, hsplit, hbefore⟩ := List.find?_eq_some_iff_append.1 hb
  have herase : t.breakpoints.eraseP (·.position = p) = before ++ after := by
    have hleft : ∀ x ∈ before, ¬decide (x.position = p) = true := by simpa using hbefore
    rw [hsplit, List.eraseP_append_right _ hleft]
    congr 1
    exact List.eraseP_cons_of_pos hp
  have hsub : (before ++ after).Sublist t.breakpoints := by rw [hsplit]; simp
  have hheld : Holds t.host (before ++ b :: after) := hsplit ▸ h.holds
  rw [herase]
  refine ⟨?_, rfl⟩
  constructor
  case holds => exact hheld.remove
  case bears =>
    intro x hx
    exact (h.bears x (hsub.subset hx)).of_agrees hheld.named.agrees_remove hx
  case tokens => exact h.tokens
  case nodup => exact h.nodup.sublist (hsub.map _)
  case starts =>
    intro x hx
    exact h.starts x (hsub.subset hx)

/-- A toggle leaves the tracker moored, and the text as it is. No anchor is refused. -/
theorem Moored.toggle (h : t.Moored) (p : Position) :
    (t.toggle p).2.Moored ∧ (t.toggle p).2.host.text? = t.host.text? ∧
      ∀ q, (t.toggle p).1 ≠ .error (.anchorRejected q) := by
  have hunset := h.unset ((t.startAt? p).getD p)
  have hset := h.set ((t.startAt? p).getD p) .unconditional none
  have hexit := t.toggleExit p
  generalize t.toggle p = result at hexit ⊢
  cases hexit with
  | removed unset =>
    rw [unset] at hunset
    exact ⟨hunset.1, hunset.2, nofun⟩
  | added set =>
    rw [set] at hset
    exact ⟨hset.1, hset.2.1, nofun⟩
  | refused set =>
    rw [set] at hset
    exact ⟨h, rfl, fun q hq => hset.2.2 q (congrArg _ (Except.error.inj hq))⟩

/-- When all anchors of its breakpoints are forgotten, a store is empty. -/
theorem holds_forgetAll {s : TextAnchors} {bs : List Breakpoint} (h : Holds s bs) :
    Holds (forgetAll s bs) [] ∧ (forgetAll s bs).text? = s.text? := by
  induction bs generalizing s with
  | nil => exact ⟨h, rfl⟩
  | cons b bs ih =>
    have hfirst : Holds s ([] ++ b :: bs) := h
    exact ih hfirst.remove

/-- A tracker without breakpoints is moored. -/
theorem Moored.clear (h : t.Moored) :
    t.clear.Moored ∧ t.clear.host.text? = t.host.text? := by
  unfold Tracker.clear
  split
  · exact ⟨h, rfl⟩
  · obtain ⟨hholds, htext⟩ := holds_forgetAll h.holds
    refine ⟨⟨hholds, fun b hb => (nomatch hb), ?_, List.nodup_nil, fun b hb => (nomatch hb)⟩,
      htext⟩
    rw [publish_tokens, publish_host, h.tokens, text_eq_of_text?_eq htext]

end Tracker

end StackEditor
