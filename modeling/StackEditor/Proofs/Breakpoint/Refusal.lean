import StackEditor.Anchor.Gate
import StackEditor.Proofs.Alike
import StackEditor.Proofs.Breakpoint.Calls

/-!
# Hosts that refuse anchors

Over hosts that answer alike (`AnchorsAlike`) trackers do the same, call by call (`Tracker.Alike`).
So over an open gate a tracker does what it does over the anchors behind the gate
(`Tracker.alike_foldl_performThrough`), and what holds of trackers over the anchors of a text holds
of it. While the gate is closed there are no new anchors: a call to set a breakpoint where there is
none is rejected and changes nothing (`Tracker.set_of_refusing`), and whatever is called, the
breakpoints that are left have the anchors that they had (`Tracker.shut_foldl_performThrough`).
-/

namespace StackEditor

namespace Tracker

section
variable {α β : Type} [AnchorHost α] [AnchorHost β] {R : α → β → Prop} {t : Tracker α}
  {t' : Tracker β} {a : α} {b : β}

/-- Trackers over related hosts that are the same otherwise. -/
structure Alike {α β : Type} (R : α → β → Prop) (t : Tracker α) (t' : Tracker β) : Prop where
  host : R t.host t'.host
  breakpoints : t.breakpoints = t'.breakpoints
  tokens : t.tokens = t'.tokens
  events : t.events = t'.events

/-! ## One call -/

omit [AnchorHost α] [AnchorHost β] in
/-- Trackers that are alike stay so when both announce the same list. -/
theorem Alike.publish (h : Alike R t t') (bs : List Breakpoint) :
    Alike R (t.publish bs) (t'.publish bs) :=
  ⟨h.host, rfl, h.tokens, congrArg (· ++ [bs]) h.events⟩

omit [AnchorHost α] [AnchorHost β] in
theorem Alike.withHost (h : Alike R t t') (hhost : R a b) :
    Alike R { t with host := a } { t' with host := b } :=
  ⟨hhost, h.breakpoints, h.tokens, h.events⟩

omit [AnchorHost α] [AnchorHost β] in
/-- Both find the same token at a position. -/
theorem Alike.startAt?_eq (h : Alike R t t') (p : Position) : t.startAt? p = t'.startAt? p := by
  rw [startAt?, startAt?, h.tokens]

omit [AnchorHost α] [AnchorHost β] in
/-- Both have the same breakpoint at a position. -/
theorem Alike.get?_eq (h : Alike R t t') (p : Position) : t.get? p = t'.get? p := by
  rw [get?, get?, h.breakpoints]

/-- Setting a breakpoint on both gives the same answer and leaves them alike. -/
theorem Alike.set (hR : AnchorsAlike R) (h : Alike R t t') (p : Position) (kind : BreakpointKind)
    (expression : Option String) :
    Agree (Alike R) (t.set p kind expression) (t'.set p kind expression) := by
  unfold Tracker.set
  rw [h.startAt?_eq, h.breakpoints]
  cases checkExpression kind expression with
  | error cause => exact ⟨rfl, h⟩
  | ok expression =>
  cases t'.startAt? p with
  | none => exact ⟨rfl, h⟩
  | some start =>
  dsimp only
  rw [h.get?_eq]
  by_cases hfound : (t'.get? start).isSome
  · rw [if_pos hfound, if_pos hfound]
    exact ⟨rfl, h.publish _⟩
  rw [if_neg hfound, if_neg hfound]
  -- Only here the host is asked.
  obtain ⟨hleft, hright⟩ | ⟨i, a, b, hleft, hright, hhost⟩ :=
    hR.create_cases h.host (.point start)
  · rw [hleft, hright]
    exact ⟨rfl, h⟩
  · rw [hleft, hright]
    exact ⟨rfl, (h.withHost hhost).publish _⟩

/-- Removing a breakpoint on both gives the same answer and leaves them alike. -/
theorem Alike.unset (hR : AnchorsAlike R) (h : Alike R t t') (p : Position) :
    Agree (Alike R) (t.unset p) (t'.unset p) := by
  unfold Tracker.unset
  rw [h.get?_eq, h.breakpoints]
  cases t'.get? p with
  | none => exact ⟨rfl, h⟩
  | some x => exact ⟨rfl, (h.withHost (hR.remove h.host x.anchor)).publish _⟩

/-- Toggling a breakpoint on both gives the same answer and leaves them alike. -/
theorem Alike.toggle (hR : AnchorsAlike R) (h : Alike R t t') (p : Position) :
    Agree (Alike R) (t.toggle p) (t'.toggle p) := by
  unfold Tracker.toggle
  dsimp only
  rw [h.startAt?_eq]
  generalize (t'.startAt? p).getD p = start
  obtain ⟨removed, t₁, t₁', hleft, hright, hunset⟩ := (h.unset hR start).exists_eq
  rw [hleft, hright]
  cases removed with
  | true => exact ⟨rfl, hunset⟩
  | false =>
    obtain ⟨hresult, hset⟩ := hunset.set hR start .unconditional none
    exact ⟨congrArg (Except.map fun _ => ToggleOutcome.added) hresult, hset⟩

/-- Forgetting the same anchors leaves the hosts alike. -/
theorem alike_forgetAll (hR : AnchorsAlike R) (h : R a b) (bs : List Breakpoint) :
    R (forgetAll a bs) (forgetAll b bs) := by
  induction bs generalizing a b with
  | nil => exact h
  | cons x bs ih => exact ih (hR.remove h x.anchor)

/-- Clearing both leaves them alike. -/
theorem Alike.clear (hR : AnchorsAlike R) (h : Alike R t t') : Alike R t.clear t'.clear := by
  unfold Tracker.clear
  rw [h.breakpoints]
  split
  · exact h
  · exact (h.withHost (alike_forgetAll hR h.host _)).publish []

/-- Settling a breakpoint gives the same answer on hosts that are alike. -/
theorem agree_settle (hR : AnchorsAlike R) (h : R a b) (tokens : List Token)
    (kept : List Breakpoint) (x : Breakpoint) :
    Agree R (settle tokens kept a x) (settle tokens kept b x) := by
  have hremove := hR.remove h x.anchor
  unfold settle
  rw [hR.resolve h]
  cases AnchorHost.resolve b x.anchor with
  | none => exact ⟨rfl, hremove⟩
  | some r =>
  dsimp only
  cases tokenAt? tokens r.start with
  | none => exact ⟨rfl, hremove⟩
  | some tok =>
  dsimp only
  by_cases htaken : kept.any (·.position = tok.start)
  · rw [if_pos htaken, if_pos htaken]
    exact ⟨rfl, hremove⟩
  rw [if_neg htaken, if_neg htaken]
  by_cases hstart : r.start = tok.start
  · rw [if_pos hstart, if_pos hstart]
    exact ⟨rfl, h⟩
  rw [if_neg hstart, if_neg hstart]
  obtain ⟨hleft, hright⟩ | ⟨i, a', b', hleft, hright, hhost⟩ :=
    hR.create_cases hremove (.point tok.start)
  · simp only [hleft, hright]
    exact ⟨rfl, hremove⟩
  · simp only [hleft, hright]
    exact ⟨rfl, hhost⟩

/-- Settling all breakpoints keeps the same ones on hosts that are alike. -/
theorem alike_settleAll (hR : AnchorsAlike R) (h : R a b) (tokens : List Token)
    (kept : List Breakpoint) (changed : Bool) (bs : List Breakpoint) :
    (settleAll tokens kept a changed bs).1 = (settleAll tokens kept b changed bs).1 ∧
      R (settleAll tokens kept a changed bs).2.1 (settleAll tokens kept b changed bs).2.1 ∧
      (settleAll tokens kept a changed bs).2.2 = (settleAll tokens kept b changed bs).2.2 := by
  induction bs generalizing kept a b changed with
  | nil => exact ⟨rfl, h, rfl⟩
  | cons x bs ih =>
    obtain ⟨settled, a', b', hleft, hright, hhost⟩ :=
      (agree_settle hR h tokens kept x).exists_eq
    simp only [settleAll, hleft, hright]
    cases settled with
    | none => exact ih hhost _ _
    | some x' => exact ih hhost _ _

/-- Reconciling both gives the same answer and leaves them alike. -/
theorem Alike.reconcile (hR : AnchorsAlike R) (h : Alike R t t') (tokens : List Token) :
    Agree (Alike R) (t.reconcile tokens) (t'.reconcile tokens) := by
  obtain ⟨hbs, hhost, hchanged⟩ := alike_settleAll hR h.host tokens [] false t'.breakpoints
  simp only [Tracker.reconcile, h.breakpoints, hbs, hchanged]
  have hsettled : Alike R
      { t with
        host := (settleAll tokens [] t.host false t'.breakpoints).2.1
        tokens := tokens
        breakpoints := (settleAll tokens [] t'.host false t'.breakpoints).1 }
      { t' with
        host := (settleAll tokens [] t'.host false t'.breakpoints).2.1
        tokens := tokens
        breakpoints := (settleAll tokens [] t'.host false t'.breakpoints).1 } :=
    ⟨hhost, rfl, rfl, h.events⟩
  refine ⟨rfl, ?_⟩
  dsimp only
  split
  · exact hsettled.publish _
  · exact hsettled

end

/-! ## Through a gate -/

/-- A new tracker over an open gate before a text without anchors, or before no text yet. -/
def throughGate? (text : Option String) : Tracker GatedAnchors := .new (.ofText? text)

/-- The tracker after one call. What the host does of its own accord, it does through the gate. -/
def performThrough (t : Tracker GatedAnchors) : TrackerCall → Tracker GatedAnchors
  | .set p kind expression => (t.set p kind expression).2
  | .unset p => (t.unset p).2
  | .toggle p => (t.toggle p).2
  | .clear => t.clear
  | .reconcile tokens => (t.reconcile tokens).2
  | .takeEvents => t.takeEvents.2
  | .replaceText text => { t with host := t.host.replaceText text }
  | .replaceRange range replacement => { t with host := (t.host.replaceRange range replacement).2 }
  | .createAnchor range =>
    { t with host := ((AnchorHost.create t.host range).map (·.2)).getD t.host }
  | .removeAnchor anchor => { t with host := AnchorHost.remove t.host anchor }

end Tracker

namespace GatedAnchors

open Tracker

variable {g : GatedAnchors} {s : TextAnchors}

/-- A closed gate refuses every anchor. -/
theorem create_of_refusing (h : g.refusing = true) (r : Range) : AnchorHost.create g r = none :=
  if_pos h

/-- An open gate hands the request for an anchor through. -/
theorem create_of_open (h : g.refusing = false) (r : Range) :
    AnchorHost.create g r = (g.store.create r).map fun (a, s) => (a, { g with store := s }) :=
  if_neg (by simp [h])

/-- An edit goes through the gate, open or closed. -/
theorem snd_replaceRange (g : GatedAnchors) (r : Range) (replacement : String) :
    (g.replaceRange r replacement).2 =
      { g with store := (g.store.replaceRange? r replacement).getD g.store } := by
  unfold replaceRange
  cases g.store.replaceRange? r replacement <;> rfl

/-- The gate is open, and these are the anchors behind it. -/
structure Opens (g : GatedAnchors) (s : TextAnchors) : Prop where
  refusing : g.refusing = false
  store : g.store = s

/-- An open gate answers like the anchors behind it. -/
theorem anchorsAlike_opens : AnchorsAlike Opens where
  create {g s} h r := by
    rw [create_of_open h.refusing, h.store, anchorHost_create]
    cases s.create r with
    | none => exact .none
    | some x => exact .some ⟨rfl, h.refusing, rfl⟩
  resolve h i := congrArg (TextAnchors.resolve · i) h.store
  remove h i := ⟨h.refusing, congrArg (TextAnchors.remove · i) h.store⟩

/-- A host that asks for an anchor itself finds the open gate out of the way. -/
theorem Opens.getD_create (h : g.Opens s) (r : Range) :
    (((AnchorHost.create g r).map (·.2)).getD g).Opens (((s.create r).map (·.2)).getD s) := by
  rw [← anchorHost_create s r]
  obtain ⟨hleft, hright⟩ | ⟨i, g', s', hleft, hright, hhost⟩ := anchorsAlike_opens.create_cases h r
  · rw [hleft, hright]
    exact h
  · rw [hleft, hright]
    exact hhost

end GatedAnchors

namespace Tracker

open GatedAnchors

variable {t t₁ t₂ : Tracker GatedAnchors} {t' : Tracker TextAnchors}

/-! ## The open gate -/

/-- A tracker that starts behind an open gate is like the one that starts without it. -/
theorem alike_throughGate? (text : Option String) :
    Alike Opens (throughGate? text) (ofText? text) := by
  cases text <;> exact ⟨⟨rfl, rfl⟩, rfl, rfl, rfl⟩

/-- Through an open gate every call does what it does without the gate. -/
theorem Alike.performThrough (h : Alike Opens t t') (c : TrackerCall) :
    Alike Opens (t.performThrough c) (t'.perform c) := by
  have hstore := h.host.store
  cases c with
  | set p kind expression => exact (h.set anchorsAlike_opens p kind expression).2
  | unset p => exact (h.unset anchorsAlike_opens p).2
  | toggle p => exact (h.toggle anchorsAlike_opens p).2
  | clear => exact h.clear anchorsAlike_opens
  | reconcile tokens => exact (h.reconcile anchorsAlike_opens tokens).2
  | takeEvents => exact ⟨h.host, h.breakpoints, h.tokens, rfl⟩
  | replaceText text =>
    exact h.withHost ⟨h.host.refusing, congrArg (TextAnchors.replaceText · text) hstore⟩
  | replaceRange range replacement =>
    refine h.withHost ⟨?_, ?_⟩
    · rw [snd_replaceRange]
      exact h.host.refusing
    · rw [snd_replaceRange, hstore]
  | createAnchor range => exact h.withHost (h.host.getD_create range)
  | removeAnchor anchor => exact h.withHost (anchorsAlike_opens.remove h.host anchor)

/-- A tracker behind an open gate stays like the one without it through any calls. -/
theorem Alike.foldl_performThrough (h : Alike Opens t t') (calls : List TrackerCall) :
    Alike Opens (calls.foldl Tracker.performThrough t) (calls.foldl perform t') := by
  induction calls generalizing t t' with
  | nil => exact h
  | cons c calls ih => exact ih (h.performThrough c)

/-- Whatever is called, over an open gate a tracker has the breakpoints, tokens and reports that it
has over the anchors behind the gate. -/
theorem alike_foldl_performThrough (text : Option String) (calls : List TrackerCall) :
    Alike Opens (calls.foldl performThrough (throughGate? text))
      (calls.foldl perform (ofText? text)) :=
  (alike_throughGate? text).foldl_performThrough calls

/-! ## The closed gate -/

/-- A breakpoint cannot be set on a token without one. -/
theorem set_of_refusing (h : t.host.refusing = true) {p start : Position} {kind : BreakpointKind}
    {given expression : Option String} (hcheck : checkExpression kind given = .ok expression)
    (htoken : t.startAt? p = some start) (hfree : t.get? start = none) :
    t.set p kind given = (.error (.anchorRejected start), t) := by
  simp [Tracker.set, hcheck, htoken, hfree, create_of_refusing h]

/-- The gate was closed all the time: no name was given out, and the anchors of the breakpoints are
some of those that they had. -/
structure Shut (t t' : Tracker GatedAnchors) : Prop where
  refusing : t'.host.refusing = true
  nextId : t'.host.store.nextId = t.host.store.nextId
  anchors : (t'.breakpoints.map (·.anchor)).Sublist (t.breakpoints.map (·.anchor))

/-- Nothing has happened behind a closed gate at first. -/
theorem Shut.refl (h : t.host.refusing = true) : Shut t t := ⟨h, rfl, .refl _⟩

/-- What holds behind a closed gate from one state to the next holds over both. -/
theorem Shut.trans (h : Shut t t₁) (h' : Shut t₁ t₂) : Shut t t₂ :=
  ⟨h'.refusing, h'.nextId.trans h.nextId, h'.anchors.trans h.anchors⟩

/-- Setting a breakpoint behind a closed gate makes no anchor. -/
theorem shut_set (h : t.host.refusing = true) (p : Position) (kind : BreakpointKind)
    (given : Option String) : Shut t (t.set p kind given).2 := by
  have hexit := t.setExit p kind given
  generalize t.set p kind given = result at hexit ⊢
  cases hexit with
  | unfit | noToken | rejected => exact .refl h
  | replaced =>
    refine ⟨h, rfl, ?_⟩
    rw [Tracker.publish, map_replaceAt _ kind _ (·.anchor) (fun _ => rfl)]
  | added check token free create =>
    rw [create_of_refusing h] at create
    cases create

/-- Removing a breakpoint behind a closed gate makes no anchor. -/
theorem shut_unset (h : t.host.refusing = true) (p : Position) : Shut t (t.unset p).2 := by
  unfold unset
  split
  · exact .refl h
  · exact ⟨h, rfl, List.eraseP_sublist.map _⟩

/-- Toggling a breakpoint behind a closed gate makes no anchor. -/
theorem shut_toggle (h : t.host.refusing = true) (p : Position) : Shut t (t.toggle p).2 := by
  have hexit := t.toggleExit p
  generalize t.toggle p = result at hexit ⊢
  cases hexit with
  | removed unset => exact congrArg Prod.snd unset ▸ shut_unset h _
  | added set => exact congrArg Prod.snd set ▸ shut_set h _ _ _
  | refused => exact .refl h

/-- Anchors that are taken away leave the gate and the next name as they are. -/
theorem shut_forgetAll (g : GatedAnchors) (bs : List Breakpoint) :
    (forgetAll g bs).refusing = g.refusing ∧
      (forgetAll g bs).store.nextId = g.store.nextId := by
  induction bs generalizing g with
  | nil => exact ⟨rfl, rfl⟩
  | cons b bs ih => exact ih (AnchorHost.remove g b.anchor)

/-- Clearing the breakpoints behind a closed gate makes no anchor. -/
theorem shut_clear (h : t.host.refusing = true) : Shut t t.clear := by
  unfold clear
  split
  · exact .refl h
  · obtain ⟨hrefusing, hnext⟩ := shut_forgetAll t.host t.breakpoints
    exact ⟨hrefusing.trans h, hnext, List.nil_sublist _⟩

/-- A breakpoint that is settled keeps its anchor: it would need a new one otherwise. -/
theorem shut_settle {g : GatedAnchors} (h : g.refusing = true) (tokens : List Token)
    (kept : List Breakpoint) (b : Breakpoint) :
    (settle tokens kept g b).2.refusing = true ∧
      (settle tokens kept g b).2.store.nextId = g.store.nextId ∧
      ((settle tokens kept g b).1.toList.map (·.anchor)).Sublist [b.anchor] := by
  have hexit := settleExit tokens kept g b
  generalize settle tokens kept g b = result at hexit ⊢
  cases hexit with
  | dropped => exact ⟨h, rfl, List.nil_sublist _⟩
  | stayed => exact ⟨h, rfl, .refl _⟩
  | replaced token free create =>
    rw [create_of_refusing (g := AnchorHost.remove g b.anchor) h] at create
    cases create

/-- Settling breakpoints behind a closed gate keeps anchors that were there, and makes none. -/
theorem shut_settleAll {g : GatedAnchors} (h : g.refusing = true) (tokens : List Token)
    (kept : List Breakpoint) (changed : Bool) (bs : List Breakpoint) :
    (settleAll tokens kept g changed bs).2.1.refusing = true ∧
      (settleAll tokens kept g changed bs).2.1.store.nextId = g.store.nextId ∧
      ((settleAll tokens kept g changed bs).1.map (·.anchor)).Sublist
        ((kept ++ bs).map (·.anchor)) := by
  induction bs generalizing kept g changed with
  | nil => exact ⟨h, rfl, by rw [settleAll, List.append_nil]⟩
  | cons b bs ih =>
    obtain ⟨hrefusing, hnext, hanchors⟩ := shut_settle h tokens kept b
    rw [settleAll]
    generalize settle tokens kept g b = result at hrefusing hnext hanchors ⊢
    obtain ⟨_ | b', g'⟩ := result
    · obtain ⟨hrefusing', hnext', hanchors'⟩ := ih hrefusing kept true
      refine ⟨hrefusing', hnext'.trans hnext, hanchors'.trans ?_⟩
      exact ((List.sublist_cons_self b bs).append_left kept).map _
    · obtain ⟨hrefusing', hnext', hanchors'⟩ := ih hrefusing (kept ++ [b']) _
      refine ⟨hrefusing', hnext'.trans hnext, hanchors'.trans ?_⟩
      simp only [List.map_append, List.append_assoc, List.map_cons]
      exact (hanchors.append_right _).append_left _

/-- Reconciling behind a closed gate makes no anchor. -/
theorem shut_reconcile (h : t.host.refusing = true) (tokens : List Token) :
    Shut t (t.reconcile tokens).2 := by
  obtain ⟨hrefusing, hnext, hanchors⟩ := shut_settleAll h tokens [] false t.breakpoints
  simp only [reconcile]
  split <;> exact ⟨hrefusing, hnext, hanchors⟩

/-- While the gate is closed, every call leaves it closed and makes no anchor. -/
theorem shut_performThrough (h : t.host.refusing = true) (c : TrackerCall) :
    Shut t (t.performThrough c) := by
  cases c with
  | set p kind expression => exact shut_set h p kind expression
  | unset p => exact shut_unset h p
  | toggle p => exact shut_toggle h p
  | clear => exact shut_clear h
  | reconcile tokens => exact shut_reconcile h tokens
  | takeEvents => exact ⟨h, rfl, .refl _⟩
  | replaceText text => exact ⟨h, rfl, .refl _⟩
  | replaceRange range replacement =>
    have hhost := snd_replaceRange t.host range replacement
    refine ⟨?_, ?_, .refl _⟩
    · rw [performThrough, hhost]
      exact h
    · rw [performThrough, hhost]
      cases hreplace : t.host.store.replaceRange? range replacement with
      | none => rfl
      | some s =>
        obtain ⟨span, -, -, hedit⟩ := TextAnchors.exists_of_replaceRange? hreplace
        exact hedit.nextId
  | createAnchor range =>
    have hhost : ((AnchorHost.create t.host range).map (·.2)).getD t.host = t.host := by
      rw [create_of_refusing h]
      rfl
    rw [performThrough, hhost]
    exact .refl h
  | removeAnchor anchor => exact ⟨h, rfl, .refl _⟩

/-- Whatever is called while the gate is closed, no anchor is made, and breakpoints only go: those
that are left have the anchors that they had. -/
theorem shut_foldl_performThrough (h : t.host.refusing = true) (calls : List TrackerCall) :
    Shut t (calls.foldl performThrough t) := by
  induction calls generalizing t with
  | nil => exact .refl h
  | cons c calls ih =>
    have hshut := shut_performThrough h c
    exact hshut.trans (ih hshut.refusing)

end Tracker

end StackEditor
