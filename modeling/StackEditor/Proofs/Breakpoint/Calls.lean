import StackEditor.Proofs.Breakpoint.Rest

/-!
# What can happen to a tracker

A tracker over the anchors of a text is called at will, and reconciled with tokens of any text. In
between the host edits its text, puts anchors of its own on it and takes any anchors away, and need
not say so. `TrackerCall` lists what can happen at a time. Whatever happens, every breakpoint has an
anchor name of its own (`named_foldl_perform`), and so reconciling twice with tokens that are apart
is the same as reconciling once (`reconcile_idempotent`).
-/

namespace StackEditor

/-- What happens to a tracker at a time. -/
inductive TrackerCall where
  | set (position : Position) (kind : BreakpointKind) (expression : Option String)
  | unset (position : Position)
  | toggle (position : Position)
  | clear
  | reconcile (tokens : List Token)
  | takeEvents
  /-- The host replaces the whole text. -/
  | replaceText (text : String)
  /-- The host replaces the text within a range, if the text has that range. -/
  | replaceRange (range : Range) (replacement : String)
  /-- The host puts an anchor of its own on a range, if the text has that range. -/
  | createAnchor (range : Range)
  /-- The host takes an anchor away, be it one of its own or that of a breakpoint. -/
  | removeAnchor (anchor : AnchorId)

namespace Tracker

open TextAnchors

/-- A new tracker over a text without anchors, or over no text yet. -/
def ofText? (text : Option String) : Tracker TextAnchors :=
  .new (text.elim .empty .ofText)

/-- The tracker after one call. -/
def perform (t : Tracker TextAnchors) : TrackerCall → Tracker TextAnchors
  | .set p kind expression => (t.set p kind expression).2
  | .unset p => (t.unset p).2
  | .toggle p => (t.toggle p).2
  | .clear => t.clear
  | .reconcile tokens => (t.reconcile tokens).2
  | .takeEvents => t.takeEvents.2
  | .replaceText text => { t with host := t.host.replaceText text }
  | .replaceRange range replacement =>
    { t with host := (t.host.replaceRange? range replacement).getD t.host }
  | .createAnchor range => { t with host := ((t.host.create range).map (·.2)).getD t.host }
  | .removeAnchor anchor => { t with host := t.host.remove anchor }

variable {t : Tracker TextAnchors}

/-! ## Anchor names -/

theorem named_set (h : HoldsNames t.host t.breakpoints) (p : Position) (kind : BreakpointKind)
    (expression : Option String) :
    HoldsNames (t.set p kind expression).2.host (t.set p kind expression).2.breakpoints := by
  have hexit := t.setExit p kind expression
  generalize t.set p kind expression = result at hexit ⊢
  cases hexit with
  | unfit | noToken | rejected => exact h
  | replaced => exact h.of_map_eq (map_replaceAt _ kind _ (·.anchor) (fun _ => rfl) _)
  | added check token free create =>
    obtain ⟨span, -, rfl, rfl⟩ := exists_of_create create
    have hnone : HoldsNames t.host (t.breakpoints ++ []) := (List.append_nil _).symm ▸ h
    exact hnone.insert span rfl

theorem named_unset (h : HoldsNames t.host t.breakpoints) (p : Position) :
    HoldsNames (t.unset p).2.host (t.unset p).2.breakpoints := by
  unfold unset
  split
  · exact h
  · exact (h.sublist List.eraseP_sublist).remove _

theorem named_toggle (h : HoldsNames t.host t.breakpoints) (p : Position) :
    HoldsNames (t.toggle p).2.host (t.toggle p).2.breakpoints := by
  have hexit := t.toggleExit p
  generalize t.toggle p = result at hexit ⊢
  cases hexit with
  | removed unset => exact congrArg Prod.snd unset ▸ named_unset h _
  | added set => exact congrArg Prod.snd set ▸ named_set h _ _ _
  | refused => exact h

theorem named_clear (h : HoldsNames t.host t.breakpoints) :
    HoldsNames t.clear.host t.clear.breakpoints := by
  have hforget : ∀ (bs : List Breakpoint) {s : TextAnchors}, HoldsNames s [] →
      HoldsNames (forgetAll s bs) [] := by
    intro bs
    induction bs with
    | nil => exact fun hs => hs
    | cons b bs ih => exact fun hs => ih (hs.remove b.anchor)
  unfold clear
  split
  · exact h
  · exact hforget _ (h.sublist (List.nil_sublist _))

/-- Whatever happens, every breakpoint has an anchor name of its own. -/
theorem named_perform (h : HoldsNames t.host t.breakpoints) (c : TrackerCall) :
    HoldsNames (t.perform c).host (t.perform c).breakpoints := by
  cases c with
  | set p kind expression => exact named_set h p kind expression
  | unset p => exact named_unset h p
  | toggle p => exact named_toggle h p
  | clear => exact named_clear h
  | reconcile tokens => exact named_reconcile h tokens
  | takeEvents => exact h
  | replaceText text => exact h.of_change (t.host.change_perform (.replaceText text))
  | replaceRange range replacement =>
    exact h.of_change (t.host.change_perform (.replaceRange range replacement))
  | createAnchor range => exact h.of_change (t.host.change_perform (.create range))
  | removeAnchor anchor => exact h.of_change (t.host.change_perform (.remove anchor))

/-- The breakpoints hold different anchors after any calls. -/
theorem named_foldl_perform (text : Option String) (calls : List TrackerCall) :
    HoldsNames (calls.foldl perform (ofText? text)).host
      (calls.foldl perform (ofText? text)).breakpoints := by
  have hlive : (ofText? text).host.live = [] := by cases text <;> rfl
  refine List.foldlRecOn calls perform (motive := fun t => HoldsNames t.host t.breakpoints) ?_
    fun t h c _ => named_perform h c
  exact (Holds.of_live_eq_nil hlive).named

/-! ## Reconciling twice -/

/-- Whatever has happened to a tracker, on tokens that are apart a second reconciliation does
nothing behind the first one, and the first one only takes the tokens if all breakpoints rest on
them, at different places. -/
theorem reconcile_idempotent (text : Option String) (calls : List TrackerCall)
    {tokens : List Token} (hapart : TokensApart tokens) :
    let t := calls.foldl perform (ofText? text)
    (t.reconcile tokens).2.reconcile tokens = (false, (t.reconcile tokens).2) ∧
      ((∀ b ∈ t.breakpoints, t.host.Rests tokens b) → (t.breakpoints.map (·.position)).Nodup →
        t.reconcile tokens = (false, { t with tokens })) := by
  intro t
  have hnamed : HoldsNames t.host t.breakpoints := named_foldl_perform text calls
  refine ⟨?_, fun hrests hnodup => reconcile_eq_of_rests hapart hrests hnodup⟩
  have htwice := reconcile_eq_of_rests hapart (rests_reconcile hnamed tokens)
    (nodup_reconcile t tokens)
  have htokens : (t.reconcile tokens).2.tokens = tokens := tokens_reconcile t tokens
  generalize (t.reconcile tokens).2 = after at htwice htokens ⊢
  subst htokens
  exact htwice

/-- Two words with a breakpoint at each. -/
def twoWords : List TrackerCall :=
  [.reconcile (tokenize "ab cd"), .set ⟨0, 0⟩ .log (some "x"), .toggle ⟨0, 3⟩]

/-- The host joins the two words. -/
def twoWordsJoined : List TrackerCall := twoWords ++ [.replaceText "abcd"]

/-- Reconciling does nothing to the breakpoints at the two words. When these are joined, it leaves
one breakpoint of the two, once and for all. -/
theorem twoWords_reconcile :
    let t := twoWords.foldl perform (ofText? (some "ab cd"))
    let joined := twoWordsJoined.foldl perform (ofText? (some "ab cd"))
    let t' := (joined.reconcile (tokenize "abcd")).2
    t.reconcile (tokenize "ab cd") = (false, { t with tokens := tokenize "ab cd" }) ∧
      t'.breakpoints.map Breakpoint.mark = [(⟨0, 0⟩, .log, some "x")] ∧
      t'.reconcile (tokenize "abcd") = (false, t') := by
  obtain ⟨-, hrest⟩ := reconcile_idempotent (some "ab cd") twoWords (tiles_tokenize _).apart
  obtain ⟨htwice, -⟩ := reconcile_idempotent (some "ab cd") twoWordsJoined (tiles_tokenize _).apart
  exact ⟨hrest (by decide +kernel) (by decide +kernel), by decide +kernel, htwice⟩

end Tracker

end StackEditor
