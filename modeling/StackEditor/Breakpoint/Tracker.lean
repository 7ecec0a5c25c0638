import StackEditor.Anchor.Host
import StackEditor.Breakpoint.Error
import StackEditor.Token

/-!
# Tracking breakpoints

The tracker keeps the list of breakpoints, in the order in which they were set, over a host of
anchors. A breakpoint always goes to the start of the token that covers the place that is asked
for, and no two share one.

After a change of the text, `reconcile` asks the host where the anchors are now and puts every
breakpoint at the start of the token there. A breakpoint whose anchor is gone, or has no token,
or meets an earlier breakpoint, is dropped.

Each operation that changes the list reports the whole new list, once.
-/

namespace StackEditor

/-- What a toggle did. -/
inductive ToggleOutcome where
  | added
  | removed
  deriving DecidableEq

/-- Breakpoints over a host of anchors, the tokens they stand on, and the reports that nobody has
taken yet. -/
structure Tracker (α : Type) where
  host : α
  breakpoints : List Breakpoint
  tokens : List Token
  events : List (List Breakpoint)

namespace Tracker

variable {α : Type}

/-- No breakpoints and no tokens. -/
def new (host : α) : Tracker α := ⟨host, [], [], []⟩

/-- The breakpoint at this place. -/
def get? (t : Tracker α) (p : Position) : Option Breakpoint :=
  t.breakpoints.find? (·.position = p)

/-- The reports so far, and the tracker without them. -/
def takeEvents (t : Tracker α) : List (List Breakpoint) × Tracker α :=
  (t.events, { t with events := [] })

/-- The start of the first token on a line. -/
def positionOnLine? (t : Tracker α) (line : Nat) : Option Position :=
  (t.tokens.find? (·.line = line)).map (·.start)

/-- The start of the token that covers a place. -/
def startAt? (t : Tracker α) (p : Position) : Option Position :=
  (tokenAt? t.tokens p).map (·.start)

/-- The tracker with a new list of breakpoints, which it reports. -/
def publish (t : Tracker α) (bs : List Breakpoint) : Tracker α :=
  { t with breakpoints := bs, events := t.events ++ [bs] }

section
variable [AnchorHost α]

/-! ## Setting and removing -/

/-- The breakpoints with kind and expression of the one at `start` replaced. -/
def replaceAt (start : Position) (kind : BreakpointKind) (expression : Option String)
    (bs : List Breakpoint) : List Breakpoint :=
  bs.map fun b => if b.position = start then { b with kind, expression } else b

/-- Sets a breakpoint at the token that covers `p`. Where there is one already, its kind and
expression change. -/
def set (t : Tracker α) (p : Position) (kind : BreakpointKind) (expression : Option String) :
    Except BreakpointError Position × Tracker α :=
  match checkExpression kind expression with
  | .error e => (.error e, t)
  | .ok expression =>
    match t.startAt? p with
    | none => (.error (.noToken p), t)
    | some start =>
      if (t.get? start).isSome then
        (.ok start, t.publish (replaceAt start kind expression t.breakpoints))
      else
        match AnchorHost.create t.host (.point start) with
        | none => (.error (.anchorRejected start), t)
        | some (anchor, host) =>
          let b : Breakpoint := ⟨anchor, start, kind, expression⟩
          (.ok start, { t with host }.publish (t.breakpoints ++ [b]))

/-- Removes the breakpoint at exactly this place, if there is one. -/
def unset (t : Tracker α) (p : Position) : Bool × Tracker α :=
  match t.get? p with
  | none => (false, t)
  | some b =>
    (true, { t with host := AnchorHost.remove t.host b.anchor }.publish
      (t.breakpoints.eraseP (·.position = p)))

/-- Removes the breakpoint at the token that covers `p`, or sets an unconditional one there. -/
def toggle (t : Tracker α) (p : Position) : Except BreakpointError ToggleOutcome × Tracker α :=
  let start := (t.startAt? p).getD p
  match t.unset start with
  | (true, t) => (.ok .removed, t)
  | (false, t) =>
    let (result, t) := t.set start .unconditional none
    (result.map fun _ => .added, t)

/-- The host without the anchors of these breakpoints. -/
def forgetAll (host : α) (bs : List Breakpoint) : α :=
  bs.foldl (fun h b => AnchorHost.remove h b.anchor) host

/-- Removes all breakpoints. -/
def clear (t : Tracker α) : Tracker α :=
  if t.breakpoints.isEmpty then t
  else { t with host := forgetAll t.host t.breakpoints }.publish []

/-! ## Reconciling -/

/-- Where the breakpoint `b` goes on the given tokens, behind the breakpoints `kept`; none if it
is dropped. An anchor that is not at the start of its token gives way to a new one that is. -/
def settle (tokens : List Token) (kept : List Breakpoint) (host : α) (b : Breakpoint) :
    Option Breakpoint × α :=
  match AnchorHost.resolve host b.anchor with
  | none => (none, AnchorHost.remove host b.anchor)
  | some r =>
    match tokenAt? tokens r.start with
    | none => (none, AnchorHost.remove host b.anchor)
    | some t =>
      if kept.any (·.position = t.start) then (none, AnchorHost.remove host b.anchor)
      else if r.start = t.start then (some { b with position := t.start }, host)
      else
        let host := AnchorHost.remove host b.anchor
        match AnchorHost.create host (.point t.start) with
        | some (anchor, host) => (some { b with anchor, position := t.start }, host)
        | none => (none, host)

/-- The breakpoints `kept`, and behind them those of `bs` that are not dropped. The flag `changed`
is set when one is moved or dropped. -/
def settleAll (tokens : List Token) (kept : List Breakpoint) (host : α) (changed : Bool) :
    List Breakpoint → List Breakpoint × α × Bool
  | [] => (kept, host, changed)
  | b :: bs =>
    match settle tokens kept host b with
    | (some b', host) =>
      settleAll tokens (kept ++ [b']) host (changed || b'.position ≠ b.position) bs
    | (none, host) => settleAll tokens kept host true bs

/-- Puts the breakpoints on new tokens, which must be those of the text that the host's anchors
are on. The answer is whether a breakpoint was moved or dropped. -/
def reconcile (t : Tracker α) (tokens : List Token) : Bool × Tracker α :=
  let (bs, host, changed) := settleAll tokens [] t.host false t.breakpoints
  let t := { t with host, tokens, breakpoints := bs }
  (changed, if changed then t.publish bs else t)

end

end Tracker

end StackEditor
