import StackEditor.Anchor.Edit
import StackEditor.Anchor.Host
import StackEditor.Anchor.Offset

/-!
# Anchors over a text

`TextAnchors` holds a text and anchors on it, as pairs of offsets. Replacing the text, as a whole
or within a range, moves the anchors through the edit; an anchor whose start is deleted is gone.

A store that never had a text has no line, so it refuses every position.
-/

namespace StackEditor

/-- The offsets where an anchor starts and stops. -/
structure AnchorSpan where
  start : Nat
  stop : Nat
  deriving DecidableEq

/-- The span after an edit. A stop that is deleted moves behind what was put in, and never before
the start. -/
def AnchorSpan.move (e : Edit) (s : AnchorSpan) : Option AnchorSpan :=
  (e.move s.start).map fun start =>
    ⟨start, max ((e.move s.stop).getD (e.start + e.inserted)) start⟩

/-- A text and the anchors on it, oldest first. Names are given out in order and never again. -/
structure TextAnchors where
  /-- The text, once there is one. -/
  text? : Option (List Char)
  live : List (AnchorId × AnchorSpan)
  nextId : Nat
  deriving DecidableEq

namespace TextAnchors

/-- No text yet. -/
def empty : TextAnchors := ⟨none, [], 0⟩

/-- A text without anchors. -/
def ofText (text : String) : TextAnchors := ⟨some text.toList, [], 0⟩

/-- The characters of the text; none before there is a text. -/
def chars (s : TextAnchors) : List Char := s.text?.getD []

def text (s : TextAnchors) : String := String.ofList s.chars

/-- The number of anchors. -/
def size (s : TextAnchors) : Nat := s.live.length

/-- The offset of a position in the text. -/
def offset? (s : TextAnchors) (p : Position) : Option Nat := do offsetOf? (← s.text?) p

/-- The offsets of a range in the text. -/
def span? (s : TextAnchors) (r : Range) : Option AnchorSpan := do
  let start ← s.offset? r.start
  let stop ← s.offset? r.stop
  if start ≤ stop then some ⟨start, stop⟩ else none

/-- The range of a span. -/
def rangeOf (s : TextAnchors) (a : AnchorSpan) : Range :=
  ⟨positionAt s.chars a.start, positionAt s.chars a.stop⟩

/-! ## Anchors -/

/-- A new anchor over a range of the text. -/
def create (s : TextAnchors) (r : Range) : Option (AnchorId × TextAnchors) := do
  let span ← s.span? r
  let id := ⟨s.nextId⟩
  return (id, { s with live := s.live ++ [(id, span)], nextId := s.nextId + 1 })

/-- The span of an anchor. -/
def find? (s : TextAnchors) (a : AnchorId) : Option AnchorSpan := s.live.lookup a

def resolve (s : TextAnchors) (a : AnchorId) : Option Range := (s.find? a).map s.rangeOf

def remove (s : TextAnchors) (a : AnchorId) : TextAnchors :=
  { s with live := s.live.filter (·.1 ≠ a) }

/-- The anchors with their ranges, oldest first. -/
def ranges (s : TextAnchors) : List (AnchorId × Range) :=
  s.live.map fun (a, span) => (a, s.rangeOf span)

instance : AnchorHost TextAnchors where
  create := create
  resolve := resolve
  remove := remove

/-! ## Edits -/

/-- The anchors after an edit. An edit that changes nothing leaves them all. -/
def moveAll (e : Edit) (live : List (AnchorId × AnchorSpan)) : List (AnchorId × AnchorSpan) :=
  if e.isTrivial then live
  else live.filterMap fun (a, span) => (span.move e).map (a, ·)

/-- The text replaced as a whole. The anchors move through the smallest edit. -/
def replaceText (s : TextAnchors) (text : String) : TextAnchors :=
  { s with
    text? := some text.toList
    live := moveAll (.between s.chars text.toList) s.live }

/-- The text replaced within a range, if the text has that range. -/
def replaceRange? (s : TextAnchors) (r : Range) (replacement : String) : Option TextAnchors := do
  let span ← s.span? r
  let new := replacement.toList
  return { s with
    text? := some (s.chars.take span.start ++ new ++ s.chars.drop span.stop)
    live := moveAll ⟨span.start, span.stop - span.start, new.length⟩ s.live }

end TextAnchors

end StackEditor
