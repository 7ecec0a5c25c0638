import StackEditor.Surface.Basic

/-!
# A surface that remembers

A surface that holds what was last shown on it and answers questions about that.
-/

namespace StackEditor

/-- What was last shown. -/
structure RecordingSurface where
  markers : List Marker
  breakpoints : List Decoration
  execution : List Decoration
  deriving DecidableEq

namespace RecordingSurface

/-- Nothing has been shown. -/
def empty : RecordingSurface := ⟨[], [], []⟩

instance : HostSurface RecordingSurface where
  setMarkers s ms := { s with markers := ms }
  setDecorations s layer ds :=
    match layer with
    | .breakpoints => { s with breakpoints := ds }
    | .execution => { s with execution := ds }

/-- The lines of the breakpoints of one kind, counted from one. -/
def breakpointLines (s : RecordingSurface) (kind : BreakpointKind) : List Nat :=
  (s.breakpoints.filter (·.glyph = .breakpoint kind)).map (·.range.start.lineNumber)

/-- The line of the execution highlight, counted from one. -/
def currentLine? (s : RecordingSurface) : Option Nat :=
  s.execution.head?.map (·.range.start.lineNumber)

end RecordingSurface

end StackEditor
