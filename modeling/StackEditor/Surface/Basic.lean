import StackEditor.Breakpoint.Basic
import StackEditor.Diagnostic
import StackEditor.Execution.Basic

/-!
# What the editing surface shows

The surface shows markers for diagnostics and two layers of decorations: a glyph for each
breakpoint, and a highlight on the line of the execution. Everything is shown in surface
coordinates, and each of the three is always replaced as a whole.
-/

namespace StackEditor

/-- A diagnostic on the surface. -/
structure Marker where
  severity : Severity
  message : String
  range : SurfaceRange
  deriving DecidableEq

/-- The layers of decorations. -/
inductive DecorationLayer where
  | breakpoints
  | execution
  deriving DecidableEq

/-- What a decoration shows. -/
inductive Glyph where
  | breakpoint (kind : BreakpointKind)
  | currentLine
  deriving DecidableEq

/-- A decoration of a range, or of the whole line that the range is on. -/
structure Decoration where
  range : SurfaceRange
  glyph : Glyph
  wholeLine : Bool
  hover : Option String
  deriving DecidableEq

/-! ## From the session to the surface -/

/-- A marker for each diagnostic. -/
def markersFor (ds : List Diagnostic) : List Marker :=
  ds.map fun d => ⟨d.severity, d.message, d.range.toSurface⟩

/-- The text that is shown over a breakpoint with an expression. -/
def hoverText (kind : BreakpointKind) (expression : String) : String :=
  match kind with
  | .hitCount => "hit count: " ++ expression
  | .log => "log: " ++ expression
  | _ => "condition: " ++ expression

/-- A glyph for each breakpoint. -/
def breakpointDecorations (bs : List Breakpoint) : List Decoration :=
  bs.map fun b =>
    ⟨(Range.point b.position).toSurface, .breakpoint b.kind, false,
      b.expression.map (hoverText b.kind)⟩

/-- The highlight of the token that a run is at; nothing without a run. -/
def executionDecorations (p : Option ExecutionPosition) : List Decoration :=
  p.toList.map fun p => ⟨p.token.range.toSurface, .currentLine, true, none⟩

/-! ## Surfaces -/

/-- A surface of the host: both functions replace what was shown before. -/
class HostSurface (η : Type) where
  setMarkers : η → List Marker → η
  setDecorations : η → DecorationLayer → List Decoration → η

/-- Shows the diagnostics. -/
def publishDiagnostics [HostSurface η] (s : η) (ds : List Diagnostic) : η :=
  HostSurface.setMarkers s (markersFor ds)

/-- Shows the breakpoints. -/
def publishBreakpoints [HostSurface η] (s : η) (bs : List Breakpoint) : η :=
  HostSurface.setDecorations s .breakpoints (breakpointDecorations bs)

/-- Shows where the run is. -/
def publishPosition [HostSurface η] (s : η) (p : Option ExecutionPosition) : η :=
  HostSurface.setDecorations s .execution (executionDecorations p)

end StackEditor
