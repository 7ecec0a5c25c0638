import Mathlib.Data.Option.Basic
import StackEditor.Proofs.Breakpoint.Settle
import StackEditor.Surface.Recording

/-!
# What is drawn

Markers and decorations can be read back: two lists of diagnostics have the same markers only if
they agree in severities, messages and ranges (`markersFor_inj`), two lists of breakpoints have the
same glyphs only if they agree in their marks (`breakpointDecorations_inj`), and the highlight is
one whole line that tells the range of its token (`executionDecorations_some`,
`executionDecorations_inj`). The lines that a surface is asked for are those of what is drawn on it,
counted from one.
-/

namespace StackEditor

/-! ## Places on the surface -/

theorem Position.toSurface_inj {p q : Position} : p.toSurface = q.toSurface ↔ p = q :=
  ⟨fun h => Option.some.inj (congrArg SurfacePosition.toSource? h), congrArg _⟩

theorem Range.toSurface_inj {r s : Range} : r.toSurface = s.toSurface ↔ r = s :=
  ⟨fun h => Option.some.inj (congrArg SurfaceRange.toSource? h), congrArg _⟩

/-! ## Markers -/

variable {ds ds' : List Diagnostic} {bs bs' : List Breakpoint} {p q : Option ExecutionPosition}

/-- What a diagnostic shows of itself: all but its code. -/
def Diagnostic.mark (d : Diagnostic) : Severity × String × Range := (d.severity, d.message, d.range)

/-- The marker of a diagnostic that shows this of itself. -/
def Marker.ofMark : Severity × String × Range → Marker
  | (severity, message, range) => ⟨severity, message, range.toSurface⟩

/-- A marker shows the whole mark that it is made of. -/
theorem Marker.ofMark_injective : Function.Injective Marker.ofMark := by
  rintro ⟨severity, message, range⟩ ⟨severity', message', range'⟩ h
  obtain ⟨rfl, rfl, hrange⟩ := Marker.mk.inj h
  rw [Range.toSurface_inj.1 hrange]

/-- There is one marker a report, made of its mark. -/
theorem markersFor_eq_map_mark (ds : List Diagnostic) :
    markersFor ds = (ds.map Diagnostic.mark).map Marker.ofMark := by
  rw [List.map_map]
  rfl

/-- The markers tell the diagnostics apart, but for their codes. -/
theorem markersFor_inj :
    markersFor ds = markersFor ds' ↔ ds.map Diagnostic.mark = ds'.map Diagnostic.mark := by
  rw [markersFor_eq_map_mark, markersFor_eq_map_mark,
    List.map_inj_right fun _ _ h => Marker.ofMark_injective h]

/-! ## Glyphs of breakpoints -/

/-- The text over a breakpoint ends with its expression. -/
theorem hoverText_injective (kind : BreakpointKind) : Function.Injective (hoverText kind) := by
  intro e e' h
  cases kind <;> exact (String.append_right_inj _).1 h

/-- The glyph of a breakpoint with this mark. -/
def Decoration.ofMark : Position × BreakpointKind × Option String → Decoration
  | (p, kind, expression) =>
    ⟨(Range.point p).toSurface, .breakpoint kind, false, expression.map (hoverText kind)⟩

/-- A glyph shows the whole mark of its breakpoint. -/
theorem Decoration.ofMark_injective : Function.Injective Decoration.ofMark := by
  rintro ⟨p, kind, expression⟩ ⟨p', kind', expression'⟩ h
  obtain ⟨hrange, hglyph, -, hhover⟩ := Decoration.mk.inj h
  obtain rfl : p = p' := congrArg Range.start (Range.toSurface_inj.1 hrange)
  obtain rfl : kind = kind' := Glyph.breakpoint.inj hglyph
  obtain rfl : expression = expression' := Option.map_injective (hoverText_injective kind) hhover
  rfl

/-- Decorations are drawn from the marks of breakpoints alone. -/
theorem breakpointDecorations_eq_map_mark (bs : List Breakpoint) :
    breakpointDecorations bs = (bs.map Breakpoint.mark).map Decoration.ofMark := by
  rw [List.map_map]
  rfl

/-- The glyphs tell the marks of the breakpoints. -/
theorem breakpointDecorations_inj : breakpointDecorations bs = breakpointDecorations bs' ↔
    bs.map Breakpoint.mark = bs'.map Breakpoint.mark := by
  rw [breakpointDecorations_eq_map_mark, breakpointDecorations_eq_map_mark,
    List.map_inj_right fun _ _ h => Decoration.ofMark_injective h]

/-! ## The highlight -/

@[simp] theorem executionDecorations_none : executionDecorations none = [] := rfl

/-- The highlight takes the whole line of its token. -/
@[simp] theorem executionDecorations_some (p : ExecutionPosition) :
    executionDecorations (some p) = [⟨p.token.range.toSurface, .currentLine, true, none⟩] := rfl

/-- The highlight tells whether a run is somewhere, and the range of its token. -/
theorem executionDecorations_inj : executionDecorations p = executionDecorations q ↔
    p.map (·.token.range) = q.map (·.token.range) := by
  cases p <;> cases q <;> simp [Range.toSurface_inj]

/-! ## Lines -/

namespace RecordingSurface

variable {s : RecordingSurface}

/-- The lines of a kind are those of the breakpoints of that kind, in order. -/
theorem breakpointLines_eq (h : s.breakpoints = breakpointDecorations bs) (kind : BreakpointKind) :
    s.breakpointLines kind = (bs.filter (·.kind = kind)).map (·.position.line + 1) := by
  rw [breakpointLines, h, breakpointDecorations, List.filter_map, List.map_map]
  simp only [Function.comp_def, Glyph.breakpoint.injEq]
  rfl

/-- The line of the highlight is that of its token. -/
theorem currentLine?_eq (h : s.execution = executionDecorations p) :
    s.currentLine? = p.map (·.token.line + 1) := by
  rw [currentLine?, h]
  cases p <;> rfl

end RecordingSurface

end StackEditor
