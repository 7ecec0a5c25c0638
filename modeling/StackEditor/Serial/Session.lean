import StackEditor.Analysis.Analyzer
import StackEditor.Serial.Source
import StackEditor.Surface.Basic

/-!
# The JSON form of breakpoints, executions, the surface and options

Breakpoints, execution positions and what the surface shows need all of their fields, except that
an object may leave out one that may be `null`. Options and lists of built-in names have a value
for every field that is missing.
-/

namespace StackEditor

/-! ## Identifiers -/

/-- The number of an identifier in canonical form. -/
def Json.identifier? (j : Json) : Option Nat := do uuidOfText? (← j.string?)

instance : Serial AnchorId where
  schema := .identifier
  toJson a := .string (uuidText a.number)
  ofJson? j := j.identifier?.map AnchorId.mk

instance : Serial TaskId where
  schema := .identifier
  toJson t := .string (uuidText t.number)
  ofJson? j := j.identifier?.map TaskId.mk

/-! ## Breakpoints -/

instance : Named BreakpointKind where
  all := [.unconditional, .expression, .hitCount, .log]
  name
    | .unconditional => "Unconditional"
    | .expression => "Expression"
    | .hitCount => "HitCount"
    | .log => "Log"

instance : Serial BreakpointKind := .ofNamed BreakpointKind

instance : Serial Breakpoint where
  schema := .ofFields [("anchor_id", Serial.schema AnchorId, .refused),
    ("position", Serial.schema Position, .refused),
    ("kind", Serial.schema BreakpointKind, .refused), ("expression", .optional .string, .null)]
  toJson b := .object [("anchor_id", Serial.toJson b.anchor),
    ("position", Serial.toJson b.position), ("kind", Serial.toJson b.kind),
    ("expression", .ofOption .string b.expression)]
  ofJson?
    | .object [(_, anchor), (_, position), (_, kind), (_, expression)] => do
      return ⟨← Serial.ofJson? anchor, ← Serial.ofJson? position, ← Serial.ofJson? kind,
        ← expression.optional? Json.string?⟩
    | _ => none

/-! ## Executions -/

instance : Named ExecutionState where
  all := [.idle, .running, .paused, .stopped]
  name
    | .idle => "Idle"
    | .running => "Running"
    | .paused => "Paused"
    | .stopped => "Stopped"

instance : Serial ExecutionState := .ofNamed ExecutionState

instance : Serial ExecutionPosition where
  schema := .ofFields [("line", .word, .refused), ("col", .word, .refused),
    ("token", Serial.schema Token, .refused)]
  toJson p := .object [("line", .natural p.line), ("col", .natural p.col),
    ("token", Serial.toJson p.token)]
  ofJson?
    | .object [(_, line), (_, col), (_, token)] => do
      return ⟨← line.natural?, ← col.natural?, ← Serial.ofJson? token⟩
    | _ => none

/-! ## The surface -/

instance : Named DecorationLayer where
  all := [.breakpoints, .execution]
  name
    | .breakpoints => "Breakpoints"
    | .execution => "Execution"

instance : Serial DecorationLayer := .ofNamed DecorationLayer

instance : Serial Glyph where
  schema := .choice (.tagged "Breakpoint" (Serial.schema BreakpointKind)
    (.plain "CurrentLine" .none))
  toJson
    | .breakpoint kind => .object [("Breakpoint", Serial.toJson kind)]
    | .currentLine => .string "CurrentLine"
  ofJson?
    | .object [(_, kind)] => (Serial.ofJson? kind).map .breakpoint
    | .string _ => some .currentLine
    | _ => none

instance : Serial Marker where
  schema := .ofFields [("severity", Serial.schema Severity, .refused),
    ("message", .string, .refused), ("range", Serial.schema SurfaceRange, .refused)]
  toJson m := .object [("severity", Serial.toJson m.severity), ("message", .string m.message),
    ("range", Serial.toJson m.range)]
  ofJson?
    | .object [(_, severity), (_, message), (_, range)] => do
      return ⟨← Serial.ofJson? severity, ← message.string?, ← Serial.ofJson? range⟩
    | _ => none

instance : Serial Decoration where
  schema := .ofFields [("range", Serial.schema SurfaceRange, .refused),
    ("glyph", Serial.schema Glyph, .refused), ("whole_line", .bool, .refused),
    ("hover", .optional .string, .null)]
  toJson d := .object [("range", Serial.toJson d.range), ("glyph", Serial.toJson d.glyph),
    ("whole_line", .bool d.wholeLine), ("hover", .ofOption .string d.hover)]
  ofJson?
    | .object [(_, range), (_, glyph), (_, wholeLine), (_, hover)] => do
      return ⟨← Serial.ofJson? range, ← Serial.ofJson? glyph, ← wholeLine.bool?,
        ← hover.optional? Json.string?⟩
    | _ => none

/-! ## Options and built-in names -/

instance : Serial AnalysisOptions where
  schema := .ofFields [("report_unresolved_references", .bool, .filled (.bool true)),
    ("report_shadowed_builtins", .bool, .filled (.bool true))]
  toJson o := .object [("report_unresolved_references", .bool o.unresolvedReferences),
    ("report_shadowed_builtins", .bool o.shadowedBuiltins)]
  ofJson?
    | .object [(_, unresolved), (_, shadowed)] => do
      return ⟨← unresolved.bool?, ← shadowed.bool?⟩
    | _ => none

instance : Serial ControllerOptions where
  schema := .ofFields [("step_delay_ms", .word, .filled (.natural 0)),
    ("highlight_while_running", .bool, .filled (.bool true))]
  toJson o := .object [("step_delay_ms", .natural o.stepDelay.toNat),
    ("highlight_while_running", .bool o.highlightWhileRunning)]
  ofJson?
    | .object [(_, delay), (_, highlight)] => do
      return ⟨.ofNat (← delay.natural?), ← highlight.bool?⟩
    | _ => none

instance : Serial BuiltinsData where
  schema := .ofFields [("functions", .list .string, .filled (.array [])),
    ("variables", .list .string, .filled (.array [])),
    ("types", .list .string, .filled (.array []))]
  toJson d := .object [("functions", .ofNames d.functionNames),
    ("variables", .ofNames d.variableNames), ("types", .ofNames d.typeNames)]
  ofJson?
    | .object [(_, fs), (_, vs), (_, ts)] => do
      return ⟨← fs.names?, ← vs.names?, ← ts.names?⟩
    | _ => none

/-- The built-in names that a JSON text lists. -/
def Builtins.parse (text : String) : Except Fault Builtins :=
  (Serial.parse BuiltinsData text).map ofData

end StackEditor
