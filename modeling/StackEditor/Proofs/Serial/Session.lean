import StackEditor.Proofs.Config.Saving
import StackEditor.Proofs.Serial.Source
import StackEditor.Proofs.Text.Identifier

/-!
# All data survives its JSON form

Breakpoints, execution positions and what the surface shows are faithful to their parts, as tokens
and ranges are; the numbers in them are words, and identifiers have 128 bits. A value that may be
missing is written as `null`, which no text is.

So every value of every type with a JSON form is read back from what is written of it, in either
layout of the text and from the form itself, and two values that differ are never written alike
(`Serial.Lossless`, `Serial.data_survives`).
-/

namespace StackEditor

open Json (Schema)

/-! ## Identifiers -/

/-- Identifiers have 128 bits. -/
structure AnchorId.InWords (a : AnchorId) : Prop where
  number_lt : a.number < uuidCount

/-- Identifiers have 128 bits. -/
structure TaskId.InWords (t : TaskId) : Prop where
  number_lt : t.number < uuidCount

/-- A number below the number of identifiers is read back from its hexadecimal text. -/
theorem Json.identifier?_uuidText {n : Nat} (h : n < uuidCount) :
    (Json.string (uuidText n)).identifier? = some n := by
  rw [Json.identifier?, Json.string?, Option.bind_eq_bind, Option.bind_some, uuidOfText?_uuidText h]

/-- The name of an anchor is read back from what is written of it. -/
theorem AnchorId.InWords.faithful {a : AnchorId} (h : a.InWords) : Serial.Faithful a where
  canonical := .identifier (uuidOfText?_uuidText h.number_lt)
  ofJson? := congrArg (Option.map AnchorId.mk) (Json.identifier?_uuidText h.number_lt)

/-- The name of a task is read back from what is written of it. -/
theorem TaskId.InWords.faithful {t : TaskId} (h : t.InWords) : Serial.Faithful t where
  canonical := .identifier (uuidOfText?_uuidText h.number_lt)
  ofJson? := congrArg (Option.map TaskId.mk) (Json.identifier?_uuidText h.number_lt)

/-! ## Breakpoints and executions -/

/-- A text that may be missing is written as itself or as `null`. -/
theorem Json.Schema.Canonical.ofOption_string (s : Option String) :
    (Schema.optional .string).Canonical (.ofOption .string s) := by
  cases s with
  | none => exact .null _
  | some s => exact .optional (.string s)

/-- A text that may be missing is read back, and the empty text is not a missing one. -/
theorem Json.optional?_ofOption_string (s : Option String) :
    (Json.ofOption .string s).optional? Json.string? = some s := by
  cases s <;> rfl

/-- The kinds of breakpoints have names of their own. -/
theorem BreakpointKind.distinct : Named.Distinct BreakpointKind where
  mem_all k := by cases k <;> decide
  nodup_names := by decide

/-- The states of an execution have names of their own. -/
theorem ExecutionState.distinct : Named.Distinct ExecutionState where
  mem_all s := by cases s <;> decide
  nodup_names := by decide

structure Breakpoint.InWords (b : Breakpoint) : Prop where
  anchor : b.anchor.InWords
  position : b.position.InWords

/-- A breakpoint is read back, with an expression or without. -/
theorem Breakpoint.InWords.faithful {b : Breakpoint} (h : b.InWords) : Serial.Faithful b where
  canonical := .record (by decide) (.field h.anchor.faithful.canonical
    (.field h.position.faithful.canonical
      (.field (BreakpointKind.distinct.faithful b.kind).canonical
        (.field (.ofOption_string b.expression) .none))))
  ofJson? := by
    show (do return (⟨← Serial.ofJson? (Serial.toJson b.anchor),
      ← Serial.ofJson? (Serial.toJson b.position), ← Serial.ofJson? (Serial.toJson b.kind),
      ← (Json.ofOption .string b.expression).optional? Json.string?⟩ : Breakpoint)) = some b
    rw [h.anchor.faithful.ofJson?, h.position.faithful.ofJson?,
      (BreakpointKind.distinct.faithful b.kind).ofJson?, Json.optional?_ofOption_string]
    rfl

/-- Line and column have at most 64 bits, in the token too. -/
structure ExecutionPosition.InWords (p : ExecutionPosition) : Prop where
  line_le : p.line ≤ maxWord64
  col_le : p.col ≤ maxWord64
  token : p.token.InWords

/-- The position of a run is read back with its token. -/
theorem ExecutionPosition.InWords.faithful {p : ExecutionPosition} (h : p.InWords) :
    Serial.Faithful p where
  canonical := .record (by decide) (.field (.word h.line_le) (.field (.word h.col_le)
    (.field h.token.faithful.canonical .none)))
  ofJson? := by
    show (do return (⟨p.line, p.col, ← Serial.ofJson? (Serial.toJson p.token)⟩ :
      ExecutionPosition)) = some p
    rw [h.token.faithful.ofJson?]
    rfl

/-! ## The surface -/

/-- The layers of decorations have names of their own. -/
theorem DecorationLayer.distinct : Named.Distinct DecorationLayer where
  mem_all l := by cases l <;> decide
  nodup_names := by decide

/-- A glyph is read back: that of a breakpoint with its kind, and that of the current line without
data. -/
theorem Glyph.faithful : ∀ g : Glyph, Serial.Faithful g
  | .breakpoint kind =>
    { canonical := .tagged (.first (BreakpointKind.distinct.faithful kind).canonical)
      ofJson? := congrArg (Option.map Glyph.breakpoint)
        (BreakpointKind.distinct.faithful kind).ofJson? }
  | .currentLine => { canonical := .plain (by decide), ofJson? := rfl }

structure Marker.InWords (m : Marker) : Prop where
  range : m.range.InWords

/-- A marker is read back, whatever its message, if its range is within 64 bits. -/
theorem Marker.InWords.faithful {m : Marker} (h : m.InWords) : Serial.Faithful m where
  canonical := .record (by decide) (.field (Severity.distinct.faithful m.severity).canonical
    (.field (.string m.message) (.field h.range.faithful.canonical .none)))
  ofJson? := by
    show (do return (⟨← Serial.ofJson? (Serial.toJson m.severity), m.message,
      ← Serial.ofJson? (Serial.toJson m.range)⟩ : Marker)) = some m
    rw [(Severity.distinct.faithful m.severity).ofJson?, h.range.faithful.ofJson?]
    rfl

structure Decoration.InWords (d : Decoration) : Prop where
  range : d.range.InWords

/-- A decoration is read back, with a text over it or without. -/
theorem Decoration.InWords.faithful {d : Decoration} (h : d.InWords) : Serial.Faithful d where
  canonical := .record (by decide) (.field h.range.faithful.canonical
    (.field d.glyph.faithful.canonical (.field (.bool d.wholeLine)
      (.field (.ofOption_string d.hover) .none))))
  ofJson? := by
    show (do return (⟨← Serial.ofJson? (Serial.toJson d.range),
      ← Serial.ofJson? (Serial.toJson d.glyph), d.wholeLine,
      ← (Json.ofOption .string d.hover).optional? Json.string?⟩ : Decoration)) = some d
    rw [h.range.faithful.ofJson?, d.glyph.faithful.ofJson?, Json.optional?_ofOption_string]
    rfl

/-! ## All data -/

namespace Serial

/-- A value with the property `p` is read back from its text, in either layout, and from its JSON
form; and no two of them are written alike. -/
structure Lossless (α : Type) [Serial α] (p : α → Prop) : Prop where
  parse_print : ∀ {a : α}, p a → parse α (print a) = .ok a
  parse_pretty : ∀ {a : α}, p a → parse α (toJson a).pretty = .ok a
  accept?_toJson : ∀ {a : α}, p a → accept? α (toJson a) = some a
  print_ne : ∀ {a b : α}, p a → p b → a ≠ b → print a ≠ print b
  pretty_ne : ∀ {a b : α}, p a → p b → a ≠ b → (toJson a).pretty ≠ (toJson b).pretty

/-- What is faithful to its JSON form is read back, so two values that are written alike are one. -/
theorem Lossless.of_faithful {α : Type} [Serial α] {p : α → Prop}
    (hschema : (schema α).namesOnce = true) (h : ∀ a : α, p a → Faithful a) : Lossless α p where
  parse_print ha := (h _ ha).parse_print hschema
  parse_pretty ha := (h _ ha).parse_pretty hschema
  accept?_toJson ha := (h _ ha).accept?_toJson
  print_ne {a b} ha hb hne heq := by
    have hread := (h a ha).parse_print hschema
    rw [heq, (h b hb).parse_print hschema] at hread
    exact hne (Except.ok.inj hread).symm
  pretty_ne {a b} ha hb hne heq := by
    have hread := (h a ha).parse_pretty hschema
    rw [heq, (h b hb).parse_pretty hschema] at hread
    exact hne (Except.ok.inj hread).symm

/-- Every value of every type with a JSON form survives it, whatever its texts are, if its counts
have 64 bits and its identifiers 128. -/
theorem data_survives :
    Lossless Token Token.InWords ∧ Lossless Position Position.InWords ∧
    Lossless Range Range.InWords ∧ Lossless SurfacePosition SurfacePosition.InWords ∧
    Lossless SurfaceRange SurfaceRange.InWords ∧ Lossless Diagnostic Diagnostic.InWords ∧
    Lossless Breakpoint Breakpoint.InWords ∧
    Lossless ExecutionPosition ExecutionPosition.InWords ∧ Lossless Marker Marker.InWords ∧
    Lossless Decoration Decoration.InWords ∧ Lossless BuiltinsData (fun _ => True) ∧
    Lossless AnalysisOptions (fun _ => True) ∧ Lossless ControllerOptions (fun _ => True) ∧
    Lossless SessionConfig (fun _ => True) ∧
    (Lossless AnchorId AnchorId.InWords ∧ Lossless TaskId TaskId.InWords ∧
      Lossless Glyph (fun _ => True) ∧ Lossless Token.Kind (fun _ => True) ∧
      Lossless Severity (fun _ => True) ∧ Lossless DiagnosticCode (fun _ => True) ∧
      Lossless BreakpointKind (fun _ => True) ∧ Lossless ExecutionState (fun _ => True) ∧
      Lossless DecorationLayer (fun _ => True)) := by
  refine ⟨?token, ?position, ?range, ?surfacePosition, ?surfaceRange, ?diagnostic, ?breakpoint,
    ?execution, ?marker, ?decoration, ?builtins, ?analysis, ?controller, ?config, ?anchor, ?task,
    ?glyph, ?kind, ?severity, ?code, ?breakpointKind, ?state, ?layer⟩
  case token | position | range | surfacePosition | surfaceRange | diagnostic | breakpoint
      | execution | marker | decoration | anchor | task =>
    exact .of_faithful rfl fun _ h => h.faithful
  case builtins | analysis | controller | config | glyph =>
    exact .of_faithful rfl fun a _ => a.faithful
  case kind => exact .of_faithful rfl fun k _ => Token.Kind.distinct.faithful k
  case severity => exact .of_faithful rfl fun s _ => Severity.distinct.faithful s
  case code => exact .of_faithful rfl fun c _ => DiagnosticCode.distinct.faithful c
  case breakpointKind => exact .of_faithful rfl fun k _ => BreakpointKind.distinct.faithful k
  case state => exact .of_faithful rfl fun s _ => ExecutionState.distinct.faithful s
  case layer => exact .of_faithful rfl fun l _ => DecorationLayer.distinct.faithful l

/-- A breakpoint with the largest numbers there are, and an expression that needs escapes; without
the expression it is written in another way. -/
theorem loggingBreakpoint_survives :
    let b : Breakpoint := ⟨⟨uuidCount - 1⟩, ⟨maxWord64, 0⟩, .log, some "null \"\\\n\x01\u03bb"⟩
    let silent : Breakpoint := { b with expression := none }
    b.InWords ∧ silent.InWords ∧ parse Breakpoint (print b) = .ok b ∧
      accept? Breakpoint (toJson b) = some b ∧ print b ≠ print silent := by
  intro b silent
  have hb : b.InWords := ⟨⟨by decide⟩, ⟨by decide, by decide⟩⟩
  have hsilent : silent.InWords := ⟨hb.anchor, hb.position⟩
  obtain ⟨-, -, -, -, -, -, hlossless, -⟩ := data_survives
  exact ⟨hb, hsilent, hlossless.parse_print hb, hlossless.accept?_toJson hb,
    hlossless.print_ne hb hsilent (by decide)⟩

end Serial

end StackEditor
