import StackEditor.Diagnostic
import StackEditor.Serial.Basic

/-!
# The JSON form of tokens, ranges and diagnostics
-/

namespace StackEditor

/-! ## Positions and ranges -/

instance : Serial Position where
  schema := .ofFields [("line", .word, .refused), ("col", .word, .refused)]
  toJson p := .object [("line", .natural p.line), ("col", .natural p.col)]
  ofJson?
    | .object [(_, line), (_, col)] => do return ⟨← line.natural?, ← col.natural?⟩
    | _ => none

instance : Serial Range where
  schema := .ofFields [("start", Serial.schema Position, .refused),
    ("end", Serial.schema Position, .refused)]
  toJson r := .object [("start", Serial.toJson r.start), ("end", Serial.toJson r.stop)]
  ofJson?
    | .object [(_, start), (_, stop)] => do
      return ⟨← Serial.ofJson? start, ← Serial.ofJson? stop⟩
    | _ => none

instance : Serial SurfacePosition where
  schema := .ofFields [("line_number", .word, .refused), ("column", .word, .refused)]
  toJson p := .object [("line_number", .natural p.lineNumber), ("column", .natural p.column)]
  ofJson?
    | .object [(_, line), (_, column)] => do return ⟨← line.natural?, ← column.natural?⟩
    | _ => none

instance : Serial SurfaceRange where
  schema := .ofFields [("start", Serial.schema SurfacePosition, .refused),
    ("end", Serial.schema SurfacePosition, .refused)]
  toJson r := .object [("start", Serial.toJson r.start), ("end", Serial.toJson r.stop)]
  ofJson?
    | .object [(_, start), (_, stop)] => do
      return ⟨← Serial.ofJson? start, ← Serial.ofJson? stop⟩
    | _ => none

/-! ## Tokens -/

instance : Named Token.Kind where
  all := [.number, .string, .boolean, .reference, .assignment, .symbol, .arrow, .keyword,
    .opening .paren, .closing .paren, .opening .square, .closing .square, .opening .brace,
    .closing .brace, .invalid]
  name
    | .number => "Number"
    | .string => "String"
    | .boolean => "Boolean"
    | .reference => "Reference"
    | .assignment => "Assignment"
    | .symbol => "Symbol"
    | .arrow => "Arrow"
    | .keyword => "Keyword"
    | .opening .paren => "OpenParen"
    | .closing .paren => "CloseParen"
    | .opening .square => "OpenBracket"
    | .closing .square => "CloseBracket"
    | .opening .brace => "OpenBrace"
    | .closing .brace => "CloseBrace"
    | .invalid => "Invalid"

instance : Serial Token.Kind := .ofNamed Token.Kind

instance : Serial Token where
  schema := .ofFields [("kind", Serial.schema Token.Kind, .refused), ("text", .string, .refused),
    ("line", .word, .refused), ("col", .word, .refused), ("end_col", .word, .refused)]
  toJson t := .object [("kind", Serial.toJson t.kind), ("text", .string t.text),
    ("line", .natural t.line), ("col", .natural t.col), ("end_col", .natural t.endCol)]
  ofJson?
    | .object [(_, kind), (_, text), (_, line), (_, col), (_, endCol)] => do
      return ⟨← Serial.ofJson? kind, ← text.string?, ← line.natural?, ← col.natural?,
        ← endCol.natural?⟩
    | _ => none

/-! ## Diagnostics -/

instance : Named Severity where
  all := [.warning, .error]
  name
    | .warning => "Warning"
    | .error => "Error"

instance : Serial Severity := .ofNamed Severity

instance : Named DiagnosticCode where
  all := [.unmatchedClosing, .unmatchedOpening, .invalidParameter, .misplacedType, .invalidSymbol,
    .unknownType, .shadowedBuiltin, .invalidReturn, .unresolvedReference]
  name
    | .unmatchedClosing => "UnmatchedClosing"
    | .unmatchedOpening => "UnmatchedOpening"
    | .invalidParameter => "InvalidParameter"
    | .misplacedType => "MisplacedType"
    | .invalidSymbol => "InvalidSymbol"
    | .unknownType => "UnknownType"
    | .shadowedBuiltin => "ShadowedBuiltin"
    | .invalidReturn => "InvalidReturn"
    | .unresolvedReference => "UnresolvedReference"

instance : Serial DiagnosticCode := .ofNamed DiagnosticCode

instance : Serial Diagnostic where
  schema := .ofFields [("severity", Serial.schema Severity, .refused),
    ("code", Serial.schema DiagnosticCode, .refused), ("message", .string, .refused),
    ("range", Serial.schema Range, .refused)]
  toJson d := .object [("severity", Serial.toJson d.severity), ("code", Serial.toJson d.code),
    ("message", .string d.message), ("range", Serial.toJson d.range)]
  ofJson?
    | .object [(_, severity), (_, code), (_, message), (_, range)] => do
      return ⟨← Serial.ofJson? severity, ← Serial.ofJson? code, ← message.string?,
        ← Serial.ofJson? range⟩
    | _ => none

end StackEditor
