import Mathlib.Data.List.Nodup
import StackEditor.Proofs.Json.Canonical
import StackEditor.Serial.Source

/-!
# Tokens, ranges and diagnostics survive their JSON form

An enumeration is written by name, so nothing is lost if its values are all listed and have distinct
names (`Named.Distinct`). A record is written field by field, and what is written of it is faithful
if that is so of every field. Numbers are the exception: they are written in full, but one of more
than 64 bits is not read, so the numbers of a record have to be words (`InWords`).
-/

namespace StackEditor

open Json (Schema Variants)

/-! ## Enumerations -/

/-- All values of an enumeration are listed, and no two of them have one name. -/
structure Named.Distinct (α : Type) [Named α] : Prop where
  mem_all : ∀ a : α, a ∈ (Named.all : List α)
  nodup_names : ((Named.all : List α).map Named.name).Nodup

/-- The value that is found under a name is the one that has it. -/
theorem Named.Distinct.ofName?_name {α : Type} [Named α] (h : Named.Distinct α) (a : α) :
    Named.ofName? (Named.name a) = some a := by
  rw [Named.ofName?]
  cases hfind : (Named.all : List α).find? fun b => Named.name b = Named.name a with
  | none => simpa using List.find?_eq_none.mp hfind a (h.mem_all a)
  | some b =>
    have hname : Named.name b = Named.name a := by simpa using List.find?_some hfind
    rw [List.inj_on_of_nodup_map h.nodup_names (h.mem_all b) (h.mem_all a) hname]

/-- The variants of an enumeration all stand without data. -/
theorem Json.Variants.isPlain_ofNames {name : String} : ∀ {names : List String},
    name ∈ names → (Variants.ofNames names).isPlain name = true
  | n :: ns, h => by
    rw [Variants.ofNames, Variants.isPlain, Bool.or_eq_true, decide_eq_true_eq]
    exact (List.mem_cons.mp h).imp Eq.symm isPlain_ofNames

/-- A value is written as its name, and is the one that has the name. -/
theorem Named.Distinct.faithful {α : Type} [Named α] (h : Named.Distinct α) (a : α) :
    @Serial.Faithful α (.ofNamed α) a :=
  letI : Serial α := .ofNamed α
  { canonical := .plain (Json.Variants.isPlain_ofNames (List.mem_map_of_mem (h.mem_all a)))
    ofJson? := h.ofName?_name a }

/-- The kinds of tokens have names of their own, those of brackets one for each side of each
pair. -/
theorem Token.Kind.distinct : Named.Distinct Token.Kind where
  mem_all k := by
    cases k with
    | opening pair => cases pair <;> decide
    | closing pair => cases pair <;> decide
    | _ => decide
  nodup_names := by decide

/-- The severities have names of their own. -/
theorem Severity.distinct : Named.Distinct Severity where
  mem_all s := by cases s <;> decide
  nodup_names := by decide

/-- The causes of diagnostics have names of their own. -/
theorem DiagnosticCode.distinct : Named.Distinct DiagnosticCode where
  mem_all c := by cases c <;> decide
  nodup_names := by decide

/-! ## Positions and ranges -/

/-- Line and column have at most 64 bits. -/
structure Position.InWords (p : Position) : Prop where
  line_le : p.line ≤ maxWord64
  col_le : p.col ≤ maxWord64

structure Range.InWords (r : Range) : Prop where
  start : r.start.InWords
  stop : r.stop.InWords

/-- Line and column have at most 64 bits. -/
structure SurfacePosition.InWords (p : SurfacePosition) : Prop where
  lineNumber_le : p.lineNumber ≤ maxWord64
  column_le : p.column ≤ maxWord64

structure SurfaceRange.InWords (r : SurfaceRange) : Prop where
  start : r.start.InWords
  stop : r.stop.InWords

/-- A number of at most 64 bits is written as it is. -/
theorem Json.Schema.Canonical.word {n : Nat} (hn : n ≤ maxWord64) :
    Schema.word.Canonical (.natural n) :=
  .natural hn (Nat.le_refl _)

/-- A position within 64 bits is read back from what is written of it. -/
theorem Position.InWords.faithful {p : Position} (h : p.InWords) : Serial.Faithful p where
  canonical := .record (by decide)
    (.field (.word h.line_le) (.field (.word h.col_le) .none))
  ofJson? := rfl

/-- A range within 64 bits is read back from what is written of it. -/
theorem Range.InWords.faithful {r : Range} (h : r.InWords) : Serial.Faithful r where
  canonical := .record (by decide)
    (.field h.start.faithful.canonical (.field h.stop.faithful.canonical .none))
  ofJson? := by
    show (do return (⟨← Serial.ofJson? (Serial.toJson r.start),
      ← Serial.ofJson? (Serial.toJson r.stop)⟩ : Range)) = some r
    rw [h.start.faithful.ofJson?, h.stop.faithful.ofJson?]
    rfl

/-- A surface position within 64 bits is read back from what is written of it. -/
theorem SurfacePosition.InWords.faithful {p : SurfacePosition} (h : p.InWords) :
    Serial.Faithful p where
  canonical := .record (by decide)
    (.field (.word h.lineNumber_le) (.field (.word h.column_le) .none))
  ofJson? := rfl

/-- A surface range within 64 bits is read back from what is written of it. -/
theorem SurfaceRange.InWords.faithful {r : SurfaceRange} (h : r.InWords) : Serial.Faithful r where
  canonical := .record (by decide)
    (.field h.start.faithful.canonical (.field h.stop.faithful.canonical .none))
  ofJson? := by
    show (do return (⟨← Serial.ofJson? (Serial.toJson r.start),
      ← Serial.ofJson? (Serial.toJson r.stop)⟩ : SurfaceRange)) = some r
    rw [h.start.faithful.ofJson?, h.stop.faithful.ofJson?]
    rfl

/-! ## Tokens and diagnostics -/

/-- Line and columns have at most 64 bits. -/
structure Token.InWords (t : Token) : Prop where
  line_le : t.line ≤ maxWord64
  col_le : t.col ≤ maxWord64
  endCol_le : t.endCol ≤ maxWord64

/-- A token is read back, whatever its text, if its columns and its line are within 64 bits. -/
theorem Token.InWords.faithful {t : Token} (h : t.InWords) : Serial.Faithful t where
  canonical := .record (by decide) (.field (Token.Kind.distinct.faithful t.kind).canonical
    (.field (.string t.text) (.field (.word h.line_le)
      (.field (.word h.col_le) (.field (.word h.endCol_le) .none)))))
  ofJson? := by
    show (do return (⟨← Serial.ofJson? (Serial.toJson t.kind), t.text, t.line, t.col,
      t.endCol⟩ : Token)) = some t
    rw [(Token.Kind.distinct.faithful t.kind).ofJson?]
    rfl

structure Diagnostic.InWords (d : Diagnostic) : Prop where
  range : d.range.InWords

/-- A diagnostic is read back, whatever its message, if its range is within 64 bits. -/
theorem Diagnostic.InWords.faithful {d : Diagnostic} (h : d.InWords) : Serial.Faithful d where
  canonical := .record (by decide) (.field (Severity.distinct.faithful d.severity).canonical
    (.field (DiagnosticCode.distinct.faithful d.code).canonical (.field (.string d.message)
      (.field h.range.faithful.canonical .none))))
  ofJson? := by
    show (do return (⟨← Serial.ofJson? (Serial.toJson d.severity),
      ← Serial.ofJson? (Serial.toJson d.code), d.message,
      ← Serial.ofJson? (Serial.toJson d.range)⟩ : Diagnostic)) = some d
    rw [(Severity.distinct.faithful d.severity).ofJson?,
      (DiagnosticCode.distinct.faithful d.code).ofJson?, h.range.faithful.ofJson?]
    rfl

end StackEditor
