import StackEditor.Bound

/-!
# Positions and ranges

A source text is addressed by line and column, both counted from zero; a column counts
characters. The editing surface counts both from one, so `SurfacePosition` is a type of its own
and the two conversions are the only way across.

`Position.after` walks over a text and says where it ends. Lexing, anchors and printing all
count lines with this one function.
-/

namespace StackEditor

/-! ## Positions -/

/-- A place in the source: line and column, from zero. -/
structure Position where
  line : Nat
  col : Nat
  deriving DecidableEq

namespace Position

/-- Earlier in the text: on an earlier line, or further left on the same one. -/
instance : LT Position where
  lt p q := p.line < q.line ∨ p.line = q.line ∧ p.col < q.col

instance : LE Position where
  le p q := p.line < q.line ∨ p.line = q.line ∧ p.col ≤ q.col

/-- Earlier lines first, and earlier columns first on one line. -/
theorem lt_def {p q : Position} :
    p < q ↔ p.line < q.line ∨ p.line = q.line ∧ p.col < q.col := Iff.rfl

/-- The order with equality, by lines and columns. -/
theorem le_def {p q : Position} :
    p ≤ q ↔ p.line < q.line ∨ p.line = q.line ∧ p.col ≤ q.col := Iff.rfl

instance (p q : Position) : Decidable (p < q) :=
  decidable_of_iff _ lt_def.symm

instance (p q : Position) : Decidable (p ≤ q) :=
  decidable_of_iff _ le_def.symm

/-- Lines decide first, then columns. -/
def compare (p q : Position) : Ordering :=
  (Ord.compare p.line q.line).then (Ord.compare p.col q.col)

/-- The start of the text. -/
def zero : Position := ⟨0, 0⟩

/-- The last place that fits two 64-bit counters. It stands for the end of a body that is never
closed. -/
def last : Position := ⟨maxWord64, maxWord64⟩

/-- The place behind the character `c` at `p`. Only a newline starts a new line. -/
def advance (p : Position) (c : Char) : Position :=
  if c = '\n' then ⟨p.line + 1, 0⟩ else ⟨p.line, p.col + 1⟩

/-- The place behind the text `cs` that starts at `p`. -/
def after (p : Position) (cs : List Char) : Position :=
  cs.foldl advance p

@[simp] theorem after_nil (p : Position) : p.after [] = p := rfl

@[simp] theorem after_cons (p : Position) (c : Char) (cs : List Char) :
    p.after (c :: cs) = (p.advance c).after cs := rfl

/-- The place behind two texts is reached through the place behind the first. -/
theorem after_append (p : Position) (cs ds : List Char) :
    p.after (cs ++ ds) = (p.after cs).after ds := by
  simp [after]

/-- A text without newline moves along its line. -/
theorem after_of_not_mem {p : Position} {cs : List Char} (h : '\n' ∉ cs) :
    p.after cs = ⟨p.line, p.col + cs.length⟩ := by
  induction cs generalizing p with
  | nil => rfl
  | cons c cs ih =>
    simp only [List.mem_cons, not_or] at h
    have hc : c ≠ '\n' := fun e => h.1 e.symm
    simp [advance, hc, ih h.2]
    omega

end Position

/-! ## Ranges -/

/-- The places from `start` up to, and not including, `stop`. -/
structure Range where
  start : Position
  stop : Position
  deriving DecidableEq

namespace Range

/-- The range without width at `p`. -/
def point (p : Position) : Range := ⟨p, p⟩

def isEmpty (r : Range) : Bool := r.start = r.stop

/-- The range holds `p`; its end does not belong to it. -/
def contains (r : Range) (p : Position) : Bool := r.start ≤ p && p < r.stop

end Range

/-! ## The surface -/

/-- A place on the editing surface: line and column, from one. -/
structure SurfacePosition where
  lineNumber : Nat
  column : Nat
  deriving DecidableEq

/-- A range on the editing surface. -/
structure SurfaceRange where
  start : SurfacePosition
  stop : SurfacePosition
  deriving DecidableEq

def Position.toSurface (p : Position) : SurfacePosition := ⟨p.line + 1, p.col + 1⟩

def Range.toSurface (r : Range) : SurfaceRange := ⟨r.start.toSurface, r.stop.toSurface⟩

/-- The source place of a surface place; line or column zero is no place of the source. -/
def SurfacePosition.toSource? (p : SurfacePosition) : Option Position :=
  match p.lineNumber, p.column with
  | l + 1, c + 1 => some ⟨l, c⟩
  | _, _ => none

def SurfaceRange.toSource? (r : SurfaceRange) : Option Range := do
  let start ← r.start.toSource?
  let stop ← r.stop.toSource?
  return ⟨start, stop⟩

@[simp] theorem Position.toSource?_toSurface (p : Position) :
    p.toSurface.toSource? = some p := rfl

@[simp] theorem Range.toSource?_toSurface (r : Range) :
    r.toSurface.toSource? = some r := rfl

end StackEditor
