/-!
# Edits

An edit replaces a stretch of text: at `start` it takes `deleted` characters away and puts
`inserted` ones in their place. `Edit.move` says where an offset goes, and `Edit.between` finds
the smallest edit that turns one text into another.
-/

namespace StackEditor

/-- A replacement of one stretch of text, by offsets. -/
structure Edit where
  start : Nat
  deleted : Nat
  inserted : Nat
  deriving DecidableEq

/-- The number of characters that both texts start with. -/
def commonStart : List Char → List Char → Nat
  | a :: as, b :: bs => if a = b then commonStart as bs + 1 else 0
  | _, _ => 0

/-- The number of characters that both texts end with. -/
def commonEnd (as bs : List Char) : Nat := commonStart as.reverse bs.reverse

namespace Edit

/-- The edit that turns `old` into `new` and keeps the longest common start, and of the rest the
longest common end. -/
def between (old new : List Char) : Edit :=
  let start := commonStart old new
  let kept := commonEnd (old.drop start) (new.drop start)
  ⟨start, old.length - start - kept, new.length - start - kept⟩

/-- Nothing is taken away and nothing put in. -/
def isTrivial (e : Edit) : Bool := e.deleted = 0 && e.inserted = 0

/-- Where the edit moves an offset. What lies before it stays, and what lies behind it, or at its
place when nothing is deleted, is pushed along. The first deleted offset stays when something
takes its place; every other deleted offset is gone. -/
def move (e : Edit) (offset : Nat) : Option Nat :=
  if offset < e.start then some offset
  else if e.start + e.deleted ≤ offset then some (offset - e.deleted + e.inserted)
  else if offset = e.start ∧ 0 < e.inserted then some offset
  else none

end Edit

end StackEditor
