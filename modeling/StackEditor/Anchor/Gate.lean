import StackEditor.Anchor.Store

/-!
# Anchors behind a gate

A store of anchors that can be told to refuse new ones. What it holds already is not affected.
-/

namespace StackEditor

/-- A store of anchors that refuses new ones while `refusing` is set. -/
structure GatedAnchors where
  store : TextAnchors
  refusing : Bool
  deriving DecidableEq

namespace GatedAnchors

/-- An open gate before the anchors of a text, or of no text yet. -/
def ofText? (text : Option String) : GatedAnchors :=
  ⟨match text with
    | some t => .ofText t
    | none => .empty, false⟩

instance : AnchorHost GatedAnchors where
  create g r :=
    if g.refusing then none
    else (g.store.create r).map fun (a, s) => (a, { g with store := s })
  resolve g a := g.store.resolve a
  remove g a := { g with store := g.store.remove a }

/-- The text replaced as a whole. -/
def replaceText (g : GatedAnchors) (text : String) : GatedAnchors :=
  { g with store := g.store.replaceText text }

/-- The text replaced within a range, and whether the text has that range. -/
def replaceRange (g : GatedAnchors) (r : Range) (replacement : String) : Bool × GatedAnchors :=
  match g.store.replaceRange? r replacement with
  | some s => (true, { g with store := s })
  | none => (false, g)

end GatedAnchors

end StackEditor
