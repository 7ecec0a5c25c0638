import StackEditor.Identifier
import StackEditor.Position

/-!
# Hosts of anchors

An anchor is a range that the host moves along when the text changes. Whoever holds its name can
ask where it is; an anchor whose text was deleted is nowhere.
-/

namespace StackEditor

/-- A host that keeps anchors. -/
class AnchorHost (α : Type) where
  /-- A new anchor over the range, unless the host refuses it. -/
  create : α → Range → Option (AnchorId × α)
  /-- Where the anchor is. -/
  resolve : α → AnchorId → Option Range
  /-- Forgets the anchor; a name that is not known is passed over. -/
  remove : α → AnchorId → α

end StackEditor
