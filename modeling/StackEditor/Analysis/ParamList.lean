import StackEditor.Token

/-!
# Parameter lists

A parameter list is a group of round brackets that lies in no other such group. A brace ends a
list that is still open, since bodies never lie inside parameter lists; so does the end of the
source. `paramLists` finds them all in one walk.

Before its first arrow a list has parameters, behind it return types.
-/

namespace StackEditor

/-- A parameter list, by token indices: the opening bracket, the closing one if there is one, and
the end of the tokens inside. -/
structure ParamList where
  opening : Nat
  closing : Option Nat
  stop : Nat
  deriving DecidableEq

/-- The parameter lists of the tokens from index `i` on. `inside` is `none` outside of all lists,
and inside of one it holds the index of its bracket and the number of further open brackets. -/
def paramListsFrom (i : Nat) (inside : Option (Nat × Nat)) : List Token → List ParamList
  | [] =>
    match inside with
    | none => []
    | some (o, _) => [⟨o, none, i⟩]
  | t :: ts =>
    match inside, t.kind with
    | none, .opening .paren => paramListsFrom (i + 1) (some (i, 0)) ts
    | some (o, d), .opening .paren => paramListsFrom (i + 1) (some (o, d + 1)) ts
    | some (o, 0), .closing .paren => ⟨o, some i, i⟩ :: paramListsFrom (i + 1) none ts
    | some (o, d + 1), .closing .paren => paramListsFrom (i + 1) (some (o, d)) ts
    | some (o, _), .opening .brace => ⟨o, none, i⟩ :: paramListsFrom (i + 1) none ts
    | some (o, _), .closing .brace => ⟨o, none, i⟩ :: paramListsFrom (i + 1) none ts
    | _, _ => paramListsFrom (i + 1) inside ts

/-- The parameter lists of a token sequence, in order. -/
def paramLists (tokens : List Token) : List ParamList :=
  paramListsFrom 0 none tokens

namespace ParamList

/-- The token with this index belongs to the list, its brackets included. -/
def holdsIndex (l : ParamList) (i : Nat) : Bool :=
  l.opening ≤ i && i ≤ l.closing.getD (l.stop - 1)

/-- The tokens inside of the brackets. -/
def inner (l : ParamList) (tokens : List Token) : List Token :=
  (tokens.drop (l.opening + 1)).take (l.stop - (l.opening + 1))

/-- The tokens before the first arrow. -/
def parameters (l : ParamList) (tokens : List Token) : List Token :=
  (l.inner tokens).takeWhile (·.kind ≠ .arrow)

/-- The tokens behind the first arrow. -/
def returns (l : ParamList) (tokens : List Token) : List Token :=
  ((l.inner tokens).dropWhile (·.kind ≠ .arrow)).tail

/-- The index of the first arrow, if the list has one. -/
def arrow? (l : ParamList) (tokens : List Token) : Option Nat :=
  if (l.parameters tokens).length < (l.inner tokens).length then
    some (l.opening + 1 + (l.parameters tokens).length)
  else none

/-- The names among the parameters. -/
def parameterNames (l : ParamList) (tokens : List Token) : List String :=
  ((l.parameters tokens).filter (·.kind = .reference)).map (·.text)

end ParamList

end StackEditor
