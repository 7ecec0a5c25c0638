import StackEditor.Anchor.Host
import StackEditor.Execution.Evaluator

/-!
# Parts that answer alike

Trackers and controllers know the parts that they are given by their answers alone. A relation
between two hosts of anchors, or between two evaluators, says that they cannot be told apart if the
answers of related ones agree, and they are still related after them (`AnchorsAlike`,
`EvaluatorsAlike`).
-/

namespace StackEditor

/-- Equal answers, and related states behind them. -/
def Agree {α β γ : Type} (R : α → β → Prop) (x : γ × α) (y : γ × β) : Prop :=
  x.1 = y.1 ∧ R x.2 y.2

/-- What agrees is one answer with related states behind it. -/
theorem Agree.exists_eq {α β γ : Type} {R : α → β → Prop} {x : γ × α} {y : γ × β}
    (h : Agree R x y) : ∃ answer a b, x = (answer, a) ∧ y = (answer, b) ∧ R a b := by
  obtain ⟨answer, a⟩ := x
  obtain ⟨answer', b⟩ := y
  obtain ⟨rfl, hab⟩ : answer = answer' ∧ R a b := h
  exact ⟨answer, a, b, rfl, rfl, hab⟩

/-- Related hosts have the same answers, and are still related after them. -/
structure AnchorsAlike {α β : Type} [AnchorHost α] [AnchorHost β] (R : α → β → Prop) : Prop where
  create : ∀ {a b}, R a b → ∀ r,
    Option.Rel (Agree R) (AnchorHost.create a r) (AnchorHost.create b r)
  resolve : ∀ {a b}, R a b → ∀ i, AnchorHost.resolve a i = AnchorHost.resolve b i
  remove : ∀ {a b}, R a b → ∀ i, R (AnchorHost.remove a i) (AnchorHost.remove b i)

/-- Related hosts refuse the same anchors, and give out the same names. -/
theorem AnchorsAlike.create_cases {α β : Type} [AnchorHost α] [AnchorHost β] {R : α → β → Prop}
    {a : α} {b : β} (hR : AnchorsAlike R) (h : R a b) (r : Range) :
    AnchorHost.create a r = none ∧ AnchorHost.create b r = none ∨
      ∃ i a' b', AnchorHost.create a r = some (i, a') ∧ AnchorHost.create b r = some (i, b') ∧
        R a' b' := by
  have hcreate := hR.create h r
  generalize AnchorHost.create a r = x at hcreate ⊢
  generalize AnchorHost.create b r = y at hcreate ⊢
  cases hcreate with
  | none => exact .inl ⟨rfl, rfl⟩
  | some hsome =>
    obtain ⟨i, a', b', rfl, rfl, hhost⟩ := hsome.exists_eq
    exact .inr ⟨i, a', b', rfl, rfl, hhost⟩

/-- Related evaluators have the same answers, and are still related after them. -/
structure EvaluatorsAlike {ε ε' : Type} [Evaluator ε] [Evaluator ε'] (R : ε → ε' → Prop) :
    Prop where
  tokenize : ∀ {e e'}, R e e' → ∀ source,
    Agree R (Evaluator.tokenize e source) (Evaluator.tokenize e' source)
  reset : ∀ {e e'}, R e e' → R (Evaluator.reset e) (Evaluator.reset e')
  setBreakpoints : ∀ {e e'}, R e e' → ∀ bs,
    R (Evaluator.setBreakpoints e bs) (Evaluator.setBreakpoints e' bs)
  startRun : ∀ {e e'}, R e e' → ∀ tokens token,
    R (Evaluator.startRun e tokens token) (Evaluator.startRun e' tokens token)
  trip : ∀ {e e'}, R e e' → ∀ token, R (Evaluator.trip e token) (Evaluator.trip e' token)
  step : ∀ {e e'}, R e e' → Agree R (Evaluator.step e) (Evaluator.step e')

end StackEditor
