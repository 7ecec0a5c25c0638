import StackEditor.Config
import StackEditor.Proofs.Json.Canonical

/-!
# Saving a configuration and loading it again

Every configuration can be saved, also one that is not valid. Loading the text gives back the
configuration that was saved, and then judges it (`SessionConfig.ofText_toText`). So nothing is
lost on the way, and the only errors are those of validation: none is about the text.

The JSON form is put together like the configuration itself, and so is the proof that each part is
faithful to it.
-/

namespace StackEditor

/-! ## Options and built-in names -/

/-- The options of an analysis are read back from what is written of them. -/
theorem AnalysisOptions.faithful (o : AnalysisOptions) : Serial.Faithful o where
  canonical := .record (by decide) (.field (.bool _) (.field (.bool _) .none))
  ofJson? := rfl

/-- The options of a controller are read back: the delay of a step has 64 bits by its type. -/
theorem ControllerOptions.faithful (o : ControllerOptions) : Serial.Faithful o where
  canonical := .record (by decide)
    (.field (.natural (toNat_le_maxWord64 _) (Nat.le_refl _)) (.field (.bool _) .none))
  ofJson? := by
    simp [Serial.ofJson?, Serial.toJson, Json.natural, Json.natural?, Json.bool?]

/-- A list of names is written in the form of a list of strings. -/
theorem Json.Schema.Canonical.ofNames (names : List String) :
    (Json.Schema.list .string).Canonical (.ofNames names) :=
  .list fun _ hv => by
    obtain ⟨name, -, rfl⟩ := List.mem_map.mp hv
    exact .string name

/-- Strings are read back from their list, one by one. -/
theorem Json.mapM_string? : ∀ (names : List String),
    (names.map Json.string).mapM Json.string? = some names
  | [] => rfl
  | name :: names => by
    rw [List.map_cons, List.mapM_cons, Json.mapM_string? names]
    rfl

/-- A list of names is read back in its order, with repetitions. -/
theorem Json.names?_ofNames (names : List String) : (Json.ofNames names).names? = some names :=
  Json.mapM_string? names

/-- Data of built-in names are read back from what is written of them. -/
theorem BuiltinsData.faithful (d : BuiltinsData) : Serial.Faithful d where
  canonical := .record (by decide)
    (.field (.ofNames _) (.field (.ofNames _) (.field (.ofNames _) .none)))
  ofJson? := by
    simp [Serial.ofJson?, Serial.toJson, Json.names?_ofNames]

/-! ## The configuration -/

namespace SessionConfig

/-- A configuration is read back from what is written of it, whether it has built-in names of its
own or not. -/
theorem faithful (c : SessionConfig) : Serial.Faithful c where
  canonical := by
    refine .record (by decide) (.field (.natural (toNat_le_maxWord32 _) (by decide))
      (.field c.analysis.faithful.canonical (.field c.execution.faithful.canonical
        (.field ?builtins .none))))
    cases c.builtins with
    | none => exact .null _
    | some d => exact .optional d.faithful.canonical
  ofJson? := by
    have hbuiltins : (Json.ofOption Serial.toJson c.builtins).optional? Serial.ofJson? =
        some c.builtins := by
      cases c.builtins with
      | none => rfl
      | some d => exact congrArg (Option.map some) d.faithful.ofJson?
    have hfields : Serial.ofJson? (Serial.toJson c) = do
        return (⟨.ofNat (← (Json.natural c.version.toNat).natural?),
          ← Serial.ofJson? (Serial.toJson c.analysis), ← Serial.ofJson? (Serial.toJson c.execution),
          ← (Json.ofOption Serial.toJson c.builtins).optional? Serial.ofJson?⟩ : SessionConfig) :=
      rfl
    rw [hfields, c.analysis.faithful.ofJson?, c.execution.faithful.ofJson?, hbuiltins]
    simp [Json.natural, Json.natural?]

/-- A configuration that was saved is loaded as it was if it is valid, and refused with the error of
validation otherwise. -/
theorem ofText_toText (c : SessionConfig) :
    ofText c.toText = c.validate ∧ (c.validate = .ok c ∨ ∃ e, c.validate = .error e) := by
  constructor
  · have hparse : Serial.parse SessionConfig c.toText = .ok c := c.faithful.parse_pretty rfl
    rw [ofText, hparse]
  · unfold validate
    split
    · exact .inr ⟨_, rfl⟩
    · split
      · exact .inr ⟨_, rfl⟩
      · exact .inl rfl

end SessionConfig

end StackEditor
