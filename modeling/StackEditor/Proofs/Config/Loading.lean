import StackEditor.Proofs.Config.Merge
import StackEditor.Proofs.Json.Reading

/-!
# Loading a configuration as a whole or as overrides

A configuration is read from a text in two ways: as a whole, where the reader fills in what is
missing, or as overrides of the standard configuration, where the merge does. The two ways agree
(`SessionConfig.ofText_agrees_override`): every standard setting stands by (`Schema.Standby`), so
accepting the merged value comes to accepting the overrides alone, and reading a text comes to
accepting its value (`Serial.toOption_parse`).
-/

namespace StackEditor

open Json (Schema Fields)

/-! ## The standard settings stand by -/

/-- An override on top of the standard options of an analysis is read as if it stood alone. -/
theorem AnalysisOptions.all_standby :
    (Serial.schema AnalysisOptions).Standby (Serial.toJson AnalysisOptions.all) := by
  refine Fields.FilledBy.standby (.field rfl ?_ (.field rfl ?_ .none)) rfl
  all_goals exact Schema.standby_of_accept rfl (by simp)

/-- An override on top of the standard options of a controller is read as if it stood alone. -/
theorem ControllerOptions.standard_standby :
    (Serial.schema ControllerOptions).Standby (Serial.toJson ControllerOptions.standard) := by
  refine Fields.FilledBy.standby (.field rfl ?_ (.field rfl ?_ .none)) rfl
  all_goals exact Schema.standby_of_accept rfl (by simp [Json.natural])

/-- An override on top of the standard configuration is read as if it stood alone. -/
theorem SessionConfig.standard_standby :
    (Serial.schema SessionConfig).Standby (Serial.toJson SessionConfig.standard) := by
  refine Fields.FilledBy.standby
    (.field rfl ?version (.field rfl ?analysis (.field rfl ?execution
      (.field rfl ?builtins .none)))) rfl
  case version => exact Schema.standby_of_accept rfl (by simp [Json.natural])
  case analysis => exact AnalysisOptions.all_standby
  case execution => exact ControllerOptions.standard_standby
  case builtins => exact Schema.standby_of_accept rfl (by simp)

/-! ## The two ways of loading -/

/-- Two refusals of the same kind: they may differ in the fault of the text, and in nothing else. -/
inductive ConfigError.Alike : ConfigError → ConfigError → Prop
  | json (f g : Fault) : Alike (.json f) (.json g)
  | same (e : ConfigError) : Alike e e

namespace SessionConfig

/-- Two answers with the same configuration, or two refusals of the same kind. -/
inductive Agree : Except ConfigError SessionConfig → Except ConfigError SessionConfig → Prop
  | loaded (c : SessionConfig) : Agree (.ok c) (.ok c)
  | refused {e e' : ConfigError} (h : e.Alike e') : Agree (.error e) (.error e')

/-- Every answer agrees with itself. -/
theorem Agree.refl : ∀ (r : Except ConfigError SessionConfig), Agree r r
  | .ok c => .loaded c
  | .error e => .refused (.same e)

/-- Loading a text as a whole and as overrides of the standard configuration agree: both give the
same configuration, or both refuse the text for the same reason. -/
theorem ofText_agrees_override {text : String} {members : List (String × Json)}
    (hparse : Json.parse text = .ok (.object members)) (hkeys : Json.keysOnce text = true) :
    Agree (ofText text) (standard.override text) := by
  have hread : (Serial.parse SessionConfig text).toOption =
      Serial.accept? SessionConfig (.object members) :=
    Serial.toOption_parse SessionConfig rfl hparse hkeys
  have hmerge : Serial.accept? SessionConfig (merge (Serial.toJson standard) (.object members)) =
      Serial.accept? SessionConfig (.object members) := by
    obtain ⟨d, -, hd⟩ := Json.exists_spells_of_parse hparse hkeys
    rw [Serial.accept?, Serial.accept?, standard_standby.merge hd.keysOnce]
  rw [ofText, override, hparse]
  simp only [hmerge, ← hread]
  cases Serial.parse SessionConfig text with
  | ok c => exact Agree.refl _
  | error f => exact .refused (.json f _)

/-- A nested object that gives none of its settings but an unknown one, a nested record written as
an array, and a null. -/
def mixedOverrides : String :=
  "\x7b\"analysis\": \x7b\"theme\": 3\x7d, \"execution\": [250], \"builtins\": null\x7d"

/-- Only an object has a member. -/
theorem exists_members_of_member? {r : Except Fault Json} {key : String}
    (h : (r.toOption.bind (Json.member? key)).isSome = true) :
    ∃ members, r = .ok (.object members) := by
  cases r with
  | error f => simp at h
  | ok v =>
    cases v with
    | object members => exact ⟨members, rfl⟩
    | _ => simp [Json.member?] at h

/-- An override with a record written as an array is loaded the same both ways. -/
theorem mixedOverrides_agree :
    (∃ members, Json.parse mixedOverrides = .ok (.object members)) ∧
      Json.keysOnce mixedOverrides = true ∧
      (ofText mixedOverrides).toOption = some { standard with execution := ⟨250, true⟩ } ∧
      Agree (ofText mixedOverrides) (standard.override mixedOverrides) := by
  have hbuiltins :
      ((Json.parse mixedOverrides).toOption.bind (Json.member? "builtins")).isSome = true := by
    decide +kernel
  have hkeys : Json.keysOnce mixedOverrides = true := by decide +kernel
  obtain ⟨members, hparse⟩ := exists_members_of_member? hbuiltins
  exact ⟨⟨members, hparse⟩, hkeys, by decide +kernel, ofText_agrees_override hparse hkeys⟩

end SessionConfig

end StackEditor
