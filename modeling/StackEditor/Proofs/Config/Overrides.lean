import StackEditor.Proofs.Config.Forms
import StackEditor.Proofs.Config.Loading
import StackEditor.Proofs.Config.UnknownKeys

/-!
# What an override changes

An override is merged into the JSON form of a configuration and read back, with a standard value
for every field that is missing. Still it changes exactly what it mentions
(`SessionConfig.override_layers`): each setting has the value that the override gives, or else the
old one. For nothing is missing in what a configuration is merged from, and a setting that is given
is read from the override alone.

The settings come in groups, and an object overrides a group member by member (`Overridden`), while
any other value replaces it (`SettlesGroup`). Where no built-in names are configured, an object
overrides the empty lists.
-/

namespace StackEditor

open Json (Schema Fields Missing onTop)
open SessionConfig (merge mergeMember mergeMembers)

/-! ## Settings under an override -/

/-- A setting has the value that is `given`, or else keeps its old one. -/
def Settles (write : α → Json) (given : Option Json) (old new : α) : Prop :=
  match given with
  | some j => j = write new
  | none => new = old

/-- A group of settings is overridden `within` by an object, and replaced by any other value. -/
def SettlesGroup [Serial α] (within : List (String × Json) → α → α → Prop) (given : Option Json)
    (old new : α) : Prop :=
  match given with
  | some (.object patch) => within patch old new
  | some j => Serial.accept? α j = some new
  | none => new = old

/-- A plain setting is settled: what is accepted is the value given. -/
theorem Json.Schema.Plain.settles {s : Schema} (hs : s.Plain) {write : α → Json}
    (hwrite : Function.Injective write) {missing : Missing} {given : Option Json} {old new : α}
    (h : s.acceptField missing (onTop (some (write old)) given) = some (write new)) :
    Settles write given old new := by
  cases given with
  | none => exact hwrite (hs h).1
  | some j =>
    obtain ⟨hnew, -, hobject⟩ := hs h
    have hj : ∀ patch, j ≠ .object patch := by
      rintro patch rfl
      obtain ⟨ms, hms⟩ := Json.exists_mergeMember_eq_object patch (some (write old))
      exact hobject ms hms
    exact (hnew.trans (Json.mergeMember_of_not_object hj _)).symm

section
variable [Serial α] (hα : Serial.Exact α) {within : List (String × Json) → α → α → Prop}
  {old new : α}
include hα

/-- A group under an override of it: an object goes into the group, and anything else replaces
it. -/
theorem Serial.Exact.settlesGroup_some {j : Json}
    (hwithin : ∀ patch, j = .object patch →
      (Serial.schema α).accept (merge (Serial.toJson old) (.object patch)) =
        some (Serial.toJson new) → within patch old new)
    (h : (Serial.schema α).accept (merge (Serial.toJson old) j) = some (Serial.toJson new)) :
    SettlesGroup within (some j) old new := by
  cases j with
  | object patch => exact hwithin patch rfl h
  | _ =>
    rw [Json.merge_of_not_object (by simp)] at h
    exact hα.accept?_eq_some.mpr h

/-- A group is left as it is, or settled by the override of it. -/
theorem Serial.Exact.settlesGroup {missing : Missing} {given : Option Json}
    (hwithin : ∀ patch, given = some (.object patch) →
      (Serial.schema α).accept (merge (Serial.toJson old) (.object patch)) =
        some (Serial.toJson new) → within patch old new)
    (h : (Serial.schema α).acceptField missing (onTop (some (Serial.toJson old)) given) =
      some (Serial.toJson new)) : SettlesGroup within given old new := by
  cases given with
  | none =>
    have hold := (hα.faithful old).canonical.accept
    exact Serial.toJson_injective hα.faithful (Option.some.inj (h.symm.trans hold))
  | some j =>
    exact hα.settlesGroup_some (fun patch hpatch => hwithin patch (congrArg some hpatch)) h

end

/-- The settings of an analysis under the members of an override. -/
structure AnalysisOptions.Overridden (patch : List (String × Json)) (old new : AnalysisOptions) :
    Prop where
  unresolvedReferences : Settles .bool (patch.lookup "report_unresolved_references")
    old.unresolvedReferences new.unresolvedReferences
  shadowedBuiltins : Settles .bool (patch.lookup "report_shadowed_builtins")
    old.shadowedBuiltins new.shadowedBuiltins

/-- The settings of an execution under the members of an override. -/
structure ControllerOptions.Overridden (patch : List (String × Json))
    (old new : ControllerOptions) : Prop where
  stepDelay : Settles (fun delay => .natural delay.toNat) (patch.lookup "step_delay_ms")
    old.stepDelay new.stepDelay
  highlightWhileRunning : Settles .bool (patch.lookup "highlight_while_running")
    old.highlightWhileRunning new.highlightWhileRunning

/-- The lists of built-in names under the members of an override. -/
structure BuiltinsData.Overridden (patch : List (String × Json)) (old new : BuiltinsData) :
    Prop where
  functionNames : Settles .ofNames (patch.lookup "functions") old.functionNames new.functionNames
  variableNames : Settles .ofNames (patch.lookup "variables") old.variableNames new.variableNames
  typeNames : Settles .ofNames (patch.lookup "types") old.typeNames new.typeNames

/-- Different truth values are written differently. -/
theorem Json.bool_injective : Function.Injective Json.bool := fun _ _ => Json.bool.inj

/-- Different numbers of 32 bits are written differently. -/
theorem Json.natural32_injective : Function.Injective fun n : UInt32 => Json.natural n.toNat :=
  fun m n h => UInt32.toNat_inj.mp (by simpa [Json.natural] using h)

/-- Different numbers of 64 bits are written differently. -/
theorem Json.natural64_injective : Function.Injective fun n : UInt64 => Json.natural n.toNat :=
  fun m n h => UInt64.toNat_inj.mp (by simpa [Json.natural] using h)

/-- Different lists of names are written differently. -/
theorem Json.ofNames_injective : Function.Injective Json.ofNames := fun names names' h =>
  Option.some.inj ((Json.names?_ofNames names).symm.trans
    ((congrArg Json.names? h).trans (Json.names?_ofNames names')))

/-- A record on top of a record is read from the merged members. -/
theorem Json.Schema.acceptMembers_of_accept {fs : Fields} {ms patch vs : List (String × Json)}
    (h : (Schema.record fs).accept (merge (.object ms) (.object patch)) = some (.object vs)) :
    fs.acceptMembers (mergeMembers ms patch) = some vs := by
  rw [merge, Schema.accept] at h
  simpa using h

section
variable {patch : List (String × Json)} (hkeys : (patch.map (·.1)).Nodup)
include hkeys

/-- The fields of a record are read from the old members with the override on top. -/
theorem Json.Fields.acceptMembers_onTop {name : String} {s : Schema} {missing : Missing}
    {rest : Fields} {ms vs : List (String × Json)} {v : Json}
    (h : (Fields.field name s missing rest).acceptMembers (mergeMembers ms patch) =
      some ((name, v) :: vs)) :
    s.acceptField missing (onTop (ms.lookup name) (patch.lookup name)) = some v ∧
      rest.acceptMembers (mergeMembers ms patch) = some vs := by
  obtain ⟨v', vs', hv, hvs, heq⟩ := Fields.acceptMembers_field.mp h
  obtain ⟨rfl, rfl⟩ : v' = v ∧ vs' = vs := by simpa using heq
  exact ⟨Json.lookup_mergeMembers_eq_onTop name hkeys ms ▸ hv, hvs⟩

/-- Options of an analysis that are accepted on top of old ones are those that the override says. -/
theorem AnalysisOptions.overridden {old new : AnalysisOptions}
    (h : (Serial.schema AnalysisOptions).accept (merge (Serial.toJson old) (.object patch)) =
      some (Serial.toJson new)) : old.Overridden patch new := by
  have h₁ := Schema.acceptMembers_of_accept h
  obtain ⟨hunresolved, h₂⟩ := Fields.acceptMembers_onTop hkeys h₁
  obtain ⟨hshadowed, -⟩ := Fields.acceptMembers_onTop hkeys h₂
  exact ⟨Schema.plain_bool.settles Json.bool_injective hunresolved,
    Schema.plain_bool.settles Json.bool_injective hshadowed⟩

/-- Options of a controller that are accepted on top of old ones are those that the override
says. -/
theorem ControllerOptions.overridden {old new : ControllerOptions}
    (h : (Serial.schema ControllerOptions).accept (merge (Serial.toJson old) (.object patch)) =
      some (Serial.toJson new)) : old.Overridden patch new := by
  have h₁ := Schema.acceptMembers_of_accept h
  obtain ⟨hdelay, h₂⟩ := Fields.acceptMembers_onTop hkeys h₁
  obtain ⟨hhighlight, -⟩ := Fields.acceptMembers_onTop hkeys h₂
  exact ⟨(Schema.plain_natural (Nat.le_refl _)).settles Json.natural64_injective hdelay,
    Schema.plain_bool.settles Json.bool_injective hhighlight⟩

/-- Built-in names that are accepted on top of old ones are those that the override says. -/
theorem BuiltinsData.overridden {old new : BuiltinsData}
    (h : (Serial.schema BuiltinsData).accept (merge (Serial.toJson old) (.object patch)) =
      some (Serial.toJson new)) : old.Overridden patch new := by
  have h₁ := Schema.acceptMembers_of_accept h
  obtain ⟨hfunctions, h₂⟩ := Fields.acceptMembers_onTop hkeys h₁
  obtain ⟨hvariables, h₃⟩ := Fields.acceptMembers_onTop hkeys h₂
  obtain ⟨htypes, -⟩ := Fields.acceptMembers_onTop hkeys h₃
  have settles := @Schema.Plain.settles _ _ Schema.plain_string.list _ Json.ofNames_injective
  exact ⟨settles hfunctions, settles hvariables, settles htypes⟩

end

/-! ## The configuration -/

/-- The built-in names of a configuration, which need not have any. -/
def SettlesBuiltins (given : Option Json) (old new : Option BuiltinsData) : Prop :=
  match given with
  | some .null => new = none
  | some j => ∃ names, new = some names ∧
      SettlesGroup BuiltinsData.Overridden (some j) (old.getD .empty) names
  | none => new = old

/-- The settings of a session under the members of an override. -/
structure SessionConfig.Overridden (patch : List (String × Json)) (old new : SessionConfig) :
    Prop where
  version : Settles (fun version => .natural version.toNat) (patch.lookup "version")
    old.version new.version
  analysis : SettlesGroup AnalysisOptions.Overridden (patch.lookup "analysis")
    old.analysis new.analysis
  execution : SettlesGroup ControllerOptions.Overridden (patch.lookup "execution")
    old.execution new.execution
  builtins : SettlesBuiltins (patch.lookup "builtins") old.builtins new.builtins

/-- Different built-in names are written differently, and none at all differently from all. -/
theorem BuiltinsData.ofOption_injective :
    Function.Injective (Json.ofOption (Serial.toJson : BuiltinsData → Json))
  | none, none, _ => rfl
  | none, some d, h | some d, none, h => by simp [Json.ofOption, Serial.toJson] at h
  | some d, some d', h => congrArg some (Serial.toJson_injective BuiltinsData.faithful h)

/-- Built-in names have their form, and so has their absence. -/
theorem BuiltinsData.canonical_ofOption : ∀ names : Option BuiltinsData,
    (Schema.optional (Serial.schema BuiltinsData)).Canonical (.ofOption Serial.toJson names)
  | none => .null _
  | some d => .optional d.faithful.canonical

/-- An override on top of empty lists of names is read as if it stood alone. -/
theorem BuiltinsData.empty_standby :
    (Serial.schema BuiltinsData).Standby (Serial.toJson BuiltinsData.empty) := by
  refine Fields.FilledBy.standby (.field rfl ?_ (.field rfl ?_ (.field rfl ?_ .none))) rfl
  all_goals exact Schema.standby_of_accept rfl (by simp)

/-- Where no names are configured, an override is read as on top of empty lists. -/
theorem BuiltinsData.accept_mergeMember_ofOption {j : Json} (hj : j.KeysOnce) :
    ∀ old : Option BuiltinsData,
      (Serial.schema BuiltinsData).accept (mergeMember (some (.ofOption Serial.toJson old)) j) =
        (Serial.schema BuiltinsData).accept (merge (Serial.toJson (old.getD .empty)) j)
  | none => by
    rw [Option.getD_none, BuiltinsData.empty_standby.merge hj]
    cases j <;> rw [mergeMember, Json.ofOption, merge] <;> simp
  | some d => rfl

/-- Built-in names under an override that is not `null`. -/
theorem SettlesBuiltins.exists_names {j : Json} {old new : Option BuiltinsData} (hnull : j ≠ .null)
    (hj : j.KeysOnce)
    (h : (Schema.optional (Serial.schema BuiltinsData)).accept
        (mergeMember (some (.ofOption Serial.toJson old)) j) =
      some (.ofOption Serial.toJson new)) :
    ∃ names, new = some names ∧
      SettlesGroup BuiltinsData.Overridden (some j) (old.getD .empty) names := by
  rw [Json.Schema.accept_optional (Json.mergeMember_ne_null hnull _),
    BuiltinsData.accept_mergeMember_ofOption hj] at h
  have hcanonical := BuiltinsData.exact.layered.canonical h
  obtain ⟨names, hnames⟩ := BuiltinsData.exact.exists_toJson hcanonical
  have hsome : Json.ofOption Serial.toJson (some names) = .ofOption Serial.toJson new := hnames
  refine ⟨names, (BuiltinsData.ofOption_injective hsome).symm, ?_⟩
  rw [← hnames] at h
  refine BuiltinsData.exact.settlesGroup_some (fun patch hpatch => ?_) h
  subst hpatch
  cases hj with
  | object hkeys _ => exact BuiltinsData.overridden hkeys

/-- Built-in names of a configuration are settled by what is accepted for them. -/
theorem SettlesBuiltins.of_acceptField {missing : Missing} {given : Option Json}
    {old new : Option BuiltinsData} (hgiven : ∀ j, given = some j → j.KeysOnce)
    (h : (Schema.optional (Serial.schema BuiltinsData)).acceptField missing
        (onTop (some (.ofOption Serial.toJson old)) given) =
      some (.ofOption Serial.toJson new)) : SettlesBuiltins given old new := by
  cases given with
  | none =>
    have hold := (BuiltinsData.canonical_ofOption old).accept
    exact BuiltinsData.ofOption_injective (Option.some.inj (h.symm.trans hold))
  | some j =>
    have hj := hgiven j rfl
    cases j with
    | null =>
      rw [onTop, Json.mergeMember_of_not_object (by simp), Schema.acceptField, Schema.accept] at h
      have hnone : .ofOption Serial.toJson (none : Option BuiltinsData) =
          Json.ofOption Serial.toJson new := Option.some.inj h
      exact (BuiltinsData.ofOption_injective hnone).symm
    | _ => exact SettlesBuiltins.exists_names (by simp) hj h

/-- A configuration that is accepted on top of an old one is what the override says. -/
theorem SessionConfig.overridden {patch : List (String × Json)} {old new : SessionConfig}
    (hpatch : Json.KeysOnce (.object patch))
    (h : (Serial.schema SessionConfig).accept (merge (Serial.toJson old) (.object patch)) =
      some (Serial.toJson new)) : old.Overridden patch new := by
  cases hpatch with
  | object hkeys hmembers =>
    have hgiven {name : String} {j : Json} (hj : patch.lookup name = some j) : j.KeysOnce :=
      hmembers _ (mem_of_lookup hj)
    have hobject {name : String} {ms : List (String × Json)}
        (hms : patch.lookup name = some (.object ms)) : (ms.map (·.1)).Nodup := by
      cases hgiven hms with
      | object hkeys _ => exact hkeys
    have h₁ := Schema.acceptMembers_of_accept h
    obtain ⟨hversion, h₂⟩ := Fields.acceptMembers_onTop hkeys h₁
    obtain ⟨hanalysis, h₃⟩ := Fields.acceptMembers_onTop hkeys h₂
    obtain ⟨hexecution, h₄⟩ := Fields.acceptMembers_onTop hkeys h₃
    obtain ⟨hbuiltins, -⟩ := Fields.acceptMembers_onTop hkeys h₄
    exact {
      version := (Schema.plain_natural (by decide)).settles Json.natural32_injective hversion
      analysis := AnalysisOptions.exact.settlesGroup
        (fun ms hms => AnalysisOptions.overridden (hobject hms)) hanalysis
      execution := ControllerOptions.exact.settlesGroup
        (fun ms hms => ControllerOptions.overridden (hobject hms)) hexecution
      builtins := SettlesBuiltins.of_acceptField (fun _ => hgiven) hbuiltins }

/-! ## Overriding a configuration -/

namespace SessionConfig

/-- A configuration that is valid is not changed by being judged. -/
theorem eq_of_validate {c c' : SessionConfig} (h : c.validate = .ok c') : c = c' := by
  unfold validate at h
  split at h
  · cases h
  · split at h <;> cases h
    rfl

/-- Only an object is taken for an override. -/
theorem exists_members_of_override {c c' : SessionConfig} {text : String}
    (h : c.override text = .ok c') : ∃ patch, Json.parse text = .ok (.object patch) := by
  unfold override at h
  split at h
  · cases h
  · next patch hparse => exact ⟨patch, hparse⟩
  · cases h

/-- An override succeeds with a valid configuration that is accepted from the merged value. -/
theorem override_eq_ok {c c' : SessionConfig} {text : String} {patch : List (String × Json)}
    (hparse : Json.parse text = .ok (.object patch)) :
    c.override text = .ok c' ↔
      (Serial.schema SessionConfig).accept (merge (Serial.toJson c) (.object patch)) =
        some (Serial.toJson c') ∧ c'.validate = .ok c' := by
  rw [override, hparse, ← SessionConfig.exact.accept?_eq_some]
  simp only
  constructor
  · intro h
    cases haccept : Serial.accept? SessionConfig (merge (Serial.toJson c) (.object patch)) with
    | none => simp [haccept] at h
    | some c'' =>
      simp only [haccept] at h
      obtain rfl := eq_of_validate h
      exact ⟨rfl, h⟩
  · rintro ⟨haccept, hvalid⟩
    simp only [haccept, hvalid]

/-- The override with unknown members and the one without them have the same effect. -/
theorem override_eq_of_known {c : SessionConfig} {text text' : String}
    {patch patch' : List (String × Json)} (hparse : Json.parse text = .ok (.object patch))
    (hparse' : Json.parse text' = .ok (.object patch'))
    (hknown : (Serial.schema SessionConfig).known (.object patch) =
      (Serial.schema SessionConfig).known (.object patch')) :
    c.override text = c.override text' := by
  have haccept {j : Json} (hj : j.KeysOnce) :
      (Serial.schema SessionConfig).accept
          (merge (Serial.toJson c) ((Serial.schema SessionConfig).known j)) =
        (Serial.schema SessionConfig).accept (merge (Serial.toJson c) j) :=
    Schema.accept_mergeMember_known (some (Serial.toJson c)) rfl hj
  have hsame := haccept (Json.keysOnce_of_parse hparse)
  rw [hknown, haccept (Json.keysOnce_of_parse hparse')] at hsame
  rw [override, override, hparse, hparse']
  simp only [Serial.accept?, hsame]

/-- Members are unknown at their own level: no analysis has a delay. -/
example : (Serial.schema SessionConfig).known (.object [("theme", .null), ("analysis",
      .object [("step_delay_ms", .null), ("report_shadowed_builtins", .bool false)])]) =
    .object [("analysis", .object [("report_shadowed_builtins", .bool false)])] := rfl

/-- An override changes what it mentions and nothing else, and a second time it changes nothing. An
empty one changes nothing at all, and unknown members at any level change nothing. -/
theorem override_layers (c : SessionConfig) :
    (∀ text patch c', Json.parse text = .ok (.object patch) → c.override text = .ok c' →
      c'.validate = .ok c' ∧ c.Overridden patch c' ∧ c'.override text = .ok c') ∧
    (∀ text, Json.parse text = .ok (.object []) → c.validate = .ok c → c.override text = .ok c) ∧
    (∀ text text' patch patch', Json.parse text = .ok (.object patch) →
      Json.parse text' = .ok (.object patch') →
      (Serial.schema SessionConfig).known (.object patch) =
        (Serial.schema SessionConfig).known (.object patch') →
      c.override text = c.override text') := by
  refine ⟨fun text patch c' hparse h => ?_, fun text hparse hvalid => ?_,
    fun text text' patch patch' hparse hparse' => override_eq_of_known hparse hparse'⟩
  · obtain ⟨haccept, hvalid⟩ := (override_eq_ok hparse).mp h
    have honce := Json.keysOnce_of_parse hparse
    have hmerged : (Serial.schema SessionConfig).accept
        (mergeMember (some (Serial.toJson c)) (.object patch)) = some (Serial.toJson c') := haccept
    exact ⟨hvalid, overridden honce haccept,
      (override_eq_ok hparse).mpr ⟨exact.layered.accept_again honce hmerged, hvalid⟩⟩
  · exact (override_eq_ok hparse).mpr ⟨c.faithful.canonical.accept, hvalid⟩

/-- A record written as an array, an unknown member, and built-in names where there were none. -/
def layeredOverrides : String :=
  "\x7b\"analysis\": [false], \"execution\": \x7b\"theme\": 1\x7d, " ++
    "\"builtins\": \x7b\"types\": [\"T\"]\x7d\x7d"

/-- The override turns the standard settings into these, and a second time it changes nothing. -/
theorem layeredOverrides_settle :
    let c := { standard with analysis := ⟨false, true⟩, builtins := some ⟨[], [], ["T"]⟩ }
    ∃ patch, Json.parse layeredOverrides = .ok (.object patch) ∧
      standard.override layeredOverrides = .ok c ∧ standard.Overridden patch c ∧
      c.override layeredOverrides = .ok c := by
  intro c
  have hresult : (standard.override layeredOverrides).toOption = some c := by decide +kernel
  have hoverride : standard.override layeredOverrides = .ok c := by
    cases hanswer : standard.override layeredOverrides with
    | error e => simp [hanswer, Except.toOption] at hresult
    | ok c' => exact congrArg _ (by simpa [hanswer, Except.toOption] using hresult)
  obtain ⟨patch, hparse⟩ := exists_members_of_override hoverride
  obtain ⟨-, hoverridden, hagain⟩ :=
    (override_layers standard).1 layeredOverrides patch c hparse hoverride
  exact ⟨patch, hparse, hoverride, hoverridden, hagain⟩

end SessionConfig

end StackEditor
