import StackEditor.Proofs.Config.Layers
import StackEditor.Proofs.Config.Saving

/-!
# The JSON forms of settings

Options, built-in names and the configuration have layered forms, and the values in these forms are
exactly those that are written (`Serial.Exact`). So what such a form accepts is what is written of
the value that is taken from it (`Serial.Exact.accept?_eq_some`).
-/

namespace StackEditor

open Json (Schema Fields Missing)

/-! ## Types whose canonical values are those that are written -/

section
variable {α : Type} [Serial α]

/-- Values that are read back are written differently if they are different. -/
theorem Serial.toJson_injective (h : ∀ a : α, Serial.Faithful a) :
    Function.Injective (Serial.toJson : α → Json) := fun a b hab =>
  Option.some.inj ((h a).ofJson?.symm.trans ((congrArg Serial.ofJson? hab).trans (h b).ofJson?))

/-- The form of the type is layered, and the values in it are those that are written. -/
structure Serial.Exact (α : Type) [Serial α] : Prop where
  layered : (Serial.schema α).Layered
  faithful : ∀ a : α, Serial.Faithful a
  exists_toJson : ∀ {v : Json}, (Serial.schema α).Canonical v → ∃ a : α, Serial.toJson a = v

/-- What is accepted is what is written of the value. -/
theorem Serial.Exact.accept?_eq_some (h : Serial.Exact α) {j : Json} {a : α} :
    Serial.accept? α j = some a ↔ (Serial.schema α).accept j = some (Serial.toJson a) := by
  constructor
  · intro haccept
    obtain ⟨v, hv, ha⟩ := Option.bind_eq_some_iff.mp haccept
    obtain ⟨b, rfl⟩ := h.exists_toJson (h.layered.canonical hv)
    obtain rfl : b = a := Option.some.inj ((h.faithful b).ofJson?.symm.trans ha)
    exact hv
  · intro hv
    exact Option.bind_eq_some_iff.mpr ⟨_, hv, (h.faithful a).ofJson?⟩

/-- Nothing is written as `null`. -/
theorem Serial.Exact.exists_ofOption (h : Serial.Exact α) {v : Json}
    (hv : (Schema.optional (Serial.schema α)).Canonical v) :
    ∃ a : Option α, .ofOption Serial.toJson a = v := by
  cases hv with
  | null => exact ⟨none, rfl⟩
  | optional hv =>
    obtain ⟨a, rfl⟩ := h.exists_toJson hv
    exact ⟨some a, rfl⟩

end

/-! ## Canonical values by their form -/

/-- A canonical record is an object with canonical fields. -/
theorem Json.Schema.canonical_record {fs : Fields} {v : Json} (h : (Schema.record fs).Canonical v) :
    ∃ xs, .object xs = v ∧ fs.Canonical xs := by
  cases h with
  | record _ hxs => exact ⟨_, rfl, hxs⟩

/-- The first member of a canonical record is that of its first field. -/
theorem Json.Fields.canonical_field {name : String} {s : Schema} {missing : Missing} {rest : Fields}
    {xs : List (String × Json)} (h : (Fields.field name s missing rest).Canonical xs) :
    ∃ v vs, (name, v) :: vs = xs ∧ s.Canonical v ∧ rest.Canonical vs := by
  cases h with
  | field hv hvs => exact ⟨_, _, rfl, hv, hvs⟩

/-- Behind its last field a canonical record has no members. -/
theorem Json.Fields.canonical_none {xs : List (String × Json)} (h : Fields.none.Canonical xs) :
    [] = xs := by
  cases h
  rfl

/-- The canonical values of a flag are the two truth values. -/
theorem Json.Schema.exists_bool {v : Json} (h : Schema.bool.Canonical v) : ∃ b, .bool b = v := by
  cases h with
  | bool b => exact ⟨b, rfl⟩

/-- The canonical values of a number are those up to its limit. -/
theorem Json.Schema.exists_natural {limit : Nat} {v : Json}
    (h : (Schema.natural limit).Canonical v) : ∃ n ≤ limit, .natural n = v := by
  cases h with
  | natural hn _ => exact ⟨_, hn, rfl⟩

/-- Values that are all strings are the strings of some list of names. -/
theorem Json.exists_map_string : ∀ {vs : List Json}, (∀ v ∈ vs, Schema.string.Canonical v) →
    ∃ names : List String, names.map .string = vs
  | [], _ => ⟨[], rfl⟩
  | v :: vs, h => by
    obtain ⟨hv, hvs⟩ := List.forall_mem_cons.mp h
    obtain ⟨names, rfl⟩ := exists_map_string hvs
    cases hv with
    | string name => exact ⟨name :: names, rfl⟩

/-- The canonical values of a list of strings are those written for lists of names. -/
theorem Json.Schema.exists_ofNames {v : Json} (h : (Schema.list .string).Canonical v) :
    ∃ names, Json.ofNames names = v := by
  cases h with
  | list hvs =>
    obtain ⟨names, rfl⟩ := Json.exists_map_string hvs
    exact ⟨names, rfl⟩

/-! ## Options, built-in names and the configuration -/

/-- The form of analysis options holds what is written of them, and nothing else. -/
theorem AnalysisOptions.exact : Serial.Exact AnalysisOptions where
  layered := .record (by decide) (.field (.plain Schema.plain_bool) (by rintro _ ⟨⟩; exact .bool _)
    (.field (.plain Schema.plain_bool) (by rintro _ ⟨⟩; exact .bool _) .none))
  faithful := AnalysisOptions.faithful
  exists_toJson h := by
    obtain ⟨_, rfl, h₁⟩ := Schema.canonical_record h
    obtain ⟨_, _, rfl, hunresolved, h₂⟩ := Fields.canonical_field h₁
    obtain ⟨_, _, rfl, hshadowed, h₃⟩ := Fields.canonical_field h₂
    obtain ⟨unresolved, rfl⟩ := Schema.exists_bool hunresolved
    obtain ⟨shadowed, rfl⟩ := Schema.exists_bool hshadowed
    obtain rfl := Fields.canonical_none h₃
    exact ⟨⟨unresolved, shadowed⟩, rfl⟩

/-- The form of controller options holds what is written of them, and nothing else. -/
theorem ControllerOptions.exact : Serial.Exact ControllerOptions where
  layered := .record (by decide)
    (.field (.plain (Schema.plain_natural (Nat.le_refl _)))
      (by rintro _ ⟨⟩; exact .natural (Nat.zero_le _) (Nat.le_refl _))
      (.field (.plain Schema.plain_bool) (by rintro _ ⟨⟩; exact .bool _) .none))
  faithful := ControllerOptions.faithful
  exists_toJson h := by
    obtain ⟨_, rfl, h₁⟩ := Schema.canonical_record h
    obtain ⟨_, _, rfl, hdelay, h₂⟩ := Fields.canonical_field h₁
    obtain ⟨_, _, rfl, hhighlight, h₃⟩ := Fields.canonical_field h₂
    obtain ⟨delay, hlimit, rfl⟩ := Schema.exists_natural hdelay
    obtain ⟨highlight, rfl⟩ := Schema.exists_bool hhighlight
    obtain rfl := Fields.canonical_none h₃
    have hdelay : (UInt64.ofNat delay).toNat = delay :=
      UInt64.toNat_ofNat_of_lt (Nat.lt_succ_of_le hlimit)
    exact ⟨⟨.ofNat delay, highlight⟩, by simp only [Serial.toJson, hdelay]⟩

/-- The form of built-in names holds what is written of them, and nothing else. -/
theorem BuiltinsData.exact : Serial.Exact BuiltinsData where
  layered := by
    have hnames : (Schema.list .string).Layered := .plain Schema.plain_string.list
    have hnone : ∀ {v}, (Missing.filled (.array [])).inObject = some v →
        (Schema.list .string).Canonical v := by
      rintro _ ⟨⟩
      exact .list nofun
    exact .record (by decide)
      (.field hnames hnone (.field hnames hnone (.field hnames hnone .none)))
  faithful := BuiltinsData.faithful
  exists_toJson h := by
    obtain ⟨_, rfl, h₁⟩ := Schema.canonical_record h
    obtain ⟨_, _, rfl, hfunctions, h₂⟩ := Fields.canonical_field h₁
    obtain ⟨_, _, rfl, hvariables, h₃⟩ := Fields.canonical_field h₂
    obtain ⟨_, _, rfl, htypes, h₄⟩ := Fields.canonical_field h₃
    obtain ⟨functionNames, rfl⟩ := Schema.exists_ofNames hfunctions
    obtain ⟨variableNames, rfl⟩ := Schema.exists_ofNames hvariables
    obtain ⟨typeNames, rfl⟩ := Schema.exists_ofNames htypes
    obtain rfl := Fields.canonical_none h₄
    exact ⟨⟨functionNames, variableNames, typeNames⟩, rfl⟩

/-- The form of a configuration holds what is written of configurations, and nothing else. -/
theorem SessionConfig.exact : Serial.Exact SessionConfig where
  layered := by
    refine .record (by decide) (.field (.plain (Schema.plain_natural (by decide))) ?_
      (.field AnalysisOptions.exact.layered ?_ (.field ControllerOptions.exact.layered ?_
        (.field (.optional BuiltinsData.exact.layered) ?_ .none))))
    all_goals rintro _ ⟨⟩
    · exact .natural (by decide) (by decide)
    · exact AnalysisOptions.all.faithful.canonical
    · exact ControllerOptions.standard.faithful.canonical
    · exact .null _
  faithful := SessionConfig.faithful
  exists_toJson h := by
    obtain ⟨_, rfl, h₁⟩ := Schema.canonical_record h
    obtain ⟨_, _, rfl, hversion, h₂⟩ := Fields.canonical_field h₁
    obtain ⟨_, _, rfl, hanalysis, h₃⟩ := Fields.canonical_field h₂
    obtain ⟨_, _, rfl, hexecution, h₄⟩ := Fields.canonical_field h₃
    obtain ⟨_, _, rfl, hbuiltins, h₅⟩ := Fields.canonical_field h₄
    obtain ⟨version, hlimit, rfl⟩ := Schema.exists_natural hversion
    obtain ⟨analysis, rfl⟩ := AnalysisOptions.exact.exists_toJson hanalysis
    obtain ⟨execution, rfl⟩ := ControllerOptions.exact.exists_toJson hexecution
    obtain ⟨builtins, rfl⟩ := BuiltinsData.exact.exists_ofOption hbuiltins
    obtain rfl := Fields.canonical_none h₅
    have hversion : (UInt32.ofNat version).toNat = version :=
      UInt32.toNat_ofNat_of_lt (Nat.lt_succ_of_le hlimit)
    exact ⟨⟨.ofNat version, analysis, execution, builtins⟩, by simp only [Serial.toJson, hversion]⟩

end StackEditor
