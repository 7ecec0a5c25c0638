import StackEditor.Serial.Session

/-!
# Configuration of a session

A configuration is loaded from JSON, either as a whole, with a standard value for every setting
that the text leaves out, or as overrides on top of another configuration. Either way the result
is validated: the version must be the current one, and the delay between steps has a limit.

Overrides are merged before they are read: an object changes the members that it has, and any
other value takes the place of the old one.
-/

namespace StackEditor

/-- The settings of a session. -/
structure SessionConfig where
  version : UInt32
  analysis : AnalysisOptions
  execution : ControllerOptions
  /-- Names that are added to the standard ones. -/
  builtins : Option BuiltinsData
  deriving DecidableEq

/-- Why a configuration is refused. -/
inductive ConfigError where
  | json (fault : Fault)
  | notAnObject
  | stepDelayTooLarge (delay : UInt64)
  | unsupportedVersion (version : UInt32)
  deriving DecidableEq

namespace SessionConfig

/-- The version that is understood. -/
def currentVersion : UInt32 := 1

/-- The longest delay between steps, in milliseconds. -/
def maxStepDelay : UInt64 := 10000

/-- The settings of a session that nobody configured. -/
def standard : SessionConfig := ⟨currentVersion, .all, .standard, none⟩

instance : Serial SessionConfig where
  schema := .ofFields [
    ("version", .natural maxWord32, .filled (.natural currentVersion.toNat)),
    ("analysis", Serial.schema AnalysisOptions, .filled (Serial.toJson AnalysisOptions.all)),
    ("execution", Serial.schema ControllerOptions,
      .filled (Serial.toJson ControllerOptions.standard)),
    ("builtins", .optional (Serial.schema BuiltinsData), .filled .null)]
  toJson c := .object [("version", .natural c.version.toNat),
    ("analysis", Serial.toJson c.analysis), ("execution", Serial.toJson c.execution),
    ("builtins", .ofOption Serial.toJson c.builtins)]
  ofJson?
    | .object [(_, version), (_, analysis), (_, execution), (_, builtins)] => do
      return ⟨.ofNat (← version.natural?), ← Serial.ofJson? analysis,
        ← Serial.ofJson? execution, ← builtins.optional? Serial.ofJson?⟩
    | _ => none

/-- The configuration itself, if its version and delay are allowed. -/
def validate (c : SessionConfig) : Except ConfigError SessionConfig :=
  if c.version ≠ currentVersion then .error (.unsupportedVersion c.version)
  else if maxStepDelay < c.execution.stepDelay then
    .error (.stepDelayTooLarge c.execution.stepDelay)
  else .ok c

/-- The standard built-in names and the ones that are configured. -/
def allBuiltins (c : SessionConfig) : Builtins :=
  match c.builtins with
  | some d => Builtins.standard.extend d
  | none => .standard

/-! ## Loading and saving -/

/-- The configuration that a text gives, with standard values for what it leaves out. -/
def ofText (text : String) : Except ConfigError SessionConfig :=
  match Serial.parse SessionConfig text with
  | .ok c => c.validate
  | .error f => .error (.json f)

/-- The text of a configuration, on lines. -/
def toText (c : SessionConfig) : String := (Serial.toJson c).pretty

mutual

/-- The value `base` with the overrides `patch`. -/
def merge (base : Json) : Json → Json
  | .object patch =>
    match base with
    | .object ms => .object (mergeMembers ms patch)
    | _ => .object patch
  | patch => patch

/-- The members `ms` with the overrides of an object. -/
def mergeMembers (ms : List (String × Json)) : List (String × Json) → List (String × Json)
  | [] => ms
  | (k, j) :: patch =>
    mergeMembers (Json.setMember k (match ms.lookup k with
      | some old => merge old j
      | none => j) ms) patch

end

/-- The configuration with the overrides of a text. -/
def override (c : SessionConfig) (text : String) : Except ConfigError SessionConfig :=
  match Json.parse text with
  | .error f => .error (.json f)
  | .ok (.object patch) =>
    match Serial.accept? SessionConfig (merge (Serial.toJson c) (.object patch)) with
    | some c => c.validate
    | none => .error (.json .unfitting)
  | .ok _ => .error .notAnObject

end SessionConfig

/-- The error as it is shown to a reader. A text that is not accepted is described by its fault
alone. -/
def ConfigError.message : ConfigError → String
  | json .cutShort => "Invalid configuration JSON: the text ends too early"
  | json .malformed => "Invalid configuration JSON: the text is malformed"
  | json .unfitting => "Invalid configuration JSON: the text does not fit"
  | notAnObject => "Configuration overrides must be a JSON object"
  | stepDelayTooLarge delay =>
    "Step delay of " ++ toString delay ++ " ms exceeds the limit of " ++
      toString SessionConfig.maxStepDelay ++ " ms"
  | unsupportedVersion version => "Unsupported configuration version: " ++ toString version

end StackEditor
