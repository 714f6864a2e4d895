import Peinit.Submitted.Store

/-!
# Definitions of submitted jobs

What a submitter asks for comes as a JSON object.  It is checked field by field before anything is
created; the first field that is not acceptable is named in the answer.
-/

namespace Peinit

/-- A JSON value as it is parsed: an integer that fits 64 bits is one, any other number is not. -/
inductive JsonValue where
  | null
  | bool (value : Bool)
  | posInt (value : UInt64)
  | negInt (value : Int64)
  | float (bits : UInt64)
  | string (value : String)
  | array (values : List JsonValue)
  | object (entries : List (String × JsonValue))

namespace JsonValue

def asStr : JsonValue → Option String
  | string value => some value
  | _ => none

def asU64 : JsonValue → Option ℕ
  | posInt value => some value.toNat
  | _ => none

def asI64 : JsonValue → Option ℤ
  | posInt value => if value.toNat < 2 ^ 63 then some value.toNat else none
  | negInt value => some value.toInt
  | _ => none

end JsonValue

/-- The entries of an object, in the order of their distinct keys. -/
abbrev JsonObject : Type := List (String × JsonValue)

inductive SubmittedJobDefinitionError where
  | invalidField (field reason : String)
  | descriptorCountMismatch (expected attached : ℕ)
  | argumentsTooLarge (bytes limit : ℕ)
  deriving DecidableEq

def maxArgEnvBytes : ℕ := 2 * 1024 * 1024

namespace SubmittedJobDefinition

def expectedDescriptorCount (definition : SubmittedJobDefinition) : ℕ :=
  definition.descriptorNames.length + if definition.output then 1 else 0

def argEnvBytes (definition : SubmittedJobDefinition) : ℕ :=
  definition.imagePath.utf8ByteSize + 1 +
    (definition.arguments.map fun argument => argument.utf8ByteSize + 1).sum +
    (definition.environment.map fun variable_ =>
      variable_.name.utf8ByteSize + 1 + variable_.value.utf8ByteSize + 1).sum

end SubmittedJobDefinition

namespace SubmittedJobDefinition.Parse

abbrev Result (α : Type) : Type := Except SubmittedJobDefinitionError α

def invalid {α : Type} (field reason : String) : Result α := .error (.invalidField field reason)

def hasNul (value : String) : Bool := value.toList.contains '\x00'

variable (object : JsonObject) (field : String)

def requiredPath : Result String :=
  match object.lookup field with
  | none => invalid field "is required"
  | some value => match value.asStr with
    | none => invalid field "must be a string"
    | some value =>
      if value.isEmpty then invalid field "is empty"
      else if value.toList.head? ≠ some '/' then invalid field "must be absolute"
      else if hasNul value then invalid field "contains NUL"
      else .ok value

def optionalString : Result (Option String) :=
  match object.lookup field with
  | none | some .null => .ok none
  | some (.string value) =>
    if hasNul value then invalid field "contains NUL" else .ok (some value)
  | some _ => invalid field "must be a string"

def optionalBool : Result (Option Bool) :=
  match object.lookup field with
  | none | some .null => .ok none
  | some (.bool value) => .ok (some value)
  | some _ => invalid field "must be a boolean"

def optionalUnsigned : Result (Option ℕ) :=
  match object.lookup field with
  | none | some .null => .ok none
  | some value => match value.asU64 with
    | some n => .ok (some n)
    | none => invalid field "must be a non-negative integer"

def stringElement (value : JsonValue) : Result String :=
  match value.asStr with
  | none => invalid field "every element must be a string"
  | some value => if hasNul value then invalid field "an element contains NUL" else .ok value

def optionalStringArray : Result (List String) :=
  match object.lookup field with
  | none | some .null => .ok []
  | some (.array values) => values.mapM (stringElement field)
  | some _ => invalid field "must be an array of strings"

def exitCodeElement (value : JsonValue) : Result ℤ :=
  match value.asI64.filter fun code => 0 ≤ code ∧ code ≤ 255 with
  | some code => .ok code
  | none => invalid "success_exit_codes" "every element must be an integer in 0..=255"

def optionalExitCodes : Result (List ℤ) :=
  match object.lookup "success_exit_codes" with
  | none | some .null => .ok []
  | some (.array values) => values.mapM exitCodeElement
  | some _ => invalid "success_exit_codes" "must be an array of integers"

/-! How the standard library prints a string for debugging is a parameter of the messages. -/

variable (quoted : String → String)

def environmentEntry (entry : String × JsonValue) : Result ServiceEnvironmentVariable :=
  let (name, value) := entry
  if name.isEmpty then invalid "environment" "a variable name is empty"
  else if name.toList.contains '=' then
    invalid "environment" ("name " ++ quoted name ++ " contains '='")
  else if hasNul name then invalid "environment" "a variable name contains NUL"
  else match value.asStr with
    | none => invalid "environment" "every value must be a string"
    | some value =>
      if hasNul value then invalid "environment" "a value contains NUL" else .ok ⟨name, value⟩

def optionalEnvironment : Result (List ServiceEnvironmentVariable) :=
  match object.lookup "environment" with
  | none | some .null => .ok []
  | some (.object entries) => entries.mapM (environmentEntry quoted)
  | some _ => invalid "environment" "must be an object of strings"

def workingDirectory : Result String :=
  match object.lookup "working_directory" with
  | none | some .null => .ok "/"
  | some _ => requiredPath object "working_directory"

def readiness : Result JobReadiness := do
  match ← optionalString object "readiness" with
  | none | some "none" => .ok .none
  | some "notify" => .ok .notify
  | some other => invalid "readiness" ("unknown value " ++ quoted other)

/-- A stop has to be given some time. -/
def stopTimeout : Result ℕ := do
  let stopTimeoutSecs := (← optionalUnsigned object "stop_timeout").getD 10
  if stopTimeoutSecs = 0 then invalid "stop_timeout" "must be at least 1" else .ok stopTimeoutSecs

def checkDescriptorName (name : String) : Result Unit :=
  if name.isEmpty then invalid "descriptors" "a name is empty"
  else if name.toList.contains ':' then
    invalid "descriptors" ("name " ++ quoted name ++ " contains ':', the LISTEN_FDNAMES separator")
  else if hasNul name then invalid "descriptors" "a name contains NUL"
  else .ok ()

def descriptorNames : Result (List String) := do
  let names ← optionalStringArray object "descriptors"
  names.forM (checkDescriptorName quoted)
  return names

def securityDescriptor : Result (Option String) := do
  let sddl ← optionalString object "security_descriptor"
  if sddl.any (·.isEmpty) then invalid "security_descriptor" "is empty" else .ok sddl

/-- What can only be checked of the definition as a whole. -/
def checkWhole (definition : SubmittedJobDefinition) (attachedDescriptors : ℕ) :
    Result SubmittedJobDefinition :=
  if definition.expectedDescriptorCount ≠ attachedDescriptors then
    .error (.descriptorCountMismatch definition.expectedDescriptorCount attachedDescriptors)
  else if maxArgEnvBytes < definition.argEnvBytes then
    .error (.argumentsTooLarge definition.argEnvBytes maxArgEnvBytes)
  else .ok definition

end SubmittedJobDefinition.Parse

open SubmittedJobDefinition.Parse in
/-- Check a request to submit a job against the number of descriptors that came with it. -/
def parseSubmittedJobDefinition (quoted : String → String) (object : JsonObject)
    (attachedDescriptors : ℕ) : Except SubmittedJobDefinitionError SubmittedJobDefinition := do
  let imagePath ← requiredPath object "image_path"
  let arguments ← optionalStringArray object "arguments"
  let environment ← optionalEnvironment object quoted
  let workingDirectory ← workingDirectory object
  let description := (← optionalString object "description").getD ""
  let timeoutSecs := (← optionalUnsigned object "timeout").getD 0
  let stopTimeoutSecs ← stopTimeout object
  let readiness ← readiness object quoted
  let readinessTimeoutSecs := (← optionalUnsigned object "readiness_timeout").getD 30
  let successExitCodes ← optionalExitCodes object
  let descriptorNames ← descriptorNames object quoted
  let output := (← optionalBool object "output").getD false
  let securityDescriptorSddl ← securityDescriptor object
  checkWhole
    { imagePath, arguments, environment, workingDirectory, description, timeoutSecs, stopTimeoutSecs,
      readiness, readinessTimeoutSecs, successExitCodes, descriptorNames, output,
      securityDescriptorSddl } attachedDescriptors

end Peinit
