import Peinit.Service.Table
import Peinit.Service.Validate

/-!
# Reloading definitions

A service that is down takes its new definition at once. One that is up keeps the fields it was started
with and gets the rest; the whole definition is pending until it is down. What is no longer defined is
discarded, or marked and discarded when it is down. Definitions of `frozen` services are only noted.
-/

namespace Peinit

/-- A key of the registry that holds no readable definition. -/
structure UndecodableService where
  name : String
  message : String
  deriving DecidableEq

structure ServiceReloadSummary where
  added : List String := []
  updated : List String := []
  restored : List String := []
  markedRemoved : List String := []
  discarded : List String := []
  undecodable : List String := []
  deferred : List String := []
  deriving DecidableEq

def undecodableMessage (service : UndecodableService) : String :=
  "Service definition failed to decode: " ++ service.message

/-- The stand-in for a definition that could not be decoded: it runs nothing. -/
def ServiceDefinition.undecodablePlaceholder (name message : String) : ServiceDefinition where
  name := name
  disabled := true
  description := some message

/-- The definitions by name, with the dependencies that roles stand for. -/
def mapDefinitions (definitions : List ServiceDefinition) :
    Except ServiceTableError (OrdMap String ServiceDefinition) :=
  (synthesiseRoleDependencies definitions).foldlM (fun mapped definition =>
    if definition.name ∈ mapped then .error (.duplicateService definition.name)
    else .ok (mapped.insert definition.name definition)) ∅

/-! ## One entry -/

/-- What a running service keeps of its definition. -/
def runtimeEffectiveDefinition (current incoming : ServiceDefinition) : ServiceDefinition :=
  { incoming with
    imagePath := current.imagePath
    serviceType := current.serviceType
    identity := current.identity
    requiredPrivileges := current.requiredPrivileges
    errorControl := current.errorControl
    remainAfterExit := current.remainAfterExit
    requires := current.requires
    wants := current.wants
    bindsTo := current.bindsTo
    conflicts := current.conflicts
    onFailure := current.onFailure
    conditions := current.conditions
    asserts := current.asserts
    triggers := current.triggers
    disabled := current.disabled
    -- where a definition comes from is not the registry's to say
    compiledIn := current.compiledIn }

namespace ServiceEntry

variable (entry : ServiceEntry)

def desiredDefinition : ServiceDefinition := entry.pendingDefinition.getD entry.definition

/-- Take over a definition, as far as the service's state lets it. -/
def applyReloadedDefinition (incoming : ServiceDefinition) : ServiceEntry :=
  if retainsDefinitionAfterRemoval entry.runtime.state then
    let effective := runtimeEffectiveDefinition entry.definition incoming
    { entry with
      definition := effective
      pendingDefinition := if effective = incoming then none else some incoming }
  else { entry with definition := incoming, pendingDefinition := none }

/-- Note a definition without taking it over. -/
def defer (incoming : ServiceDefinition) : ServiceEntry :=
  { entry with
    pendingDefinition := if entry.definition = incoming then none else some incoming }

/-- The entry of a service that was never started. -/
def fresh (definition : ServiceDefinition) : ServiceEntry := { definition, runtime := {} }

end ServiceEntry

namespace ServiceTable

variable (services : ServiceTable)

/-- Enter a service that has failed for want of a definition. -/
def insertUndecodablePlaceholder (service : String) (cause : TransitionCause) (message : String) :
    Except ServiceTableError ServiceTable :=
  if isAllowedTransition .inactive .failed cause then
    .ok (services.set service
      { definition := .undecodablePlaceholder service message
        runtime := ServiceRuntimeSnapshot.moved {} ⟨.failed, cause⟩
        definitionRemoved := true })
  else .error (.invalidTransition service .inactive .failed cause)

/-! ## Snapshots -/

/-- The table and the summary while a snapshot is applied. -/
structure Reloading where
  services : ServiceTable
  summary : ServiceReloadSummary := {}

namespace Reloading

variable (frozen : List String)

/-- Apply one definition of the snapshot. -/
def define (state : Reloading) (incoming : String × ServiceDefinition) : Reloading :=
  let (name, definition) := incoming
  match state.services.get name with
  | none =>
    { services := state.services.set name (.fresh definition)
      summary := { state.summary with added := state.summary.added ++ [name] } }
  | some entry =>
    let changed := if entry.desiredDefinition = definition then [] else [name]
    if name ∈ frozen then
      { services := state.services.set name (entry.defer definition)
        summary := { state.summary with deferred := state.summary.deferred ++ changed } }
    else
      { services := state.services.set name
          { entry.applyReloadedDefinition definition with definitionRemoved := false }
        summary := { state.summary with
          updated := state.summary.updated ++ changed
          restored := state.summary.restored ++ if entry.definitionRemoved then [name] else [] } }

/-- Deal with a service of the table that the snapshot may not define. -/
def withdraw (incoming : OrdMap String ServiceDefinition) (undecodable : List UndecodableService)
    (state : Reloading) (name : String) : Reloading :=
  if name ∈ incoming ∨ name ∈ undecodable.map (·.name) then state
  else if name ∈ frozen then
    { state with summary := { state.summary with deferred := state.summary.deferred ++ [name] } }
  else match state.services.get name with
    | none => state
    | some entry =>
      -- the registry cannot define what is built in: that it does not says nothing
      if entry.definition.compiledIn then state
      else if retainsDefinitionAfterRemoval entry.runtime.state then
        if entry.definitionRemoved then state
        else
          { services := state.services.set name { entry with definitionRemoved := true }
            summary := { state.summary with markedRemoved := state.summary.markedRemoved ++ [name] } }
      else
        { services := state.services.discard name
          summary := { state.summary with discarded := state.summary.discarded ++ [name] } }

end Reloading

def applyUndecodable (service : UndecodableService) : Except ServiceTableError ServiceTable :=
  match services.get service.name with
  | some entry =>
    if retainsDefinitionAfterRemoval entry.runtime.state then
      .ok (services.set service.name { entry with definitionRemoved := true, pendingDefinition := none })
    else services.insertUndecodablePlaceholder service.name .validationError (undecodableMessage service)
  | none => services.insertUndecodablePlaceholder service.name .validationError
    (undecodableMessage service)

/-- Deal with a key that could not be decoded. -/
def Reloading.refuse (frozen : List String) (incoming : OrdMap String ServiceDefinition)
    (state : Reloading) (service : UndecodableService) : Except ServiceTableError Reloading :=
  if service.name ∈ incoming then .ok state
  else if service.name ∈ frozen ∧ (state.services.get service.name).isSome then
    .ok { state with
      summary := { state.summary with deferred := state.summary.deferred ++ [service.name] } }
  else do
    let services ← state.services.applyUndecodable service
    return { services, summary := { state.summary with
      undecodable := state.summary.undecodable ++ [service.name] } }

def applyDefinitionSnapshotWith (definitions : List ServiceDefinition)
    (undecodable : List UndecodableService) (frozen : List String) :
    Except ServiceTableError (ServiceTable × ServiceReloadSummary) := do
  let incoming ← mapDefinitions definitions
  let defined := incoming.toList.foldl (Reloading.define frozen) { services }
  let withdrawn :=
    defined.services.serviceNames.foldl (Reloading.withdraw frozen incoming undecodable) defined
  let refused ← undecodable.foldlM (Reloading.refuse frozen incoming) withdrawn
  return (refused.services, refused.summary)

def fromBootSnapshot (definitions : List ServiceDefinition) : Except ServiceTableError ServiceTable := do
  let mapped ← mapDefinitions definitions
  return ⟨mapped.map fun _ definition => .fresh definition⟩

/-! ## What a reload reads -/

def definitionInheritingServiceSecurity (service : String)
    (inherited : Option ServiceSecurityDescriptor) : Option ServiceDefinition :=
  (services.definition service).map fun definition =>
    { definition with serviceSecurity := inherited.getD .default }

/-- The built-in services that the snapshot does not name. -/
def compiledInDefinitionsAbsentFrom (snapshot : List ServiceDefinition)
    (inherited : Option ServiceSecurityDescriptor) : List ServiceDefinition :=
  (services.entries.toList.filter fun (name, entry) =>
    entry.definition.compiledIn && !snapshot.any (·.name = name)).filterMap fun (name, _) =>
      services.definitionInheritingServiceSecurity name inherited

end ServiceTable

/-- What is read from the registry about services. -/
structure ServiceDefinitionsRead where
  definitions : List ServiceDefinition
  undecodable : List UndecodableService := []
  inheritedServiceSecurity : Option ServiceSecurityDescriptor := none

inductive ReloadConfigError where
  | validation (findings : List ServiceGraphFinding)
  | serviceTable (error : ServiceTableError)
  deriving DecidableEq

/-- The definitions to validate: what could not be decoded is there, with a name that may be used. -/
def definitionsWithPlaceholders (definitions : List ServiceDefinition)
    (undecodable : List UndecodableService) : List ServiceDefinition :=
  definitions ++ (undecodable.filter fun service => isValidServiceName service.name).map fun service =>
    .undecodablePlaceholder service.name service.message

/-- The definitions that a reload applies: what was read, and what is built in. -/
def ServiceTable.carriedDefinitions (services : ServiceTable) (read : ServiceDefinitionsRead) :
    List ServiceDefinition :=
  read.definitions ++
    services.compiledInDefinitionsAbsentFrom read.definitions read.inheritedServiceSecurity

def ServiceTable.reloadConfigWithFrozen (parseError : String → Option String)
    (read : ServiceDefinitionsRead) (frozen : List String) (services : ServiceTable) :
    Except ReloadConfigError (ServiceTable × ServiceReloadSummary) := do
  let definitions := services.carriedDefinitions read
  let _ ← (validateServiceGraph parseError
    (definitionsWithPlaceholders definitions read.undecodable)).mapError ReloadConfigError.validation
  (services.applyDefinitionSnapshotWith definitions read.undecodable frozen).mapError .serviceTable

end Peinit
