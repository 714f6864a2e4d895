import Peinit.Service.Definition

/-!
# Roles

A definition may name a role where it would name a service, and one whose identity is not the system's
needs the service that fills the `authn` role. Before the dependency lists are read a role is replaced
by the services that provide it, and the authority is added.
-/

namespace Peinit

def authnRole : String := "authn"

def systemIdentity : String := "SYSTEM"

def hookExecutionIdentity (definition : ServiceDefinition) : String :=
  definition.hookIdentity.getD definition.identity

/-- Whether starting the service takes a token that only the authority mints. -/
def requiresAuthority (definition : ServiceDefinition) : Bool :=
  if definition.identity ≠ systemIdentity then true
  else (!definition.execStartPre.isEmpty || !definition.execStartPost.isEmpty) &&
    decide (hookExecutionIdentity definition ≠ systemIdentity)

/-- The names of the services that fill `role`. -/
def roleProviders (definitions : List ServiceDefinition) (role : String) : List String :=
  (definitions.filter fun definition => definition.provides.any (· = role)).map (·.name)

/-- The services `me` depends on by the entry: a service name stands for itself, a role for the other
services that fill it, each with the entry's level. -/
def resolveEntry (definitions : List ServiceDefinition) (me entry : String) : List String :=
  let (target, level) := splitTarget entry
  let providers := roleProviders definitions target
  if providers ≠ [] ∧ target ∉ definitions.map (·.name) then
    (providers.filter (· ≠ me)).map fun provider => match level with
      | some level => provider ++ ":" ++ level
      | none => provider
  else [entry]

def resolveList (definitions : List ServiceDefinition) (me : String) (entries : List String) :
    List String :=
  (entries.flatMap (resolveEntry definitions me)).eraseDups

/-- Nothing is rewritten when no role is provided at all. -/
def resolveRoleReferences (definitions : List ServiceDefinition) : List ServiceDefinition :=
  if definitions.all (·.provides.isEmpty) then definitions
  else definitions.map fun definition =>
    { definition with
      requires := resolveList definitions definition.name definition.requires
      wants := resolveList definitions definition.name definition.wants
      bindsTo := resolveList definitions definition.name definition.bindsTo }

/-- Make the definition require the authority, unless it needs none, is one or declares it. -/
def requireAuthority (providers : List String) (definition : ServiceDefinition) : ServiceDefinition :=
  if !requiresAuthority definition || definition.provides.any (· = authnRole) then definition
  else
    let declared := (definition.requires ++ definition.bindsTo).map fun entry => (splitTarget entry).1
    { definition with
      requires := definition.requires ++ (providers.filter (· ≠ definition.name)).filter (· ∉ declared) }

def synthesiseRoleDependencies (definitions : List ServiceDefinition) : List ServiceDefinition :=
  let definitions := resolveRoleReferences definitions
  let providers := roleProviders definitions authnRole
  if providers.isEmpty then definitions else definitions.map (requireAuthority providers)

end Peinit
