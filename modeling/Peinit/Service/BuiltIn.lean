import Peinit.Service.Generations

/-!
# Built-in services

A reload that leaves out a service that is compiled in, or cannot decode it, does not touch it; one that
defines it takes its place, at once if the service is down and else when it next goes down.
-/

namespace Peinit

open ServiceEntry

variable {read : ServiceDefinitionsRead} {definition : ServiceDefinition} {entry : ServiceEntry}

/-- The one service that is compiled in: the registry cannot define what serves it. -/
def ServiceDefinition.compiledInRegistryd : ServiceDefinition where
  name := "registryd"
  imagePath := "/sbin/registryd"
  arguments := ["Machine=/var/state/loregd/Machine.hive", "Users=/var/state/loregd/Users.hive"]
  triggers := [.boot]
  errorControl := .critical
  compiledIn := true

/-- The entry is built in and managed, and nothing that is not built in waits to take its place. -/
structure ServiceEntry.Settled (entry : ServiceEntry) : Prop where
  builtIn : entry.definition.compiledIn = true
  present : entry.definitionRemoved = false
  pending : ∀ pending ∈ entry.pendingDefinition, pending.compiledIn = true

namespace ServiceTable

variable {services : ServiceTable} {service : String}

/-- The service is there, is built in and is managed. -/
def BuiltIn (services : ServiceTable) (service : String) : Prop :=
  ∃ entry, services.get service = some entry ∧ entry.definition.compiledIn = true ∧
    entry.definitionRemoved = false

def Settled (services : ServiceTable) (service : String) : Prop :=
  ∃ entry, services.get service = some entry ∧ entry.Settled

theorem Settled.isBuiltIn (settled : services.Settled service) : services.BuiltIn service := by
  obtain ⟨entry, got, settled⟩ := settled
  exact ⟨entry, got, settled.builtIn, settled.present⟩

/-- The event is a reload that is accepted and defines `service` as a service of the registry. -/
def Shadows (services : ServiceTable) (service : String) : TableEvent → Prop
  | .reload read _ =>
    (∃ incoming, mapDefinitions (services.carriedDefinitions read) = .ok incoming) ∧
      ∃ definition ∈ read.definitions, definition.name = service ∧ definition.compiledIn = false
  | .transition _ _ => False

/-! ## What a reload defines -/

theorem compiledIn_iff_not_shadows {frozen : List String} {inc : OrdMap String ServiceDefinition}
    (mapped : mapDefinitions (services.carriedDefinitions read) = .ok inc)
    (defined : inc[service]? = some definition) :
    definition.compiledIn = true ↔ ¬ services.Shadows service (.reload read frozen) := by
  constructor
  · rintro builtIn ⟨-, raw, mem, rfl, foreign⟩
    obtain ⟨requires, wants, bindsTo, rfl⟩ :=
      mapDefinitions_of_mem mapped (List.mem_append_left _ mem) defined
    cases builtIn.symm.trans foreign
  · intro spared
    obtain ⟨raw, mem, rfl⟩ := mapDefinitions_listed mapped defined
    obtain ⟨requires, wants, bindsTo, rfl⟩ := mapDefinitions_of_mem mapped mem defined
    rcases List.mem_append.mp mem with mem | carried
    · by_contra foreign
      exact spared ⟨⟨inc, mapped⟩, raw, mem, rfl, by simpa using foreign⟩
    · obtain ⟨name, entry, -, builtIn, rfl⟩ := mem_compiledInDefinitionsAbsentFrom carried
      exact builtIn

/-! ## One event -/

theorem settled_defer_iff (settled : entry.Settled) :
    (entry.defer definition).Settled ↔ definition.compiledIn = true := by
  constructor
  · intro after
    by_cases same : entry.definition = definition
    · rw [← same]
      exact settled.builtIn
    · exact after.pending definition (by simp [defer, same])
  · intro builtIn
    refine ⟨settled.builtIn, settled.present, fun pending pends => ?_⟩
    rw [pending_defer pends]
    exact builtIn

theorem settled_applyReloadedDefinition_iff (settled : entry.Settled) :
    ServiceEntry.Settled { entry.applyReloadedDefinition definition with definitionRemoved := false } ↔
      definition.compiledIn = true := by
  by_cases up : retainsDefinitionAfterRemoval entry.runtime.state = true
  · constructor
    · intro after
      by_cases same : runtimeEffectiveDefinition entry.definition definition = definition
      · rw [← same]
        exact settled.builtIn
      · exact after.pending definition (by simp [applyReloadedDefinition, up, same])
    · intro builtIn
      refine ⟨?_, rfl, fun pending pends => ?_⟩
      · simp [applyReloadedDefinition, up, runtimeEffectiveDefinition, settled.builtIn]
      · rw [pending_applyReloadedDefinition pends]
        exact builtIn
  · have replaced : entry.applyReloadedDefinition definition =
        { entry with definition := definition, pendingDefinition := none } := by
      simp [applyReloadedDefinition, up]
    rw [replaced]
    exact ⟨fun after => after.builtIn, fun builtIn => ⟨builtIn, rfl, by simp⟩⟩

theorem settled_moved (settled : entry.Settled) (tr : ServiceTransition) : (entry.moved tr).Settled := by
  unfold moved
  dsimp only
  split_ifs
  · exact ⟨settled.builtIn, settled.present, settled.pending⟩
  · refine ⟨?_, settled.present, by simp⟩
    rcases pends : entry.pendingDefinition with _ | pending
    · exact settled.builtIn
    · exact settled.pending pending pends

theorem settled_perform_iff (keyed : services.Keyed) (settled : services.Settled service)
    (event : TableEvent) :
    (services.perform event).Settled service ↔ ¬ services.Shadows service event := by
  obtain ⟨entry, got, settled⟩ := settled
  have step := perform_cases services event service
  unfold Settled
  generalize (services.perform event).get service = after at step
  rw [got] at step
  cases step with
  | rejected read frozen error _ rejects =>
    refine iff_of_true ⟨entry, rfl, settled⟩ ?_
    rintro ⟨⟨inc, mapped⟩, -⟩
    rw [rejects] at mapped
    cases mapped
  | unmoved => exact iff_of_true ⟨entry, rfl, settled⟩ id
  | reloaded read frozen inc _ _ mapped change =>
    obtain ⟨definition, defined⟩ :=
      carriedDefinitions_defines mapped got (keyed service entry got).1 settled.builtIn
    rw [← compiledIn_iff_not_shadows mapped defined]
    -- the reload carries the service along, so that it is defined whatever was read
    cases change with
    | deferred _ definition' defined' =>
      obtain rfl : definition = definition' := Option.some.inj (defined.symm.trans defined')
      simpa using settled_defer_iff settled
    | updated _ definition' defined' =>
      obtain rfl : definition = definition' := Option.some.inj (defined.symm.trans defined')
      simpa using settled_applyReloadedDefinition_iff settled
    | held _ undefined => cases undefined.symm.trans defined
    | builtIn _ undefined => cases undefined.symm.trans defined
    | marked _ undefined => cases undefined.symm.trans defined
    | discarded _ undefined => cases undefined.symm.trans defined
    | refusedUp _ undefined => cases undefined.symm.trans defined
    | refused _ _ undefined => cases undefined.symm.trans defined
  | discarded _ _ _ removed => cases removed.symm.trans settled.present
  | moved _ tr => exact iff_of_true ⟨_, rfl, settled_moved settled tr⟩ id

/-! ## Runs -/

/-- Whatever is reloaded and however services move, a built-in service stays, built in and managed,
unless a reload shadows it.  It is shadowing alone that unsettles it. -/
theorem built_in_undisplaced (keyed : services.Keyed) (settled : services.Settled service) :
    (∀ events, Admissible perform (fun services event => ¬ services.Shadows service event) services
      events → (runCalls perform services events).BuiltIn service) ∧
    ∀ event, (services.perform event).Settled service ↔ ¬ services.Shadows service event := by
  refine ⟨fun events spared => ?_, settled_perform_iff keyed settled⟩
  exact (invariant_of_step (fun services : ServiceTable => services.Keyed ∧ services.Settled service)
    (fun services event inv spared =>
      ⟨inv.1.perform event, (settled_perform_iff inv.1 inv.2 event).mpr spared⟩)
    events ⟨keyed, settled⟩ spared).2.isBuiltIn

/-- The registry is reloaded twice while registryd starts, once with a key for it that cannot be
decoded. -/
def sparing : List TableEvent :=
  [.transition "registryd" ⟨.starting, .explicitStart⟩, .reload { definitions := [{ name := "app" }] } [],
    .transition "registryd" ⟨.active, .explicitStart⟩,
    .reload { definitions := [], undecodable := [⟨"registryd", "no image path"⟩] } []]

theorem built_in_undisplaced_sparing :
    ∃ services, fromBootSnapshot [.compiledInRegistryd] = .ok services ∧
      (runCalls perform services sparing).BuiltIn "registryd" := by
  refine Exists.imp (p := fun services => _ ∧ ∃ entry, services.get "registryd" = some entry ∧
      entry.definition.compiledIn = true ∧ entry.definitionRemoved = false ∧
      entry.pendingDefinition = none)
    (fun services ⟨booted, entry, found, builtIn, present, settled⟩ =>
      ⟨booted, (built_in_undisplaced (keyed_fromBootSnapshot booted)
        ⟨entry, found, builtIn, present, by simp [settled]⟩).1 sparing ?_⟩) (by decide +kernel)
  refine ⟨id, ?_, id, ?_, trivial⟩ <;> simp [Shadows]

/-- While registryd is up the registry defines it, it is stopped, and the key is deleted. -/
def displacing : List TableEvent := [.transition "registryd" ⟨.starting, .explicitStart⟩,
    .transition "registryd" ⟨.active, .explicitStart⟩,
    .reload { definitions := [{ name := "registryd", imagePath := "/sbin/other" }] } [],
    .transition "registryd" ⟨.stopping, .explicitStop⟩,
    .transition "registryd" ⟨.inactive, .explicitStop⟩, .reload { definitions := [] } []]

/-- Then registryd is gone. -/
theorem registryd_displaced :
    ∃ services, fromBootSnapshot [.compiledInRegistryd] = .ok services ∧
      services.BuiltIn "registryd" ∧ (runCalls perform services displacing).get "registryd" = none := by
  unfold BuiltIn
  decide +kernel

end ServiceTable

end Peinit
