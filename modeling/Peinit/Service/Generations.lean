import Peinit.Lib.Run
import Peinit.Service.ReloadEffects

/-!
# Configuration generations

Reloads and transitions, in any order: what a service is to be is what the last reload defined, and
what it is made of does not change while it is up.
-/

namespace Peinit

open ServiceEntry ServiceTable List

variable {pending definition raw : ServiceDefinition} {definitions : List ServiceDefinition}
  {inc : OrdMap String ServiceDefinition} {name service : String} {services : ServiceTable}
  {read : ServiceDefinitionsRead} {entry : ServiceEntry} {frozen : List String}
  {before : Option ServiceEntry} {tr : ServiceTransition} {out : ServiceTable × ServiceTableTransition}
  {start : Configured}

/-! ## What is pinned -/

/-- The fields of a definition that a running service keeps. -/
structure PinnedFields where
  imagePath : String
  serviceType : ServiceType
  identity : String
  requiredPrivileges : List String
  errorControl : ErrorControl
  remainAfterExit : Bool
  requires : List String
  wants : List String
  bindsTo : List String
  conflicts : List String
  onFailure : Option String
  conditions : List ServiceCheck
  asserts : List ServiceCheck
  triggers : List ServiceTrigger
  disabled : Bool
  deriving DecidableEq

def ServiceDefinition.pinned (definition : ServiceDefinition) : PinnedFields :=
  { definition with }

namespace ServiceEntry

variable {inc : ServiceDefinition}

@[simp] theorem applyReloadedDefinition_runtime :
    (entry.applyReloadedDefinition inc).runtime = entry.runtime := by
  unfold applyReloadedDefinition
  split_ifs <;> rfl

theorem desired_applyReloadedDefinition :
    (entry.applyReloadedDefinition inc).desiredDefinition = inc := by
  unfold applyReloadedDefinition
  split_ifs with up
  · dsimp only
    split_ifs with same
    · exact same
    · rfl
  · rfl

theorem name_applyReloadedDefinition :
    (entry.applyReloadedDefinition inc).definition.name = inc.name := by
  unfold applyReloadedDefinition
  split_ifs <;> rfl

theorem pending_applyReloadedDefinition
    (pends : pending ∈ (entry.applyReloadedDefinition inc).pendingDefinition) :
    pending = inc := by
  unfold applyReloadedDefinition at pends
  by_cases up : retainsDefinitionAfterRemoval entry.runtime.state = true
  · dsimp only at pends
    split_ifs at pends
    · cases pends
    · cases pends
      rfl
  · rw [if_neg up] at pends
    cases pends

theorem pending_defer (pends : pending ∈ (entry.defer inc).pendingDefinition) : pending = inc := by
  unfold defer at pends
  split_ifs at pends
  · cases pends
  · cases pends
    rfl

theorem desired_moved (tr : ServiceTransition) :
    (entry.moved tr).desiredDefinition = entry.desiredDefinition := by
  unfold moved
  dsimp only
  split_ifs <;> rfl

theorem definition_moved_of_up
    (up : retainsDefinitionAfterRemoval tr.target = true) :
    (entry.moved tr).definition = entry.definition := by
  unfold moved
  simp [up]

end ServiceEntry

/-! ## The definitions of a snapshot -/

theorem synthesiseRoleDependencies_eq_map (defs : List ServiceDefinition) :
    ∃ f : ServiceDefinition → ServiceDefinition,
      synthesiseRoleDependencies defs = defs.map f ∧
        ∀ definition, ∃ requires wants bindsTo,
          f definition = { definition with requires, wants, bindsTo } := by
  have resolved : ∃ f : ServiceDefinition → ServiceDefinition,
      resolveRoleReferences defs = defs.map f ∧
        ∀ definition, ∃ requires wants bindsTo,
          f definition = { definition with requires, wants, bindsTo } := by
    unfold resolveRoleReferences
    split_ifs
    · exact ⟨id, by rw [map_id], fun definition => ⟨_, _, _, rfl⟩⟩
    · exact ⟨_, rfl, fun definition => ⟨_, _, _, rfl⟩⟩
  obtain ⟨f, eq, only⟩ := resolved
  unfold synthesiseRoleDependencies
  rw [eq]
  dsimp only
  split_ifs
  · exact ⟨f, rfl, only⟩
  · refine ⟨requireAuthority _ ∘ f, map_map, fun definition => ?_⟩
    obtain ⟨requires, wants, bindsTo, same⟩ := only definition
    rw [Function.comp_apply, same]
    unfold requireAuthority
    split_ifs
    · exact ⟨_, _, _, rfl⟩
    · exact ⟨_, _, _, rfl⟩

theorem mapDefinitions_get (mapped : mapDefinitions definitions = .ok inc) :
    inc[name]? = some definition ↔
      definition ∈ synthesiseRoleDependencies definitions ∧ definition.name = name := by
  have entered := get_foldlM_insert ServiceDefinition.name (fun {m a m'} added => by
    split_ifs at added with again
    cases added
    exact ⟨again, rfl⟩) mapped name definition
  simpa using entered

theorem mapDefinitions_defines (mapped : mapDefinitions definitions = .ok inc) (mem : raw ∈ definitions) :
    ∃ definition, inc[raw.name]? = some definition := by
  obtain ⟨f, eq, only⟩ := synthesiseRoleDependencies_eq_map definitions
  obtain ⟨requires, wants, bindsTo, same⟩ := only raw
  refine ⟨f raw, (mapDefinitions_get mapped).mpr ⟨?_, ?_⟩⟩
  · rw [eq]
    exact mem_map_of_mem mem
  · rw [same]

theorem mapDefinitions_of_mem (mapped : mapDefinitions definitions = .ok inc)
    (mem : raw ∈ definitions) (defined : inc[raw.name]? = some definition) :
    ∃ requires wants bindsTo, definition = { raw with requires, wants, bindsTo } := by
  obtain ⟨f, eq, only⟩ := synthesiseRoleDependencies_eq_map definitions
  obtain ⟨requires, wants, bindsTo, same⟩ := only raw
  have defined' : inc[raw.name]? = some (f raw) := by
    refine (mapDefinitions_get mapped).mpr ⟨?_, by rw [same]⟩
    rw [eq]
    exact mem_map_of_mem mem
  obtain rfl : definition = f raw := Option.some.inj (defined.symm.trans defined')
  exact ⟨requires, wants, bindsTo, same⟩

theorem mapDefinitions_listed (mapped : mapDefinitions definitions = .ok inc)
    (defined : inc[service]? = some definition) : ∃ raw ∈ definitions, raw.name = service := by
  obtain ⟨mem, named⟩ := (mapDefinitions_get mapped).mp defined
  obtain ⟨f, eq, only⟩ := synthesiseRoleDependencies_eq_map definitions
  rw [eq] at mem
  obtain ⟨raw, read, rfl⟩ := mem_map.mp mem
  obtain ⟨requires, wants, bindsTo, same⟩ := only raw
  rw [same] at named
  exact ⟨raw, read, named⟩

theorem ServiceTable.mem_compiledInDefinitionsAbsentFrom
    {snapshot : List ServiceDefinition} {inherited : Option ServiceSecurityDescriptor}
    (carried : raw ∈ services.compiledInDefinitionsAbsentFrom snapshot inherited) :
    ∃ name entry, services.get name = some entry ∧ entry.definition.compiledIn = true ∧
      raw = { entry.definition with serviceSecurity := inherited.getD .default } := by
  obtain ⟨⟨name, entry⟩, kept, same⟩ := mem_filterMap.mp carried
  obtain ⟨mem, built⟩ := mem_filter.mp kept
  have got : services.get name = some entry := (OrdMap.mem_toList _ _ _).mp mem
  dsimp only [definitionInheritingServiceSecurity, definition] at same
  rw [got] at same
  cases same
  simp only [Bool.and_eq_true] at built
  exact ⟨name, entry, got, built.1, rfl⟩

theorem ServiceTable.carriedDefinitions_defines
    (mapped : mapDefinitions (services.carriedDefinitions read) = .ok inc)
    (got : services.get name = some entry)
    (named : entry.definition.name = name) (builtIn : entry.definition.compiledIn = true) :
    ∃ definition, inc[name]? = some definition := by
  by_cases shadowed : read.definitions.any (·.name = name) = true
  · obtain ⟨raw, mem, same⟩ := any_eq_true.mp shadowed
    obtain rfl : raw.name = name := of_decide_eq_true same
    exact mapDefinitions_defines mapped (mem_append_left _ mem)
  · have carried : { entry.definition with
        serviceSecurity := read.inheritedServiceSecurity.getD .default } ∈
          services.carriedDefinitions read := by
      refine mem_append_right _ (mem_filterMap.mpr ⟨(name, entry), ?_, ?_⟩)
      · rw [mem_filter]
        refine ⟨(OrdMap.mem_toList _ _ _).mpr got, ?_⟩
        simp only [builtIn, shadowed, Bool.not_false, Bool.and_self]
      · dsimp only [definitionInheritingServiceSecurity, definition]
        rw [got]
        rfl
    obtain ⟨definition, defines⟩ := mapDefinitions_defines mapped carried
    exact ⟨definition, named ▸ defines⟩

/-! ## Runs -/

inductive TableEvent where
  | reload (read : ServiceDefinitionsRead) (frozen : List String)
  | transition (service : String) (transition : ServiceTransition)

namespace ServiceTable

/-- The table after the event; what is refused changes nothing. -/
def perform (services : ServiceTable) : TableEvent → ServiceTable
  | .reload read frozen =>
    match services.applyDefinitionSnapshotWith (services.carriedDefinitions read) read.undecodable
        frozen with
    | .ok out => out.1
    | .error _ => services
  | .transition service transition =>
    match services.transitionService service transition with
    | .ok out => out.1
    | .error _ => services

/-- Every entry, and what is pending for it, is for the service it is filed under. -/
def Keyed (services : ServiceTable) : Prop :=
  ∀ name entry, services.get name = some entry → entry.definition.name = name ∧
    ∀ pending ∈ entry.pendingDefinition, pending.name = name

/-- What an event does to the entry of one service. -/
inductive EntryStep (services : ServiceTable) (name : String) :
    TableEvent → Option ServiceEntry → Option ServiceEntry → Prop
  | rejected (read : ServiceDefinitionsRead) (frozen : List String) (error : ServiceTableError)
      (entry : Option ServiceEntry)
      (rejects : mapDefinitions (services.carriedDefinitions read) = .error error) :
      EntryStep services name (.reload read frozen) entry entry
  | unmoved (service : String) (transition : ServiceTransition) (entry : Option ServiceEntry) :
      EntryStep services name (.transition service transition) entry entry
  | reloaded (read : ServiceDefinitionsRead) (frozen : List String)
      (incoming : OrdMap String ServiceDefinition) (before after : Option ServiceEntry)
      (mapped : mapDefinitions (services.carriedDefinitions read) = .ok incoming)
      (change : EntryReloaded incoming read.undecodable frozen name before after) :
      EntryStep services name (.reload read frozen) before after
  | discarded (entry : ServiceEntry) (transition : ServiceTransition)
      (allowed : isAllowedTransition entry.runtime.state transition.target transition.cause = true)
      (removed : entry.definitionRemoved = true)
      (down : retainsDefinitionAfterRemoval transition.target = false) :
      EntryStep services name (.transition name transition) (some entry) none
  | moved (entry : ServiceEntry) (transition : ServiceTransition)
      (allowed : isAllowedTransition entry.runtime.state transition.target transition.cause = true)
      (stays : entry.definitionRemoved = false ∨ retainsDefinitionAfterRemoval transition.target = true) :
      EntryStep services name (.transition name transition) (some entry) (some (entry.moved transition))

theorem perform_cases (svcs : ServiceTable) (event : TableEvent) (name : String) :
    EntryStep svcs name event (svcs.get name) ((svcs.perform event).get name) := by
  cases event with
  | reload read frozen =>
    unfold perform
    dsimp only
    rcases mapped : mapDefinitions (svcs.carriedDefinitions read) with error | inc
    · have rejected : svcs.applyDefinitionSnapshotWith (svcs.carriedDefinitions read)
          read.undecodable frozen = .error error := by
        unfold applyDefinitionSnapshotWith
        rw [mapped]
        rfl
      rw [rejected]
      exact .rejected read frozen error _ mapped
    · obtain ⟨out, ran⟩ := exists_applyDefinitionSnapshotWith svcs read.undecodable frozen mapped
      obtain ⟨incoming', mapped', cases⟩ := applyDefinitionSnapshotWith_ok ran
      obtain rfl : inc = incoming' := Except.ok.inj (mapped.symm.trans mapped')
      rw [ran]
      exact .reloaded read frozen inc _ _ mapped (cases name)
  | transition service tr =>
    unfold perform
    dsimp only
    rcases ran : svcs.transitionService service tr with error | out
    · exact .unmoved _ _ _
    · obtain ⟨entry, got, allowed, next⟩ := transitionService_eq_ok ran
      dsimp only
      rw [next]
      by_cases here : name = service
      · subst here
        rw [get_moveEntry, got]
        split_ifs with goes
        · simp only [Bool.and_eq_true, Bool.not_eq_true'] at goes
          exact .discarded entry tr allowed goes.1 goes.2
        · refine .moved entry tr allowed ?_
          rcases removed : entry.definitionRemoved with _ | _
          · exact .inl rfl
          · rw [removed] at goes
            exact .inr (by simpa using goes)
      · rw [get_moveEntry_ne here]
        exact .unmoved _ _ _

/-! ### The services that entries are for -/

variable {svcs : ServiceTable} {event : TableEvent}

theorem EntryReloaded.keyed (mapped : mapDefinitions definitions = .ok inc)
    {undecodable : List UndecodableService} {after : Option ServiceEntry}
    (change : EntryReloaded inc undecodable frozen name before after)
    (keyed : ∀ entry ∈ before, entry.definition.name = name ∧
      ∀ pending ∈ entry.pendingDefinition, pending.name = name) :
    ∀ entry ∈ after, entry.definition.name = name ∧
      ∀ pending ∈ entry.pendingDefinition, pending.name = name := by
  have names {definition : ServiceDefinition} (defined : inc[name]? = some definition) :
      definition.name = name := ((mapDefinitions_get mapped).mp defined).2
  rintro entry' mem
  cases change with
  | added definition defined =>
    cases mem
    exact ⟨names defined, by simp [fresh]⟩
  | deferred entry definition defined held =>
    cases mem
    refine ⟨(keyed entry rfl).1, fun pending pends => ?_⟩
    rw [pending_defer pends]
    exact names defined
  | updated entry definition defined free =>
    cases mem
    refine ⟨name_applyReloadedDefinition.trans (names defined), fun pending pends => ?_⟩
    rw [pending_applyReloadedDefinition pends]
    exact names defined
  | absent undefined unnamed => cases mem
  | marked entry undefined unnamed free read up =>
    cases mem
    exact keyed entry rfl
  | discarded entry undefined unnamed free read down => cases mem
  | refusedUp entry undefined named free up =>
    cases mem
    exact ⟨(keyed entry rfl).1, by simp⟩
  | refused before message undefined named free down =>
    cases mem
    exact ⟨rfl, by simp [placeholder]⟩
  | _ => exact keyed entry' mem

theorem Keyed.perform (keyed : svcs.Keyed) (event : TableEvent) : (svcs.perform event).Keyed := by
  intro name entry' found'
  have step := perform_cases svcs event name
  generalize got : svcs.get name = before at step
  generalize (svcs.perform event).get name = after at step found'
  cases step with
  | rejected => exact keyed name entry' (got.trans found')
  | unmoved => exact keyed name entry' (got.trans found')
  | reloaded read frozen inc _ _ mapped change =>
    exact change.keyed mapped (fun entry mem => keyed name entry (got.trans mem)) entry' found'
  | discarded => cases found'
  | moved entry tr =>
    cases found'
    obtain ⟨named, pendingNamed⟩ := keyed name entry got
    unfold moved
    dsimp only
    split_ifs
    · exact ⟨named, pendingNamed⟩
    · refine ⟨?_, by simp⟩
      rcases pends : entry.pendingDefinition with _ | pending
      · exact named
      · exact pendingNamed pending pends

theorem perform_transition
    (ran : svcs.transitionService service tr = .ok out) :
    svcs.perform (.transition service tr) = out.1 := by
  unfold perform
  dsimp only
  rw [ran]

theorem Keyed.moved
    (keyed : svcs.Keyed)
    (ran : svcs.transitionService service tr = .ok out) : out.1.Keyed :=
  perform_transition ran ▸ keyed.perform _

theorem fromBootSnapshot_get (booted : fromBootSnapshot definitions = .ok svcs) :
    ∃ mapped, mapDefinitions definitions = .ok mapped ∧
      ∀ name, svcs.get name = mapped[name]?.map .fresh := by
  obtain ⟨mapped, maps, rest⟩ := bind_eq_ok.mp booted
  cases rest
  refine ⟨mapped, maps, fun name => ?_⟩
  exact Std.ExtTreeMap.getElem?_map

theorem keyed_fromBootSnapshot (booted : fromBootSnapshot definitions = .ok svcs) : svcs.Keyed := by
  obtain ⟨mapped, maps, entries⟩ := fromBootSnapshot_get booted
  intro name entry got
  rw [entries, Option.map_eq_some_iff] at got
  obtain ⟨definition, defined, rfl⟩ := got
  exact ⟨((mapDefinitions_get maps).mp defined).2, by simp [fresh]⟩

/-! ### What is pinned -/

def IsUp (services : ServiceTable) (service : String) : Prop :=
  ∃ entry, services.get service = some entry ∧ retainsDefinitionAfterRemoval entry.runtime.state = true

def pinned (services : ServiceTable) (service : String) : Option PinnedFields :=
  (services.definition service).map (·.pinned)

theorem pinned_perform (up : svcs.IsUp service) (up' : (svcs.perform event).IsUp service) :
    (svcs.perform event).pinned service = svcs.pinned service := by
  obtain ⟨entry, got, up⟩ := up
  obtain ⟨entry', found', up'⟩ := up'
  unfold pinned definition
  have step := perform_cases svcs event service
  rw [got, found'] at step ⊢
  simp only [Option.map_some, Option.some.injEq]
  cases step with
  | rejected => rfl
  | unmoved => rfl
  | reloaded read frozen inc _ _ mapped change =>
    cases change with
    | updated _ definition =>
      rw [ServiceEntry.applyReloadedDefinition, if_pos up]
      rfl
    | refused _ message _ _ _ down =>
      rw [down entry rfl] at up
      cases up
    | _ => rfl
  | moved _ tr =>
    rw [moved_runtime, ServiceRuntimeSnapshot.moved_state] at up'
    rw [definition_moved_of_up up']

/-- The service is up before and after each of the events. -/
def UpThroughout (services : ServiceTable) (service : String) (events : List TableEvent) : Prop :=
  ∀ k ≤ events.length, (runCalls perform services (events.take k)).IsUp service

theorem pinned_run (events : List TableEvent) :
    ∀ {svcs : ServiceTable}, svcs.UpThroughout service events →
      (runCalls perform svcs events).pinned service = svcs.pinned service := by
  induction events with
  | nil => exact fun _ => rfl
  | cons event events ih =>
    intro svcs up
    have now : svcs.IsUp service := up 0 (Nat.zero_le _)
    have next : (svcs.perform event).IsUp service := up 1 (by simp)
    have rest : (svcs.perform event).UpThroughout service events :=
      fun k le => up (k + 1) (by simpa using le)
    exact (ih rest).trans (pinned_perform now next)

end ServiceTable

/-! ## The last snapshot -/

/-- The table, the definitions of the last snapshot that was applied, and what it left alone. -/
structure Configured where
  services : ServiceTable
  last : OrdMap String ServiceDefinition
  frozen : List String

namespace Configured

def boot (definitions : List ServiceDefinition) : Except ServiceTableError Configured := do
  let services ← ServiceTable.fromBootSnapshot definitions
  let last ← mapDefinitions definitions
  return { services, last, frozen := [] }

def perform (state : Configured) (event : TableEvent) : Configured :=
  match event with
  | .reload read frozen =>
    match mapDefinitions (state.services.carriedDefinitions read) with
    | .ok last => { services := state.services.perform event, last, frozen }
    | .error _ => state
  | .transition _ _ => { state with services := state.services.perform event }

/-- What a service is to be is what the last snapshot defines. -/
def Current (state : Configured) : Prop :=
  ∀ name entry, state.services.get name = some entry → entry.definitionRemoved = false →
    name ∉ state.frozen → state.last[name]? = some entry.desiredDefinition

theorem services_perform (state : Configured) (event : TableEvent) :
    (state.perform event).services = state.services.perform event := by
  unfold perform
  cases event with
  | reload read frozen =>
    dsimp only
    rcases mapped : mapDefinitions (state.services.carriedDefinitions read) with error | last
    · unfold ServiceTable.perform applyDefinitionSnapshotWith
      dsimp only
      rw [mapped]
      rfl
    · rfl
  | transition service tr => rfl

theorem services_run (events : List TableEvent) : ∀ state : Configured,
    (runCalls perform state events).services = runCalls ServiceTable.perform state.services events := by
  induction events with
  | nil => exact fun _ => rfl
  | cons event events ih =>
    intro state
    change (runCalls perform (state.perform event) events).services = _
    rw [ih, services_perform]
    rfl

/-- After a snapshot everything that it left neither removed nor alone is as it defines it.  Nothing is
left out as built in: a reload carries those definitions along. -/
theorem current_of_reload (keyed : services.Keyed) {last : OrdMap String ServiceDefinition}
    (mapped : mapDefinitions (services.carriedDefinitions read) = .ok last)
    (got : services.get name = before)
    (change : ServiceTable.EntryReloaded last read.undecodable frozen name before (some entry))
    (present : entry.definitionRemoved = false) (free : name ∉ frozen) :
    last[name]? = some entry.desiredDefinition := by
  generalize after : some entry = result at change
  cases change with
  | added definition defined =>
    cases after
    exact defined
  | deferred _ _ _ held => exact absurd held free
  | updated before definition defined =>
    cases after
    exact defined.trans (congrArg some desired_applyReloadedDefinition.symm)
  | absent => cases after
  | held _ _ held => exact absurd held free
  | builtIn before undefined _ _ builtIn =>
    obtain ⟨definition, defined⟩ :=
      carriedDefinitions_defines mapped got (keyed name before got).1 builtIn
    rw [undefined] at defined
    cases defined
  | discarded => cases after
  | _ =>
    cases after
    cases present

theorem Current.perform {state : Configured} (keyed : state.services.Keyed) (current : state.Current)
    (event : TableEvent) : (state.perform event).Current := by
  intro name entry got present free
  have step := perform_cases state.services event name
  rw [← services_perform, got] at step
  generalize at_ : state.services.get name = before at step
  generalize after : some entry = result at step
  unfold Configured.perform at free ⊢
  cases step with
  | rejected read frozen error _ rejects =>
    subst after
    simp only [rejects] at free ⊢
    exact current name entry at_ present free
  | unmoved =>
    subst after
    exact current name entry at_ present free
  | reloaded read frozen inc _ _ mapped change =>
    subst after
    simp only [mapped] at free ⊢
    exact current_of_reload keyed mapped at_ change present free
  | discarded => cases after
  | moved entry tr =>
    cases after
    rw [desired_moved]
    exact current name entry at_ (by rwa [moved_definitionRemoved] at present) free

theorem current_run
    (booted : boot definitions = .ok start) (events : List TableEvent) :
    (runCalls perform start events).Current := by
  obtain ⟨services, table, rest⟩ := bind_eq_ok.mp booted
  obtain ⟨last, mapped, rest⟩ := bind_eq_ok.mp rest
  cases rest
  refine (invariant_of_calls (fun state : Configured => state.services.Keyed ∧ state.Current)
    (fun state event inv => ⟨?_, inv.2.perform inv.1 event⟩) events ⟨?_, ?_⟩).2
  · rw [services_perform]
    exact inv.1.perform event
  · exact keyed_fromBootSnapshot table
  · intro name entry got _ _
    obtain ⟨last', mapped', entries⟩ := fromBootSnapshot_get table
    obtain rfl : last = last' := Except.ok.inj (mapped.symm.trans mapped')
    rw [entries, Option.map_eq_some_iff] at got
    obtain ⟨definition, defined, rfl⟩ := got
    exact defined

/-- Along every run of reloads and transitions from a boot, what a service that is neither built in nor
removed nor left alone is to be is what the last snapshot defines, and as long as a service is up its
pinned fields stay. -/
theorem configuration_generations_exact {definitions : List ServiceDefinition} {start : Configured}
    (booted : boot definitions = .ok start) (events : List TableEvent) :
    let state := runCalls perform start events
    (∀ name entry, state.services.get name = some entry → entry.definition.compiledIn = false →
      entry.definitionRemoved = false → name ∉ state.frozen →
        state.last[name]? = some (entry.pendingDefinition.getD entry.definition)) ∧
    ∀ service more, state.services.UpThroughout service more →
      (runCalls perform state more).services.pinned service = state.services.pinned service := by
  refine ⟨fun name entry found _ present free => ?_, fun service more up => ?_⟩
  · exact current_run booted events name entry found present free
  · rw [services_run]
    exact ServiceTable.pinned_run more up

/-- A service is started, and while it is up its image and its arguments are changed. -/
def changedWhileUp : List TableEvent := [.transition "app" ⟨.starting, .explicitStart⟩,
    .reload { definitions := [{ name := "app", imagePath := "/sbin/new", arguments := ["-v"] }] } []]

theorem configuration_generations_exact_changedWhileUp :
    ∃ start entry, boot [{ name := "app", imagePath := "/sbin/old" }] = .ok start ∧
      (runCalls perform start changedWhileUp).services.get "app" = some entry ∧
      entry.definition.imagePath = "/sbin/old" ∧ entry.definition.arguments = ["-v"] ∧
      (runCalls perform start changedWhileUp).last["app"]? =
        some (entry.pendingDefinition.getD entry.definition) := by
  obtain ⟨start, booted, entry, found, read, present, free, image, arguments⟩ : ∃ start,
      boot [{ name := "app", imagePath := "/sbin/old" }] = .ok start ∧
      ∃ entry, (runCalls perform start changedWhileUp).services.get "app" = some entry ∧
        entry.definition.compiledIn = false ∧ entry.definitionRemoved = false ∧
        "app" ∉ (runCalls perform start changedWhileUp).frozen ∧
        entry.definition.imagePath = "/sbin/old" ∧ entry.definition.arguments = ["-v"] := by
    decide +kernel
  exact ⟨start, entry, booted, found, image, arguments,
    (configuration_generations_exact booted changedWhileUp).1 "app" entry found read present free⟩

end Configured

end Peinit
