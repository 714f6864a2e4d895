import Peinit.Lib.Collect
import Peinit.Lib.Settle
import Peinit.Operation.Store
import Peinit.Service.Definition

/-!
# The closure of a start

Starting a service pulls in the services it depends on that do not satisfy it yet: `included` holds
what has been reached, `blocked` why a member cannot be started. Blocking spreads along hard
dependencies. The closure computes `Reached` and `Blocked`: `mem_included`, `mem_blocked`.
-/

namespace Peinit

/-! ## Start plans -/

structure PlannedStart where
  service : String
  operationSource : OperationSource
  transitionCause : TransitionCause
  deriving DecidableEq

inductive DependencyAvailability where
  | missing | definitionRemoved | disabled
  deriving DecidableEq

inductive StartBlockReason where
  | hardDependencyUnavailable (target : String) (kind : ServiceDependencyKind)
      (availability : DependencyAvailability)
  | hardDependencyBlocked (target : String) (kind : ServiceDependencyKind)
  deriving DecidableEq

structure StartPlanBlockedService where
  service : String
  reason : StartBlockReason
  deriving DecidableEq

structure OnDemandStartPlan where
  requested : String
  requestedOperationSource : OperationSource
  requestedTransitionCause : TransitionCause
  starts : List PlannedStart
  blocked : List StartPlanBlockedService
  deriving DecidableEq

structure OnDemandStartDispatch where
  plan : OnDemandStartPlan
  requestedOperation : OperationRequestOutcome
  dependencyOperations : List OperationRequestOutcome
  events : List OperationEvent
  deriving DecidableEq

/-! ## The closure -/

open OrdSet List

variable {service : String} {entry : ServiceEntry} {seen : List String} {closure : StartClosure}

structure StartClosure where
  included : OrdSet String := ∅
  blocked : OrdMap String StartPlanBlockedService := ∅

namespace StartClosure

def startableServices (closure : StartClosure) : OrdSet String :=
  closure.included.filter fun service => !closure.blocked.contains service

end StartClosure

inductive IncludeMode where
  | requested | dependency
  deriving DecidableEq

inductive DependencyEntry where
  | startable
  | satisfied
  | unavailable (availability : DependencyAvailability)
  deriving DecidableEq

def dependencyEntry (services : ServiceTable) (service : String) (level : Option String) :
    DependencyEntry :=
  match services.get service with
  | none => .unavailable .missing
  | some entry =>
    if entry.satisfies level then .satisfied
    else if entry.definitionRemoved then .unavailable .definitionRemoved
    else if entry.definition.disabled then .unavailable .disabled
    else .startable

/-- The first reason a service is blocked for is kept. -/
def StartClosure.blockUnavailable (closure : StartClosure) (service : String)
    (dependency : ServiceDependency) (availability : DependencyAvailability) : StartClosure :=
  { closure with
    blocked := closure.blocked.insertIfNew service
      { service
        reason := .hardDependencyUnavailable dependency.target dependency.kind availability } }

section Collect

variable (services : ServiceTable)

/-- Include a hard dependency of `service` by `include`, or block `service` for it. -/
def includeHardDependency (includeService : String → StartClosure → StartClosure) (service : String)
    (closure : StartClosure) (dependency : ServiceDependency) : StartClosure :=
  match dependencyEntry services dependency.target dependency.level with
  | .startable => includeService dependency.target closure
  | .satisfied => closure
  | .unavailable availability => closure.blockUnavailable service dependency availability

def includeWantedDependency (includeService : String → StartClosure → StartClosure)
    (closure : StartClosure) (declared : String) : StartClosure :=
  if dependencyEntry services (splitTarget declared).1 (splitTarget declared).2 = .startable then
    includeService (splitTarget declared).1 closure
  else closure

/-- What `service` pulls in, once it is included itself. -/
def includeDependencies (includeService : String → StartClosure → StartClosure) (service : String)
    (definition : ServiceDefinition) (closure : StartClosure) : StartClosure :=
  definition.wants.foldl (includeWantedDependency services includeService)
    ((hardDependencies definition).foldl (includeHardDependency services includeService service) closure)

/-- Fuel bounds the depth; each level includes a service of the table. -/
def includeServiceWithMode : ℕ → IncludeMode → String → StartClosure → StartClosure
  | 0, _, _, closure => closure
  | fuel + 1, mode, service, closure =>
    match services.get service with
    | none => closure
    | some entry =>
      if mode = .dependency ∧ entry.runtime.state.satisfiesDependents = true then closure
      else if service ∈ closure.included then closure
      else
        let closure := { closure with included := closure.included.insert service }
        -- The restart that a backoff waits for plans the service's own dependencies when it is due.
        if mode = .dependency ∧ entry.runtime.state = .backoff then closure
        else includeDependencies services (includeServiceWithMode fuel .dependency) service
          entry.definition closure

/-- Block `service` if a hard dependency of it is blocked; the flag says that something changed. -/
def blockDependent (state : OrdMap String StartPlanBlockedService × Bool) (service : String) :
    OrdMap String StartPlanBlockedService × Bool :=
  if service ∈ state.1 then state
  else match services.get service with
    | none => state
    | some entry =>
      match (hardDependencies entry.definition).find? (fun dependency =>
        state.1.contains dependency.target) with
      | none => state
      | some dependency =>
        (state.1.insert service
          { service, reason := .hardDependencyBlocked dependency.target dependency.kind }, true)

def propagateRound (included : OrdSet String) (blocked : OrdMap String StartPlanBlockedService) :
    OrdMap String StartPlanBlockedService × Bool :=
  included.toList.foldl (blockDependent services) (blocked, false)

/-- Rounds until one blocks nothing more; each of the others blocks a member of the closure. -/
def propagateBlocked (closure : StartClosure) : StartClosure :=
  { closure with
    blocked := settle (propagateRound services closure.included)
      (closure.included.toList.length + 1) closure.blocked }

def collectStartClosure (service : String) : StartClosure :=
  propagateBlocked services
    (includeServiceWithMode services (services.entries.size + 1) .requested service {})

end Collect

/-! ## What is reached -/

section Reached

variable (services : ServiceTable) (requested : String)

/-- The declarations that can pull a service in, in the order they are looked at. -/
def pullingDependencies (definition : ServiceDefinition) : List ServiceDependency :=
  hardDependencies definition ++ definition.wants.map (dependency · .wants)

/-- Whether the service's own dependencies are looked at when it is part of the closure. -/
def Expands (service : String) (entry : ServiceEntry) : Prop :=
  service = requested ∨ entry.runtime.state ≠ .backoff

instance (service : String) (entry : ServiceEntry) : Decidable (Expands requested service entry) :=
  inferInstanceAs (Decidable (_ ∨ _))

/-- Starting `requested` with `service` in the closure pulls `target` in. -/
def Pulls (service target : String) : Prop :=
  ∃ entry, services.get service = some entry ∧ Expands requested service entry ∧
    (∃ dependency ∈ pullingDependencies entry.definition, dependency.target = target ∧
      dependencyEntry services target dependency.level = .startable) ∧
    ∃ pulled, services.get target = some pulled ∧ pulled.runtime.state.satisfiesDependents = false

def Reached (service : String) : Prop := Relation.ReflTransGen (Pulls services requested) requested service

def LacksDependency (service : String) : Prop :=
  ∃ entry, services.get service = some entry ∧ Expands requested service entry ∧
    ∃ dependency ∈ hardDependencies entry.definition, ∃ availability,
      dependencyEntry services dependency.target dependency.level = .unavailable availability

inductive Blocked : String → Prop
  | lacks {service : String} : Reached services requested service →
      LacksDependency services requested service → Blocked service
  | depends {service : String} {entry : ServiceEntry} {dependency : ServiceDependency} :
      Reached services requested service → services.get service = some entry →
      dependency ∈ hardDependencies entry.definition → Blocked dependency.target → Blocked service

end Reached

/-! ## What is collected -/

section Collected

variable {svcs : ServiceTable} {requested : String}

def includable (services : ServiceTable) (service : String) : Bool :=
  (services.get service).any fun entry => !entry.runtime.state.satisfiesDependents

theorem includable_iff : includable svcs service = true ↔
    ∃ pulled, svcs.get service = some pulled ∧ pulled.runtime.state.satisfiesDependents = false := by
  simp [includable, Option.any_eq_true]

def collecting (services : ServiceTable) (requested : String) : Collecting StartClosure String where
  included closure service := service ∈ closure.included
  blocked closure service := service ∈ closure.blocked
  Reached := Reached services requested
  Pulls := Pulls services requested
  Lacks := LacksDependency services requested
  Able service := includable services service = true
  Inv closure := requested ∈ closure.included ∧
    ∀ service ∈ closure.blocked, LacksDependency services requested service
  nodes := services.entries.keys.toFinset

theorem mem_blockUnavailable {other : String}
    {dep : ServiceDependency} {availability : DependencyAvailability} :
    other ∈ (closure.blockUnavailable service dep availability).blocked ↔
      other = service ∨ other ∈ closure.blocked := by
  simp only [StartClosure.blockUnavailable, Std.ExtTreeMap.mem_insertIfNew, Std.compare_eq_iff_eq]
  rw [eq_comm]

section Dependencies

variable {room : ℕ} {visit : String → StartClosure → StartClosure} {pending : List String}
  {closure : StartClosure} {target : ServiceDependency}
  (visits : (collecting svcs requested).Visits room visit)
  (got : svcs.get svc = some entry) (expands : Expands requested svc entry)
  (reached : Reached svcs requested svc)

include visits got expands reached

theorem tracks_visit (mem : target ∈ pullingDependencies entry.definition)
    (startable : dependencyEntry svcs target.target target.level = .startable)
    (tracks : (collecting svcs requested).Tracks pending closure)
    (fits : (collecting svcs requested).outside closure ≤ room) :
    (collecting svcs requested).Grows closure (visit target.target closure) ∧
      (collecting svcs requested).Tracks pending (visit target.target closure) ∧
      (includable svcs target.target = true →
        target.target ∈ (visit target.target closure).included) := by
  refine visits pending target.target closure tracks (fun able => ?_) fits
  exact reached.tail ⟨entry, got, expands, ⟨target, mem, rfl, startable⟩, includable_iff.mp able⟩

theorem follows_includeHardDependency (mem : target ∈ hardDependencies entry.definition) :
    (collecting svcs requested).Follows svc room (includeHardDependency svcs visit svc)
      ServiceDependency.target
      (fun target => dependencyEntry svcs target.target target.level = .startable ∧
        includable svcs target.target = true)
      (fun target => ∃ availability, dependencyEntry svcs target.target target.level =
        .unavailable availability) target := by
  intro pending closure tracks inside fits
  unfold includeHardDependency
  rcases available : dependencyEntry svcs target.target target.level with _ | _ | reason
  · obtain ⟨grows, tracks, here⟩ := tracks_visit visits got expands reached
      (mem_append_left _ mem) available tracks fits
    exact ⟨grows, tracks, fun pulls => here pulls.2, by simp [available]⟩
  · exact ⟨.refl _, tracks, by simp [available], by simp [available]⟩
  · have lacking : ∀ other ∈ (closure.blockUnavailable svc target reason).blocked,
        LacksDependency svcs requested other := by
      intro other blocked
      rcases mem_blockUnavailable.mp blocked with rfl | blocked
      · exact ⟨entry, got, expands, target, mem, reason, available⟩
      · exact tracks.inv.2 other blocked
    obtain ⟨grows, tracks⟩ := tracks.block (t := closure.blockUnavailable svc target reason)
      inside (fun _ => .rfl) (fun _ => mem_blockUnavailable) ⟨tracks.inv.1, lacking⟩
    exact ⟨grows, tracks, by simp [available], fun _ => mem_blockUnavailable.mpr (.inl rfl)⟩

theorem follows_includeWantedDependency {declared : String} (mem : declared ∈ entry.definition.wants) :
    (collecting svcs requested).Follows svc room (includeWantedDependency svcs visit)
      (fun declared => (splitTarget declared).1)
      (fun declared => dependencyEntry svcs (splitTarget declared).1 (splitTarget declared).2 =
        .startable ∧ includable svcs (splitTarget declared).1 = true)
      (fun _ => False) declared := by
  intro pending closure tracks inside fits
  unfold includeWantedDependency
  split_ifs with startable
  · have wanted : dependency declared .wants ∈ pullingDependencies entry.definition :=
      mem_append_right _ (mem_map.mpr ⟨declared, mem, rfl⟩)
    obtain ⟨grows, tracks, here⟩ := tracks_visit visits got expands reached wanted startable tracks fits
    exact ⟨grows, tracks, fun pulls => here pulls.2, False.elim⟩
  · exact ⟨.refl _, tracks, fun pulls => absurd pulls.1 startable, False.elim⟩

theorem tracks_includeDependencies (inside : svc ∈ closure.included)
    (tracks : (collecting svcs requested).Tracks (svc :: pending) closure)
    (fits : (collecting svcs requested).outside closure ≤ room) :
    let after := includeDependencies svcs visit svc entry.definition closure
    (collecting svcs requested).Grows closure after ∧
      (collecting svcs requested).Tracks pending after := by
  obtain ⟨grows, tracks, hard⟩ := Collecting.Follows.foldl (fun target mem =>
    follows_includeHardDependency visits got expands reached mem) tracks inside fits
  obtain ⟨grows', tracks, wanted⟩ := Collecting.Follows.foldl (fun declared mem =>
    follows_includeWantedDependency visits got expands reached mem) tracks
    (grows.included _ inside) (grows.outside_le.trans fits)
  refine ⟨grows.trans grows', tracks.done (fun target pulls => ?_) fun lacks => ?_⟩
  · obtain ⟨_, found', -, ⟨pulling, mem, rfl, startable⟩, able⟩ := pulls
    rw [got] at found'
    cases found'
    rcases mem_append.mp mem with mem | mem
    · exact grows'.included _ ((hard pulling mem).1 ⟨startable, includable_iff.mpr able⟩)
    · obtain ⟨declared, among, rfl⟩ := mem_map.mp mem
      exact (wanted declared among).1 ⟨startable, includable_iff.mpr able⟩
  · obtain ⟨_, found', -, lacking, mem, missing⟩ := lacks
    rw [got] at found'
    cases found'
    exact grows'.blocked _ ((hard lacking mem).2 missing)

end Dependencies

/-- A service in backoff does not expand, so nothing of it is left to look at. -/
theorem tracks_skip {pending : List String}
    (tracks : (collecting svcs requested).Tracks (svc :: pending) closure)
    (got : svcs.get svc = some entry) (still : ¬ Expands requested svc entry) :
    (collecting svcs requested).Tracks pending closure := by
  refine tracks.done (fun target pulls => ?_) fun lacks => ?_
  · obtain ⟨_, found', expands, -⟩ := pulls
    rw [got] at found'
    cases found'
    exact absurd expands still
  · obtain ⟨_, found', expands, -⟩ := lacks
    rw [got] at found'
    cases found'
    exact absurd expands still

theorem mem_nodes (got : svcs.get service = some entry) :
    service ∈ (collecting svcs requested).nodes :=
  mem_toFinset.mpr ((OrdMap.mem_keys _ _).mpr ⟨entry, got⟩)

theorem visits_includeService (room : ℕ) : (collecting svcs requested).Visits room
    (includeServiceWithMode svcs (room + 1) .dependency) := by
  induction room with
  | zero =>
    intro pending target closure tracks reached fits
    have inside : includable svcs target = true → target ∈ closure.included := by
      intro able
      obtain ⟨entry, got, -⟩ := includable_iff.mp able
      exact Collecting.included_of_outside fits (mem_nodes got)
    have same : includeServiceWithMode svcs (0 + 1) .dependency target closure = closure := by
      rw [includeServiceWithMode]
      rcases got : svcs.get target with _ | entry
      · rfl
      · by_cases satisfied : entry.runtime.state.satisfiesDependents = true
        · simp [satisfied]
        · have incl := inside (includable_iff.mpr ⟨entry, got, by simpa using satisfied⟩)
          simp [incl]
    rw [same]
    exact ⟨.refl closure, tracks, inside⟩
  | succ room ih =>
    intro pending target closure tracks reached fits
    rw [includeServiceWithMode]
    rcases got : svcs.get target with _ | entry
    · exact ⟨.refl closure, tracks, fun able => by simp [collecting, includable, got] at able⟩
    · dsimp only
      split_ifs with satisfied known waits
      · refine ⟨.refl closure, tracks, fun able => ?_⟩
        simp [collecting, includable, got, satisfied.2] at able
      · exact ⟨.refl closure, tracks, fun _ => known⟩
      all_goals
        have able : includable svcs target = true :=
          includable_iff.mpr ⟨entry, got, by simpa using satisfied⟩
        obtain ⟨enters, entered, tracked⟩ := tracks.insert
          (t := { closure with included := closure.included.insert target }) (reached able)
          (fun _ => mem_insert _ _ _) (fun _ => .rfl)
          ⟨(mem_insert _ _ _).mpr (.inr tracks.inv.1), tracks.inv.2⟩
      · have other : target ≠ requested := fun same => known (same ▸ tracks.inv.1)
        refine ⟨enters, tracks_skip tracked got ?_, fun _ => entered⟩
        exact fun expands => expands.resolve_left other waits.2
      · have fewer := enters.outside_lt (mem_nodes got) known entered
        obtain ⟨grows, after⟩ := tracks_includeDependencies ih got
          (.inr fun backoff => waits ⟨rfl, backoff⟩) (reached able) entered tracked (by omega)
        exact ⟨enters.trans grows, after, fun _ => grows.included _ entered⟩

/-- The closure of the requested service, before blocking is propagated. -/
def includedFrom (services : ServiceTable) (requested : String) : StartClosure :=
  includeServiceWithMode services (services.entries.size + 1) .requested requested {}

theorem tracks_includedFrom (got : svcs.get requested = some entry) :
    (collecting svcs requested).Tracks [] (includedFrom svcs requested) := by
  have unfolded : includedFrom svcs requested = includeDependencies svcs
      (includeServiceWithMode svcs svcs.entries.size .dependency) requested entry.definition
      { included := (∅ : OrdSet String).insert requested } := by
    simp [includedFrom, includeServiceWithMode, got]
  have only : ∀ other ∈ (∅ : OrdSet String).insert requested, other = requested := by
    intro other incl
    rw [mem_insert] at incl
    simpa [eq_comm] using incl
  have entered := (mem_insert (∅ : OrdSet String) requested requested).mpr (.inl rfl)
  have start : (collecting svcs requested).Tracks [requested]
      { included := (∅ : OrdSet String).insert requested } := by
    refine ⟨fun other incl => only other incl ▸ .refl, fun other incl unpending => ?_,
      fun other incl unpending => ?_, fun other blocked => by simp [collecting] at blocked,
      entered, fun other blocked => by simp at blocked⟩
    · exact absurd (only other incl) (by simpa using unpending)
    · exact absurd (only other incl) (by simpa using unpending)
  have fewer : (collecting svcs requested).outside
      { included := (∅ : OrdSet String).insert requested } < svcs.entries.size := by
    have enters : (collecting svcs requested).Grows {}
        { included := (∅ : OrdSet String).insert requested } :=
      ⟨fun _ mem => absurd mem Std.ExtTreeSet.not_mem_empty, fun _ mem => mem⟩
    refine (enters.outside_lt (mem_nodes got) Std.ExtTreeSet.not_mem_empty entered).trans_le ?_
    refine (Collecting.outside_le_card _).trans ((toFinset_card_le _).trans ?_)
    rw [Std.ExtTreeMap.length_keys]
  obtain ⟨room, size⟩ : ∃ room, svcs.entries.size = room + 1 := ⟨svcs.entries.size - 1, by omega⟩
  rw [unfolded, size]
  exact (tracks_includeDependencies (visits_includeService room) got (.inl rfl) .refl entered start
    (by omega)).2

theorem mem_includedFrom (got : svcs.get requested = some entry) :
    service ∈ (includedFrom svcs requested).included ↔ Reached svcs requested service := by
  have tracks := tracks_includedFrom got
  refine ⟨tracks.reached service, fun reached => ?_⟩
  induction reached with
  | refl => exact tracks.inv.1
  | tail _ pull incl => exact tracks.closed _ incl (by simp) _ pull

theorem mem_includedFrom_blocked (got : svcs.get requested = some entry) :
    service ∈ (includedFrom svcs requested).blocked ↔
      Reached svcs requested service ∧ LacksDependency svcs requested service := by
  have tracks := tracks_includedFrom got
  rw [← mem_includedFrom got]
  exact ⟨fun h => ⟨tracks.inside service h, tracks.inv.2 service h⟩,
    fun h => tracks.lacks service h.1 (by simp) h.2⟩

/-! ## Blocking spreads -/

abbrev BlockedMap := OrdMap String StartPlanBlockedService

/-- `service` is blocked, or nothing it hard-depends on is. -/
def SettledAt (services : ServiceTable) (blocked : BlockedMap) (service : String) : Prop :=
  service ∈ blocked ∨ ∀ entry, services.get service = some entry →
    ∀ dependency ∈ hardDependencies entry.definition, dependency.target ∉ blocked

/-- `after` is what is blocked when `service` is, for a hard dependency that is. -/
def BlocksDependent (services : ServiceTable) (blocked : BlockedMap) (service : String)
    (after : BlockedMap) : Prop :=
  (∃ entry, services.get service = some entry ∧
    ∃ dependency ∈ hardDependencies entry.definition, dependency.target ∈ blocked) ∧
  ∃ reason, after = blocked.insert service reason

theorem spreads_blockDependent (svcs : ServiceTable) :
    Spreads (blockDependent svcs) (fun blocked service => service ∈ blocked)
      (SettledAt svcs) (BlocksDependent svcs) := by
  intro state service
  unfold blockDependent
  split_ifs with known
  · exact .inl ⟨rfl, .inl known⟩
  · rcases got : svcs.get service with _ | entry
    · exact .inl ⟨rfl, .inr fun entry h => by simp [got] at h⟩
    · dsimp only
      split
      · next first =>
        refine .inl ⟨rfl, .inr fun entry' found' dep mem blocked => ?_⟩
        rw [got] at found'
        cases found'
        exact find?_eq_none.mp first dep mem blocked
      · next dep first =>
        have below := find?_some first
        refine .inr ⟨known, _, rfl, ⟨⟨entry, got, dep, mem_of_find?_eq_some first,
          below⟩, _, rfl⟩, ?_, fun other blocked => ?_⟩
        · simp
        · simp [blocked]

theorem mem_collectStartClosure_blocked (got : svcs.get requested = some entry) :
    service ∈ (collectStartClosure svcs requested).blocked ↔ Blocked svcs requested service := by
  have among : ∀ {other}, other ∈ (includedFrom svcs requested).included.toList ↔
      Reached svcs requested other := by
    intro other
    rw [Std.ExtTreeSet.mem_toList, mem_includedFrom got]
  -- From the first round on, what is blocked cannot be started, and includes what lacks a dependency.
  obtain ⟨last, result, ⟨sound, starts⟩, settled⟩ := (spreads_blockDependent svcs).settle
    (includedFrom svcs requested).included.toList
    (fun blocked => (∀ service ∈ blocked, Blocked svcs requested service) ∧
      ∀ service ∈ (includedFrom svcs requested).blocked, service ∈ blocked)
    (by
      rintro blocked service after mem inv ⟨⟨entry, got, dep, hard, below⟩, reason, rfl⟩
      refine ⟨fun other here => ?_, fun other here => by simp [inv.2 other here]⟩
      rw [Std.ExtTreeMap.mem_insert, Std.compare_eq_iff_eq] at here
      rcases here with rfl | here
      · exact .depends (among.mp mem) got hard (inv.1 _ below)
      · exact inv.1 other here)
    (includedFrom svcs requested).blocked
    ⟨fun other blocked => by
      obtain ⟨reached, lacks⟩ := (mem_includedFrom_blocked got).mp blocked
      exact .lacks reached lacks, fun _ h => h⟩
  have result : (collectStartClosure svcs requested).blocked = last := result
  rw [result]
  refine ⟨sound service, fun blocked => ?_⟩
  induction blocked with
  | lacks reached lacks => exact starts _ ((mem_includedFrom_blocked got).mpr ⟨reached, lacks⟩)
  | depends reached got hard _ below =>
    exact (settled _ (among.mpr reached)).resolve_right fun free => free _ got _ hard below

end Collected

end Peinit
