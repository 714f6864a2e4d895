import Peinit.Boot.Phase2
import Peinit.Lib.CycleRemoval
import Peinit.Lib.KeyedFold

/-!
# Why a service is blocked

Every pass of the planner records findings with `blockService`. `Ground` declares what each reason means,
and `Blocked` which services have one.
-/

namespace Peinit.Phase2

open BlockedServiceDraft OrdMap List

variable {P : String → BlockedReason → Prop} {target : String} {definition : ServiceDefinition}
  {cycle : List String} {blocked : BlockedServices}

/-! ## Recording a finding -/

section Record

variable {service other : String} {reason : BlockedReason}

theorem get_blockService_of_ne (away : other ≠ service) :
    (blockService blocked service reason)[other]? = blocked[other]? := by
  unfold blockService
  cases got : blocked[service]? with
  | none => exact (get_insert _ _ _ _).trans (if_neg away.symm)
  | some existing =>
    dsimp only
    split_ifs
    · rfl
    · exact (get_insert _ _ _ _).trans (if_neg away.symm)
    · exact (get_insert _ _ _ _).trans (if_neg away.symm)

def BlockedServiceDraft.reasons (draft : BlockedServiceDraft) : List BlockedReason :=
  draft.reason :: draft.additionalReasons

/-- What is recorded for `service` is for it, has grounds, and has no reason before the primary one. -/
structure BlockedServiceDraft.Explains (P : String → BlockedReason → Prop) (service : String)
    (draft : BlockedServiceDraft) : Prop where
  named : draft.service = service
  grounds : ∀ reason ∈ draft.reasons, P service reason
  ranked : ∀ reason ∈ draft.additionalReasons,
    failedCausePrecedence reason ≤ failedCausePrecedence draft.reason

def Explained (P : String → BlockedReason → Prop) (blocked : BlockedServices) : Prop :=
  ∀ (service : String) (draft : BlockedServiceDraft), blocked[service]? = some draft →
    draft.Explains P service

theorem get_blockService_self (blocked : BlockedServices) (svc : String) (reason : BlockedReason) :
    ∃ draft, (blockService blocked svc reason)[svc]? = some draft ∧
      (blocked[svc]? = none ∧ draft = ⟨svc, reason, []⟩ ∨
      ∃ existing, blocked[svc]? = some existing ∧
        (reason ∈ existing.reasons ∧ draft = existing ∨
        failedCausePrecedence existing.reason < failedCausePrecedence reason ∧ draft =
          { existing with reason, additionalReasons := existing.additionalReasons ++ [existing.reason] } ∨
        failedCausePrecedence reason ≤ failedCausePrecedence existing.reason ∧ draft =
          { existing with additionalReasons := existing.additionalReasons ++ [reason] })) := by
  unfold blockService
  cases got : blocked[svc]? with
  | none => exact ⟨_, (get_insert _ _ _ _).trans (if_pos rfl), .inl ⟨rfl, rfl⟩⟩
  | some existing =>
    dsimp only
    split_ifs with known higher
    · refine ⟨existing, got, .inr ⟨existing, rfl, .inl ⟨?_, rfl⟩⟩⟩
      exact mem_cons.mpr (known.imp_left Eq.symm)
    · exact ⟨_, (get_insert _ _ _ _).trans (if_pos rfl), .inr ⟨existing, rfl, .inr (.inl ⟨higher, rfl⟩)⟩⟩
    · exact ⟨_, (get_insert _ _ _ _).trans (if_pos rfl),
        .inr ⟨existing, rfl, .inr (.inr ⟨not_lt.mp higher, rfl⟩)⟩⟩

theorem mem_blockService : other ∈ blockService blocked service reason ↔ other = service ∨ other ∈ blocked := by
  rw [Std.ExtTreeMap.mem_iff_isSome_getElem?]
  by_cases here : other = service
  · subst here
    obtain ⟨draft, recorded, -⟩ := get_blockService_self blocked other reason
    simp [recorded]
  · rw [get_blockService_of_ne here]
    simp [here]

theorem Explained.blockService (explained : Explained P blocked)
    (ground : P service reason) : Explained P (blockService blocked service reason) := by
  intro other draft got
  by_cases here : other = service
  · subst here
    obtain ⟨draft', recorded, cases_⟩ := get_blockService_self blocked other reason
    obtain rfl := Option.some.inj (got.symm.trans recorded)
    rcases cases_ with ⟨-, rfl⟩ | ⟨existing, known, cases_⟩
    · exact ⟨rfl, by simpa [reasons] using ground, by simp⟩
    · have before := explained other existing known
      rcases cases_ with ⟨-, rfl⟩ | ⟨higher, rfl⟩ | ⟨lower, rfl⟩
      · exact before
      · refine ⟨before.named, fun mem here => ?_, fun mem here => ?_⟩
        · simp only [reasons, mem_cons, mem_append, not_mem_nil, or_false] at here
          rcases here with rfl | here | rfl
          · exact ground
          · exact before.grounds _ (by simp [reasons, here])
          · exact before.grounds _ (by simp [reasons])
        · rcases mem_append.mp here with here | here
          · exact (before.ranked _ here).trans higher.le
          · rw [mem_singleton.mp here]
            exact higher.le
      · refine ⟨before.named, fun mem here => ?_, fun mem here => ?_⟩
        · simp only [reasons, mem_cons, mem_append, not_mem_nil, or_false] at here
          rcases here with rfl | here | rfl
          · exact before.grounds _ (by simp [reasons])
          · exact before.grounds _ (by simp [reasons, here])
          · exact ground
        · rcases mem_append.mp here with here | here
          · exact before.ranked _ here
          · rw [mem_singleton.mp here]
            exact lower
  · rw [get_blockService_of_ne here] at got
    exact explained other draft got

def FailsForCycle (blocked : BlockedServices) (service : String) : Prop :=
  ∃ draft services, blocked[service]? = some draft ∧ draft.reason = .cycleDetected services

theorem eq_cycleDetected_of_precedence (top : 3 ≤ failedCausePrecedence reason) :
    ∃ svcs, reason = .cycleDetected svcs := by
  cases reason with
  | cycleDetected svcs => exact ⟨svcs, rfl⟩
  | _ => exact absurd top (by simp [failedCausePrecedence])

theorem FailsForCycle.blockService (fails : FailsForCycle blocked other) :
    FailsForCycle (blockService blocked service reason) other := by
  obtain ⟨existing, svcs, got, primary⟩ := fails
  by_cases here : other = service
  · subst here
    obtain ⟨draft, recorded, cases_⟩ := get_blockService_self blocked other reason
    refine ⟨draft, svcs, recorded, ?_⟩
    rcases cases_ with ⟨absent, -⟩ | ⟨existing', found', cases_⟩
    · cases absent.symm.trans got
    · obtain rfl := Option.some.inj (got.symm.trans found')
      rcases cases_ with ⟨-, rfl⟩ | ⟨higher, -⟩ | ⟨-, rfl⟩
      · exact primary
      · rw [primary] at higher
        exact absurd higher (by cases reason <;> simp [failedCausePrecedence])
      · exact primary
  · exact ⟨existing, svcs, (get_blockService_of_ne here).trans got, primary⟩

theorem Explained.failsForCycle (explained : Explained P blocked) (svcs : List String) :
    FailsForCycle (Phase2.blockService blocked service (.cycleDetected svcs)) service := by
  obtain ⟨draft, recorded, cases_⟩ := get_blockService_self blocked service (.cycleDetected svcs)
  rcases cases_ with ⟨-, rfl⟩ | ⟨existing, got, ⟨known, rfl⟩ | ⟨-, rfl⟩ | ⟨lower, rfl⟩⟩
  · exact ⟨_, svcs, recorded, rfl⟩
  · have top : 3 ≤ failedCausePrecedence draft.reason := by
      rcases mem_cons.mp known with same | later
      · rw [← same]
        rfl
      · exact (explained service draft got).ranked _ later
    obtain ⟨others, primary⟩ := eq_cycleDetected_of_precedence top
    exact ⟨draft, others, recorded, primary⟩
  · exact ⟨_, svcs, recorded, rfl⟩
  · obtain ⟨others, primary⟩ := eq_cycleDetected_of_precedence lower
    exact ⟨_, others, recorded, primary⟩

end Record

theorem mem_foldl_blocking {α : Type} {f : BlockedServices → α → BlockedServices}
    (adds : α → String → Prop) {svc : String} {xs : List α}
    (step : ∀ x ∈ xs, ∀ blocked, svc ∈ f blocked x ↔ svc ∈ blocked ∨ adds x svc) :
    ∀ blocked, svc ∈ xs.foldl f blocked ↔ svc ∈ blocked ∨ ∃ x ∈ xs, adds x svc := by
  induction xs with
  | nil => simp
  | cons x xs ih =>
    intro blocked
    rw [foldl_cons, ih fun y mem => step y (by simp [mem]), step x (by simp), or_assoc]
    simp

/-! ## The services by name -/

/-- Each service stands under its name. -/
def Indexes (byName : ServiceMap) (services : List ServiceDefinition) : Prop :=
  ∀ (service : String) (definition : ServiceDefinition),
    byName[service]? = some definition ↔ definition ∈ services ∧ definition.name = service

theorem indexes_of_serviceMap {svcs : List ServiceDefinition} {byName : ServiceMap}
    (idx : serviceMap svcs = .ok byName) : Indexes byName svcs := by
  intro svc definition
  have entered := get_foldlM_insert ServiceDefinition.name (fun {m a m'} added => by
    rw [addService] at added
    split_ifs at added with again
    cases added
    exact ⟨again, rfl⟩) idx svc definition
  simpa using entered

/-! ## Grounds -/

section Grounds

variable (parseError : String → Option String) (byName : ServiceMap) (included : OrdSet String)

/-- No service of the name can be started: it is missing or disabled. -/
def Unavailable (target : String) : Prop :=
  ∀ definition : ServiceDefinition, byName[target]? = some definition → definition.disabled = true

/-- Two services of the boot conflict, whichever of them says so. -/
def ConflictInBoot (service target : String) : Prop :=
  service ∈ included ∧ target ∈ included ∧
    ∃ definition other, byName[service]? = some definition ∧ byName[target]? = some other ∧
      definition.hasBootTrigger = true ∧ other.hasBootTrigger = true ∧
      (target ∈ definition.conflicts ∨ service ∈ other.conflicts)

def InvalidTimer (definition : ServiceDefinition) : Prop :=
  ∃ schedule message, .timer schedule ∈ definition.triggers ∧ parseError schedule = some message

def InvalidHealthCheck (definition : ServiceDefinition) : Prop :=
  definition.healthCheck.isSome = true ∧ (definition.serviceType ≠ .simple ∨
    definition.restartWindowSecs ≤ healthCheckFailureWindowSecs definition)

/-- `service` hard-depends on the target of `dependency`. -/
def HardDependsBy (service : String) (dependency : ServiceDependency) : Prop :=
  ∃ definition, byName[service]? = some definition ∧ dependency ∈ hardDependencies definition

/-- The search takes `service` out of the closure as part of a cycle. -/
def TakenForCycle (service : String) : Prop :=
  OnCycle included.contains (orderTargets byName) service ∧
    ¬ Masked (orderTargets byName) included service

inductive Blocked : String → Prop
  | unavailable {service : String} {dependency : ServiceDependency} : service ∈ included →
      HardDependsBy byName service dependency → Unavailable byName dependency.target → Blocked service
  | conflict {service target : String} : ConflictInBoot byName included service target → Blocked service
  | timer {service : String} {definition : ServiceDefinition} : byName[service]? = some definition →
      InvalidTimer parseError definition → Blocked service
  | healthCheck {service : String} {definition : ServiceDefinition} : service ∈ included →
      byName[service]? = some definition → InvalidHealthCheck definition → Blocked service
  | cycle {service : String} : TakenForCycle byName included service → Blocked service
  | depends {service : String} {dependency : ServiceDependency} : service ∈ included →
      HardDependsBy byName service dependency → Blocked dependency.target → Blocked service

/-- What a reason declares about the service. -/
def Ground (service : String) : BlockedReason → Prop
  | .hardDependencyUnavailable target kind => service ∈ included ∧ Unavailable byName target ∧
      ∃ dependency, HardDependsBy byName service dependency ∧ dependency.target = target ∧
        dependency.kind = kind
  | .hardDependencyBlocked target kind => service ∈ included ∧
      Blocked parseError byName included target ∧
      ∃ dependency, HardDependsBy byName service dependency ∧ dependency.target = target ∧
        dependency.kind = kind
  | .cycleDetected services => service ∈ services ∧
      IsDependencyCycle included.contains (orderTargets byName) services ∧
      TakenForCycle byName included service
  | .conflictingBootService target => ConflictInBoot byName included service target
  | .validationError _ => ∃ definition, byName[service]? = some definition ∧
      (InvalidTimer parseError definition ∨ service ∈ included ∧ InvalidHealthCheck definition)

end Grounds

section Passes

variable {perr : String → Option String} {byName : ServiceMap} {incl : OrdSet String}
  {svcs : List ServiceDefinition} {svc : String}

theorem Ground.isBlocked {reason : BlockedReason} (ground : Ground perr byName incl svc reason) :
    Blocked perr byName incl svc := by
  cases reason with
  | hardDependencyUnavailable target kind =>
    obtain ⟨inside, lacks, dep, depends, rfl, -⟩ := ground
    exact .unavailable inside depends lacks
  | hardDependencyBlocked target kind =>
    obtain ⟨inside, below, dep, depends, rfl, -⟩ := ground
    exact .depends inside depends below
  | cycleDetected svcs => exact .cycle ground.2.2
  | conflictingBootService target => exact .conflict ground
  | validationError message =>
    obtain ⟨definition, got, invalid | ⟨inside, invalid⟩⟩ := ground
    · exact .timer got invalid
    · exact .healthCheck inside got invalid

theorem Explained.isBlocked (explained : Explained (Ground perr byName incl) blocked)
    (mem : svc ∈ blocked) : Blocked perr byName incl svc := by
  obtain ⟨draft, got⟩ := Option.isSome_iff_exists.mp (Std.ExtTreeMap.mem_iff_isSome_getElem?.mp mem)
  exact ((explained svc draft got).grounds draft.reason (by simp [reasons])).isBlocked

/-! ### Conflicts -/

theorem ConflictInBoot.symm (conflict : ConflictInBoot byName incl svc target) :
    ConflictInBoot byName incl target svc := by
  obtain ⟨inside, inside', definition, other, got, found', boot, boot', declares⟩ := conflict
  exact ⟨inside', inside, other, definition, found', got, boot', boot, declares.symm⟩

theorem mem_foldl_insert (names : List String) (name : String) : ∀ set : OrdSet String,
    name ∈ names.foldl (·.insert ·) set ↔ name ∈ set ∨ name ∈ names := by
  induction names with
  | nil => simp
  | cons first names ih =>
    intro set
    rw [foldl_cons, ih, OrdSet.mem_insert, mem_cons, eq_comm, or_assoc, or_left_comm]

theorem mem_bootConflicts (idx : Indexes byName svcs) (inside : svc ∈ incl)
    (got : byName[svc]? = some definition) (boot : definition.hasBootTrigger = true) :
    target ∈ bootConflicts byName incl definition ↔ ConflictInBoot byName incl svc target := by
  obtain ⟨-, rfl⟩ := (idx _ _).mp got
  simp only [bootConflicts, symmetricConflicts, mem_filter, Std.ExtTreeSet.mem_toList,
    mem_foldl_insert, mem_append, mem_map, Bool.and_eq_true, Option.any_eq_true,
    mem_values, contains_iff_mem, decide_eq_true_eq]
  constructor
  · rintro ⟨declares, inside', other, found', boot'⟩
    obtain ⟨-, rfl⟩ := (idx _ _).mp found'
    refine ⟨inside, inside', definition, other, got, found', boot, boot', ?_⟩
    rcases declares with declares | declares | ⟨another, ⟨⟨name, found''⟩, -, declares⟩, same⟩
    · exact absurd declares Std.ExtTreeSet.not_mem_empty
    · exact .inl declares
    · obtain ⟨-, rfl⟩ := (idx _ _).mp found''
      rw [same, found'] at found''
      cases found''
      exact .inr declares
  · rintro ⟨-, inside', definition', other, found', found'', -, boot', declares⟩
    obtain rfl := Option.some.inj (got.symm.trans found')
    obtain ⟨-, rfl⟩ := (idx _ _).mp found''
    refine ⟨.inr ?_, inside', other, found'', boot'⟩
    by_cases same : other.name = definition.name
    · rw [same, got] at found''
      cases found''
      exact .inl (declares.elim id id)
    · exact declares.imp_right fun declares => ⟨other, ⟨⟨_, found''⟩, same, declares⟩, rfl⟩

theorem mem_blockConflictsOf (idx : Indexes byName svcs) {other : String} (inside : other ∈ incl) :
    svc ∈ blockConflictsOf byName incl blocked other ↔ svc ∈ blocked ∨
      ∃ target, ConflictInBoot byName incl other target ∧ (svc = other ∨ svc = target) := by
  unfold blockConflictsOf
  cases got : byName[other]? with
  | none =>
    refine ⟨.inl, fun mem => mem.resolve_right ?_⟩
    rintro ⟨target, ⟨-, -, definition, -, found', -⟩, -⟩
    cases got.symm.trans found'
  | some definition =>
    dsimp only
    split_ifs with boot
    · rw [mem_foldl_blocking (fun target svc => svc = other ∨ svc = target)
        fun target _ blocked => by
          rw [mem_blockService, mem_blockService]
          constructor
          · rintro (rfl | rfl | mem)
            · exact .inr (.inr rfl)
            · exact .inr (.inl rfl)
            · exact .inl mem
          · rintro (mem | rfl | rfl)
            · exact .inr (.inr mem)
            · exact .inr (.inl rfl)
            · exact .inl rfl]
      simp only [mem_bootConflicts idx inside got boot]
    · refine ⟨.inl, fun mem => mem.resolve_right ?_⟩
      rintro ⟨target, ⟨-, -, definition', -, found', -, boot', -⟩, -⟩
      obtain rfl := Option.some.inj (got.symm.trans found')
      exact boot boot'

theorem mem_blockUnresolvableConflicts (idx : Indexes byName svcs) :
    svc ∈ blockUnresolvableConflicts byName incl blocked ↔
      svc ∈ blocked ∨ ∃ target, ConflictInBoot byName incl svc target := by
  rw [blockUnresolvableConflicts, mem_foldl_blocking (fun other svc =>
    ∃ target, ConflictInBoot byName incl other target ∧ (svc = other ∨ svc = target))
    fun other mem blocked => mem_blockConflictsOf idx (Std.ExtTreeSet.mem_toList.mp mem)]
  refine or_congr_right ⟨?_, ?_⟩
  · rintro ⟨other, -, target, conflict, rfl | rfl⟩
    · exact ⟨target, conflict⟩
    · exact ⟨other, conflict.symm⟩
  · rintro ⟨target, conflict⟩
    exact ⟨svc, Std.ExtTreeSet.mem_toList.mpr conflict.1, target, conflict, .inl rfl⟩

theorem explained_blockUnresolvableConflicts (idx : Indexes byName svcs)
    (explained : Explained (Ground perr byName incl) blocked) :
    Explained (Ground perr byName incl) (blockUnresolvableConflicts byName incl blocked) := by
  refine foldlRecOn _ _ explained fun before explained other mem => ?_
  unfold blockConflictsOf
  cases got : byName[other]? with
  | none => exact explained
  | some definition =>
    dsimp only
    split_ifs with boot
    · refine foldlRecOn _ _ explained fun before explained target conflicts => ?_
      have conflict := (mem_bootConflicts idx (Std.ExtTreeSet.mem_toList.mp mem) got boot).mp conflicts
      have first : Ground perr byName incl other (.conflictingBootService target) := conflict
      have second : Ground perr byName incl target (.conflictingBootService other) := conflict.symm
      exact (explained.blockService first).blockService second
    · exact explained

/-! ### Invalid definitions -/

theorem mem_blockTimerSchedulesOf :
    svc ∈ blockTimerSchedulesOf perr blocked definition ↔
      svc ∈ blocked ∨ svc = definition.name ∧ InvalidTimer perr definition := by
  rw [blockTimerSchedulesOf, mem_foldl_blocking (fun trigger svc => svc = definition.name ∧
    ∃ sched message, trigger = .timer sched ∧ perr sched = some message)]
  · refine or_congr_right ⟨?_, ?_⟩
    · rintro ⟨trigger, mem, rfl, sched, message, rfl, failed⟩
      exact ⟨rfl, sched, message, mem, failed⟩
    · rintro ⟨rfl, sched, message, mem, failed⟩
      exact ⟨_, mem, rfl, sched, message, rfl, failed⟩
  · intro trigger _ blocked
    cases trigger with
    | timer sched =>
      cases failed : perr sched with
      | none => simp [failed]
      | some message => simp [failed, mem_blockService, or_comm]
    | _ => simp

theorem mem_blockInvalidTimerSchedules (idx : Indexes byName svcs) :
    svc ∈ blockInvalidTimerSchedules byName perr blocked ↔ svc ∈ blocked ∨
      ∃ definition, byName[svc]? = some definition ∧ InvalidTimer perr definition := by
  rw [blockInvalidTimerSchedules, mem_foldl_blocking (fun definition svc =>
    svc = definition.name ∧ InvalidTimer perr definition)
    fun definition _ blocked => mem_blockTimerSchedulesOf]
  refine or_congr_right ⟨?_, ?_⟩
  · rintro ⟨definition, mem, rfl, invalid⟩
    obtain ⟨name, got⟩ := (mem_values _ _).mp mem
    obtain ⟨-, rfl⟩ := (idx _ _).mp got
    exact ⟨definition, got, invalid⟩
  · rintro ⟨definition, got, invalid⟩
    exact ⟨definition, (mem_values _ _).mpr ⟨svc, got⟩, ((idx _ _).mp got).2.symm, invalid⟩

theorem explained_blockInvalidTimerSchedules (idx : Indexes byName svcs)
    (explained : Explained (Ground perr byName incl) blocked) :
    Explained (Ground perr byName incl) (blockInvalidTimerSchedules byName perr blocked) := by
  refine foldlRecOn _ _ explained fun before explained definition mem => ?_
  obtain ⟨name, got⟩ := (mem_values _ _).mp mem
  obtain ⟨-, rfl⟩ := (idx _ _).mp got
  refine foldlRecOn _ _ explained fun before explained trigger mem => ?_
  cases trigger with
  | timer sched =>
    dsimp only
    cases failed : perr sched with
    | none => exact explained
    | some message =>
      have ground : Ground perr byName incl definition.name
          (.validationError (invalidTimerMessage sched message)) :=
        ⟨definition, got, .inl ⟨sched, message, mem, failed⟩⟩
      exact explained.blockService ground
  | _ => exact explained

theorem blockHealthCheckOf_cases (byName : ServiceMap) (blocked : BlockedServices) (svc : String) :
    (∃ definition message, byName[svc]? = some definition ∧ InvalidHealthCheck definition ∧
      blockHealthCheckOf byName blocked svc = blockService blocked svc (.validationError message)) ∨
    blockHealthCheckOf byName blocked svc = blocked ∧
      ∀ definition, byName[svc]? = some definition → ¬ InvalidHealthCheck definition := by
  unfold blockHealthCheckOf
  cases got : byName[svc]? with
  | none => exact .inr ⟨rfl, by simp⟩
  | some definition =>
    dsimp only
    split_ifs with absent type window
    · refine .inr ⟨rfl, ?_⟩
      rintro _ ⟨⟩ ⟨declared, -⟩
      simp [Option.isNone_iff_eq_none.mp absent] at declared
    · exact .inl ⟨definition, _, rfl, ⟨Option.isSome_iff_ne_none.mpr (by simpa using absent), .inl type⟩, rfl⟩
    · exact .inl ⟨definition, _, rfl, ⟨Option.isSome_iff_ne_none.mpr (by simpa using absent), .inr window⟩, rfl⟩
    · refine .inr ⟨rfl, ?_⟩
      rintro _ ⟨⟩ ⟨-, invalid⟩
      exact invalid.elim type window

theorem mem_blockInvalidHealthChecks :
    svc ∈ blockInvalidHealthChecks byName incl blocked ↔ svc ∈ blocked ∨
      svc ∈ incl ∧ ∃ definition, byName[svc]? = some definition ∧
        InvalidHealthCheck definition := by
  rw [blockInvalidHealthChecks, mem_foldl_blocking (fun other svc => svc = other ∧
    ∃ definition, byName[other]? = some definition ∧ InvalidHealthCheck definition)]
  · refine or_congr_right ⟨?_, ?_⟩
    · rintro ⟨_, mem, rfl, invalid⟩
      exact ⟨Std.ExtTreeSet.mem_toList.mp mem, invalid⟩
    · rintro ⟨inside, invalid⟩
      exact ⟨svc, Std.ExtTreeSet.mem_toList.mpr inside, rfl, invalid⟩
  · intro other _ blocked
    rcases blockHealthCheckOf_cases byName blocked other with
      ⟨definition, message, got, invalid, step⟩ | ⟨step, valid⟩
    · rw [step, mem_blockService, or_comm]
      exact or_congr_right ⟨fun here => ⟨here, definition, got, invalid⟩, fun here => here.1⟩
    · rw [step]
      refine ⟨.inl, fun mem => mem.resolve_right ?_⟩
      rintro ⟨-, definition, got, invalid⟩
      exact valid definition got invalid

theorem explained_blockInvalidHealthChecks (explained : Explained (Ground perr byName incl) blocked) :
    Explained (Ground perr byName incl) (blockInvalidHealthChecks byName incl blocked) := by
  refine foldlRecOn _ _ explained fun before explained other mem => ?_
  rcases blockHealthCheckOf_cases byName before other with
    ⟨definition, message, got, invalid, step⟩ | ⟨step, -⟩
  · have ground : Ground perr byName incl other (.validationError message) :=
      ⟨definition, got, .inr ⟨Std.ExtTreeSet.mem_toList.mp mem, invalid⟩⟩
    rw [step]
    exact explained.blockService ground
  · rwa [step]

/-! ### Cycles -/

theorem depthOrder_of_isEmpty {nodes : OrdSet String} (empty : nodes.isEmpty = true)
    (dependenciesFor : String → List String) : depthOrder dependenciesFor nodes = .ok [] := by
  have none_ : nodes.toList = [] := by
    rw [← List.isEmpty_iff, Std.ExtTreeSet.isEmpty_toList, empty]
  rw [depthOrder, none_]
  rfl

theorem blockDependencyCycles_eq (fuel : ℕ) : ∀ (remaining : OrdSet String) (blocked : BlockedServices),
    blockDependencyCycles byName fuel remaining blocked =
      (removeCycles (orderTargets byName) fuel remaining).foldl blockCycle blocked := by
  induction fuel with
  | zero => exact fun _ _ => rfl
  | succ fuel ih =>
    intro remaining blocked
    rw [blockDependencyCycles, removeCycles,
      show dependencyOrder byName remaining = depthOrder (orderTargets byName) remaining from rfl]
    split_ifs with empty
    · rw [depthOrder_of_isEmpty empty]
      rfl
    · cases depthOrder (orderTargets byName) remaining with
      | ok order => rfl
      | error cycle => exact ih _ _

theorem mem_blockCycle : svc ∈ blockCycle blocked cycle ↔ svc ∈ blocked ∨ svc ∈ cycle := by
  rw [blockCycle, mem_foldl_blocking (fun other svc => svc = other)]
  · simp
  · intro other _ blocked
    rw [mem_blockService, or_comm]

theorem mem_blockDependencyCycles :
    svc ∈ blockDependencyCycles byName (incl.size + 1) incl blocked ↔
      svc ∈ blocked ∨ TakenForCycle byName incl svc := by
  rw [blockDependencyCycles_eq, mem_foldl_blocking (fun cycle svc => svc ∈ cycle)
    fun cycle _ blocked => mem_blockCycle, mem_removeCycles _ (Nat.lt_succ_self _)]
  rfl

theorem Explained.blockCycle (explained : Explained P blocked)
    (grounds : ∀ svc ∈ cycle, P svc (.cycleDetected cycle)) :
    Explained P (blockCycle blocked cycle) :=
  foldlRecOn _ _ explained fun _ explained svc mem =>
    explained.blockService (grounds svc mem)

theorem ground_of_removed (removed : cycle ∈ removeCycles (orderTargets byName) (incl.size + 1) incl)
    (mem : svc ∈ cycle) : Ground perr byName incl svc (.cycleDetected cycle) :=
  ⟨mem, isDependencyCycle_of_removed _ removed,
    (mem_removeCycles _ (Nat.lt_succ_self _) svc).mp ⟨cycle, removed, mem⟩⟩

theorem explained_blockDependencyCycles (explained : Explained (Ground perr byName incl) blocked) :
    Explained (Ground perr byName incl) (blockDependencyCycles byName (incl.size + 1) incl blocked) := by
  rw [blockDependencyCycles_eq]
  exact foldlRecOn _ _ explained fun _ explained cycle removed =>
    explained.blockCycle fun svc mem => ground_of_removed removed mem

theorem FailsForCycle.blockCycle (fails : FailsForCycle blocked svc) (cycle : List String) :
    FailsForCycle (blockCycle blocked cycle) svc :=
  foldlRecOn (motive := (FailsForCycle · svc)) _ _ fails fun _ fails _ _ => fails.blockService

theorem failsForCycle_blockCycle (explained : Explained P blocked)
    (grounds : ∀ svc ∈ cycle, P svc (.cycleDetected cycle))
    (mem : svc ∈ cycle) : FailsForCycle (blockCycle blocked cycle) svc := by
  obtain ⟨before, after, split⟩ := append_of_mem mem
  have first : Explained P
      (before.foldl (fun blocked svc => blockService blocked svc (.cycleDetected cycle)) blocked) :=
    foldlRecOn _ _ explained fun _ explained svc mem =>
      explained.blockService (grounds svc (by simp [split, mem]))
  unfold Phase2.blockCycle
  nth_rewrite 2 [split]
  rw [foldl_append, foldl_cons]
  exact foldlRecOn (motive := (FailsForCycle · svc)) _ _ (first.failsForCycle cycle)
    fun _ fails _ _ => fails.blockService

theorem failsForCycle_blockDependencyCycles (explained : Explained (Ground perr byName incl) blocked)
    (taken : TakenForCycle byName incl svc) :
    FailsForCycle (blockDependencyCycles byName (incl.size + 1) incl blocked) svc := by
  obtain ⟨cycle, removed, mem⟩ := (mem_removeCycles _ (Nat.lt_succ_self _) svc).mpr taken
  obtain ⟨before, after, split⟩ := append_of_mem removed
  have grounds : ∀ cycle ∈ removeCycles (orderTargets byName) (incl.size + 1) incl,
      ∀ svc ∈ cycle, Ground perr byName incl svc (.cycleDetected cycle) :=
    fun cycle removed svc mem => ground_of_removed removed mem
  have first : Explained (Ground perr byName incl) (before.foldl Phase2.blockCycle blocked) :=
    foldlRecOn _ _ explained fun _ explained cycle mem =>
      explained.blockCycle (grounds cycle (by simp [split, mem]))
  rw [blockDependencyCycles_eq, split, foldl_append, foldl_cons]
  exact foldlRecOn (motive := (FailsForCycle · svc)) _ _
    (failsForCycle_blockCycle first (grounds cycle removed) mem) fun _ fails cycle _ => fails.blockCycle cycle

/-! ### Blocking spreads -/

/-- `service` is blocked, or nothing it hard-depends on is. -/
def SettledAt (byName : ServiceMap) (blocked : BlockedServices) (service : String) : Prop :=
  service ∈ blocked ∨ ∀ dependency, HardDependsBy byName service dependency → dependency.target ∉ blocked

/-- `after` is what is blocked when `service` is, for a hard dependency that is. -/
def BlocksDependent (byName : ServiceMap) (blocked : BlockedServices) (service : String)
    (after : BlockedServices) : Prop :=
  ∃ dependency, HardDependsBy byName service dependency ∧ dependency.target ∈ blocked ∧
    after = blockService blocked service (.hardDependencyBlocked dependency.target dependency.kind)

theorem spreads_blockDependent (idx : Indexes byName svcs) :
    Spreads (blockDependent byName) (fun blocked svc => svc ∈ blocked) (SettledAt byName)
      (BlocksDependent byName) := by
  intro state svc
  unfold blockDependent
  split_ifs with known
  · exact .inl ⟨rfl, .inl known⟩
  · cases got : byName[svc]? with
    | none =>
      refine .inl ⟨rfl, .inr ?_⟩
      rintro dep ⟨definition, found', -⟩
      cases got.symm.trans found'
    | some definition =>
      obtain ⟨-, rfl⟩ := (idx _ _).mp got
      dsimp only
      split
      · next first =>
        refine .inl ⟨rfl, .inr ?_⟩
        rintro dep ⟨definition', found', mem⟩ blocked
        obtain rfl := Option.some.inj (got.symm.trans found')
        exact find?_eq_none.mp first dep mem blocked
      · next dep first =>
        have below := find?_some first
        exact .inr ⟨known, _, rfl, ⟨dep, ⟨definition, got, mem_of_find?_eq_some first⟩,
          below, rfl⟩, mem_blockService.mpr (.inl rfl),
          fun other mem => mem_blockService.mpr (.inr mem)⟩

theorem propagateBlocked_spec (idx : Indexes byName svcs) (Inv : BlockedServices → Prop)
    (step : ∀ blocked, Inv blocked → ∀ svc ∈ incl, ∀ dep,
      HardDependsBy byName svc dep → dep.target ∈ blocked →
      Inv (blockService blocked svc (.hardDependencyBlocked dep.target dep.kind)))
    (inv : Inv blocked) :
    Inv (propagateBlocked byName incl blocked) ∧
      ∀ svc ∈ incl, SettledAt byName (propagateBlocked byName incl blocked) svc := by
  obtain ⟨last, result, inv, settled⟩ := (spreads_blockDependent idx).settle incl.toList Inv
    (by
      rintro blocked svc _ mem inv ⟨dep, depends, below, rfl⟩
      exact step blocked inv svc (Std.ExtTreeSet.mem_toList.mp mem) dep depends below)
    blocked inv
  have result : propagateBlocked byName incl blocked = last := result
  rw [result]
  exact ⟨inv, fun svc inside => settled svc (Std.ExtTreeSet.mem_toList.mpr inside)⟩

theorem explained_propagateBlocked (idx : Indexes byName svcs)
    (explained : Explained (Ground perr byName incl) blocked) :
    Explained (Ground perr byName incl) (propagateBlocked byName incl blocked) :=
  (propagateBlocked_spec idx (Explained (Ground perr byName incl))
    (fun _ explained _ inside dep depends below =>
      have ground : Ground perr byName incl _
          (.hardDependencyBlocked dep.target dep.kind) :=
        ⟨inside, explained.isBlocked below, dep, depends, rfl, rfl⟩
      explained.blockService ground) explained).1

theorem subset_propagateBlocked (idx : Indexes byName svcs) :
    ∀ svc ∈ blocked, svc ∈ propagateBlocked byName incl blocked :=
  (propagateBlocked_spec idx (fun after => ∀ svc ∈ blocked, svc ∈ after)
    (fun _ before _ _ _ _ _ svc mem => mem_blockService.mpr (.inr (before svc mem)))
    fun _ mem => mem).1

theorem FailsForCycle.propagateBlocked (idx : Indexes byName svcs) (fails : FailsForCycle blocked svc) :
    FailsForCycle (propagateBlocked byName incl blocked) svc :=
  (propagateBlocked_spec idx (FailsForCycle · svc) (fun _ fails _ _ _ _ _ => fails.blockService) fails).1

end Passes

end Peinit.Phase2
