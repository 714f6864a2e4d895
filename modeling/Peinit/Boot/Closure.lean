import Peinit.Boot.Blocking

/-!
# The boot closure

The closure follows the declared dependencies from the services with a boot trigger; it computes
`InBootClosure`. A member is blocked at once for a hard dependency that is unavailable.
-/

namespace Peinit.Phase2

variable {service : String} {definition : ServiceDefinition} {closure : BootClosure}
  {dependency : ServiceDependency}

section Members

variable (mode : BootMode) (byName : ServiceMap) (roots : List String)

/-- With `service` in the closure, `target` is in it. -/
def Pulls (service target : String) : Prop :=
  ∃ definition other, byName[service]? = some definition ∧
    target ∈ startOrderDependencyTargets definition ∧ byName[target]? = some other ∧
    isPulledIn mode other = true

inductive InBootClosure : String → Prop
  | root {service : String} : service ∈ roots → InBootClosure service
  | pulled {service target : String} : InBootClosure service → Pulls mode byName service target →
      InBootClosure target

/-- A hard dependency of `service` is unavailable. -/
def LacksDependency (service : String) : Prop :=
  ∃ dependency, HardDependsBy byName service dependency ∧ Unavailable byName dependency.target

/-- What an unavailable dependency is recorded as. -/
def LackGround (service : String) : BlockedReason → Prop
  | .hardDependencyUnavailable target kind => Unavailable byName target ∧
      ∃ dependency, HardDependsBy byName service dependency ∧ dependency.target = target ∧
        dependency.kind = kind
  | _ => False

end Members

theorem InBootClosure.known {mode : BootMode} {byName : ServiceMap} {roots : List String}
    (reached : InBootClosure mode byName roots service)
    (known : ∀ root ∈ roots, ∃ definition, byName[root]? = some definition) :
    ∃ definition, byName[service]? = some definition := by
  cases reached with
  | root mem => exact known service mem
  | pulled _ pulls =>
    obtain ⟨-, other, -, -, got, -⟩ := pulls
    exact ⟨other, got⟩

def collecting (mode : BootMode) (byName : ServiceMap) (roots : List String) :
    Collecting BootClosure String where
  included closure service := service ∈ closure.included
  blocked closure service := service ∈ closure.blocked
  Reached := InBootClosure mode byName roots
  Pulls := Pulls mode byName
  Lacks := LacksDependency byName
  Able _ := True
  Inv closure := Explained (LackGround byName) closure.blocked
  nodes := byName.keys.toFinset

section Collect

variable {mode : BootMode} {byName : ServiceMap} {svcs : List ServiceDefinition}
  {roots pending : List String}

theorem mem_startOrderDependencyTargets {target : String} :
    target ∈ startOrderDependencyTargets definition ↔
      (∃ dependency ∈ hardDependencies definition, dependency.target = target) ∨
      ∃ declared ∈ definition.wants, (splitTarget declared).1 = target := by
  simp only [startOrderDependencyTargets, hardDependencies, List.map_append, List.mem_append,
    List.mem_map, or_and_right, exists_or]
  simp only [exists_exists_and_eq_and, dependency]

theorem tracks_block (tracks : (collecting mode byName roots).Tracks pending closure)
    (inside : service ∈ closure.included) (depends : HardDependsBy byName service dependency)
    (unavailable : Unavailable byName dependency.target) :
    let after : BootClosure := { closure with
      blocked := blockService closure.blocked service
        (.hardDependencyUnavailable dependency.target dependency.kind) }
    (collecting mode byName roots).Grows closure after ∧
      (collecting mode byName roots).Tracks pending after := by
  have ground : LackGround byName service
      (.hardDependencyUnavailable dependency.target dependency.kind) :=
    ⟨unavailable, dependency, depends, rfl, rfl⟩
  exact tracks.block inside (fun _ => .rfl) (fun _ => mem_blockService)
    (Explained.blockService tracks.inv ground)

section Dependencies

variable {room : ℕ} {visit : String → BootClosure → BootClosure}
  (visits : (collecting mode byName roots).Visits room visit) (idx : Indexes byName services)
  {defn : ServiceDefinition} (got : byName[defn.name]? = some defn)
  (reached : InBootClosure mode byName roots defn.name)

include visits idx got reached

theorem follows_includeHardDependency (mem : dependency ∈ hardDependencies defn) :
    (collecting mode byName roots).Follows defn.name room
      (includeHardDependency mode byName visit defn) ServiceDependency.target
      (fun dependency => Pulls mode byName defn.name dependency.target)
      (fun dependency => Unavailable byName dependency.target) dependency := by
  intro pending closure tracks inside fits
  have depends : HardDependsBy byName defn.name dependency := ⟨defn, got, mem⟩
  unfold includeHardDependency
  cases target : byName[dependency.target]? with
  | none =>
    have unavailable : Unavailable byName dependency.target := by simp [Unavailable, target]
    obtain ⟨grows, tracks⟩ := tracks_block tracks inside depends unavailable
    refine ⟨grows, tracks, ?_, fun _ => mem_blockService.mpr (.inl rfl)⟩
    rintro ⟨_, other, -, -, target', -⟩
    cases target.symm.trans target'
  | some other =>
    obtain ⟨-, name⟩ := (idx _ _).mp target
    dsimp only
    split_ifs with pulled dropped
    · have pulls : Pulls mode byName defn.name dependency.target :=
        ⟨defn, other, got,
          mem_startOrderDependencyTargets.mpr (.inl ⟨dependency, mem, rfl⟩), target, pulled⟩
      rw [name]
      obtain ⟨grows, tracks, here⟩ :=
        visits pending dependency.target closure tracks (fun _ => .pulled reached pulls) fits
      refine ⟨grows, tracks, fun _ => here trivial, fun unavailable => ?_⟩
      simp [isPulledIn, unavailable other target] at pulled
    · refine ⟨.refl closure, tracks, ?_, fun unavailable => ?_⟩
      · rintro ⟨_, other', -, -, target', pulled'⟩
        obtain rfl := Option.some.inj (target.symm.trans target')
        exact absurd pulled' pulled
      · simp [unavailable other target] at dropped
    · have disabled : other.disabled = true := by
        by_contra enabled
        have enabled : other.disabled = false := by simpa using enabled
        have full : mode = .full := by simpa [enabled] using dropped
        exact pulled (by simp [isPulledIn, enabled, dependencyEligible, full])
      have unavailable : Unavailable byName dependency.target := by
        intro other' target'
        obtain rfl := Option.some.inj (target.symm.trans target')
        exact disabled
      obtain ⟨grows, tracks⟩ := tracks_block tracks inside depends unavailable
      refine ⟨grows, tracks, ?_, fun _ => mem_blockService.mpr (.inl rfl)⟩
      rintro ⟨_, other', -, -, target', pulled'⟩
      obtain rfl := Option.some.inj (target.symm.trans target')
      exact absurd pulled' pulled

theorem follows_includeWantedDependency {declared : String} (mem : declared ∈ defn.wants) :
    (collecting mode byName roots).Follows defn.name room
      (includeWantedDependency mode byName visit) (fun declared => (splitTarget declared).1)
      (fun declared => Pulls mode byName defn.name (splitTarget declared).1)
      (fun _ => False) declared := by
  intro pending closure tracks inside fits
  unfold includeWantedDependency
  cases target : byName[(splitTarget declared).1]? with
  | none =>
    refine ⟨.refl closure, tracks, ?_, False.elim⟩
    rintro ⟨_, other, -, -, target', -⟩
    cases target.symm.trans target'
  | some other =>
    obtain ⟨-, name⟩ := (idx _ _).mp target
    dsimp only
    split_ifs with pulled
    · have pulls : Pulls mode byName defn.name (splitTarget declared).1 :=
        ⟨defn, other, got,
          mem_startOrderDependencyTargets.mpr (.inr ⟨declared, mem, rfl⟩), target, pulled⟩
      rw [name]
      obtain ⟨grows, tracks, here⟩ :=
        visits pending _ closure tracks (fun _ => .pulled reached pulls) fits
      exact ⟨grows, tracks, fun _ => here trivial, False.elim⟩
    · refine ⟨.refl closure, tracks, ?_, False.elim⟩
      rintro ⟨_, other', -, -, target', pulled'⟩
      obtain rfl := Option.some.inj (target.symm.trans target')
      exact absurd pulled' pulled

theorem tracks_includeDependencies
    (tracks : (collecting mode byName roots).Tracks (defn.name :: pending) closure)
    (inside : defn.name ∈ closure.included)
    (fits : (collecting mode byName roots).outside closure ≤ room) :
    let after := defn.wants.foldl (includeWantedDependency mode byName visit)
      ((hardDependencies defn).foldl (includeHardDependency mode byName visit defn) closure)
    (collecting mode byName roots).Grows closure after ∧
      (collecting mode byName roots).Tracks pending after := by
  obtain ⟨grows, tracks, hard⟩ := Collecting.Follows.foldl (fun dependency mem =>
    follows_includeHardDependency visits idx got reached mem) tracks inside fits
  obtain ⟨grows', tracks, wanted⟩ := Collecting.Follows.foldl (fun declared mem =>
    follows_includeWantedDependency visits idx got reached mem) tracks
    (grows.included _ inside) (grows.outside_le.trans fits)
  refine ⟨grows.trans grows', tracks.done (fun target pulls => ?_) fun lacking => ?_⟩
  · obtain ⟨definition', -, found', declared, -⟩ := id pulls
    obtain rfl := Option.some.inj (got.symm.trans found')
    rcases mem_startOrderDependencyTargets.mp declared with
      ⟨dependency, hardly, rfl⟩ | ⟨want, softly, rfl⟩
    · exact grows'.included _ ((hard dependency hardly).1 pulls)
    · exact (wanted want softly).1 pulls
  · obtain ⟨dependency, ⟨definition', found', declared⟩, unavailable⟩ := lacking
    obtain rfl := Option.some.inj (got.symm.trans found')
    exact grows'.blocked _ ((hard dependency declared).2 unavailable)

end Dependencies

theorem mem_nodes (got : byName[service]? = some definition) :
    service ∈ (collecting mode byName roots).nodes :=
  List.mem_toFinset.mpr ((OrdMap.mem_keys _ _).mpr ⟨definition, got⟩)

theorem visits_includeClosure (idx : Indexes byName svcs)
    (known : ∀ root ∈ roots, ∃ definition, byName[root]? = some definition) (room : ℕ) :
    (collecting mode byName roots).Visits room (includeClosure mode byName (room + 1)) := by
  induction room with
  | zero =>
    intro pending service closure tracks reached fits
    obtain ⟨definition, got⟩ := (reached trivial).known known
    have inside : service ∈ closure.included := Collecting.included_of_outside fits (mem_nodes got)
    rw [includeClosure, if_pos inside]
    exact ⟨.refl closure, tracks, fun _ => inside⟩
  | succ room ih =>
    intro pending service closure tracks reached fits
    rw [includeClosure]
    split_ifs with inside
    · exact ⟨.refl closure, tracks, fun _ => inside⟩
    · obtain ⟨definition, got⟩ := (reached trivial).known known
      obtain ⟨-, rfl⟩ := (idx _ _).mp got
      obtain ⟨enters, entered, tracks⟩ := tracks.insert
        (t := { closure with included := closure.included.insert definition.name })
        (reached trivial) (fun _ => OrdSet.mem_insert _ _ _) (fun _ => .rfl) tracks.inv
      have fewer := enters.outside_lt (mem_nodes got) inside entered
      obtain ⟨grows, tracks⟩ :=
        tracks_includeDependencies ih idx got (reached trivial) tracks entered (by omega)
      simp only [got]
      exact ⟨enters.trans grows, tracks, fun _ => grows.included _ entered⟩

/-! ## What is collected -/

theorem bootRoots_known (idx : Indexes byName svcs) :
    ∀ root ∈ bootRoots mode svcs, ∃ definition, byName[root]? = some definition := by
  intro root mem
  obtain ⟨definition, kept, rfl⟩ := List.mem_map.mp mem
  exact ⟨definition, (idx _ _).mpr ⟨(List.mem_filter.mp kept).1, rfl⟩⟩

/-- The closure before blocking spreads in it. -/
def collected (mode : BootMode) (byName : ServiceMap) (services : List ServiceDefinition) : BootClosure :=
  (bootRoots mode services).foldl
    (fun closure root => includeClosure mode byName (byName.size + 1) root closure) {}

theorem tracks_collected (mode : BootMode) (idx : Indexes byName svcs) :
    (collecting mode byName (bootRoots mode svcs)).Tracks [] (collected mode byName svcs) ∧
      ∀ root ∈ bootRoots mode svcs, root ∈ (collected mode byName svcs).included := by
  have start : (collecting mode byName (bootRoots mode svcs)).Tracks [] {} :=
    ⟨by simp [collecting], by simp [collecting], by simp [collecting], by simp [collecting],
      by simp [collecting, Explained]⟩
  have room : (collecting mode byName (bootRoots mode svcs)).nodes.card ≤ byName.size := by
    refine (List.toFinset_card_le _).trans ?_
    rw [Std.ExtTreeMap.length_keys]
  obtain ⟨-, tracks, all⟩ := (visits_includeClosure idx (bootRoots_known idx)
    byName.size).foldl room (fun root mem _ => .root mem) start
  exact ⟨tracks, fun root mem => all root mem trivial⟩

theorem mem_included (idx : Indexes byName svcs) :
    service ∈ (collectBootClosure mode byName svcs).included ↔
      InBootClosure mode byName (bootRoots mode svcs) service := by
  obtain ⟨tracks, all⟩ := tracks_collected mode idx
  refine ⟨tracks.reached service, fun reached => ?_⟩
  induction reached with
  | root mem => exact all _ mem
  | pulled _ pulls inside => exact tracks.closed _ inside (by simp) _ pulls

theorem explained_collectBootClosure (mode : BootMode) (idx : Indexes byName svcs)
    (perr : String → Option String) :
    Explained (Ground perr byName (collectBootClosure mode byName svcs).included)
      (collectBootClosure mode byName svcs).blocked := by
  obtain ⟨tracks, -⟩ := tracks_collected mode idx
  refine explained_propagateBlocked idx ?_
  intro service draft got
  have got : (collected mode byName svcs).blocked[service]? = some draft := got
  have known := tracks.inv service draft got
  have inside := tracks.inside service (Std.ExtTreeMap.mem_iff_isSome_getElem?.mpr (by rw [got]; rfl))
  refine ⟨known.named, fun reason mem => ?_, known.ranked⟩
  have ground := known.grounds reason mem
  cases reason with
  | hardDependencyUnavailable target kind => exact ⟨inside, ground⟩
  | _ => exact ground.elim

theorem blocked_of_lacksDependency (idx : Indexes byName svcs)
    (inside : service ∈ (collectBootClosure mode byName svcs).included)
    (lacking : LacksDependency byName service) :
    service ∈ (collectBootClosure mode byName svcs).blocked := by
  obtain ⟨tracks, -⟩ := tracks_collected mode idx
  exact subset_propagateBlocked idx service (tracks.lacks service inside (by simp) lacking)

end Collect

end Peinit.Phase2
