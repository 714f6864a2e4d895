import Peinit.Service.Generations

/-!
# Leaked cgroups over a run

A leak in the tree a service uses moves the service on to the next tree. The counter is kept in the
service's entry: one that is discarded, or replaced because its key cannot be decoded, starts again
with the first tree.
-/

namespace Peinit

open ServiceTable List

variable {g g' detectedAtNs : ℕ} {path service name : String} {event : TableEvent}
  {services : ServiceTable} {entry : ServiceEntry} {kind : LeakedCgroupKind}

/-! ## Trees of one service -/

theorem takeWhile_component {name rest : List Char} (noSlash : '/' ∉ name)
    (ends : rest = [] ∨ ∃ below, rest = '/' :: below) :
    (name ++ rest).takeWhile (· ≠ '/') = name := by
  have each : ∀ c ∈ name, decide (c ≠ '/') = true := by
    intro c mem
    exact decide_eq_true fun is => noSlash (is ▸ mem)
  rw [takeWhile_append_of_pos each]
  rcases ends with rfl | ⟨below, rfl⟩ <;> simp

theorem slash_not_mem_encodeServiceCgroupId (svc : String) :
    '/' ∉ (encodeServiceCgroupId svc).toList := by
  have bytes : ∀ n : Fin 256, '/' ∉ (if isCgroupSafe (UInt8.ofFin n) then
      [Char.ofNat (UInt8.ofFin n).toNat]
      else ['%', hexDigit (UInt8.ofFin n >>> 4), hexDigit (UInt8.ofFin n &&& 15)]) := by
    decide +kernel
  unfold encodeServiceCgroupId
  rw [String.toList_ofList, mem_flatMap]
  rintro ⟨byte, -, mem⟩
  exact bytes byte.toFin mem

/-- What tells the trees of a service apart. -/
def treeSuffix (generation : ℕ) : List Char :=
  if generation = 0 then [] else "%gen".toList ++ (toString generation).toList

/-- The last component of a tree's root. -/
def treeName (service : String) (generation : ℕ) : List Char :=
  (encodeServiceCgroupId service).toList ++ treeSuffix generation

theorem toList_serviceCgroupRootPath (svc : String) (gen : ℕ) : (serviceCgroupRootPath svc gen).toList =
      "/sys/fs/cgroup/peinit/".toList ++ treeName svc gen := by
  unfold serviceCgroupRootPath treeName treeSuffix
  split_ifs
  · simp
  · simp

theorem slash_not_mem_treeSuffix (gen : ℕ) : '/' ∉ treeSuffix gen := by
  unfold treeSuffix
  split_ifs
  · exact not_mem_nil
  · intro mem
    rcases mem_append.mp mem with inSuffix | digit
    · exact absurd inSuffix (by decide)
    · rw [Nat.toString_eq_repr, Nat.toList_repr] at digit
      exact absurd (Nat.isDigit_of_mem_toDigits (by decide) (by decide) digit) (by decide)

theorem slash_not_mem_treeName (svc : String) (gen : ℕ) : '/' ∉ treeName svc gen := by
  unfold treeName
  rw [mem_append]
  exact not_or.mpr ⟨slash_not_mem_encodeServiceCgroupId svc, slash_not_mem_treeSuffix gen⟩

theorem treeSuffix_injective (same : treeSuffix g = treeSuffix g') : g = g' := by
  unfold treeSuffix at same
  split_ifs at same with first first' first'
  · rw [first, first']
  · simp at same
  · simp at same
  · exact Nat.repr_inj.mp (String.toList_injective (append_cancel_left same))

theorem leakAffectsTree_iff {root : String} :
    leakAffectsTree path root = true ↔
      ∃ rest, path.toList = root.toList ++ rest ∧ (rest = [] ∨ ∃ below, rest = '/' :: below) := by
  unfold leakAffectsTree
  rw [Bool.or_eq_true, decide_eq_true_eq, isPrefixOf_iff_prefix]
  constructor
  · rintro (rfl | ⟨below, same⟩)
    · exact ⟨[], by simp, .inl rfl⟩
    · refine ⟨'/' :: below, ?_, .inr ⟨below, rfl⟩⟩
      rw [← same]
      simp
  · rintro ⟨rest, same, rfl | ⟨below, rfl⟩⟩
    · exact .inl (String.toList_injective (by simpa using same))
    · refine .inr ⟨below, ?_⟩
      rw [same]
      simp

theorem tree_unique (within : leakAffectsTree path (serviceCgroupRootPath service g) = true)
    (within' : leakAffectsTree path (serviceCgroupRootPath service g') = true) : g = g' := by
  obtain ⟨rest, path_, ends⟩ := leakAffectsTree_iff.mp within
  obtain ⟨rest', path', ends'⟩ := leakAffectsTree_iff.mp within'
  have same := path_.symm.trans path'
  rw [toList_serviceCgroupRootPath, toList_serviceCgroupRootPath, append_assoc, append_assoc] at same
  have components := congrArg (takeWhile (· ≠ '/')) (append_cancel_left same)
  rw [takeWhile_component (slash_not_mem_treeName service g) ends,
    takeWhile_component (slash_not_mem_treeName service g') ends'] at components
  exact treeSuffix_injective (append_cancel_left components)

/-! ## Runs -/

inductive LeakEvent where
  | table (event : TableEvent)
  /-- The service is started, in the tree of its generation. -/
  | activate (service : String)
  /-- A process that cannot be killed is found in one of the service's trees. -/
  | leak (service path : String) (kind : LeakedCgroupKind) (detectedAtNs : ℕ)

/-- The table, the trees that services were started in, and the paths recorded as leaked. -/
structure LeakHistory where
  services : ServiceTable
  activated : List (String × ℕ) := []
  leaked : List (String × String) := []

namespace ServiceTable

/-- The generation that the service would be started in; one that is not there starts with the
first. -/
def cgroupGeneration (services : ServiceTable) (service : String) : ℕ :=
  ((services.runtime service).map (·.cgroupGeneration)).getD 0

def nextRoot (services : ServiceTable) (service : String) : String :=
  serviceCgroupRootPath service (services.cgroupGeneration service)

end ServiceTable

namespace LeakHistory

variable (history : LeakHistory)

/-- Leaks are found in trees that the service was started in. -/
def perform : LeakEvent → LeakHistory
  | .table event => { history with services := history.services.perform event }
  | .activate service => match history.services.runtime service with
    | some runtime =>
      { history with activated := (service, runtime.cgroupGeneration) :: history.activated }
    | none => history
  | .leak service path kind detectedAtNs =>
    if ∃ tree ∈ history.activated, tree.1 = service ∧
        leakAffectsTree path (serviceCgroupRootPath service tree.2) = true then
      match history.services.recordLeakedCgroup service path kind detectedAtNs with
      | .ok services => { history with services, leaked := (service, path) :: history.leaked }
      | .error _ => history
    else history

/-- No service would be started in or above a path it has leaked. -/
def Apart : Prop :=
  ∀ service path, (service, path) ∈ history.leaked →
    leakAffectsTree path (history.services.nextRoot service) = false

/-- The event ends the entry of a service with recorded leaks, or is a leak that the counter can not
follow. -/
def Forgets : LeakEvent → Prop
  | .table (.reload read frozen) =>
    (∃ incoming, mapDefinitions (history.services.carriedDefinitions read) = .ok incoming) ∧
      ∃ name entry, history.services.get name = some entry ∧ entry.runtime.leakedCgroups ≠ [] ∧
        entry.definition.compiledIn = false ∧ name ∉ frozen ∧
        retainsDefinitionAfterRemoval entry.runtime.state = false ∧
        name ∉ read.definitions.map (·.name)
  | .table (.transition service transition) =>
    ∃ entry, history.services.get service = some entry ∧ entry.runtime.leakedCgroups ≠ [] ∧
      entry.definitionRemoved = true ∧ retainsDefinitionAfterRemoval transition.target = false ∧
      isAllowedTransition entry.runtime.state transition.target transition.cause = true
  | .activate _ => False
  | .leak service path _ _ =>
    u64Max ≤ history.services.cgroupGeneration service ∧
      leakAffectsTree path (history.services.nextRoot service) = true

/-! ## One event -/

/-- The trees of a service are remembered, or there is nothing to remember. -/
inductive KeepsTrees : Option ServiceEntry → Option ServiceEntry → Prop
  | kept (entry next : ServiceEntry)
      (leaks : next.runtime.leakedCgroups = entry.runtime.leakedCgroups)
      (generation : next.runtime.cgroupGeneration = entry.runtime.cgroupGeneration) :
      KeepsTrees (some entry) (some next)
  | fresh (before after : Option ServiceEntry)
      (clean : ∀ entry ∈ before, entry.runtime.leakedCgroups = [])
      (starts : ∀ entry ∈ after, entry.runtime.leakedCgroups = [] ∧ entry.runtime.cgroupGeneration = 0) :
      KeepsTrees before after

theorem KeepsTrees.refl (entry : Option ServiceEntry) : KeepsTrees entry entry := by
  cases entry with
  | none => exact .fresh none none (by simp) (by simp)
  | some entry => exact .kept entry entry rfl rfl

theorem keepsTrees_moved (entry : ServiceEntry) (tr : ServiceTransition) :
    KeepsTrees (some entry) (some (entry.moved tr)) := by
  refine .kept entry _ ?_ ?_ <;> rw [ServiceEntry.moved_runtime] <;>
    unfold ServiceRuntimeSnapshot.moved <;> dsimp only <;> split_ifs <;> rfl

variable {history}

theorem keepsTrees_table (remembers : ¬ history.Forgets (.table event))
    (keyed : history.services.Keyed) (name : String) :
    KeepsTrees (history.services.get name) ((history.services.perform event).get name) := by
  have step := perform_cases history.services event name
  generalize got : history.services.get name = before at step ⊢
  generalize (history.services.perform event).get name = after at step ⊢
  cases step with
  | rejected => exact .refl _
  | unmoved => exact .refl _
  | reloaded read frozen inc _ _ mapped change =>
    -- what the snapshot does not define was not read, and is not built in
    have undefined_ : inc[name]? = none → name ∉ read.definitions.map (·.name) := by
      rintro undefined mem
      obtain ⟨raw, was, rfl⟩ := mem_map.mp mem
      obtain ⟨defn, defined⟩ := mapDefinitions_defines mapped (mem_append_left _ was)
      cases undefined.symm.trans defined
    have clean {entry : ServiceEntry} (got : history.services.get name = some entry)
        (undefined : inc[name]? = none) (free : name ∉ frozen)
        (down : retainsDefinitionAfterRemoval entry.runtime.state = false) :
        entry.runtime.leakedCgroups = [] := by
      by_contra leaks
      refine remembers ⟨⟨inc, mapped⟩, name, entry, got, leaks, ?_, free, down, undefined_ undefined⟩
      by_contra builtIn
      obtain ⟨defn, defined⟩ := carriedDefinitions_defines mapped got
        (keyed name entry got).1 (by simpa using builtIn)
      cases undefined.symm.trans defined
    cases change with
    | added defn => exact .fresh none _ (by simp) (by simp [ServiceEntry.fresh])
    | deferred entry defn => exact .kept entry _ rfl rfl
    | updated entry defn =>
      refine .kept entry _ ?_ ?_
      · exact congrArg (·.leakedCgroups) ServiceEntry.applyReloadedDefinition_runtime
      · exact congrArg (·.cgroupGeneration) ServiceEntry.applyReloadedDefinition_runtime
    | absent => exact .refl _
    | held => exact .refl _
    | builtIn => exact .refl _
    | marked entry => exact .kept entry _ rfl rfl
    | discarded entry undefined _ free _ down =>
      refine .fresh _ none ?_ (by simp)
      rintro _ ⟨⟩
      exact clean got undefined free down
    | refusedUp entry => exact .kept entry _ rfl rfl
    | refused _ message undefined _ free down =>
      refine .fresh _ _ (fun entry mem => ?_) ?_
      · subst mem
        exact clean got undefined (free rfl) (down entry rfl)
      · rintro _ ⟨⟩
        exact ⟨rfl, rfl⟩
  | discarded entry tr allowed removed down =>
    refine .fresh _ none ?_ (by simp)
    rintro _ ⟨⟩
    by_contra leaks
    exact remembers ⟨entry, got, leaks, removed, down, allowed⟩
  | moved entry tr => exact keepsTrees_moved entry tr

/-! ## The invariant -/

/-- The entry of a service, the trees it was started in and the paths it has leaked. -/
structure SoundAt (activated : List (String × ℕ)) (leaked : List (String × String)) (name : String)
    (entry : Option ServiceEntry) : Prop where
  reached : ∀ g, (name, g) ∈ activated →
    g ≤ ((entry.map (·.runtime)).map (·.cgroupGeneration)).getD 0
  first : ∀ present ∈ entry, present.runtime.leakedCgroups = [] → present.runtime.cgroupGeneration = 0
  logged : ∀ present ∈ entry, ∀ leak ∈ present.runtime.leakedCgroups, (name, leak.path) ∈ leaked
  /-- Every path that leaked lies in a tree before the current one, if in any. -/
  behind : ∀ path, (name, path) ∈ leaked → ∃ present ∈ entry, present.runtime.leakedCgroups ≠ [] ∧
    ∀ g, leakAffectsTree path (serviceCgroupRootPath name g) = true → g < present.runtime.cgroupGeneration

structure Sound (history : LeakHistory) : Prop where
  keyed : history.services.Keyed
  each : ∀ name, SoundAt history.activated history.leaked name (history.services.get name)

theorem SoundAt.keeps {activated : List (String × ℕ)} {leaked : List (String × String)}
    {before after : Option ServiceEntry} (sound : SoundAt activated leaked name before)
    (keeps : KeepsTrees before after) : SoundAt activated leaked name after := by
  cases keeps with
  | kept entry next leaks gen =>
    refine ⟨fun g mem => (sound.reached g mem).trans_eq gen.symm, ?_, ?_, fun path mem => ?_⟩
    · rintro _ ⟨⟩ clean
      exact gen.trans (sound.first entry rfl (leaks.symm.trans clean))
    · rintro _ ⟨⟩ leak mem
      exact sound.logged entry rfl leak (leaks ▸ mem)
    · obtain ⟨_, ⟨⟩, dirty, behind⟩ := sound.behind path mem
      exact ⟨next, rfl, leaks ▸ dirty, gen ▸ behind⟩
  | fresh _ _ clean starts =>
    refine ⟨fun g mem => ?_, fun next is _ => (starts next is).2, fun next is leak mem => ?_,
      fun path mem => ?_⟩
    · -- a service without leaks is in its first tree
      have reached := sound.reached g mem
      rcases before with _ | entry
      · exact reached.trans (Nat.zero_le _)
      · exact (reached.trans_eq (sound.first entry rfl (clean entry rfl))).trans (Nat.zero_le _)
    · rw [(starts next is).1] at mem
      cases mem
    · obtain ⟨entry, is, dirty, -⟩ := sound.behind path mem
      exact absurd (clean entry is) dirty

theorem cgroupGeneration_of_get (got : services.get name = some entry) :
    services.cgroupGeneration name = entry.runtime.cgroupGeneration := by
  unfold cgroupGeneration runtime
  rw [got]
  rfl

theorem Sound.apart (sound : history.Sound) : history.Apart := by
  intro service path mem
  obtain ⟨entry, got, -, behind⟩ := (sound.each service).behind path mem
  by_contra within
  rw [Bool.not_eq_false] at within
  unfold nextRoot at within
  rw [cgroupGeneration_of_get got] at within
  exact absurd (behind _ within) (lt_irrefl _)

theorem Sound.table (sound : history.Sound)
    (remembers : ¬ history.Forgets (.table event)) : (history.perform (.table event)).Sound :=
  ⟨sound.keyed.perform event, fun name =>
    (sound.each name).keeps (keepsTrees_table remembers sound.keyed name)⟩

theorem Sound.activate (sound : history.Sound) (svc : String) :
    (history.perform (.activate svc)).Sound := by
  unfold perform
  dsimp only
  split
  · rename_i runtime is
    refine ⟨sound.keyed, fun name => { sound.each name with reached := fun g mem => ?_ }⟩
    rcases mem_cons.mp mem with same | mem
    · cases same
      rw [show (history.services.get svc).map (·.runtime) = some runtime from is]
      rfl
    · exact (sound.each name).reached g mem
  · exact sound

/-- The runtime of a service after a leak was recorded. -/
structure RecordsLeak (service path : String) (before after : ServiceRuntimeSnapshot) : Prop where
  grows : before.cgroupGeneration ≤ after.cgroupGeneration
  leaks : ∀ leak ∈ after.leakedCgroups, leak ∈ before.leakedCgroups ∨ leak.path = path
  dirty : after.leakedCgroups ≠ []
  passes : (∃ leak ∈ before.leakedCgroups, leak.path = path) ∨
    (leakAffectsTree path (serviceCgroupRootPath service before.cgroupGeneration) = true →
      before.cgroupGeneration < after.cgroupGeneration)

theorem recordLeakedCgroup_ok {after : ServiceTable}
    (ran : services.recordLeakedCgroup service path kind detectedAtNs = .ok after)
    (room : ¬ (u64Max ≤ services.cgroupGeneration service ∧
      leakAffectsTree path (services.nextRoot service) = true)) :
    ∃ entry runtime, services.get service = some entry ∧
      after = services.set service { entry with runtime } ∧
      RecordsLeak service path entry.runtime runtime := by
  obtain ⟨entry, got, rfl⟩ := updateRuntime_eq_ok.mp ran
  unfold nextRoot at room
  rw [cgroupGeneration_of_get got] at room
  refine ⟨entry, _, got, rfl, ?_⟩
  split_ifs with known affects
  · obtain ⟨leak, mem, same⟩ := any_eq_true.mp known
    have same := (of_decide_eq_true same).1
    exact ⟨le_rfl, fun _ mem => .inl mem, ne_nil_of_mem mem, .inl ⟨leak, mem, same⟩⟩
  · have next : saturatingAdd entry.runtime.cgroupGeneration 1 = entry.runtime.cgroupGeneration + 1 := by
      unfold saturatingAdd
      rw [min_eq_left]
      exact not_le.mp fun full => room ⟨full, affects⟩
    refine ⟨next ▸ Nat.le_succ _, fun leak mem => ?_, by simp, .inr fun _ => next ▸ Nat.lt_succ_self _⟩
    rcases mem_append.mp mem with mem | new
    · exact .inl mem
    · exact .inr (by rw [mem_singleton.mp new])
  · refine ⟨le_rfl, fun leak mem => ?_, by simp, .inr fun within => absurd within affects⟩
    rcases mem_append.mp mem with mem | new
    · exact .inl mem
    · exact .inr (by rw [mem_singleton.mp new])

theorem Sound.recorded (sound : history.Sound)
    {runtime : ServiceRuntimeSnapshot} (got : history.services.get service = some entry)
    (records : RecordsLeak service path entry.runtime runtime)
    (reached : g ≤ history.services.cgroupGeneration service)
    (within : leakAffectsTree path (serviceCgroupRootPath service g) = true) :
    Sound { history with
      services := history.services.set service { entry with runtime }
      leaked := (service, path) :: history.leaked } := by
  have mine := sound.each service
  rw [got] at mine
  rw [cgroupGeneration_of_get got] at reached
  refine ⟨fun name next => ?_, fun name => ?_⟩ <;> dsimp only <;> rw [get_set] <;>
    by_cases same : service = name
  · subst same
    rw [if_pos rfl]
    rintro ⟨⟩
    exact sound.keyed service entry got
  · rw [if_neg same]
    exact sound.keyed name next
  · subst same
    rw [if_pos rfl]
    refine ⟨fun g mem => (mine.reached g mem).trans records.grows, ?_, ?_, fun path' mem => ?_⟩
    · rintro _ ⟨⟩ clean
      exact absurd clean records.dirty
    · rintro _ ⟨⟩ leak mem
      rcases records.leaks leak mem with old | new
      · exact mem_cons_of_mem _ (mine.logged entry rfl leak old)
      · rw [new]
        exact mem_cons_self
    · have old {path' : String} (mem : (service, path') ∈ history.leaked) (g : ℕ)
          (within : leakAffectsTree path' (serviceCgroupRootPath service g) = true) :
          g < runtime.cgroupGeneration := by
        obtain ⟨_, ⟨⟩, -, behind⟩ := mine.behind path' mem
        exact (behind g within).trans_le records.grows
      refine ⟨_, rfl, records.dirty, fun g' within' => ?_⟩
      rcases mem_cons.mp mem with new | mem
      · cases new
        obtain rfl : g' = g := tree_unique within' within
        rcases records.passes with ⟨leak, among, rfl⟩ | passes
        · exact old (mine.logged entry rfl leak among) g' within
        · rcases reached.lt_or_eq with before | rfl
          · exact before.trans_le records.grows
          · exact passes within
      · exact old mem g' within'
  · rw [if_neg same]
    have other := sound.each name
    refine ⟨other.reached, other.first, fun next is leak mem => ?_, fun path' mem => ?_⟩
    · exact mem_cons_of_mem _ (other.logged next is leak mem)
    · obtain ⟨here, -⟩ | mem := (mem_cons.mp mem).imp_left Prod.mk.inj
      · exact absurd here.symm same
      · exact other.behind path' mem

theorem Sound.leak (sound : history.Sound)
    (remembers : ¬ history.Forgets (.leak service path kind detectedAtNs)) :
    (history.perform (.leak service path kind detectedAtNs)).Sound := by
  unfold perform
  dsimp only
  split_ifs with inTree
  · rcases ran : history.services.recordLeakedCgroup service path kind detectedAtNs with error | services
    · exact sound
    · obtain ⟨tree, was, here, within⟩ := inTree
      obtain ⟨entry, runtime, got, rfl, records⟩ := recordLeakedCgroup_ok ran remembers
      exact sound.recorded got records (here ▸ (sound.each tree.1).reached tree.2 was) within
  · exact sound

theorem sound_run {defs : List ServiceDefinition}
    (booted : fromBootSnapshot defs = .ok services) (events : List LeakEvent)
    (remembered : Admissible perform (fun history event => ¬ history.Forgets event) { services } events) :
    (runCalls perform { services } events).Sound := by
  refine invariant_of_step Sound (fun history event sound remembers => ?_) events ?_ remembered
  · cases event with
    | table event => exact sound.table remembers
    | activate service => exact sound.activate service
    | leak service path kind detectedAtNs => exact sound.leak remembers
  · obtain ⟨mapped, -, entries⟩ := fromBootSnapshot_get booted
    refine ⟨keyed_fromBootSnapshot booted, fun name => ⟨nofun, ?_, ?_, nofun⟩⟩ <;> rw [entries]
    · rintro entry got -
      obtain ⟨defn, -, rfl⟩ := Option.map_eq_some_iff.mp got
      rfl
    · rintro entry got leak mem
      obtain ⟨defn, -, rfl⟩ := Option.map_eq_some_iff.mp got
      cases mem

/-- In every run of reloads, transitions, activations and leaks from a boot in which the entry of a
service with leaks is never ended, no service would be started in or above a path that it has leaked. -/
theorem leaked_cgroups_apart {definitions : List ServiceDefinition} {services : ServiceTable}
    (booted : ServiceTable.fromBootSnapshot definitions = .ok services) (events : List LeakEvent)
    (remembered : Admissible perform (fun history event => ¬ history.Forgets event) { services } events) :
    (runCalls perform { services } events).Apart :=
  (sound_run booted events remembered).apart

/-- A start whose pre-start hook cannot be killed. -/
def hookLeaks : List LeakEvent :=
  [.table (.transition "app" ⟨.starting, .explicitStart⟩), .activate "app",
    .table (.transition "app" ⟨.failed, .preHookFailure⟩),
    .leak "app" "/sys/fs/cgroup/peinit/app/hooks" .hooks 5]

theorem leaked_cgroups_apart_hookLeaks :
    ∃ services, ServiceTable.fromBootSnapshot [{ name := "app" }] = .ok services ∧
      (runCalls perform { services } hookLeaks).leaked =
        [("app", "/sys/fs/cgroup/peinit/app/hooks")] ∧
      leakAffectsTree "/sys/fs/cgroup/peinit/app/hooks"
        ((runCalls perform { services } hookLeaks).services.nextRoot "app") = false := by
  refine Exists.imp (p := fun services =>
      let after (events : ℕ) := (runCalls perform { services } (hookLeaks.take events)).services
      let present (services : ServiceTable) :=
        ∃ entry, services.get "app" = some entry ∧ entry.definitionRemoved = false
      _ ∧ _ ∧ present services ∧ present (after 2) ∧ (after 3).cgroupGeneration "app" = 0)
    (fun services ⟨booted, leaked, ⟨entry, found, present⟩, ⟨entry', found', present'⟩, generation⟩ =>
      ⟨booted, leaked, leaked_cgroups_apart booted hookLeaks ⟨?_, id, ?_, ?_, trivial⟩ _ _
        (leaked ▸ List.mem_singleton_self _)⟩)
    (by decide +kernel)
  · rintro ⟨entry₂, found₂, -, removed, -⟩
    cases found.symm.trans found₂
    exact absurd removed (by simpa using present)
  · rintro ⟨entry₂, found₂, -, removed, -⟩
    cases found'.symm.trans found₂
    exact absurd removed (by simpa using present')
  · rintro ⟨full, -⟩
    exact absurd (generation ▸ full) (by decide)

/-- Then the definition is taken out of the registry and put back. -/
def redefined : List LeakEvent :=
  hookLeaks ++ [.table (.reload { definitions := [] } []),
    .table (.reload { definitions := [{ name := "app" }] } [])]

/-- The service would be started in the tree that holds the hook. -/
theorem redefined_starts_in_leaked_tree :
    ∃ services, ServiceTable.fromBootSnapshot [{ name := "app" }] = .ok services ∧
      ¬ (runCalls perform { services } redefined).Apart := by
  refine Exists.imp (p := fun services => _ ∧
      let after := runCalls perform { services } redefined
      ∃ leak ∈ after.leaked, leakAffectsTree leak.2 (after.services.nextRoot leak.1) = true)
    (fun services ⟨booted, leak, leaked, within⟩ => ⟨booted, fun apart => ?_⟩) (by decide +kernel)
  exact absurd (within.symm.trans (apart _ _ leaked)) (by decide)

end LeakHistory

end Peinit
