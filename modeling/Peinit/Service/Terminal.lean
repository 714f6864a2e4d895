import Peinit.Service.Generations

/-!
# Terminals

A service that names a terminal is started only if no other is in possession of it, as the table has
it: the terminal of a definition, and a state in which there may be a process on it. But a service
stays on the terminal it was launched on, and its definition may come to name another.
-/

namespace Peinit

open ServiceTable ServiceEntry

variable {service other tty : String} {definition : ServiceDefinition} {entry : ServiceEntry}
  {cause : TransitionCause} {event : TableEvent} {services : ServiceTable}
  {out : ServiceTable × ServiceTableTransition}

namespace ServiceTable

variable (services : ServiceTable)

/-- The service that is in possession of `tty`; `except` is the one that asks. -/
def ttyHolder (tty except : String) : Option String :=
  (services.serviceNames.filter (· ≠ except)).find? fun service =>
    (services.get service).any fun entry =>
      entry.definition.consolePath = some tty && holdsTty entry.runtime.state

/-- The terminal that the definition names, and who else has it. -/
def ttyUnavailable (service : String) (definition : ServiceDefinition) : Option (String × String) :=
  definition.consolePath.bind fun tty => (services.ttyHolder tty service).map (tty, ·)

/-- The definition that a start of the service goes by. -/
def prepareActivationSnapshot (service : String) : Except ServiceTableError ServiceDefinition :=
  match services.get service with
  | none => .error (.unknownService service)
  | some entry =>
    if entry.definitionRemoved then .error (.definitionRemoved service) else .ok entry.definition

/-- Start a service that has passed its checks, or skip it if its terminal has been taken since. -/
def beginPrecheckedStart (service : String) (definition : ServiceDefinition) (cause : TransitionCause) :
    Except ServiceTableError (ServiceTable × Bool) :=
  match services.ttyUnavailable service definition with
  | some _ =>
    (services.transitionService service ⟨.skipped, .ttyUnavailable⟩).map fun out => (out.1, false)
  | none => (services.transitionService service ⟨.starting, cause⟩).map fun out => (out.1, true)

/-- The start of a restart: the service is moved first and checked then. -/
def beginRestartStartLeg (service : String) :
    Except ServiceTableError (ServiceTable × ServiceDefinition) := do
  let definition ← services.prepareActivationSnapshot service
  let out ← services.transitionService service ⟨.starting, .explicitStart⟩
  match out.1.ttyUnavailable service definition with
  | some _ =>
    let skipped ← out.1.transitionService service ⟨.skipped, .ttyUnavailable⟩
    return (skipped.1, definition)
  | none => return (out.1, definition)

variable {services}

theorem ttyUnavailable_of_holder (names : definition.consolePath = some tty) (away : other ≠ service)
    (got : services.get other = some entry) (same : entry.definition.consolePath = some tty)
    (holds : holdsTty entry.runtime.state = true) :
    services.ttyUnavailable service definition ≠ none := by
  unfold ttyUnavailable ttyHolder
  rw [names, Option.bind_some, Ne, Option.map_eq_none_iff, List.find?_eq_none]
  intro nobody
  refine nobody other (List.mem_filter.mpr ⟨(OrdMap.mem_keys _ _).mpr ⟨entry, got⟩, ?_⟩) ?_
  · simpa using away
  · rw [got]
    simp [same, holds]

end ServiceTable

theorem holdsTty_of_allowed {origin target : ServiceState}
    (allowed : isAllowedTransition origin target cause = true) (holds : holdsTty target = true)
    (notStart : target ≠ .starting) : holdsTty origin = true := by
  cases origin <;> first | rfl | (cases target <;> simp_all [isAllowedTransition, holdsTty])

/-! ## Runs -/

inductive TerminalEvent where
  /-- A reload, or a move other than a start. -/
  | table (event : TableEvent)
  /-- A start is checked, and goes by the definition of now. -/
  | check (service : String)
  /-- A start that was checked before is made. -/
  | startChecked (service : String) (definition : ServiceDefinition) (cause : TransitionCause)
  /-- A start is checked and made at once. -/
  | startReady (service : String) (cause : TransitionCause)
  /-- A restart; `waits` if its filesystem checks are yet to be made. -/
  | restart (service : String) (waits : Bool)
  /-- The filesystem checks of a restart have been made. -/
  | restartChecked (service : String) (definition : ServiceDefinition)

/-- The table, the starts that were checked, and the terminals that services were launched on in their
current activation. -/
structure TerminalRun where
  services : ServiceTable
  activations : List (String × ServiceDefinition) := []
  launched : OrdMap String String := ∅

namespace TerminalRun

variable (run : TerminalRun)

/-- The service is launched, with the terminal of the definition. -/
def launch (services : ServiceTable) (service : String) (definition : ServiceDefinition) : TerminalRun :=
  { run with
    services
    launched := match definition.consolePath with
      | some tty => run.launched.insert service tty
      | none => run.launched.erase service }

def startWith (service : String) (definition : ServiceDefinition) (cause : TransitionCause) :
    TerminalRun :=
  match run.services.beginPrecheckedStart service definition cause with
  | .ok (services, true) => run.launch services service definition
  | .ok (services, false) => { run with services }
  | .error _ => run

/-- What is refused changes nothing. -/
def perform : TerminalEvent → TerminalRun
  | .table (.reload read frozen) =>
    { run with services := run.services.perform (.reload read frozen) }
  | .table (.transition service transition) =>
    if transition.target = .starting then run
    else { run with services := run.services.perform (.transition service transition) }
  | .check service => match run.services.prepareActivationSnapshot service with
    | .ok definition => { run with activations := (service, definition) :: run.activations }
    | .error _ => run
  | .startChecked service definition cause =>
    if (service, definition) ∈ run.activations then run.startWith service definition cause else run
  | .startReady service cause => match run.services.prepareActivationSnapshot service with
    | .ok definition => run.startWith service definition cause
    | .error _ => run
  | .restart service waits => match run.services.beginRestartStartLeg service with
    | .ok (services, definition) =>
      if waits then
        { services, activations := (service, definition) :: run.activations,
          launched := run.launched.erase service }
      else run.launch services service definition
    | .error _ => run
  | .restartChecked service definition =>
    if (service, definition) ∈ run.activations ∧
        run.services.ttyUnavailable service definition = none then
      run.launch run.services service definition
    else run

/-- The service may have a process on the terminal. -/
def Holds (service tty : String) : Prop :=
  ∃ entry, run.services.get service = some entry ∧ holdsTty entry.runtime.state = true ∧
    run.launched[service]? = some tty

def OneHolder : Prop := ∀ tty s t, run.Holds s tty → run.Holds t tty → s = t

/-- The event lets the table name another terminal than the one a service is on: it gives a holder's
definition another terminal, lets such a definition take over, or makes a start that was checked with
another terminal. -/
def Misplaces : TerminalEvent → Prop
  | .table (.reload read frozen) =>
    (∃ incoming, mapDefinitions (run.services.carriedDefinitions read) = .ok incoming) ∧
      ∃ definition ∈ read.definitions, definition.name ∉ frozen ∧
        ∃ tty, run.Holds definition.name tty ∧ definition.consolePath ≠ some tty
  | .table (.transition service transition) =>
    transition.target = .backoff ∧ ∃ entry tty, run.services.get service = some entry ∧
      run.Holds service tty ∧ ∃ pending ∈ entry.pendingDefinition, pending.consolePath ≠ some tty
  | .startChecked service definition _ | .restartChecked service definition =>
    (service, definition) ∈ run.activations ∧
      run.services.ttyUnavailable service definition = none ∧
      ∃ tty entry, definition.consolePath = some tty ∧ run.services.get service = some entry ∧
        entry.definition.consolePath ≠ some tty
  | .check _ | .startReady _ _ | .restart _ _ => False

variable {run}

/-! ## What the table says -/

/-- The table names the terminal that a service is on. -/
structure Sound (run : TerminalRun) : Prop where
  keyed : run.services.Keyed
  placed : ∀ {service tty : String} {entry : ServiceEntry}, run.services.get service = some entry →
    holdsTty entry.runtime.state = true → run.launched[service]? = some tty →
    entry.definition.consolePath = some tty
  oneHolder : run.OneHolder

theorem consolePath_applyReloadedDefinition {inc : ServiceDefinition} :
    (entry.applyReloadedDefinition inc).definition.consolePath = inc.consolePath := by
  unfold applyReloadedDefinition
  split_ifs <;> rfl

theorem Sound.reload_consolePath (sound : run.Sound) {read : ServiceDefinitionsRead}
    {frozen : List String} (places : ¬ run.Misplaces (.table (.reload read frozen)))
    {inc : OrdMap String ServiceDefinition}
    (mapped : mapDefinitions (run.services.carriedDefinitions read) = .ok inc)
    (free : service ∉ frozen) (holds : run.Holds service tty)
    (defined : inc[service]? = some definition) :
    definition.consolePath = some tty := by
  obtain ⟨raw, mem, rfl⟩ := mapDefinitions_listed mapped defined
  obtain ⟨requires, wants, bindsTo, rfl⟩ := mapDefinitions_of_mem mapped mem defined
  rcases List.mem_append.mp mem with was | carried
  · by_contra other
    exact places ⟨⟨inc, mapped⟩, raw, was, free, tty, holds, other⟩
  · -- what is carried along is what the table has
    obtain ⟨name, entry, got, -, rfl⟩ := mem_compiledInDefinitionsAbsentFrom carried
    obtain ⟨entry', found', up, launched⟩ := holds
    have placed := sound.placed found' up launched
    rw [show ({ entry.definition with
        serviceSecurity := read.inheritedServiceSecurity.getD .default } : ServiceDefinition).name = name
      from (sound.keyed name entry got).1] at found'
    cases got.symm.trans found'
    exact placed

theorem Sound.table_entry (sound : run.Sound) (places : ¬ run.Misplaces (.table event))
    (noStart : ∀ service tr, event = .transition service tr → tr.target ≠ .starting)
    {next : ServiceEntry} (got : (run.services.perform event).get service = some next)
    (holds : holdsTty next.runtime.state = true) (launched : run.launched[service]? = some tty) :
    run.Holds service tty ∧ next.definition.consolePath = some tty := by
  have step := perform_cases run.services event service
  generalize was : run.services.get service = before at step
  rw [got] at step
  have same (entry : ServiceEntry) (was : run.services.get service = some entry)
      (holds : holdsTty entry.runtime.state = true) :
      run.Holds service tty ∧ entry.definition.consolePath = some tty :=
    ⟨⟨entry, was, holds, launched⟩, sound.placed was holds launched⟩
  cases step with
  | rejected => exact same next was holds
  | unmoved => exact same next was holds
  | reloaded read frozen inc _ _ mapped change =>
    cases change with
    | added => cases holds
    | deferred entry definition => exact same entry was holds
    | updated entry definition defined free =>
      have before : run.Holds service tty := by
        refine ⟨entry, was, ?_, launched⟩
        rwa [← @applyReloadedDefinition_runtime entry definition]
      refine ⟨before, ?_⟩
      rw [consolePath_applyReloadedDefinition]
      exact sound.reload_consolePath places mapped free before defined
    | held => exact same next was holds
    | builtIn => exact same next was holds
    | marked entry => exact same entry was holds
    | refusedUp entry => exact same entry was holds
    | refused => cases holds
  | moved entry tr allowed stays =>
    rw [moved_runtime, ServiceRuntimeSnapshot.moved_state] at holds
    have before := same entry was (holdsTty_of_allowed allowed holds (noStart service tr rfl))
    refine ⟨before.1, ?_⟩
    by_cases up : retainsDefinitionAfterRemoval tr.target = true
    · rw [definition_moved_of_up up]
      exact before.2
    · -- in backoff what is pending has taken over
      have down : tr.target = .backoff := by
        cases target : tr.target <;> simp_all [holdsTty, retainsDefinitionAfterRemoval]
      have present : entry.definitionRemoved = false := stays.resolve_right up
      have taken : (entry.moved tr).definition =
          entry.pendingDefinition.getD entry.definition := by
        simp [moved, present, up]
      rw [taken]
      rcases pends : entry.pendingDefinition with _ | pending
      · exact before.2
      · by_contra other
        exact places ⟨down, entry, tty, was, before.1, pending, pends, other⟩

theorem Sound.table (sound : run.Sound) (places : ¬ run.Misplaces (.table event))
    (noStart : ∀ service tr, event = .transition service tr → tr.target ≠ .starting) :
    Sound { run with services := run.services.perform event } := by
  refine ⟨sound.keyed.perform event, ?_, ?_⟩
  · intro service tty next got holds launched
    exact (sound.table_entry places noStart got holds launched).2
  · rintro tty s t ⟨next, got, holds, launched⟩ ⟨next', found', holds', launched'⟩
    exact sound.oneHolder tty s t (sound.table_entry places noStart got holds launched).1
      (sound.table_entry places noStart found' holds' launched').1

/-! ## Starts -/

theorem Sound.started (sound : run.Sound) {after : TerminalRun} (svc : String)
    (keyed : after.services.Keyed)
    (others : ∀ other ≠ svc, after.services.get other = run.services.get other ∧
      after.launched[other]? = run.launched[other]?)
    (free : ∀ tty, after.launched[svc]? = some tty → (∀ other ≠ svc, ¬ run.Holds other tty) ∧
      ∀ entry, after.services.get svc = some entry → entry.definition.consolePath = some tty) :
    after.Sound := by
  have before {other tty : String} (away : other ≠ svc) (holds : after.Holds other tty) :
      run.Holds other tty := by
    obtain ⟨entry, got, holds, launched⟩ := holds
    rw [(others other away).1] at got
    rw [(others other away).2] at launched
    exact ⟨entry, got, holds, launched⟩
  refine ⟨keyed, fun {other tty entry} got holds launched => ?_, fun tty s t holds holds' => ?_⟩
  · by_cases here : other = svc
    · subst here
      exact (free tty launched).2 entry got
    · obtain ⟨same, same'⟩ := others other here
      exact sound.placed (same ▸ got) holds (same' ▸ launched)
  · by_cases here : s = svc
    · by_cases here' : t = svc
      · exact here.trans here'.symm
      · subst here
        obtain ⟨-, -, -, launched⟩ := holds
        exact absurd (before here' holds') ((free tty launched).1 t here')
    · by_cases here' : t = svc
      · subst here'
        obtain ⟨-, -, -, launched⟩ := holds'
        exact absurd (before here holds) ((free tty launched).1 s here)
      · exact sound.oneHolder tty s t (before here holds) (before here' holds')

theorem Sound.nobody_holds (sound : run.Sound) (names : definition.consolePath = some tty)
    (available : run.services.ttyUnavailable service definition = none) :
    ∀ other ≠ service, ¬ run.Holds other tty := by
  rintro other away ⟨entry, got, holds, launched⟩
  exact ttyUnavailable_of_holder names away got (sound.placed got holds launched) holds available

theorem launched_launch : (run.launch services service definition).launched[other]? =
      if service = other then definition.consolePath else run.launched[other]? := by
  unfold launch
  rcases definition.consolePath with _ | tty
  · exact OrdMap.get_erase _ _ _
  · exact OrdMap.get_insert _ _ _ _

theorem Sound.launch (sound : run.Sound) (keyed : services.Keyed)
    (others : ∀ other ≠ service, services.get other = run.services.get other)
    (free : ∀ tty, definition.consolePath = some tty → (∀ other ≠ service, ¬ run.Holds other tty) ∧
      ∀ entry, services.get service = some entry → entry.definition.consolePath = some tty) :
    (run.launch services service definition).Sound := by
  refine sound.started service keyed (fun other away => ⟨others other away, ?_⟩) fun tty launched => ?_
  · exact launched_launch.trans (if_neg (Ne.symm away))
  · rw [launched_launch, if_pos rfl] at launched
    exact free tty launched

theorem started_spec
    (ran : services.transitionService service ⟨.starting, cause⟩ = .ok out) (keyed : services.Keyed) :
    out.1.Keyed ∧ (∀ other ≠ service, out.1.get other = services.get other) ∧
      ∃ entry, services.get service = some entry ∧
        out.1.get service = some (entry.moved ⟨.starting, cause⟩) := by
  obtain ⟨entry, got, -, next⟩ := transitionService_eq_ok ran
  refine ⟨keyed.moved ran, fun other away => ?_, entry, got, ?_⟩
  · rw [next, get_moveEntry_ne away]
  · rw [next, get_moveEntry]
    simp [retainsDefinitionAfterRemoval]

theorem Sound.skipped (sound : run.Sound)
    (ran : run.services.transitionService service ⟨.skipped, .ttyUnavailable⟩ = .ok out) :
    Sound { run with services := out.1 } := by
  rw [← perform_transition ran]
  refine sound.table (fun misplaces => nomatch misplaces.1) ?_
  rintro _ _ ⟨⟩
  exact ServiceState.noConfusion

theorem Sound.startWith (sound : run.Sound)
    (fits : run.services.ttyUnavailable service definition = none → ∀ tty entry,
      definition.consolePath = some tty → run.services.get service = some entry →
        entry.definition.consolePath = some tty) :
    (run.startWith service definition cause).Sound := by
  unfold TerminalRun.startWith beginPrecheckedStart
  rcases available : run.services.ttyUnavailable service definition with _ | holder
  · rcases ran : run.services.transitionService service ⟨.starting, cause⟩ with error | out
    · exact sound
    · obtain ⟨keyed, others, entry, got, started⟩ := started_spec ran sound.keyed
      refine sound.launch keyed others fun tty names => ?_
      refine ⟨sound.nobody_holds names available, fun next there => ?_⟩
      cases started.symm.trans there
      rw [definition_moved_of_up rfl]
      exact fits available tty entry names got
  · rcases ran : run.services.transitionService service ⟨.skipped, .ttyUnavailable⟩ with error | out
    · exact sound
    · exact sound.skipped ran

theorem beginRestartStartLeg_ok {after : ServiceTable × ServiceDefinition} (keyed : services.Keyed)
    (ran : services.beginRestartStartLeg service = .ok after) :
    after.1.Keyed ∧ (∀ other ≠ service, after.1.get other = services.get other) ∧
      after.1.ttyUnavailable service after.2 = none ∧
      ∃ next, after.1.get service = some next ∧ next.definition = after.2 := by
  obtain ⟨definition, prepared, rest⟩ := bind_eq_ok.mp ran
  obtain ⟨out, moved, rest⟩ := bind_eq_ok.mp rest
  obtain ⟨keyed, others, entry, got, started⟩ := started_spec moved keyed
  rcases available : out.1.ttyUnavailable service definition with _ | holder
  · rw [available] at rest
    cases rest
    refine ⟨keyed, others, available, _, started, ?_⟩
    rw [definition_moved_of_up rfl]
    unfold prepareActivationSnapshot at prepared
    rw [got] at prepared
    dsimp only at prepared
    split_ifs at prepared
    cases prepared
    rfl
  · rw [available] at rest
    obtain ⟨skipped, skips, -⟩ := bind_eq_ok.mp rest
    obtain ⟨next, at_, allowed, -⟩ := transitionService_eq_ok skips
    cases started.symm.trans at_
    rw [moved_runtime] at allowed
    cases allowed

theorem Sound.restart (sound : run.Sound) (svc : String) (waits : Bool) :
    (run.perform (.restart svc waits)).Sound := by
  unfold perform
  dsimp only
  rcases ran : run.services.beginRestartStartLeg svc with error | ⟨services, definition⟩
  · exact sound
  · obtain ⟨keyed, others, available, next, started, same⟩ := beginRestartStartLeg_ok sound.keyed ran
    cases waits with
    | true =>
      refine sound.started svc keyed (fun other away => ⟨others other away, ?_⟩)
        fun tty launched => ?_
      · exact (OrdMap.get_erase _ _ _).trans (if_neg (Ne.symm away))
      · have erased : (run.launched.erase svc)[svc]? = none := (OrdMap.get_erase _ _ _).trans (if_pos rfl)
        cases erased.symm.trans launched
    | false =>
      refine sound.launch keyed others fun tty names => ⟨?_, fun entry there => ?_⟩
      · rintro other away ⟨entry, got, holds, was⟩
        exact ttyUnavailable_of_holder names away ((others other away).trans got)
          (sound.placed got holds was) holds available
      · cases started.symm.trans there
        exact same ▸ names

theorem Sound.restartChecked (sound : run.Sound)
    (places : ¬ run.Misplaces (.restartChecked service definition)) :
    (run.perform (.restartChecked service definition)).Sound := by
  unfold perform
  dsimp only
  split_ifs with passes
  · refine sound.launch sound.keyed (fun _ _ => rfl) fun tty names => ?_
    refine ⟨sound.nobody_holds names passes.2, fun entry got => ?_⟩
    by_contra other
    exact places ⟨passes.1, passes.2, tty, entry, names, got, other⟩
  · exact sound

theorem Sound.perform (sound : run.Sound) {event : TerminalEvent} (places : ¬ run.Misplaces event) :
    (run.perform event).Sound := by
  cases event with
  | table event =>
    cases event with
    | reload read frozen => exact sound.table places nofun
    | transition service tr =>
      unfold TerminalRun.perform
      dsimp only
      split_ifs with start
      · exact sound
      · refine sound.table places ?_
        rintro _ _ ⟨⟩
        exact start
  | check service =>
    unfold TerminalRun.perform
    dsimp only
    split
    · exact ⟨sound.keyed, sound.placed, sound.oneHolder⟩
    · exact sound
  | startChecked service definition cause =>
    unfold TerminalRun.perform
    dsimp only
    split_ifs with checked
    · refine sound.startWith fun available tty entry names got => ?_
      by_contra other
      exact places ⟨checked, available, tty, entry, names, got, other⟩
    · exact sound
  | startReady service cause =>
    unfold TerminalRun.perform prepareActivationSnapshot
    dsimp only
    rcases at_ : run.services.get service with _ | entry
    · exact sound
    · dsimp only
      split
      · rename_i definition prepared
        split_ifs at prepared
        cases prepared
        refine sound.startWith fun _ tty entry' names got => ?_
        cases at_.symm.trans got
        exact names
      · exact sound
  | restart service waits => exact sound.restart service waits
  | restartChecked service definition => exact sound.restartChecked places

/-! ## The result -/

/-- In every run in which no event lets the table name another terminal than the one a service is on, no
two services are on one terminal. -/
theorem terminal_has_one_holder {services : ServiceTable} (keyed : services.Keyed)
    (events : List TerminalEvent)
    (placed : Admissible perform (fun run event => ¬ run.Misplaces event) { services } events) :
    (runCalls perform { services } events).OneHolder := by
  have none {service tty : String} : (∅ : OrdMap String String)[service]? ≠ some tty := by simp
  exact (invariant_of_step Sound (fun run event sound places => sound.perform places) events
    ⟨keyed, fun _ _ launched => absurd launched none,
      fun _ _ _ ⟨_, _, _, launched⟩ => absurd launched none⟩ placed).oneHolder

def sharing : List ServiceDefinition := [{ name := "login", consolePath := some "/dev/tty1" },
    { name := "setup", consolePath := some "/dev/tty1" }]

def bothStart : List TerminalEvent :=
  [.startReady "setup" .explicitStart, .table (.transition "setup" ⟨.active, .explicitStart⟩),
    .startReady "login" .explicitStart]

instance (run : TerminalRun) (service tty : String) : Decidable (run.Holds service tty) :=
  inferInstanceAs (Decidable (∃ entry ∈ run.services.get service,
    holdsTty entry.runtime.state = true ∧ run.launched[service]? = some tty))

theorem terminal_has_one_holder_bothStart :
    ∃ services, fromBootSnapshot sharing = .ok services ∧
      (runCalls perform { services } bothStart).Holds "setup" "/dev/tty1" ∧
      ¬ (runCalls perform { services } bothStart).Holds "login" "/dev/tty1" := by
  refine Exists.imp (p := fun _ => _ ∧ _) (fun services ⟨booted, holds⟩ => ⟨booted, holds, ?_⟩)
    (by decide +kernel)
  have placed : Admissible perform (fun run event => ¬ run.Misplaces event) { services } bothStart := by
    refine ⟨id, ?_, id, trivial⟩
    rintro ⟨backoff, -⟩
    cases backoff
  have one := terminal_has_one_holder (keyed_fromBootSnapshot booted) bothStart placed
  exact fun other => absurd (one _ _ _ holds other) (by decide)

/-- While the one is active, its terminal is changed in the registry, and the other is started. -/
def terminalChanged : List TerminalEvent :=
  [.startReady "setup" .explicitStart, .table (.transition "setup" ⟨.active, .explicitStart⟩),
    .table (.reload { definitions := [{ name := "login", consolePath := some "/dev/tty1" },
      { name := "setup", consolePath := some "/dev/tty2" }] } []),
    .startReady "login" .explicitStart]

/-- Then both are on the first terminal. -/
theorem terminal_has_two_holders :
    ∃ services, fromBootSnapshot sharing = .ok services ∧
      ¬ (runCalls perform { services } terminalChanged).OneHolder := by
  obtain ⟨services, booted, holds, holds'⟩ : ∃ services,
      fromBootSnapshot sharing = .ok services ∧
      (runCalls perform { services } terminalChanged).Holds "setup" "/dev/tty1" ∧
      (runCalls perform { services } terminalChanged).Holds "login" "/dev/tty1" := by
    decide +kernel
  exact ⟨services, booted, fun one => absurd (one _ _ _ holds holds') (by decide)⟩

end TerminalRun

end Peinit
