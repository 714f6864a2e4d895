import Peinit.Lib.KeyedFold
import Peinit.Service.Reload

/-!
# What a reload does to one service

Applying a snapshot goes over the table three times.  For one service it comes down to one of a few
cases, which every fact about reloads is derived from.
-/

namespace Peinit

variable {before : Option ServiceEntry} {svc : UndecodableService}
  {defs : List ServiceDefinition}

namespace ServiceTable

variable {svcs after : ServiceTable} {inc : OrdMap String ServiceDefinition}
  {undecodable : List UndecodableService} {frozen : List String} {name : String}

/-- The entry that a service without a readable definition has. -/
def placeholder (name message : String) : ServiceEntry where
  definition := .undecodablePlaceholder name message
  runtime := ServiceRuntimeSnapshot.moved {} ⟨.failed, .validationError⟩
  definitionRemoved := true

/-- What becomes of the entry of the service `name` when a snapshot is applied. -/
inductive EntryReloaded (incoming : OrdMap String ServiceDefinition)
    (undecodable : List UndecodableService) (frozen : List String) (name : String) :
    Option ServiceEntry → Option ServiceEntry → Prop
  | added (definition : ServiceDefinition) (defined : incoming[name]? = some definition) :
      EntryReloaded incoming undecodable frozen name none (some (.fresh definition))
  | deferred (entry : ServiceEntry) (definition : ServiceDefinition)
      (defined : incoming[name]? = some definition) (held : name ∈ frozen) :
      EntryReloaded incoming undecodable frozen name (some entry) (some (entry.defer definition))
  | updated (entry : ServiceEntry) (definition : ServiceDefinition)
      (defined : incoming[name]? = some definition) (free : name ∉ frozen) :
      EntryReloaded incoming undecodable frozen name (some entry)
        (some { entry.applyReloadedDefinition definition with definitionRemoved := false })
  | absent (undefined : incoming[name]? = none) (unnamed : name ∉ undecodable.map (·.name)) :
      EntryReloaded incoming undecodable frozen name none none
  | held (entry : ServiceEntry) (undefined : incoming[name]? = none) (held : name ∈ frozen) :
      EntryReloaded incoming undecodable frozen name (some entry) (some entry)
  | builtIn (entry : ServiceEntry) (undefined : incoming[name]? = none)
      (unnamed : name ∉ undecodable.map (·.name)) (free : name ∉ frozen)
      (builtIn : entry.definition.compiledIn = true) :
      EntryReloaded incoming undecodable frozen name (some entry) (some entry)
  | marked (entry : ServiceEntry) (undefined : incoming[name]? = none)
      (unnamed : name ∉ undecodable.map (·.name)) (free : name ∉ frozen)
      (read : entry.definition.compiledIn = false)
      (up : retainsDefinitionAfterRemoval entry.runtime.state = true) :
      EntryReloaded incoming undecodable frozen name (some entry)
        (some { entry with definitionRemoved := true })
  | discarded (entry : ServiceEntry) (undefined : incoming[name]? = none)
      (unnamed : name ∉ undecodable.map (·.name)) (free : name ∉ frozen)
      (read : entry.definition.compiledIn = false)
      (down : retainsDefinitionAfterRemoval entry.runtime.state = false) :
      EntryReloaded incoming undecodable frozen name (some entry) none
  | refusedUp (entry : ServiceEntry) (undefined : incoming[name]? = none)
      (named : name ∈ undecodable.map (·.name)) (free : name ∉ frozen)
      (up : retainsDefinitionAfterRemoval entry.runtime.state = true) :
      EntryReloaded incoming undecodable frozen name (some entry)
        (some { entry with definitionRemoved := true, pendingDefinition := none })
  | refused (before : Option ServiceEntry) (message : String) (undefined : incoming[name]? = none)
      (named : name ∈ undecodable.map (·.name)) (free : before.isSome = true → name ∉ frozen)
      (down : ∀ entry ∈ before, retainsDefinitionAfterRemoval entry.runtime.state = false) :
      EntryReloaded incoming undecodable frozen name before (some (placeholder name message))

/-! ## The three passes -/

/-- What the first pass makes of an entry that the snapshot defines. -/
def defined (frozen : List String) (name : String) (definition : ServiceDefinition) :
    Option ServiceEntry → Option ServiceEntry
  | none => some (.fresh definition)
  | some entry =>
    if name ∈ frozen then some (entry.defer definition)
    else some { entry.applyReloadedDefinition definition with definitionRemoved := false }

theorem get_define (state : Reloading) (pair : String × ServiceDefinition) (other : String) :
    (state.define frozen pair).services.get other =
      if pair.1 = other then defined frozen pair.1 pair.2 (state.services.get other)
      else state.services.get other := by
  obtain ⟨name, defn⟩ := pair
  unfold Reloading.define
  dsimp only
  by_cases here : name = other
  · subst here
    rcases state.services.get name with _ | entry
    · simp [defined, get_set]
    · by_cases held : name ∈ frozen <;> simp [defined, held, get_set]
  · rcases state.services.get name with _ | entry
    · simp [get_set, here]
    · by_cases held : name ∈ frozen <;> simp [held, get_set, here]

/-- What the second pass makes of an entry. -/
def withdrawn (frozen : List String) (incoming : OrdMap String ServiceDefinition)
    (undecodable : List UndecodableService) (name : String) : Option ServiceEntry → Option ServiceEntry
  | none => none
  | some entry =>
    if name ∈ incoming ∨ name ∈ undecodable.map (·.name) ∨ name ∈ frozen ∨
      entry.definition.compiledIn = true then some entry
    else if retainsDefinitionAfterRemoval entry.runtime.state then
      some { entry with definitionRemoved := true }
    else none

theorem get_withdraw (state : Reloading) (name other : String) :
    (state.withdraw frozen inc undecodable name).services.get other =
      if name = other then withdrawn frozen inc undecodable name (state.services.get other)
      else state.services.get other := by
  unfold Reloading.withdraw
  by_cases here : name = other
  · subst here
    rw [if_pos rfl]
    rcases got : state.services.get name with _ | entry
    · split_ifs <;> simp [withdrawn, got]
    · simp only [withdrawn]
      by_cases named : name ∈ inc ∨ name ∈ undecodable.map (·.name)
      · rw [if_pos named, if_pos (by tauto), got]
      · rw [if_neg named]
        by_cases held : name ∈ frozen
        · rw [if_pos held, if_pos (by tauto), got]
        · rw [if_neg held]
          by_cases builtIn : entry.definition.compiledIn = true
          · rw [if_pos builtIn, if_pos (by tauto), got]
          · have goes : ¬ (name ∈ inc ∨ name ∈ undecodable.map (·.name) ∨ name ∈ frozen ∨
                entry.definition.compiledIn = true) := by tauto
            rw [if_neg builtIn, if_neg goes]
            by_cases up : retainsDefinitionAfterRemoval entry.runtime.state = true
            · rw [if_pos up, if_pos up]
              by_cases removed : entry.definitionRemoved = true
              · rw [if_pos removed, got, ← removed]
              · rw [if_neg removed, get_set, if_pos rfl]
            · rw [if_neg up, if_neg up, get_discard, if_pos rfl]
  · split_ifs
    · rfl
    · rfl
    · split
      · rfl
      · split_ifs <;> simp [get_set, get_discard, here]

/-- What the third pass makes of an entry. -/
def refused (frozen : List String) (incoming : OrdMap String ServiceDefinition)
    (service : UndecodableService) (before : Option ServiceEntry) : Option ServiceEntry :=
  if service.name ∈ incoming ∨ service.name ∈ frozen ∧ before.isSome then before
  else match before with
    | some entry =>
      if retainsDefinitionAfterRemoval entry.runtime.state then
        some { entry with definitionRemoved := true, pendingDefinition := none }
      else some (placeholder service.name (undecodableMessage service))
    | none => some (placeholder service.name (undecodableMessage service))

theorem applyUndecodable_ok (svcs : ServiceTable) (svc : UndecodableService) :
    ∃ after, svcs.applyUndecodable svc = .ok after ∧ ∀ other, after.get other =
      if svc.name = other then
        match svcs.get other with
        | some entry =>
          if retainsDefinitionAfterRemoval entry.runtime.state then
            some { entry with definitionRemoved := true, pendingDefinition := none }
          else some (placeholder svc.name (undecodableMessage svc))
        | none => some (placeholder svc.name (undecodableMessage svc))
      else svcs.get other := by
  have insert : svcs.insertUndecodablePlaceholder svc.name .validationError
      (undecodableMessage svc) =
        .ok (svcs.set svc.name (placeholder svc.name (undecodableMessage svc))) := rfl
  unfold applyUndecodable
  rcases got : svcs.get svc.name with _ | entry
  · refine ⟨_, insert, fun other => ?_⟩
    by_cases here : svc.name = other
    · subst here
      simp [get_set, got]
    · simp [get_set, here]
  · by_cases up : retainsDefinitionAfterRemoval entry.runtime.state = true
    · simp only [if_pos up]
      refine ⟨_, rfl, fun other => ?_⟩
      by_cases here : svc.name = other
      · subst here
        simp [get_set, got, up]
      · simp [get_set, here]
    · simp only [if_neg up]
      refine ⟨_, insert, fun other => ?_⟩
      by_cases here : svc.name = other
      · subst here
        simp [get_set, got, up]
      · simp [get_set, here]

theorem refuse_ok (state : Reloading) (svc : UndecodableService) :
    ∃ next, state.refuse frozen inc svc = .ok next ∧ ∀ other, next.services.get other =
      if svc.name = other then refused frozen inc svc (state.services.get other)
      else state.services.get other := by
  unfold Reloading.refuse
  by_cases known : svc.name ∈ inc
  · rw [if_pos known]
    refine ⟨state, rfl, fun other => ?_⟩
    split_ifs with here
    · unfold refused
      rw [if_pos (.inl known)]
    · rfl
  · rw [if_neg known]
    by_cases held : svc.name ∈ frozen ∧ (state.services.get svc.name).isSome
    · rw [if_pos held]
      refine ⟨_, rfl, fun other => ?_⟩
      split_ifs with here
      · subst here
        unfold refused
        rw [if_pos (.inr held)]
      · rfl
    · rw [if_neg held]
      obtain ⟨after, applied, spec⟩ := applyUndecodable_ok state.services svc
      refine ⟨_, by rw [applied]; rfl, fun other => ?_⟩
      rw [spec]
      split_ifs with here
      · subst here
        unfold refused
        rw [if_neg (not_or.mpr ⟨known, held⟩)]
      · rfl

theorem foldlM_refuse (state : Reloading) (svcs : List UndecodableService) :
    ∃ next, svcs.foldlM (Reloading.refuse frozen inc) state = .ok next ∧ ∀ other,
      next.services.get other = svcs.foldl
        (fun before svc => if svc.name = other then refused frozen inc svc before
          else before) (state.services.get other) := by
  induction svcs generalizing state with
  | nil => exact ⟨state, rfl, fun _ => rfl⟩
  | cons svc svcs ih =>
    obtain ⟨mid, first, spec⟩ : ∃ next, state.refuse frozen inc svc = .ok next ∧ _ := refuse_ok state svc
    obtain ⟨next, rest, spec'⟩ := ih mid
    refine ⟨next, ?_, fun other => ?_⟩
    · rw [List.foldlM_cons, first]
      exact rest
    · rw [spec', spec, List.foldl_cons]

theorem withdrawn_of_named (named : name ∈ inc ∨ name ∈ undecodable.map (·.name) ∨ name ∈ frozen) :
    withdrawn frozen inc undecodable name before = before := by
  rcases before with _ | entry
  · rfl
  · unfold withdrawn
    dsimp only
    rw [if_pos (by tauto)]

theorem foldl_refused_keeps {svcs : List UndecodableService}
    (keeps : name ∈ inc ∨ name ∈ frozen ∧ before.isSome = true) :
    svcs.foldl (fun before svc =>
      if svc.name = name then refused frozen inc svc before else before) before = before := by
  induction svcs with
  | nil => rfl
  | cons svc svcs ih =>
    rw [List.foldl_cons]
    split_ifs with here
    · subst here
      unfold refused
      rw [if_pos keeps]
      exact ih
    · exact ih

/-- A service that is up is marked, one that is down is replaced. -/
inductive Refused (name : String) : Option ServiceEntry → Option ServiceEntry → Prop
  | up (entry : ServiceEntry) (up : retainsDefinitionAfterRemoval entry.runtime.state = true) :
      Refused name (some entry) (some { entry with definitionRemoved := true, pendingDefinition := none })
  | down (before : Option ServiceEntry) (message : String)
      (down : ∀ entry ∈ before, retainsDefinitionAfterRemoval entry.runtime.state = false) :
      Refused name before (some (placeholder name message))

theorem Refused.first (undefined : svc.name ∉ inc) (free : before.isSome = true → svc.name ∉ frozen) :
    Refused svc.name before (refused frozen inc svc before) := by
  have acts : ¬ (svc.name ∈ inc ∨ svc.name ∈ frozen ∧ before.isSome = true) := by tauto
  unfold refused
  rw [if_neg acts]
  rcases before with _ | entry
  · exact .down none _ (by simp)
  · dsimp only
    by_cases up : retainsDefinitionAfterRemoval entry.runtime.state = true
    · rw [if_pos up]
      exact .up entry up
    · rw [if_neg up]
      exact .down (some entry) _ (by simpa using up)

theorem Refused.again {mid : Option ServiceEntry} (done : Refused svc.name before mid) :
    Refused svc.name before (refused frozen inc svc mid) := by
  unfold refused
  split_ifs
  · exact done
  · cases done with
    | up entry up =>
      dsimp only
      rw [if_pos up]
      exact .up entry up
    | down before message down => exact .down before _ down

theorem Refused.reloaded {after : Option ServiceEntry} (done : Refused name before after)
    (undefined : inc[name]? = none) (named : name ∈ undecodable.map (·.name))
    (free : before.isSome = true → name ∉ frozen) :
    EntryReloaded inc undecodable frozen name before after := by
  cases done with
  | up entry up => exact .refusedUp entry undefined named (free rfl) up
  | down before message down => exact .refused before message undefined named free down

theorem refused_foldl (undefined : name ∉ inc)
    (free : before.isSome = true → name ∉ frozen) (svcs : List UndecodableService) :
    ∀ {mid : Option ServiceEntry}, mid = before ∧ name ∈ svcs.map (·.name) ∨ Refused name before mid →
      Refused name before (svcs.foldl (fun before svc =>
        if svc.name = name then refused frozen inc svc before else before) mid) := by
  induction svcs with
  | nil =>
    rintro mid (⟨-, mem⟩ | done)
    · cases mem
    · exact done
  | cons svc svcs ih =>
    rintro mid start
    rw [List.foldl_cons]
    apply ih
    by_cases here : svc.name = name
    · subst here
      rw [if_pos rfl]
      rcases start with ⟨rfl, -⟩ | done
      · exact .inr (.first undefined free)
      · exact .inr done.again
    · rw [if_neg here]
      refine start.imp (fun start => ⟨start.1, ?_⟩) id
      simpa [Ne.symm here] using start.2

/-! ## All of it -/

theorem defined_pass (state : Reloading) :
    (inc.toList.foldl (Reloading.define frozen) state).services.get name =
      match inc[name]? with
      | some defn => defined frozen name defn (state.services.get name)
      | none => state.services.get name := by
  refine (view_foldl Prod.fst (fun state : Reloading => state.services.get) (Reloading.define frozen)
    (fun pair => defined frozen pair.1 pair.2) get_define inc.toList state name).trans ?_
  rcases at_ : inc[name]? with _ | defn
  · refine foldl_absent Prod.fst (fun pair mem same => ?_) _
    subst same
    rw [(OrdMap.mem_toList _ _ _).mp mem] at at_
    cases at_
  · exact foldl_once Prod.fst (a := (name, defn)) (by
      rw [Std.ExtTreeMap.map_fst_toList_eq_keys]
      exact OrdMap.nodup_keys inc) ((OrdMap.mem_toList _ _ _).mpr at_) _

theorem withdrawn_pass (state : Reloading) :
    (state.services.serviceNames.foldl (Reloading.withdraw frozen inc undecodable)
      state).services.get name =
      withdrawn frozen inc undecodable name (state.services.get name) := by
  refine (view_foldl id (fun state : Reloading => state.services.get)
    (Reloading.withdraw frozen inc undecodable) (withdrawn frozen inc undecodable)
    get_withdraw state.services.serviceNames state name).trans ?_
  by_cases mem : name ∈ state.services.serviceNames
  · exact foldl_once id (by
      rw [List.map_id]
      exact OrdMap.nodup_keys _) mem _
  · have absent : state.services.get name = none := by
      rw [← Option.not_isSome_iff_eq_none, Option.isSome_iff_exists]
      exact fun got => mem ((OrdMap.mem_keys _ _).mpr got)
    rw [absent]
    refine foldl_absent id (fun other listed' same => mem ?_) none
    rw [← same]
    exact listed'

theorem exists_applyDefinitionSnapshotWith (svcs : ServiceTable)
    (undecodable : List UndecodableService) (frozen : List String)
    (mapped : mapDefinitions defs = .ok inc) :
    ∃ out, svcs.applyDefinitionSnapshotWith defs undecodable frozen = .ok out := by
  obtain ⟨done, refuse, -⟩ := foldlM_refuse _ undecodable
  exact ⟨_, bind_eq_ok.mpr ⟨inc, mapped, bind_eq_ok.mpr ⟨done, refuse, rfl⟩⟩⟩

theorem applyDefinitionSnapshotWith_ok {out : ServiceTable × ServiceReloadSummary}
    (ran : svcs.applyDefinitionSnapshotWith defs undecodable frozen = .ok out) :
    ∃ inc, mapDefinitions defs = .ok inc ∧ ∀ name,
      EntryReloaded inc undecodable frozen name (svcs.get name) (out.1.get name) := by
  obtain ⟨inc, mapped, rest⟩ := bind_eq_ok.mp ran
  obtain ⟨done, refuse, last⟩ := bind_eq_ok.mp rest
  cases last
  refine ⟨inc, mapped, fun name => ?_⟩
  obtain ⟨done', refuse', spec⟩ := foldlM_refuse _ undecodable
  cases refuse.symm.trans refuse'
  rw [spec, withdrawn_pass, defined_pass]
  rcases defines : inc[name]? with _ | defn
  · have undefined : name ∉ inc := by
      rw [Std.ExtTreeMap.mem_iff_isSome_getElem?, defines]
      exact Bool.false_ne_true
    by_cases named : name ∈ undecodable.map (·.name)
    · rw [withdrawn_of_named (.inr (.inl named))]
      by_cases held : name ∈ frozen ∧ (svcs.get name).isSome = true
      · rw [foldl_refused_keeps (.inr held)]
        obtain ⟨entry, got⟩ := Option.isSome_iff_exists.mp held.2
        rw [got]
        exact .held entry defines held.1
      · have free : (svcs.get name).isSome = true → name ∉ frozen := by tauto
        exact (refused_foldl undefined free undecodable (.inl ⟨rfl, named⟩)).reloaded defines named free
    · rw [foldl_absent UndecodableService.name fun svc mem same =>
        named (List.mem_map.mpr ⟨svc, mem, same⟩)]
      rcases svcs.get name with _ | entry
      · exact .absent defines named
      · by_cases held : name ∈ frozen
        · rw [withdrawn_of_named (.inr (.inr held))]
          exact .held entry defines held
        · rcases builtIn : entry.definition.compiledIn with _ | _
          · rcases up : retainsDefinitionAfterRemoval entry.runtime.state with _ | _
            · simp only [withdrawn, undefined, named, held, builtIn, up, or_self, Bool.false_eq_true,
                if_false]
              exact .discarded entry defines named held builtIn up
            · simp only [withdrawn, undefined, named, held, builtIn, up, or_self, Bool.false_eq_true,
                if_false, if_true]
              exact .marked entry defines named held builtIn up
          · simp only [withdrawn, builtIn, or_true, if_true]
            exact .builtIn entry defines named held builtIn
  · have known : name ∈ inc := by
      rw [Std.ExtTreeMap.mem_iff_isSome_getElem?, defines]
      rfl
    rw [withdrawn_of_named (.inl known), foldl_refused_keeps (.inl known)]
    rcases svcs.get name with _ | entry
    · exact .added defn defines
    · by_cases held : name ∈ frozen
      · simp only [defined, held, if_true]
        exact .deferred entry defn defines held
      · simp only [defined, held, if_false]
        exact .updated entry defn defines held

end ServiceTable

end Peinit
