import Peinit.Shutdown.Model

/-!
# A stop deadline for each participant

The stop of a participant is begun with its wave and at no other time, and no service takes part in two
waves.  So no service ever has two stop deadlines.
-/

namespace Peinit

open List ShutdownPlan

namespace ShutdownPlan

def waveServices (plan : ShutdownPlan) (wave : ℕ) : List String :=
  (plan.stopWaves[wave]?.elim [] (·.services)).map (·.service)

theorem wave_unique {plan : ShutdownPlan} (distinct : (plan.participants.map (·.service)).Nodup)
    {svc : String} {i j : ℕ} (here : svc ∈ plan.waveServices i)
    (there : svc ∈ plan.waveServices j) : i = j := by
  unfold participants at distinct
  rw [map_flatMap, nodup_flatMap, pairwise_iff_getElem] at distinct
  have apart := distinct.2
  have wave {k : ℕ} (member : svc ∈ plan.waveServices k) : ∃ bound : k < plan.stopWaves.length,
      svc ∈ plan.stopWaves[k].services.map (·.service) := by
    unfold waveServices at member
    rcases got : plan.stopWaves[k]? with _ | participants <;> rw [got] at member
    · cases member
    · obtain ⟨bound, rfl⟩ := List.getElem?_eq_some_iff.mp got
      exact ⟨bound, member⟩
  obtain ⟨low, here⟩ := wave here
  obtain ⟨high, there⟩ := wave there
  rcases Nat.lt_trichotomy i j with less | same | more
  · exact absurd there (apart i j low high less here)
  · exact same
  · exact absurd here (apart j i high low more there)

theorem nodup_waveServices {plan : ShutdownPlan} (distinct : (plan.participants.map (·.service)).Nodup)
    (wave : ℕ) : (plan.waveServices wave).Nodup := by
  unfold waveServices
  rcases got : plan.stopWaves[wave]? with _ | participants
  · exact .nil
  · unfold ShutdownPlan.participants at distinct
    rw [map_flatMap, nodup_flatMap] at distinct
    exact distinct.1 participants (mem_of_getElem? got)

end ShutdownPlan

namespace ShutdownWork

variable {r : ShutdownRuntime}

/-- Each service has one deadline of a kind at most, and a stop deadline is for a service whose wave has
begun. -/
structure Spread (r : ShutdownRuntime) : Prop where
  participants : (r.plan.participants.map (·.service)).Nodup
  postKill : (r.postKillDeadlines.map (·.service)).Nodup
  stop : (r.stopDeadlines.map (·.service)).Nodup
  begun : ∀ deadline ∈ r.stopDeadlines, ∃ wave ≤ r.currentWave,
    deadline.service ∈ r.plan.waveServices wave

namespace Spread

theorem wave {more : List ShutdownStopDeadline} (spread : Spread r)
    (few : (more.map (·.service)).Sublist (r.plan.waveServices (r.currentWave + 1))) :
    Spread { r with currentWave := r.currentWave + 1, stopDeadlines := r.stopDeadlines ++ more } := by
  refine ⟨spread.participants, spread.postKill, ?_, fun due mem => ?_⟩
  · rw [map_append, nodup_append]
    refine ⟨spread.stop, (nodup_waveServices spread.participants _).sublist few, ?_⟩
    rintro svc old _ new rfl
    obtain ⟨due, mem, rfl⟩ := mem_map.mp old
    obtain ⟨wave, past, member⟩ := spread.begun due mem
    have later := wave_unique spread.participants member (few.subset new)
    omega
  · obtain old | new := mem_append.mp mem
    · obtain ⟨wave, past, member⟩ := spread.begun due old
      exact ⟨wave, Nat.le_succ_of_le past, member⟩
    · exact ⟨r.currentWave + 1, le_rfl, few.subset (mem_map_of_mem new)⟩

theorem of_sub {r' : ShutdownRuntime} (spread : Spread r) (plan : r'.plan = r.plan)
    (current : r'.currentWave = r.currentWave)
    (postKill : (r'.postKillDeadlines.map (·.service)).Nodup)
    (stop : (r'.stopDeadlines.map (·.service)).Sublist (r.stopDeadlines.map (·.service))) :
    Spread r' where
  participants := plan ▸ spread.participants
  postKill := postKill
  stop := spread.stop.sublist stop
  begun due mem := by
    obtain ⟨old, member, same⟩ := mem_map.mp (stop.subset (mem_map_of_mem mem))
    obtain ⟨wave, past, planned⟩ := spread.begun old member
    rw [plan, current]
    exact ⟨wave, past, same ▸ planned⟩

end Spread

end ShutdownWork

end Peinit
