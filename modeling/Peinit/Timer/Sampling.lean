import Peinit.Timer.Event

/-!
# The random delay of a timer

The delay is a random number reduced modulo the size of the window.  Numbers from the last, incomplete
stretch are drawn again, so that no delay is more likely than another.
-/

namespace Peinit

variable {range jitterSecs delaySecs sample : ℕ}

def acceptanceZone (range : ℕ) : ℕ := u64Max - u64Max % range

/-- One round of the loop: a number outside the zone is passed over. -/
def acceptSample (range : ℕ) (sample : Except Unit ℕ) : Except Unit (Option ℕ) :=
  sample.map fun sample => if sample < acceptanceZone range then some sample else none

/-- The delay that is drawn when the source gives `samples`; there is none yet if all of them are passed
over. -/
def delaySecsFrom (jitterSecs : ℕ) (samples : List (Except Unit ℕ)) :
    Except TimerJitterError (Option ℕ) :=
  if jitterSecs = 0 then .ok (some 0)
  else if jitterSecs + 1 > u64Max then .error (.jitterWindowOverflow jitterSecs)
  else match firstAccepted (acceptSample (jitterSecs + 1)) samples with
    | .error () => .error .random
    | .ok accepted => .ok (accepted.map (· % (jitterSecs + 1)))

/-- The timers draw their delays like this. -/
theorem delaySecsFrom_eq {env : TimerEnvironment} {samples : List (Except Unit ℕ)}
    (source : firstAccepted (acceptSample (jitterSecs + 1)) samples =
      (env.randomU64 (jitterSecs + 1)).map some) :
    delaySecsFrom jitterSecs samples = (env.timerJitterDelaySecs jitterSecs).map some := by
  unfold delaySecsFrom TimerEnvironment.timerJitterDelaySecs
  rw [source]
  split_ifs
  · rfl
  · rfl
  · cases env.randomU64 (jitterSecs + 1) <;> rfl

theorem delaySecsFrom_sample (positive : 1 ≤ jitterSecs) (window : jitterSecs < u64Max) :
    delaySecsFrom jitterSecs [.ok sample] = .ok (some delaySecs) ↔
      sample < acceptanceZone (jitterSecs + 1) ∧ sample % (jitterSecs + 1) = delaySecs := by
  unfold delaySecsFrom
  rw [if_neg (by omega), if_neg (by omega)]
  by_cases accepted : sample < acceptanceZone (jitterSecs + 1)
  · simp [firstAccepted, acceptSample, Except.map, bind, Except.bind, accepted]
  · simp [firstAccepted, acceptSample, Except.map, bind, Except.bind, accepted]

theorem acceptanceZone_eq (range : ℕ) : acceptanceZone range = range * (u64Max / range) := by
  have split := Nat.div_add_mod u64Max range
  unfold acceptanceZone
  omega

theorem half_le_acceptanceZone (positive : 0 < range) (fits : range ≤ u64Max) :
    2 ^ 63 ≤ acceptanceZone range := by
  have once : 1 ≤ u64Max / range := Nat.div_pos fits positive
  have short : u64Max % range < range := Nat.mod_lt _ positive
  have split := Nat.div_add_mod u64Max range
  have stretch : range ≤ range * (u64Max / range) := Nat.le_mul_of_pos_right range once
  have top : u64Max = 2 ^ 64 - 1 := rfl
  unfold acceptanceZone
  omega

theorem card_mod_eq (n : ℕ) {delay : ℕ} (below : delay < range) :
    ((Finset.range (range * n)).filter (· % range = delay)).card = n := by
  have image : (Finset.range (range * n)).filter (· % range = delay) =
      (Finset.range n).image fun i => range * i + delay := by
    ext sample
    simp only [Finset.mem_filter, Finset.mem_range, Finset.mem_image]
    constructor
    · rintro ⟨inside, rfl⟩
      exact ⟨sample / range, Nat.div_lt_of_lt_mul inside, Nat.div_add_mod sample range⟩
    · rintro ⟨i, inside, rfl⟩
      refine ⟨?_, by rw [Nat.mul_add_mod, Nat.mod_eq_of_lt below]⟩
      calc range * i + delay < range * (i + 1) := by rw [Nat.mul_succ]; omega
        _ ≤ range * n := Nat.mul_le_mul_left range inside
  rw [image, Finset.card_image_of_injective, Finset.card_range]
  intro i j same
  exact Nat.eq_of_mul_eq_mul_left (by omega) (Nat.add_right_cancel same)

/-- Every delay of the window is drawn from equally many of the 64-bit numbers, and at least half of
these numbers give a delay at once. -/
theorem timer_jitter_uniform (jitterSecs : ℕ) (positive : 1 ≤ jitterSecs)
    (window : jitterSecs < 2 ^ 64 - 1) :
    (∃ n, 0 < n ∧ ∀ delaySecs ≤ jitterSecs, ((Finset.range (2 ^ 64)).filter fun sample =>
      delaySecsFrom jitterSecs [.ok sample] = .ok (some delaySecs)).card = n) ∧
    (∀ sample delaySecs, delaySecsFrom jitterSecs [.ok sample] = .ok (some delaySecs) →
      delaySecs ≤ jitterSecs) ∧
    2 ^ 63 ≤ ((Finset.range (2 ^ 64)).filter fun sample =>
      ∃ drawn, delaySecsFrom jitterSecs [.ok sample] = .ok drawn ∧ drawn.isSome).card := by
  have fits : jitterSecs + 1 ≤ u64Max := window
  have zone : acceptanceZone (jitterSecs + 1) ≤ 2 ^ 64 := (Nat.sub_le _ _).trans (Nat.sub_le _ _)
  refine ⟨⟨u64Max / (jitterSecs + 1), Nat.div_pos fits (Nat.succ_pos _), fun delaySecs short => ?_⟩,
    fun sample delaySecs drawn => ?_, ?_⟩
  · rw [← card_mod_eq (u64Max / (jitterSecs + 1)) (Nat.lt_succ_of_le short), ← acceptanceZone_eq]
    refine congrArg Finset.card (Finset.ext fun sample => ?_)
    rw [Finset.mem_filter, Finset.mem_filter, Finset.mem_range, Finset.mem_range,
      delaySecsFrom_sample positive window]
    exact ⟨And.right, fun drawn => ⟨drawn.1.trans_le zone, drawn⟩⟩
  · rw [← ((delaySecsFrom_sample positive window).mp drawn).2]
    exact Nat.lt_succ_iff.mp (Nat.mod_lt _ (Nat.succ_pos _))
  · calc 2 ^ 63 ≤ (Finset.range (acceptanceZone (jitterSecs + 1))).card := by
          rw [Finset.card_range]
          exact half_le_acceptanceZone (Nat.succ_pos _) fits
      _ ≤ _ := by
          refine Finset.card_le_card fun sample inside => ?_
          have accepted := Finset.mem_range.mp inside
          exact Finset.mem_filter.mpr ⟨Finset.mem_range.mpr (accepted.trans_le zone), _,
            (delaySecsFrom_sample positive window).mpr ⟨accepted, rfl⟩, rfl⟩

theorem timer_jitter_uniform_minute : ∃ n, 0 < n ∧ ∀ delaySecs ≤ 60,
    ((Finset.range (2 ^ 64)).filter fun sample =>
      delaySecsFrom 60 [.ok sample] = .ok (some delaySecs)).card = n :=
  (timer_jitter_uniform 60 (by norm_num) (by norm_num)).1

end Peinit
