import Peinit.Ids.Canonical

/-!
# Identifiers increase

The identifiers of one allocator, compared byte by byte, are in the order of their allocation: the
time comes first and does not go back, and the lower bits of the sequence come next.
-/

namespace Peinit

open List UInt8

variable {T : Type} {wrap : UuidV7 → T} {nextSequence observedAtNs sequence : ℕ}
  {batches : List (ℕ × ℕ)} {bytes bytes' : List UInt8}

/-! ## Bytes in order -/

theorem ofBeBytes_cons (byte : UInt8) (bytes : List UInt8) :
    ofBeBytes (byte :: bytes) = byte.toNat * 256 ^ bytes.length + ofBeBytes bytes := by
  induction bytes using reverseRecOn with
  | nil => simp [ofBeBytes]
  | append_singleton bytes last ih =>
    rw [← cons_append, ofBeBytes_append_singleton, ofBeBytes_append_singleton, ih,
      length_append, length_singleton, pow_succ]
    ring

theorem lex_of_ofBeBytes_lt : ∀ {bytes bytes' : List UInt8}, bytes.length = bytes'.length →
    ofBeBytes bytes < ofBeBytes bytes' → bytes < bytes'
  | [], [], _, less => absurd less (lt_irrefl _)
  | a :: as, b :: bs, same, less => by
    have long : as.length = bs.length := Nat.succ_inj.mp same
    have rest := ofBeBytes_lt bs
    rw [ofBeBytes_cons, ofBeBytes_cons, long] at less
    rcases lt_trichotomy a.toNat b.toNat with first | equal | last
    · exact .rel first
    · obtain rfl := UInt8.toNat_inj.mp equal
      exact .cons (lex_of_ofBeBytes_lt long (Nat.add_lt_add_iff_left.mp less))
    · nlinarith

theorem UuidV7.asBytes_lt {uuid uuid' : UuidV7} (less : uuid.toNat < uuid'.toNat) :
    uuid.asBytes < uuid'.asBytes := by
  refine lex_of_ofBeBytes_lt (uuid.length_asBytes.trans uuid'.length_asBytes.symm) ?_
  rwa [asBytes, asBytes, ofBeBytes_beBytes uuid.isLt, ofBeBytes_beBytes uuid'.isLt]

/-! ## The identifier of a seed -/

/-- The fields of an identifier; of a short sequence no bit is lost. -/
theorem toNat_seedUuid (early : observedAtNs / nanosPerMilli < 2 ^ 48) (short : sequence < 2 ^ 46) :
    (seedUuid observedAtNs sequence).toNat = observedAtNs / nanosPerMilli * 2 ^ 80 + 7 * 2 ^ 76 +
      2 * 2 ^ 62 + sequence * 2 ^ 16 + observedAtNs % 2 ^ 16 := by
  have append {n m : ℕ} (x : BitVec n) (y : BitVec m) : (x ++ y).toNat = x.toNat * 2 ^ m + y.toNat := by
    rw [BitVec.toNat_append, ← Nat.shiftLeft_add_eq_or_of_lt y.isLt, Nat.shiftLeft_eq]
  simp only [seedUuid, append, BitVec.extractLsb'_toNat, BitVec.toNat_ofNat]
  omega

theorem seedUuid_version7 (early : observedAtNs / nanosPerMilli < 2 ^ 48) (short : sequence < 2 ^ 46) :
    (seedUuid observedAtNs sequence).IsVersion7 := by
  have value := toNat_seedUuid early short
  have shifted : ∀ byte : UInt8, byte >>> 4 = ofNat (byte.toNat / 16) ∧
      byte >>> 6 = ofNat (byte.toNat / 64) := by decide +kernel
  unfold UuidV7.IsVersion7 UuidV7.asBytes
  rw [beBytes_eq_map]
  refine ⟨(shifted _).1.trans (congrArg ofNat ?_), (shifted _).2.trans (congrArg ofNat ?_)⟩
  · show (ofNat (_ >>> 72)).toNat / 16 = 7
    rw [toNat_ofNat']
    omega
  · show (ofNat (_ >>> 56)).toNat / 64 = 2
    rw [toNat_ofNat']
    omega

theorem asBytes_seedUuid_lt {laterNs later : ℕ} (clock : observedAtNs ≤ laterNs)
    (early : laterNs / nanosPerMilli < 2 ^ 48) (next : sequence < later) (short : later < 2 ^ 46) :
    (seedUuid observedAtNs sequence).asBytes < (seedUuid laterNs later).asBytes := by
  have time : observedAtNs / nanosPerMilli ≤ laterNs / nanosPerMilli := Nat.div_le_div_right clock
  apply UuidV7.asBytes_lt
  rw [toNat_seedUuid (time.trans_lt early) (next.trans short), toNat_seedUuid early short]
  omega

/-! ## Allocation -/

/-- Batches, each of so many identifiers at a time, one after the other. -/
def allocateAll (wrap : UuidV7 → T) (nextSequence : ℕ) :
    List (ℕ × ℕ) → Except IdAllocationError (List T × ℕ)
  | [] => .ok ([], nextSequence)
  | (count, observedAtNs) :: batches => do
    let first ← allocateBatch wrap nextSequence count observedAtNs
    let rest ← allocateAll wrap first.2 batches
    return (first.1 ++ rest.1, rest.2)

/-- The times and the sequence numbers that the identifiers are made of. -/
def seeds (nextSequence : ℕ) : List (ℕ × ℕ) → List (ℕ × ℕ)
  | [] => []
  | (count, observedAtNs) :: batches =>
    (List.range count).map (fun offset => (observedAtNs, nextSequence + offset)) ++
      seeds (nextSequence + count) batches

theorem allocateAll_eq (early : ∀ batch ∈ batches, batch.2 / nanosPerMilli < 2 ^ 48)
    (few : nextSequence + (batches.map (·.1)).sum < 2 ^ 46) :
    allocateAll wrap nextSequence batches =
      .ok (((seeds nextSequence batches).map fun seed => seedUuid seed.1 seed.2).map wrap,
        nextSequence + (batches.map (·.1)).sum) := by
  induction batches generalizing nextSequence with
  | nil => rfl
  | cons batch batches ih =>
    rw [map_cons, sum_cons, ← add_assoc] at few ⊢
    have first : nextSequence + batch.1 < 2 ^ 64 := by omega
    rw [allocateAll, allocateBatch_eq wrap (early batch (by simp)) first]
    dsimp only [bind, Except.bind]
    rw [ih (fun other mem => early other (by simp [mem])) few]
    simp [seeds, pure, Except.pure]

theorem length_seeds : (seeds nextSequence batches).length = (batches.map (·.1)).sum := by
  induction batches generalizing nextSequence with
  | nil => rfl
  | cons batch batches ih => simp [seeds, ih]

theorem mem_seeds {seed : ℕ × ℕ} (mem : seed ∈ seeds nextSequence batches) :
    (∃ batch ∈ batches, seed.1 = batch.2) ∧ nextSequence ≤ seed.2 ∧
      seed.2 < nextSequence + (batches.map (·.1)).sum := by
  induction batches generalizing nextSequence with
  | nil => cases mem
  | cons batch batches ih =>
    rw [map_cons, sum_cons]
    rcases mem_append.mp mem with first | rest
    · obtain ⟨offset, inside, rfl⟩ := mem_map.mp first
      have below := mem_range.mp inside
      exact ⟨⟨batch, by simp, rfl⟩, by dsimp only; omega, by dsimp only; omega⟩
    · obtain ⟨⟨other, mem, same⟩, later, below⟩ := ih rest
      exact ⟨⟨other, by simp [mem], same⟩, by omega, by omega⟩

theorem seeds_pairwise (clock : (batches.map (·.2)).Pairwise (· ≤ ·)) :
    (seeds nextSequence batches).Pairwise fun a b => a.1 ≤ b.1 ∧ a.2 < b.2 := by
  induction batches generalizing nextSequence with
  | nil => exact .nil
  | cons batch batches ih =>
    rw [map_cons, pairwise_cons] at clock
    refine pairwise_append.mpr ⟨pairwise_map.mpr ?_, ih clock.2, fun a inA b inB => ?_⟩
    · refine pairwise_lt_range.imp fun less => ⟨le_rfl, ?_⟩
      exact Nat.add_lt_add_left less _
    · obtain ⟨offset, inside, rfl⟩ := mem_map.mp inA
      have below := mem_range.mp inside
      obtain ⟨⟨other, mem, same⟩, later, -⟩ := mem_seeds inB
      rw [same]
      exact ⟨clock.1 other.2 (mem_map_of_mem mem), by dsimp only; omega⟩

/-- Fewer than 2^46 identifiers of one allocator, allocated while the clock does not go back, are all
allocated, are in strictly increasing order byte by byte, and are identifiers of version 7. -/
theorem allocated_ids_increase (wrap : UuidV7 → T) (batches : List (ℕ × ℕ))
    (few : (batches.map (·.1)).sum < 2 ^ 46) (clock : (batches.map (·.2)).Pairwise (· ≤ ·))
    (early : ∀ batch ∈ batches, batch.2 / nanosPerMilli < 2 ^ 48) :
    ∃ (uuids : List UuidV7) (last : ℕ), allocateAll wrap 0 batches = .ok (uuids.map wrap, last) ∧
      uuids.length = (batches.map (·.1)).sum ∧ (uuids.map UuidV7.asBytes).Pairwise (· < ·) ∧
      uuids.Nodup ∧ ∀ uuid ∈ uuids, uuid.IsVersion7 := by
  rw [← Nat.zero_add (batches.map (·.1)).sum] at few
  have bounds (seed : ℕ × ℕ) (mem : seed ∈ seeds 0 batches) :
      seed.1 / nanosPerMilli < 2 ^ 48 ∧ seed.2 < 2 ^ 46 := by
    obtain ⟨⟨batch, listed, same⟩, -, below⟩ := mem_seeds mem
    exact ⟨same ▸ early batch listed, below.trans few⟩
  have increase : ((seeds 0 batches).map fun seed => seedUuid seed.1 seed.2).Pairwise
      (·.asBytes < ·.asBytes) := by
    refine List.pairwise_map.mpr ((seeds_pairwise clock).imp_of_mem fun _ inB later => ?_)
    obtain ⟨early, short⟩ := bounds _ inB
    exact asBytes_seedUuid_lt later.1 early later.2 short
  refine ⟨_, _, allocateAll_eq early few, (List.length_map _).trans length_seeds,
    List.pairwise_map.mpr increase, increase.imp fun less same => ?_, fun uuid mem => ?_⟩
  · rw [same] at less
    exact List.lt_irrefl _ less
  · obtain ⟨seed, inside, rfl⟩ := List.mem_map.mp mem
    exact seedUuid_version7 (bounds seed inside).1 (bounds seed inside).2

theorem allocated_ids_increase_three : ∃ (uuids : List UuidV7) (last : ℕ),
    allocateAll JobId.mk 0 [(2, 1700000000000000000), (1, 1700000000000000005)] =
      .ok (uuids.map JobId.mk, last) ∧ uuids.length = 3 ∧
      (uuids.map UuidV7.asBytes).Pairwise (· < ·) := by
  obtain ⟨uuids, last, ran, many, increase, -⟩ := allocated_ids_increase JobId.mk
    [(2, 1700000000000000000), (1, 1700000000000000005)] (by decide) (by decide) (by decide)
  exact ⟨uuids, last, ran, many, increase⟩

end Peinit
