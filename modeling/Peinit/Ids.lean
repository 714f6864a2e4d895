import Peinit.Lib.OrdMap

/-!
# Identifiers

Operations and jobs are named by version 7 UUIDs, whose sixteen bytes are compared as one big-endian
number.  An allocator makes them of the time and the next number of a sequence: 48 bits of
milliseconds, the version, the sequence around the variant, and the low bytes of the time.  Graph
contexts are numbered by their store.  A token is known by its summary.
-/

namespace Peinit

/-- The sixteen bytes of a UUID, most significant first. -/
abbrev UuidV7 : Type := BitVec 128

structure OperationId where
  uuid : UuidV7
  deriving DecidableEq

structure JobId where
  uuid : UuidV7
  deriving DecidableEq

/-- What the token of a caller or of a process contains. -/
structure TokenSummary where
  identity : String
  userSid : String
  groupSids : List String
  presentPrivileges : List String
  enabledPrivileges : List String
  deriving DecidableEq

structure GraphContextId where
  asU64 : ℕ
  deriving DecidableEq

def lowerHexDigit (n : ℕ) : Char := "0123456789abcdef".toList.getD n '0'

/-- The bytes in lower case hexadecimal, with a hyphen before the fifth, seventh, ninth and eleventh. -/
def UuidV7.toCanonicalString (uuid : UuidV7) : String :=
  String.ofList ((List.range 16).flatMap fun i =>
    let byte := (uuid.toNat >>> (120 - 8 * i)) % 256
    (if i = 4 ∨ i = 6 ∨ i = 8 ∨ i = 10 then ['-'] else []) ++
      [lowerHexDigit (byte / 16), lowerHexDigit (byte % 16)])

def JobId.toCanonicalString (id : JobId) : String := UuidV7.toCanonicalString id.uuid

instance : Ord OperationId := ⟨compareOn OperationId.uuid⟩

instance : Ord JobId := ⟨compareOn JobId.uuid⟩

instance : Ord GraphContextId := ⟨compareOn GraphContextId.asU64⟩

instance : Std.TransOrd OperationId :=
  inferInstanceAs (Std.TransCmp (compareOn OperationId.uuid))

instance : Std.TransOrd JobId :=
  inferInstanceAs (Std.TransCmp (compareOn JobId.uuid))

instance : Std.TransOrd GraphContextId :=
  inferInstanceAs (Std.TransCmp (compareOn GraphContextId.asU64))

instance : Std.LawfulEqOrd OperationId where
  eq_of_compare {a b} h := by
    obtain ⟨x⟩ := a
    obtain ⟨y⟩ := b
    exact congrArg OperationId.mk (Std.LawfulEqOrd.eq_of_compare (h : compare x y = .eq))

instance : Std.LawfulEqOrd JobId where
  eq_of_compare {a b} h := by
    obtain ⟨x⟩ := a
    obtain ⟨y⟩ := b
    exact congrArg JobId.mk (Std.LawfulEqOrd.eq_of_compare (h : compare x y = .eq))

instance : Std.LawfulEqOrd GraphContextId where
  eq_of_compare {a b} h := by
    obtain ⟨x⟩ := a
    obtain ⟨y⟩ := b
    exact congrArg GraphContextId.mk (Std.LawfulEqOrd.eq_of_compare (h : compare x y = .eq))

/-! ## Allocation -/

inductive IdAllocationError where
  | sequenceExhausted (nextSequence count : ℕ)
  | timestampOverflow (observedAtNs : ℕ)
  deriving DecidableEq

def nanosPerMilli : ℕ := 1000000

/-- The identifier of a time and a number of the sequence. -/
def seedUuid (observedAtNs sequence : ℕ) : UuidV7 :=
  let seq : BitVec 64 := BitVec.ofNat 64 sequence
  BitVec.ofNat 48 (observedAtNs / nanosPerMilli) ++ 7#4 ++ seq.extractLsb' 48 12 ++ 2#2 ++
    seq.extractLsb' 0 46 ++ BitVec.ofNat 16 observedAtNs

/-- A time whose milliseconds need more than 48 bits has no identifier. -/
def uuidV7FromSeed (observedAtNs sequence : ℕ) : Except IdAllocationError UuidV7 :=
  if 2 ^ 48 ≤ observedAtNs / nanosPerMilli then .error (.timestampOverflow observedAtNs)
  else .ok (seedUuid observedAtNs sequence)

variable {T : Type} {nextSequence count observedAtNs : ℕ}

/-- What an allocator does for a batch; `wrap` makes identifiers of the UUIDs. -/
def allocateBatch (wrap : UuidV7 → T) (nextSequence count observedAtNs : ℕ) :
    Except IdAllocationError (List T × ℕ) :=
  if count = 0 then .ok ([], nextSequence)
  else if 2 ^ 64 ≤ nextSequence + count then .error (.sequenceExhausted nextSequence count)
  else do
    let ids ← (List.range count).mapM fun offset =>
      uuidV7FromSeed observedAtNs (nextSequence + offset)
    return (ids.map wrap, nextSequence + count)

structure OperationIdAllocator where
  nextSequence : ℕ := 0
  deriving DecidableEq

def OperationIdAllocator.allocateBatch (self : OperationIdAllocator) (count observedAtNs : ℕ) :
    Except IdAllocationError (List OperationId × OperationIdAllocator) :=
  (Peinit.allocateBatch OperationId.mk self.nextSequence count observedAtNs).map
    fun (ids, nextSequence) => (ids, { nextSequence })

structure JobIdAllocator where
  nextSequence : ℕ := 0
  deriving DecidableEq

def JobIdAllocator.allocateBatch (self : JobIdAllocator) (count observedAtNs : ℕ) :
    Except IdAllocationError (List JobId × JobIdAllocator) :=
  (Peinit.allocateBatch JobId.mk self.nextSequence count observedAtNs).map
    fun (ids, nextSequence) => (ids, { nextSequence })

theorem allocateBatch_eq (wrap : UuidV7 → T) (early : observedAtNs / nanosPerMilli < 2 ^ 48)
    (few : nextSequence + count < 2 ^ 64) :
    allocateBatch wrap nextSequence count observedAtNs =
      .ok ((List.range count).map fun offset => wrap (seedUuid observedAtNs (nextSequence + offset)),
        nextSequence + count) := by
  have all : ((List.range count).mapM fun offset =>
      uuidV7FromSeed observedAtNs (nextSequence + offset)) =
      .ok ((List.range count).map fun offset => seedUuid observedAtNs (nextSequence + offset)) := by
    simp only [uuidV7FromSeed, if_neg (not_le.mpr early)]
    exact List.mapM_pure
  unfold allocateBatch
  split_ifs with none many
  · subst none
    rfl
  · omega
  · rw [all]
    simp [bind, Except.bind, pure, Except.pure]

end Peinit
