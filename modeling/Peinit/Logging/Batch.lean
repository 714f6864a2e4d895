import Peinit.Ids.Canonical
import Peinit.Lib.MessagePack

/-!
# Batches of log records

Log records go to eventd in datagrams, each a MessagePack array of maps. Which records share a datagram
is decided beforehand, from lengths that are computed apart from the writers.
-/

namespace Peinit

open List

/-- The first three fields of an identifier little-endian, the rest as it is. -/
def pcdsGuidBytes (rfc : List UInt8) : List UInt8 :=
  (rfc.take 4).reverse ++ ((rfc.drop 4).take 2).reverse ++ ((rfc.drop 6).take 2).reverse ++ rfc.drop 8

def JobId.asBytes (id : JobId) : List UInt8 := id.uuid.asBytes

def JobId.asGuidBytes (id : JobId) : List UInt8 := pcdsGuidBytes id.asBytes

structure ServiceLogRecord where
  origin : String
  isError : Bool
  message : String
  timestampNs : UInt64
  jobId : Option JobId
  deriving DecidableEq

namespace ServiceLogRecord

def originKey : String := "origin"

def isErrorKey : String := "is_error"

def messageKey : String := "message"

def timestampKey : String := "timestamp"

def jobIdKey : String := "job_id"

end ServiceLogRecord

def writeArrayLen (len : ℕ) : List UInt8 :=
  if len ≤ 15 then [0x90 ||| UInt8.ofNat len]
  else if len ≤ 0xffff then 0xdc :: beBytes 2 len
  else 0xdd :: beBytes 4 len

def arrayHeaderLen (len : ℕ) : ℕ :=
  if len ≤ 15 then 1 else if len ≤ 0xffff then 3 else 5

def writeMapLen (len : ℕ) : List UInt8 := [0x80 ||| UInt8.ofNat len]

def writeBool (value : Bool) : List UInt8 := [if value then 0xc3 else 0xc2]

def writeU64 (value : UInt64) : List UInt8 :=
  let n := value.toNat
  if n ≤ 0x7f then [UInt8.ofNat n]
  else if n ≤ 0xff then [0xcc, UInt8.ofNat n]
  else if n ≤ 0xffff then 0xcd :: beBytes 2 n
  else if n ≤ 0xffffffff then 0xce :: beBytes 4 n
  else 0xcf :: beBytes 8 n

def writeStr (value : String) : List UInt8 :=
  let bytes := strBytes value
  (if bytes.length ≤ 31 then [0xa0 ||| UInt8.ofNat bytes.length]
    else if bytes.length ≤ 0xff then [0xd9, UInt8.ofNat bytes.length]
    else if bytes.length ≤ 0xffff then 0xda :: beBytes 2 bytes.length
    else 0xdb :: beBytes 4 bytes.length) ++ bytes

def writeBin (value : List UInt8) : List UInt8 :=
  (if value.length ≤ 0xff then [0xc4, UInt8.ofNat value.length]
    else if value.length ≤ 0xffff then 0xc5 :: beBytes 2 value.length
    else 0xc6 :: beBytes 4 value.length) ++ value

def encodedU64Len (value : UInt64) : ℕ :=
  let n := value.toNat
  if n ≤ 0x7f then 1
  else if n ≤ 0xff then 2
  else if n ≤ 0xffff then 3
  else if n ≤ 0xffffffff then 5
  else 9

def encodedStrLen (value : String) : ℕ :=
  let len := (strBytes value).length
  (if len ≤ 31 then 1 else if len ≤ 0xff then 2 else if len ≤ 0xffff then 3 else 5) + len

def encodedBinLen (len : ℕ) : ℕ := (if len ≤ 0xff then 2 else if len ≤ 0xffff then 3 else 5) + len

open ServiceLogRecord in
def writeRecord (record : ServiceLogRecord) : List UInt8 :=
  writeMapLen (if record.jobId.isSome then 5 else 4) ++
    writeStr originKey ++ writeStr record.origin ++
    writeStr isErrorKey ++ writeBool record.isError ++
    writeStr messageKey ++ writeStr record.message ++
    writeStr timestampKey ++ writeU64 record.timestampNs ++
    match record.jobId with
    | some jobId => writeStr jobIdKey ++ writeBin jobId.asGuidBytes
    | none => []

open ServiceLogRecord in
def encodedEventdLogRecordLen (record : ServiceLogRecord) : ℕ :=
  1 + encodedStrLen originKey + encodedStrLen record.origin + encodedStrLen isErrorKey + 1 +
    encodedStrLen messageKey + encodedStrLen record.message + encodedStrLen timestampKey +
    encodedU64Len record.timestampNs +
    (record.jobId.map fun jobId => encodedStrLen jobIdKey + encodedBinLen jobId.asBytes.length).getD 0

def encodeEventdLogRecordsInto (records : List ServiceLogRecord) : List UInt8 :=
  writeArrayLen records.length ++ records.flatMap writeRecord

/-- The loop of `eventdLogBatchPrefixLen`. -/
def batchLoop (maxDatagramBytes : ℕ) : List ServiceLogRecord → (index payloadBytes accepted : ℕ) → ℕ
  | [], _, _, accepted => accepted
  | record :: records, index, payloadBytes, accepted =>
      let payloadBytes := saturatingAdd payloadBytes (encodedEventdLogRecordLen record)
      let count := index + 1
      let encodedBytes := saturatingAdd (arrayHeaderLen count) payloadBytes
      if encodedBytes > maxDatagramBytes then accepted
      else batchLoop maxDatagramBytes records count payloadBytes count

def eventdLogBatchPrefixLen (records : List ServiceLogRecord) (maxDatagramBytes : ℕ) : ℕ :=
  batchLoop maxDatagramBytes records 0 0 0

/-! ## Lengths -/

theorem length_writeArrayLen (len : ℕ) : (writeArrayLen len).length = arrayHeaderLen len := by
  rw [writeArrayLen, arrayHeaderLen]
  split_ifs <;> simp

theorem length_writeU64 (value : UInt64) : (writeU64 value).length = encodedU64Len value := by
  rw [writeU64, encodedU64Len]
  split_ifs <;> simp

theorem length_writeStr (value : String) : (writeStr value).length = encodedStrLen value := by
  rw [writeStr, encodedStrLen, length_append]
  split_ifs <;> simp

theorem length_writeBin (value : List UInt8) : (writeBin value).length = encodedBinLen value.length := by
  rw [writeBin, encodedBinLen, length_append]
  split_ifs <;> simp

theorem JobId.length_asGuidBytes (id : JobId) : id.asGuidBytes.length = id.asBytes.length := by
  have bytes : id.asBytes.length = 16 := id.uuid.length_asBytes
  simp [asGuidBytes, pcdsGuidBytes, bytes]

theorem length_writeRecord (record : ServiceLogRecord) :
    (writeRecord record).length = encodedEventdLogRecordLen record := by
  rw [writeRecord, encodedEventdLogRecordLen]
  cases record.jobId with
  | none =>
    simp only [length_append, length_writeStr, length_writeU64, writeMapLen, writeBool,
      length_singleton, length_nil, Option.map_none, Option.getD_none]
  | some jobId =>
    simp only [length_append, length_writeStr, length_writeU64, length_writeBin,
      JobId.length_asGuidBytes, writeMapLen, writeBool, length_singleton, Option.map_some,
      Option.getD_some]

theorem length_encode (records : List ServiceLogRecord) : (encodeEventdLogRecordsInto records).length =
      arrayHeaderLen records.length + (records.map encodedEventdLogRecordLen).sum := by
  have each : records.map (fun record => (writeRecord record).length) =
      records.map encodedEventdLogRecordLen := map_congr_left fun record _ => length_writeRecord record
  rw [encodeEventdLogRecordsInto, length_append, length_writeArrayLen, length_flatMap, each]

/-! ## Reading the values back -/

section

open MessagePack

theorem fixed_toNat {n : ℕ} : (n < 16 → (0x90 ||| UInt8.ofNat n : UInt8).toNat = 0x90 + n ∧
      (0x80 ||| UInt8.ofNat n : UInt8).toNat = 0x80 + n) ∧
    (n < 32 → (0xa0 ||| UInt8.ofNat n : UInt8).toNat = 0xa0 + n) := by
  refine ⟨fun small => ?_, fun small => ?_⟩
  · interval_cases n <;> decide
  · interval_cases n <;> decide

theorem decode_writeStr {value : String} (short : (strBytes value).length < 2 ^ 32) (depth : ℕ)
    (rest : List UInt8) :
    decode (depth + 1) (writeStr value ++ rest) = some (.str (strBytes value), rest) := by
  refine decode_bytes (.inl ⟨rfl, rfl⟩) ?_ depth
  split_ifs with tiny small medium
  · have first := fixed_toNat.2 (Nat.lt_succ_of_le tiny)
    rw [singleton_append, readHead]
    simp only [first]
    rw [if_neg (by omega), if_neg (by omega), if_neg (by omega), if_pos (by omega)]
    simp
  · exact unsigned_beBytes Head.str 1 (by omega) _
  · exact unsigned_beBytes Head.str 2 (by omega) _
  · exact unsigned_beBytes Head.str 4 (by omega) _

theorem decode_writeBin {value : List UInt8} (short : value.length < 2 ^ 32) (depth : ℕ)
    (rest : List UInt8) : decode (depth + 1) (writeBin value ++ rest) = some (.bin value, rest) := by
  refine decode_bytes (.inr ⟨rfl, rfl⟩) ?_ depth
  split_ifs with small medium
  · exact unsigned_beBytes Head.bin 1 (by omega) _
  · exact unsigned_beBytes Head.bin 2 (by omega) _
  · exact unsigned_beBytes Head.bin 4 (by omega) _

theorem decode_writeU64 (value : UInt64) (depth : ℕ) (rest : List UInt8) :
    decode (depth + 1) (writeU64 value ++ rest) = some (.int value.toNat, rest) := by
  have bound : value.toNat < 2 ^ 64 := value.toNat_lt
  refine decode_scalar ?_ depth
  rw [writeU64]
  generalize value.toNat = n at bound
  split_ifs with tiny small medium large
  · have first : (UInt8.ofNat n).toNat = n := by
      rw [UInt8.toNat_ofNat']
      omega
    rw [singleton_append, readHead]
    simp only [first]
    rw [if_pos (by omega)]
  · exact number_beBytes 1 (by omega) _
  · exact number_beBytes 2 (by omega) _
  · exact number_beBytes 4 (by omega) _
  · exact number_beBytes 8 (by omega) _

theorem decode_writeBool (value : Bool) (depth : ℕ) (rest : List UInt8) :
    decode (depth + 1) (writeBool value ++ rest) = some (.bool value, rest) := by
  refine decode_scalar ?_ depth
  cases value <;> rfl

/-! ## Records -/

/-- What a record is, as a value of the format. -/
def ServiceLogRecord.value (record : ServiceLogRecord) : Value :=
  .map ([(.str (strBytes originKey), .str (strBytes record.origin)),
    (.str (strBytes isErrorKey), .bool record.isError),
    (.str (strBytes messageKey), .str (strBytes record.message)),
    (.str (strBytes timestampKey), .int record.timestampNs.toNat)] ++
    (record.jobId.map fun jobId => (.str (strBytes jobIdKey), .bin jobId.asGuidBytes)).toList)

/-- An entry of a map: its key, and its value as written and as read. -/
structure Entry where
  key : String
  written : List UInt8
  value : Value

open ServiceLogRecord in
def ServiceLogRecord.entries (record : ServiceLogRecord) : List Entry :=
  [⟨originKey, writeStr record.origin, .str (strBytes record.origin)⟩,
    ⟨isErrorKey, writeBool record.isError, .bool record.isError⟩,
    ⟨messageKey, writeStr record.message, .str (strBytes record.message)⟩,
    ⟨timestampKey, writeU64 record.timestampNs, .int record.timestampNs.toNat⟩] ++
    (record.jobId.map fun jobId =>
      ⟨jobIdKey, writeBin jobId.asGuidBytes, .bin jobId.asGuidBytes⟩).toList

theorem writeRecord_eq (record : ServiceLogRecord) : writeRecord record =
    writeMapLen record.entries.length ++
      record.entries.flatMap fun entry => writeStr entry.key ++ entry.written := by
  rw [writeRecord, ServiceLogRecord.entries]
  cases record.jobId <;> simp

theorem value_eq (record : ServiceLogRecord) : record.value =
    .map (record.entries.map fun entry => (.str (strBytes entry.key), entry.value)) := by
  rw [ServiceLogRecord.value, ServiceLogRecord.entries]
  cases record.jobId <;> rfl

/-- The texts of a record are short enough for the format. -/
def ServiceLogRecord.Short (record : ServiceLogRecord) : Prop :=
  (strBytes record.origin).length < 2 ^ 32 ∧ (strBytes record.message).length < 2 ^ 32

open ServiceLogRecord in
theorem decode_entry {record : ServiceLogRecord} (short : record.Short) :
    ∀ entry ∈ record.entries, (strBytes entry.key).length < 2 ^ 32 ∧
      ∀ depth rest, decode (depth + 1) (entry.written ++ rest) = some (entry.value, rest) := by
  intro entry mem
  rw [entries] at mem
  simp only [cons_append, nil_append, mem_cons, Option.mem_toList, Option.map_eq_some_iff] at mem
  have keys : ∀ key ∈ [originKey, isErrorKey, messageKey, timestampKey, jobIdKey],
      (strBytes key).length < 2 ^ 32 := by decide +kernel
  rcases mem with rfl | rfl | rfl | rfl | ⟨jobId, -, rfl⟩
  · exact ⟨keys _ (by simp), decode_writeStr short.1⟩
  · exact ⟨keys _ (by simp), decode_writeBool _⟩
  · exact ⟨keys _ (by simp), decode_writeStr short.2⟩
  · exact ⟨keys _ (by simp), decode_writeU64 _⟩
  · refine ⟨keys _ (by simp), decode_writeBin ?_⟩
    rw [JobId.length_asGuidBytes]
    exact lt_of_eq_of_lt jobId.uuid.length_asBytes (by decide)

theorem decode_writeRecord {record : ServiceLogRecord} (short : record.Short) (depth : ℕ)
    (rest : List UInt8) :
    decode (depth + 2) (writeRecord record ++ rest) = some (record.value, rest) := by
  have few : record.entries.length < 16 := by
    rw [ServiceLogRecord.entries]
    cases record.jobId <;> simp
  have head : ∀ bytes, readHead (writeMapLen record.entries.length ++ bytes) =
      some (.map record.entries.length, bytes) := by
    intro bytes
    have first := (fixed_toNat.1 few).2
    rw [writeMapLen, singleton_append, readHead]
    simp only [first]
    rw [if_neg (by omega), if_pos (by omega)]
    simp
  have each : ∀ entry ∈ record.entries, ∀ rest,
      readPair (decode (depth + 1)) (writeStr entry.key ++ entry.written ++ rest) =
        some ((.str (strBytes entry.key), entry.value), rest) := by
    intro entry mem
    obtain ⟨key, value⟩ := decode_entry short entry mem
    exact readPair_append (decode_writeStr key depth) (value depth)
  rw [writeRecord_eq, value_eq, append_assoc, decode, head]
  simp [readMany_flatMap each]

theorem readHead_writeArrayLen {len : ℕ} (few : len < 2 ^ 32) (bytes : List UInt8) :
    readHead (writeArrayLen len ++ bytes) = some (.array len, bytes) := by
  rw [writeArrayLen]
  split_ifs with tiny small
  · have first := (fixed_toNat.1 (Nat.lt_succ_of_le tiny)).1
    rw [singleton_append, readHead]
    simp only [first]
    rw [if_neg (by omega), if_neg (by omega), if_pos (by omega)]
    simp
  · exact unsigned_beBytes Head.array 2 (by omega) _
  · exact unsigned_beBytes Head.array 4 (by omega) _

theorem decodeAll_encode {records : List ServiceLogRecord} (few : records.length < 2 ^ 32)
    (short : ∀ record ∈ records, record.Short) :
    decodeAll (encodeEventdLogRecordsInto records) =
      some (.array (records.map ServiceLogRecord.value)) := by
  have positive : 0 < (writeArrayLen records.length).length := by
    rw [length_writeArrayLen, arrayHeaderLen]
    split_ifs <;> decide
  obtain ⟨depth, deep⟩ : ∃ depth, (encodeEventdLogRecordsInto records).length + 2 = depth + 3 := by
    refine ⟨(encodeEventdLogRecordsInto records).length - 1, ?_⟩
    rw [encodeEventdLogRecordsInto, length_append]
    omega
  have each : ∀ record ∈ records, ∀ rest,
      decode (depth + 2) (writeRecord record ++ rest) = some (record.value, rest) :=
    fun record mem => decode_writeRecord (short record mem) depth
  refine decodeAll_of_decode ?_
  have many := readMany_flatMap each []
  rw [append_nil] at many
  rw [deep, encodeEventdLogRecordsInto, decode, readHead_writeArrayLen few]
  simp [many]

end

/-! ## Batches -/

theorem arrayHeaderLen_mono {a b : ℕ} (le : a ≤ b) : arrayHeaderLen a ≤ arrayHeaderLen b := by
  rw [arrayHeaderLen, arrayHeaderLen]
  split_ifs <;> omega

/-- The size of the first `n` records as a datagram, as far as a `usize` counts. -/
def batchSize (records : List ServiceLogRecord) (n : ℕ) : ℕ :=
  min (encodeEventdLogRecordsInto (records.take n)).length u64Max

theorem batchSize_mono (records : List ServiceLogRecord) {m n : ℕ} (le : m ≤ n) :
    batchSize records m ≤ batchSize records n := by
  refine min_le_min_right _ ?_
  rw [length_encode, length_encode, length_take, length_take]
  refine Nat.add_le_add (arrayHeaderLen_mono (min_le_min_right _ le)) ?_
  exact ((take_sublist_take_left le).map _).sum_le_sum fun _ _ => Nat.zero_le _

/-- The bytes of the records themselves, as far as a `usize` counts. -/
def payloadSize (records : List ServiceLogRecord) : ℕ :=
  min (records.map encodedEventdLogRecordLen).sum u64Max

theorem payloadSize_append (done : List ServiceLogRecord) (record : ServiceLogRecord) :
    saturatingAdd (payloadSize done) (encodedEventdLogRecordLen record) =
      payloadSize (done ++ [record]) := by
  rw [saturatingAdd, payloadSize, payloadSize, map_append, sum_append, map_singleton, sum_singleton]
  omega

theorem batchSize_append (done records : List ServiceLogRecord) :
    saturatingAdd (arrayHeaderLen done.length) (payloadSize done) =
      batchSize (done ++ records) done.length := by
  rw [batchSize, take_left, length_encode, saturatingAdd, payloadSize]
  omega

theorem batchLoop_spec (limit : ℕ) (done records : List ServiceLogRecord) :
    let accepted := batchLoop limit records done.length (payloadSize done) done.length
    (done.length ≤ accepted ∧ accepted ≤ (done ++ records).length) ∧
    ∀ n, done.length < n → n ≤ (done ++ records).length →
      (n ≤ accepted ↔ batchSize (done ++ records) n ≤ limit) := by
  induction records generalizing done with
  | nil =>
    refine ⟨⟨le_rfl, by simp [batchLoop]⟩, fun n more few => ?_⟩
    rw [append_nil] at few
    omega
  | cons record records ih =>
    have split : done ++ record :: records = (done ++ [record]) ++ records := by simp
    have count : (done ++ [record]).length = done.length + 1 := by simp
    have size := batchSize_append (done ++ [record]) records
    have later := ih (done ++ [record])
    rw [count] at size later
    rw [batchLoop, payloadSize_append, size, split]
    split_ifs with large
    · refine ⟨⟨le_rfl, by simp⟩, fun n more few => iff_of_false (not_le.mpr more) ?_⟩
      exact not_le.mpr (large.trans_le (batchSize_mono _ more))
    · obtain ⟨⟨least, most⟩, exactly⟩ := later
      refine ⟨⟨by omega, most⟩, fun n more few => ?_⟩
      rcases Nat.lt_or_eq_of_le more with further | here
      · exact exactly n further few
      · subst here
        exact iff_of_true least (not_lt.mp large)

/-- Datagrams read back as their records, lengths are computed as written, and a batch takes as many
records as the limit allows.  A sum that a `usize` cannot hold counts as its largest value, which is
seen at a limit of that value only. -/
theorem log_batches_read_back (records : List ServiceLogRecord) (few : records.length < 2 ^ 32)
    (short : ∀ record ∈ records, record.Short) :
    MessagePack.decodeAll (encodeEventdLogRecordsInto records) =
      some (.array (records.map ServiceLogRecord.value)) ∧
    (∀ record ∈ records, encodedEventdLogRecordLen record = (writeRecord record).length) ∧
    (∀ limit < u64Max, eventdLogBatchPrefixLen records limit ≤ records.length ∧
      ∀ n, 0 < n → n ≤ records.length → (n ≤ eventdLogBatchPrefixLen records limit ↔
        (encodeEventdLogRecordsInto (records.take n)).length ≤ limit)) ∧
    eventdLogBatchPrefixLen records u64Max = records.length := by
  refine ⟨decodeAll_encode few short, fun record _ => (length_writeRecord record).symm, ?_, ?_⟩
  · intro limit below
    obtain ⟨⟨-, most⟩, exactly⟩ := batchLoop_spec limit [] records
    refine ⟨most, fun n more least => (exactly n more least).trans ?_⟩
    rw [List.nil_append, batchSize]
    omega
  · obtain ⟨⟨-, most⟩, exactly⟩ := batchLoop_spec u64Max [] records
    rcases Nat.eq_zero_or_pos records.length with none | some
    · rw [List.nil_append, none] at most
      rw [none]
      exact Nat.le_zero.mp most
    · exact le_antisymm most ((exactly _ some le_rfl).mpr (min_le_right _ _))

def helloRecord : ServiceLogRecord where
  origin := "web"
  isError := false
  message := "hello"
  timestampNs := 1000
  jobId := some ⟨0x018f32bb2d8370008000000000001115⟩

theorem log_batches_read_back_hello :
    eventdLogBatchPrefixLen [helloRecord, helloRecord] 100 = 1 ∧
    MessagePack.decodeAll (encodeEventdLogRecordsInto [helloRecord, helloRecord]) =
      some (.array [helloRecord.value, helloRecord.value]) :=
  ⟨by decide +kernel, (log_batches_read_back [helloRecord, helloRecord] (by decide) (by
    intro record listed
    obtain rfl : record = helloRecord := by simpa using listed
    exact ⟨by decide +kernel, by decide +kernel⟩)).1⟩

/-- No prefix at all fits in nothing: even an empty array is one byte. -/
theorem empty_batch_exceeds_no_bytes :
    ¬ ∀ (records : List ServiceLogRecord) (limit : ℕ), records.length < 2 ^ 32 →
      (∀ record ∈ records, record.Short) →
      IsGreatest {n | n ≤ records.length ∧
        (encodeEventdLogRecordsInto (records.take n)).length ≤ limit}
        (eventdLogBatchPrefixLen records limit) := by
  intro claim
  have fits := (claim [] 0 (by decide) (by simp)).1.2
  revert fits
  decide +kernel

end Peinit
