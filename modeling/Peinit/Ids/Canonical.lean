import Peinit.Ids
import Peinit.Lib.FixedWidth
import Peinit.Lib.Fallible

/-!
# Reading identifiers

An identifier arrives as thirty-two hexadecimal digits in either case, with four hyphens. The reader
checks the length and the hyphens, and then walks over the bytes, skipping hyphens and pairing digits.
-/

namespace Peinit

open List UuidV7 UInt8

variable {value nibbles digits bytes : List UInt8} {uuid : UuidV7} {digit nibble high low : UInt8}

def strBytes (value : String) : List UInt8 := value.toUTF8.data.toList

def hyphen : UInt8 := 45

namespace UuidV7

def asBytes (uuid : UuidV7) : List UInt8 := beBytes 16 uuid.toNat

def ofBytes (bytes : List UInt8) : UuidV7 := BitVec.ofNat 128 (ofBeBytes bytes)

end UuidV7

inductive UuidV7ParseError where
  | length (actual : ℕ)
  | hyphen (index : ℕ)
  | hex (index : ℕ)
  | version (actual : UInt8)
  | variant (actual : UInt8)
  deriving DecidableEq

def UuidV7.fromCanonicalBytes (bytes : List UInt8) : Except UuidV7ParseError UuidV7 :=
  if bytes.getD 6 0 >>> 4 ≠ 7 then .error (.version (bytes.getD 6 0 >>> 4))
  else if bytes.getD 8 0 >>> 6 ≠ 2 then .error (.variant (bytes.getD 8 0 >>> 6))
  else .ok (ofBytes bytes)

def hexNibble (byte : UInt8) : Option UInt8 :=
  if 48 ≤ byte ∧ byte ≤ 57 then some (byte - 48)
  else if 97 ≤ byte ∧ byte ≤ 102 then some (byte - 97 + 10)
  else if 65 ≤ byte ∧ byte ≤ 70 then some (byte - 65 + 10)
  else none

/-- Where the walk over the text stands. -/
structure UuidV7Walk where
  bytes : List UInt8 := List.replicate 16 0
  byteIndex : ℕ := 0
  highNibble : Option UInt8 := none

namespace UuidV7Walk

/-- Take a digit: the first of a pair is kept, the second completes a byte. -/
def push (walk : UuidV7Walk) (nibble : UInt8) : UuidV7Walk :=
  match walk.highNibble with
  | some high =>
      { bytes := walk.bytes.set walk.byteIndex ((high <<< 4) ||| nibble)
        byteIndex := walk.byteIndex + 1
        highNibble := none }
  | none => { walk with highNibble := some nibble }

def step (walk : UuidV7Walk) (next : UInt8 × ℕ) : Except UuidV7ParseError UuidV7Walk :=
  if next.1 = hyphen then .ok walk
  else match hexNibble next.1 with
    | some nibble => .ok (walk.push nibble)
    | none => .error (.hex next.2)

end UuidV7Walk

/-- Where the form has its hyphens. -/
def hyphenIndices : List ℕ := [8, 13, 18, 23]

def checkHyphens (value : List UInt8) : Except UuidV7ParseError Unit :=
  hyphenIndices.forM fun index =>
    if value.getD index 0 ≠ hyphen then .error (.hyphen index) else .ok ()

def parseBytes (value : List UInt8) : Except UuidV7ParseError UuidV7 :=
  if value.length ≠ 36 then .error (.length value.length)
  else do
    checkHyphens value
    let walk ← value.zipIdx.foldlM UuidV7Walk.step {}
    UuidV7.fromCanonicalBytes walk.bytes

def parseUuidV7Canonical (value : String) : Except UuidV7ParseError UuidV7 :=
  parseBytes (strBytes value)

/-! ## The walk -/

def digitsOf (value : List UInt8) : List UInt8 := value.filter (· ≠ hyphen)

/-- Pairs of digits as bytes; a digit without a partner is dropped. -/
def pack : List UInt8 → List UInt8
  | high :: low :: rest => ((high <<< 4) ||| low) :: pack rest
  | _ => []

theorem length_pack : ∀ nibbles : List UInt8, (pack nibbles).length = nibbles.length / 2
  | [] | [_] => by simp [pack]
  | high :: low :: rest => by
    rw [pack, length_cons, length_pack rest, length_cons, length_cons]
    omega

theorem foldlM_step_eq_ok {index : ℕ} {walk final : UuidV7Walk} :
    (value.zipIdx index).foldlM UuidV7Walk.step walk = .ok final ↔
      ∃ nibbles, (digitsOf value).mapM hexNibble = some nibbles ∧
        final = nibbles.foldl UuidV7Walk.push walk := by
  induction value generalizing index walk with
  | nil =>
    constructor
    · intro ran
      cases ran
      exact ⟨[], rfl, rfl⟩
    · rintro ⟨nibbles, none, rfl⟩
      cases none
      rfl
  | cons byte value ih =>
    rw [zipIdx_cons, foldlM_cons]
    by_cases skipped : byte = hyphen
    · have same : digitsOf (byte :: value) = digitsOf value := by
        rw [digitsOf, filter_cons_of_neg (by simpa using skipped)]
        rfl
      have stays : UuidV7Walk.step walk (byte, index) = .ok walk := if_pos skipped
      rw [same, stays]
      exact ih
    have more : digitsOf (byte :: value) = byte :: digitsOf value := by
      rw [digitsOf, filter_cons_of_pos (by simpa using skipped)]
      rfl
    rw [more, mapM_cons, UuidV7Walk.step, if_neg skipped]
    cases digit : hexNibble byte with
    | none =>
      constructor
      · intro ran
        cases ran
      · rintro ⟨nibbles, absent, -⟩
        cases absent
    | some nibble =>
      refine Iff.trans ih ?_
      constructor
      · rintro ⟨nibbles, rest, rfl⟩
        exact ⟨nibble :: nibbles, by simp [rest], rfl⟩
      · rintro ⟨nibbles, rest, rfl⟩
        cases others : (digitsOf value).mapM hexNibble with
        | none => simp [others] at rest
        | some tail =>
          obtain rfl : nibble :: tail = nibbles := by simpa [others] using rest
          exact ⟨tail, rfl, rfl⟩

theorem foldl_push : ∀ nibbles done rest : List UInt8, (pack nibbles).length ≤ rest.length →
    (nibbles.foldl UuidV7Walk.push
      { bytes := done ++ rest, byteIndex := done.length, highNibble := none }).bytes =
      done ++ pack nibbles ++ rest.drop (pack nibbles).length
  | [], done, rest, _ => by simp [pack]
  | [_], done, rest, _ => by simp [pack, UuidV7Walk.push]
  | high :: low :: nibbles, done, [], room => by simp [pack] at room
  | high :: low :: nibbles, done, old :: rest, room => by
    have pushed : (done ++ old :: rest).set done.length ((high <<< 4) ||| low) =
        (done ++ [(high <<< 4) ||| low]) ++ rest := by simp
    have later := foldl_push nibbles (done ++ [(high <<< 4) ||| low]) rest (by simpa [pack] using room)
    rw [length_append, length_singleton] at later
    simp only [foldl_cons, UuidV7Walk.push, pushed]
    rw [later]
    simp [pack]

/-- The bytes the walk has when it has taken `nibbles`. -/
def filled (nibbles : List UInt8) : List UInt8 :=
  pack nibbles ++ (List.replicate 16 0).drop (pack nibbles).length

theorem filled_eq (few : nibbles.length ≤ 32) :
    (nibbles.foldl UuidV7Walk.push {}).bytes = filled nibbles := by
  have room : (pack nibbles).length ≤ (replicate 16 (0 : UInt8)).length := by
    rw [length_pack, length_replicate]
    omega
  exact foldl_push nibbles [] _ room

/-! ## The form -/

/-- A text whose hyphens are where the form has them. -/
def Hyphenated (value : List UInt8) : Prop :=
  value.length = 36 ∧ ∀ index ∈ hyphenIndices, value.getD index 0 = hyphen

instance : DecidablePred Hyphenated := fun value =>
  inferInstanceAs (Decidable (value.length = 36 ∧ ∀ index ∈ hyphenIndices, value.getD index 0 = hyphen))

/-- Digits in the form. -/
def layout (digits : List UInt8) : List UInt8 :=
  digits.take 8 ++ hyphen :: ((digits.drop 8).take 4 ++ hyphen :: ((digits.drop 12).take 4 ++
    hyphen :: ((digits.drop 16).take 4 ++ hyphen :: digits.drop 20)))

theorem checkHyphens_eq_ok :
    checkHyphens value = .ok () ↔ ∀ index ∈ hyphenIndices, value.getD index 0 = hyphen := by
  refine forM_eq_ok.trans (forall₂_congr fun index _ => ?_)
  rw [if_error_eq_ok, not_ne_iff, and_iff_left rfl]

theorem drop_eq_of_hyphen (start width : ℕ) (here : value.getD (start + width) 0 = hyphen) :
    value.drop start = (value.drop start).take width ++ hyphen :: value.drop (start + width + 1) := by
  have inside : start + width < value.length := by
    by_contra beyond
    rw [getD_eq_default _ _ (not_lt.mp beyond)] at here
    exact absurd here (by decide)
  rw [getD_eq_getElem _ _ inside] at here
  rw [← here, ← drop_eq_getElem_cons inside, ← drop_drop, take_append_drop]

theorem Hyphenated.split (form : Hyphenated value) :
    ∃ a b c d e : List UInt8, a.length = 8 ∧ b.length = 4 ∧ c.length = 4 ∧ d.length = 4 ∧
      e.length = 12 ∧
      value = a ++ hyphen :: (b ++ hyphen :: (c ++ hyphen :: (d ++ hyphen :: e))) := by
  obtain ⟨long, hyphens⟩ := form
  have first := drop_eq_of_hyphen 0 8 (hyphens 8 (by decide))
  have second := drop_eq_of_hyphen 9 4 (hyphens 13 (by decide))
  have third := drop_eq_of_hyphen 14 4 (hyphens 18 (by decide))
  have fourth := drop_eq_of_hyphen 19 4 (hyphens 23 (by decide))
  refine ⟨value.take 8, (value.drop 9).take 4, (value.drop 14).take 4, (value.drop 19).take 4,
    value.drop 24, ?_, ?_, ?_, ?_, ?_, ?_⟩
  case refine_6 => rw [← fourth, ← third, ← second]; exact first
  all_goals simp [long]

theorem digitsOf_append (a b : List UInt8) : digitsOf (a ++ b) = digitsOf a ++ digitsOf b :=
  filter_append ..

theorem digitsOf_hyphen_cons (a : List UInt8) : digitsOf (hyphen :: a) = digitsOf a :=
  filter_cons_of_neg (by decide)

theorem digitsOf_eq_self (plain : hyphen ∉ value) : digitsOf value = value := by
  refine filter_eq_self.mpr fun byte mem => ?_
  have differs : byte ≠ hyphen := fun same => plain (same ▸ mem)
  simpa using differs

theorem length_digitsOf (value : List UInt8) :
    (digitsOf value).length + value.count hyphen = value.length := by
  have parts := length_eq_countP_add_countP (p := (· == hyphen)) (l := value)
  rw [digitsOf, ← countP_eq_length_filter, count]
  simp only [decide_not, beq_iff_eq] at parts ⊢
  omega

/-- The form has four hyphens; any further one stands in the place of a digit. -/
theorem Hyphenated.four_le_count (form : Hyphenated value) : 4 ≤ value.count hyphen := by
  obtain ⟨a, b, c, d, e, -, -, -, -, -, rfl⟩ := form.split
  simp only [count_append, count_cons_self]
  omega

theorem Hyphenated.digits_le (form : Hyphenated value) : (digitsOf value).length ≤ 32 := by
  have four := form.four_le_count
  have all := length_digitsOf value
  rw [form.1] at all
  omega

theorem Hyphenated.layout_eq (form : Hyphenated value)
    (four : value.count hyphen = 4) : layout (digitsOf value) = value := by
  obtain ⟨a, b, c, d, e, la, lb, lc, ld, -, rfl⟩ := form.split
  simp only [count_append, count_cons_self] at four
  have plain (part : List UInt8) (none : part.count hyphen = 0) : digitsOf part = part :=
    digitsOf_eq_self (count_eq_zero.mp none)
  simp only [digitsOf_append, digitsOf_hyphen_cons]
  rw [plain a (by omega), plain b (by omega), plain c (by omega), plain d (by omega), plain e (by omega)]
  simp [layout, drop_append, drop_of_length_le, la, lb, lc, ld]

theorem mapM_hexNibble_eq_some : digits.mapM hexNibble = some nibbles ↔
    List.Forall₂ (fun nibble digit => hexNibble digit = some nibble) nibbles digits := by
  induction digits generalizing nibbles with
  | nil => simp
  | cons digit digits ih =>
    rw [mapM_cons, Option.bind_eq_bind, Option.bind_eq_some_iff]
    constructor
    · rintro ⟨nibble, first, rest⟩
      obtain ⟨others, read, same⟩ := Option.bind_eq_some_iff.mp rest
      cases same
      exact .cons first (ih.mp read)
    · rintro (_ | ⟨first, rest⟩)
      exact ⟨_, first, Option.bind_eq_some_iff.mpr ⟨_, ih.mpr rest, rfl⟩⟩

theorem fromCanonicalBytes_eq_ok :
    fromCanonicalBytes bytes = .ok uuid ↔
      bytes.getD 6 0 >>> 4 = 7 ∧ bytes.getD 8 0 >>> 6 = 2 ∧ ofBytes bytes = uuid := by
  rw [fromCanonicalBytes, if_error_eq_ok, if_error_eq_ok, not_ne_iff, not_ne_iff, Except.ok.injEq]

theorem parseBytes_eq_ok :
    parseBytes value = .ok uuid ↔ Hyphenated value ∧
      ∃ nibbles, (digitsOf value).mapM hexNibble = some nibbles ∧
        (filled nibbles).getD 6 0 >>> 4 = 7 ∧ (filled nibbles).getD 8 0 >>> 6 = 2 ∧
        ofBytes (filled nibbles) = uuid := by
  rw [parseBytes, if_error_eq_ok, not_ne_iff, bind_eq_ok]
  constructor
  · rintro ⟨long, ⟨⟩, hyphens, ran⟩
    have form : Hyphenated value := ⟨long, checkHyphens_eq_ok.mp hyphens⟩
    obtain ⟨walk, walked, checked⟩ := bind_eq_ok.mp ran
    obtain ⟨nibbles, digits, rfl⟩ := foldlM_step_eq_ok.mp walked
    rw [filled_eq ((mapM_hexNibble_eq_some.mp digits).length_eq ▸ form.digits_le)] at checked
    obtain ⟨version, variant, rfl⟩ := fromCanonicalBytes_eq_ok.mp checked
    exact ⟨form, nibbles, digits, version, variant, rfl⟩
  · rintro ⟨form, nibbles, digits, version, variant, rfl⟩
    refine ⟨form.1, (), checkHyphens_eq_ok.mpr form.2, bind_eq_ok.mpr
      ⟨_, foldlM_step_eq_ok.mpr ⟨nibbles, digits, rfl⟩, ?_⟩⟩
    rw [filled_eq ((mapM_hexNibble_eq_some.mp digits).length_eq ▸ form.digits_le)]
    exact fromCanonicalBytes_eq_ok.mpr ⟨version, variant, rfl⟩

/-! ## Digits -/

def toAsciiLowercase (byte : UInt8) : UInt8 := if 65 ≤ byte ∧ byte ≤ 90 then byte + 32 else byte

/-- Two texts are the same up to the case of ASCII letters. -/
def EqIgnoreAsciiCase (a b : String) : Prop :=
  (strBytes a).map toAsciiLowercase = (strBytes b).map toAsciiLowercase

instance (a b : String) : Decidable (EqIgnoreAsciiCase a b) :=
  inferInstanceAs (Decidable ((strBytes a).map toAsciiLowercase = (strBytes b).map toAsciiLowercase))

/-- The byte of a hexadecimal digit. -/
def lowerHexByte (n : UInt8) : UInt8 := UInt8.ofNat (lowerHexDigit n.toNat).toNat

theorem hexNibble_eq_some : hexNibble digit = some nibble ↔
    nibble < 16 ∧ lowerHexByte nibble = toAsciiLowercase digit := by
  constructor
  · have all : ∀ digit : UInt8, (hexNibble digit).all
        (fun nibble => decide (nibble < 16 ∧ lowerHexByte nibble = toAsciiLowercase digit)) = true := by
      decide +kernel
    intro read
    simpa [read] using all digit
  · have all : ∀ nibble : UInt8, nibble < 16 → ∀ digit : UInt8,
        lowerHexByte nibble = toAsciiLowercase digit → hexNibble digit = some nibble := by
      decide +kernel
    exact fun ⟨small, lower⟩ => all nibble small digit lower

theorem toAsciiLowercase_eq_hyphen (byte : UInt8) : toAsciiLowercase byte = hyphen ↔ byte = hyphen := by
  revert byte
  decide +kernel

theorem lowercase_lowerHexByte (small : nibble < 16) :
    toAsciiLowercase (lowerHexByte nibble) = lowerHexByte nibble ∧ lowerHexByte nibble ≠ hyphen := by
  revert nibble
  decide +kernel

theorem mapM_hexNibble_iff : digits.mapM hexNibble = some nibbles ↔
    (∀ nibble ∈ nibbles, nibble < 16) ∧ nibbles.map lowerHexByte = digits.map toAsciiLowercase := by
  simp only [mapM_hexNibble_eq_some, hexNibble_eq_some, forall₂_and_left]
  rw [← forall₂_eq_eq_eq, forall₂_map_left_iff, forall₂_map_right_iff]

/-- The digits of bytes. -/
def unpack (bytes : List UInt8) : List UInt8 := bytes.flatMap fun byte : UInt8 => [byte >>> 4, byte &&& 15]

theorem unpack_small (bytes : List UInt8) : ∀ nibble ∈ unpack bytes, nibble < 16 := by
  intro nibble mem
  obtain ⟨byte, -, digit⟩ := mem_flatMap.mp mem
  have all : ∀ byte : UInt8, byte >>> 4 < 16 ∧ byte &&& 15 < 16 := by decide +kernel
  simp only [mem_cons, not_mem_nil, or_false] at digit
  rcases digit with rfl | rfl
  · exact (all byte).1
  · exact (all byte).2

theorem pack_unpack (bytes : List UInt8) : pack (unpack bytes) = bytes := by
  have whole : ∀ byte : UInt8, ((byte >>> 4) <<< 4) ||| (byte &&& 15) = byte := by decide +kernel
  induction bytes with
  | nil => rfl
  | cons byte bytes ih =>
    change ((byte >>> 4) <<< 4 ||| (byte &&& 15)) :: pack (unpack bytes) = _
    rw [whole, ih]

theorem nibbles_of_byte : ∀ {high : UInt8}, high < 16 → ∀ {low : UInt8}, low < 16 →
    ((high <<< 4) ||| low) >>> 4 = high ∧ ((high <<< 4) ||| low) &&& 15 = low := by
  decide +kernel

theorem unpack_pack : ∀ nibbles : List UInt8, (∀ nibble ∈ nibbles, nibble < 16) →
    nibbles.length % 2 = 0 → unpack (pack nibbles) = nibbles
  | [], _, _ => rfl
  | [_], _, even => by simp at even
  | high :: low :: rest, small, even => by
    obtain ⟨first, second⟩ := nibbles_of_byte (small high (by simp)) (small low (by simp))
    change ((high <<< 4 ||| low) >>> 4) :: ((high <<< 4 ||| low) &&& 15) :: unpack (pack rest) = _
    rw [first, second, unpack_pack rest (fun nibble mem => small nibble (by simp [mem]))
      (by simp only [length_cons] at even; omega)]

/-! ## The canonical form -/

namespace UuidV7

theorem length_asBytes (uuid : UuidV7) : uuid.asBytes.length = 16 := length_beBytes 16 _

theorem asBytes_ofBytes (sixteen : bytes.length = 16) : (ofBytes bytes).asBytes = bytes := by
  have fits : ofBeBytes bytes < 2 ^ 128 := by
    have := ofBeBytes_lt bytes
    rw [sixteen] at this
    exact this
  rw [ofBytes, asBytes, BitVec.toNat_ofNat, Nat.mod_eq_of_lt fits, ← sixteen, beBytes_ofBeBytes]

/-- The version is 7 and the variant is the one of the RFC. -/
def IsVersion7 (uuid : UuidV7) : Prop :=
  uuid.asBytes.getD 6 0 >>> 4 = 7 ∧ uuid.asBytes.getD 8 0 >>> 6 = 2

/-- The digits of the canonical form. -/
def canonicalDigits (uuid : UuidV7) : List UInt8 := (unpack uuid.asBytes).map lowerHexByte

end UuidV7

theorem strBytes_ofList (chars : List Char) :
    strBytes (String.ofList chars) = chars.flatMap String.utf8EncodeChar := by
  rw [strBytes, String.toUTF8, String.toByteArray_ofList, utf8Encode, data_toByteArray]

theorem utf8EncodeChar_lowerHexDigit (n : ℕ) :
    String.utf8EncodeChar (lowerHexDigit n) = [ofNat (lowerHexDigit n).toNat] := by
  by_cases small : n < 16
  · interval_cases n <;> rfl
  · rw [lowerHexDigit, getD_eq_default _ _ (by simpa using small)]
    rfl

theorem utf8EncodeChar_byte (n : ℕ) :
    [lowerHexDigit (n % 256 / 16), lowerHexDigit (n % 256 % 16)].flatMap String.utf8EncodeChar =
      [ofNat n >>> 4, ofNat n &&& 15].map lowerHexByte := by
  have halves : ∀ byte : UInt8, (byte >>> 4).toNat = byte.toNat / 16 ∧
      (byte &&& 15).toNat = byte.toNat % 16 := by decide +kernel
  obtain ⟨high, low⟩ := halves (ofNat n)
  simp only [flatMap_cons, flatMap_nil, utf8EncodeChar_lowerHexDigit, map_cons,
    map_nil, lowerHexByte, high, low]
  rfl

theorem strBytes_toCanonicalString (uuid : UuidV7) :
    strBytes uuid.toCanonicalString = layout uuid.canonicalDigits := by
  have bytes : uuid.canonicalDigits = (range 16).flatMap fun i =>
      [ofNat (uuid.toNat >>> (120 - 8 * i)) >>> 4,
        ofNat (uuid.toNat >>> (120 - 8 * i)) &&& 15].map lowerHexByte := by
    rw [canonicalDigits, unpack, asBytes, beBytes_eq_map, flatMap_map, map_flatMap]
    refine flatMap_congr fun i mem => ?_
    rw [show 8 * (16 - 1 - i) = 120 - 8 * i by omega]
  rw [toCanonicalString, strBytes_ofList, flatMap_assoc, bytes]
  have each : ∀ i, ((if i = 4 ∨ i = 6 ∨ i = 8 ∨ i = 10 then ['-'] else []) ++
      [lowerHexDigit (uuid.toNat >>> (120 - 8 * i) % 256 / 16),
        lowerHexDigit (uuid.toNat >>> (120 - 8 * i) % 256 % 16)]).flatMap String.utf8EncodeChar =
      (if i = 4 ∨ i = 6 ∨ i = 8 ∨ i = 10 then [hyphen] else []) ++
        [ofNat (uuid.toNat >>> (120 - 8 * i)) >>> 4,
          ofNat (uuid.toNat >>> (120 - 8 * i)) &&& 15].map lowerHexByte := by
    intro i
    rw [flatMap_append, utf8EncodeChar_byte]
    split_ifs <;> rfl
  simp only [each]
  rfl

theorem map_layout (f : UInt8 → UInt8) (fixed : f hyphen = hyphen) (digits : List UInt8) :
    (layout digits).map f = layout (digits.map f) := by
  simp [layout, fixed]

theorem layout_hyphenated (all : digits.length = 32) : Hyphenated (layout digits) := by
  refine ⟨by simp [layout, all], fun index mem => ?_⟩
  have four : index = 8 ∨ index = 13 ∨ index = 18 ∨ index = 23 := by
    simpa [hyphenIndices] using mem
  rcases four with rfl | rfl | rfl | rfl <;> simp [layout, all]

theorem digitsOf_layout (plain : hyphen ∉ digits) : digitsOf (layout digits) = digits := by
  have same (part : List UInt8) (inside : ∀ byte ∈ part, byte ∈ digits) : digitsOf part = part :=
    digitsOf_eq_self fun mem => plain (inside hyphen mem)
  have joined : ∀ n k, (digits.drop n).take k ++ digits.drop (n + k) = digits.drop n := by
    intro n k
    rw [← drop_drop, take_append_drop]
  simp only [layout, digitsOf_append, digitsOf_hyphen_cons]
  rw [same (digits.take 8) fun _ => mem_of_mem_take, same (digits.drop 20) fun _ => mem_of_mem_drop,
    same _ fun _ mem => mem_of_mem_drop (mem_of_mem_take mem),
    same _ fun _ mem => mem_of_mem_drop (mem_of_mem_take mem),
    same _ fun _ mem => mem_of_mem_drop (mem_of_mem_take mem),
    joined 16 4, joined 12 4, joined 8 4, take_append_drop]

theorem digitsOf_lowercase (value : List UInt8) :
    digitsOf (value.map toAsciiLowercase) = (digitsOf value).map toAsciiLowercase := by
  rw [digitsOf, filter_map]
  congr 1
  refine filter_congr fun byte _ => ?_
  simp [toAsciiLowercase_eq_hyphen]

theorem hyphenated_lowercase : Hyphenated (value.map toAsciiLowercase) ↔ Hyphenated value := by
  have each : ∀ index, (value.map toAsciiLowercase).getD index 0 = hyphen ↔
      value.getD index 0 = hyphen := by
    intro index
    have mapped := getD_map (n := index) (d := 0) (l := value) toAsciiLowercase
    rw [show (value.map toAsciiLowercase).getD index 0 = toAsciiLowercase (value.getD index 0) from
      mapped]
    exact toAsciiLowercase_eq_hyphen _
  simp only [Hyphenated, length_map, each]

namespace UuidV7

theorem length_canonicalDigits (uuid : UuidV7) : uuid.canonicalDigits.length = 32 := by
  have bytes := uuid.length_asBytes
  simp [canonicalDigits, unpack, bytes]

theorem hyphen_not_mem_canonicalDigits (uuid : UuidV7) : hyphen ∉ uuid.canonicalDigits := by
  intro mem
  obtain ⟨nibble, digit, same⟩ := mem_map.mp mem
  exact (lowercase_lowerHexByte (unpack_small _ _ digit)).2 same

theorem lowercase_canonicalDigits (uuid : UuidV7) :
    uuid.canonicalDigits.map toAsciiLowercase = uuid.canonicalDigits := by
  rw [canonicalDigits, map_map]
  exact map_congr_left fun nibble digit =>
    (lowercase_lowerHexByte (unpack_small _ _ digit)).1

theorem eqIgnoreAsciiCase_iff {value : String} :
    EqIgnoreAsciiCase value uuid.toCanonicalString ↔
      (strBytes value).map toAsciiLowercase = layout uuid.canonicalDigits := by
  rw [EqIgnoreAsciiCase, strBytes_toCanonicalString, map_layout _ (by decide), lowercase_canonicalDigits]

end UuidV7

theorem parseBytes_of_canonical (version : uuid.IsVersion7)
    (same : value.map toAsciiLowercase = layout uuid.canonicalDigits) :
    parseBytes value = .ok uuid := by
  have form : Hyphenated value := by
    rw [← hyphenated_lowercase, same]
    exact layout_hyphenated uuid.length_canonicalDigits
  have digits : (digitsOf value).mapM hexNibble = some (unpack uuid.asBytes) := by
    refine mapM_hexNibble_iff.mpr ⟨unpack_small _, ?_⟩
    rw [← digitsOf_lowercase, same, digitsOf_layout uuid.hyphen_not_mem_canonicalDigits]
    rfl
  have whole : filled (unpack uuid.asBytes) = uuid.asBytes := by
    rw [filled, pack_unpack, uuid.length_asBytes]
    exact append_nil _
  refine parseBytes_eq_ok.mpr ⟨form, _, digits, ?_, ?_, ?_⟩
  · rw [whole]
    exact version.1
  · rw [whole]
    exact version.2
  · rw [whole, ofBytes, asBytes, ofBeBytes_beBytes (BitVec.isLt _),
      BitVec.ofNat_toNat, BitVec.setWidth_eq]

theorem canonical_of_parseBytes (parsed : parseBytes value = .ok uuid) (four : value.count hyphen = 4) :
    value.map toAsciiLowercase = layout uuid.canonicalDigits ∧ uuid.IsVersion7 := by
  obtain ⟨form, nibbles, digits, version, variant, rfl⟩ := parseBytes_eq_ok.mp parsed
  obtain ⟨small, lower⟩ := mapM_hexNibble_iff.mp digits
  have all : nibbles.length = 32 := by
    have count := length_digitsOf value
    have same := (mapM_hexNibble_eq_some.mp digits).length_eq
    rw [form.1] at count
    omega
  have sixteen : (pack nibbles).length = 16 := by rw [length_pack, all]
  have whole : filled nibbles = pack nibbles := by
    rw [filled, sixteen]
    exact append_nil _
  rw [whole] at version variant ⊢
  rw [UuidV7.IsVersion7, canonicalDigits, asBytes_ofBytes sixteen]
  refine ⟨?_, version, variant⟩
  rw [unpack_pack nibbles small (by omega), lower, ← map_layout _ (by decide), form.layout_eq four]

/-! ## Further hyphens -/

/-- A text with a hyphen in the place of a digit, that is taken all the same: its other bytes are
digits, at least eighteen, of which the thirteenth and the seventeenth give the version and the
variant. -/
@[mk_iff] structure ExtraHyphen (value : List UInt8) : Prop where
  form : Hyphenated value
  extra : 4 < value.count hyphen
  digits : ∀ byte ∈ digitsOf value, (hexNibble byte).isSome = true
  enough : 18 ≤ (digitsOf value).length
  version : hexNibble ((digitsOf value).getD 12 0) = some 7
  variant : (hexNibble ((digitsOf value).getD 16 0)).any (fun nibble : UInt8 => nibble >>> 2 == 2) = true

instance (value : List UInt8) : Decidable (ExtraHyphen value) :=
  decidable_of_iff' _ (extraHyphen_iff value)

theorem getD_pack : ∀ (nibbles : List UInt8) (i : ℕ), (pack nibbles).getD i 0 =
    if 2 * i + 1 < nibbles.length then
      (nibbles.getD (2 * i) 0 <<< 4) ||| nibbles.getD (2 * i + 1) 0
    else 0
  | [], i | [_], i => by simp [pack]
  | high :: low :: rest, 0 => by simp [pack]
  | high :: low :: rest, i + 1 => by
    rw [pack, getD_cons_succ, getD_pack rest i, show 2 * (i + 1) = 2 * i + 1 + 1 by ring]
    simp

theorem getD_filled (nibbles : List UInt8) (i : ℕ) :
    (filled nibbles).getD i 0 = (pack nibbles).getD i 0 := by
  rw [filled, drop_replicate]
  simp only [getD_eq_getElem?_getD, getElem?_append, getElem?_replicate]
  split_ifs <;> simp_all

theorem variant_of_byte : ∀ {high : UInt8}, high < 16 → ∀ {low : UInt8}, low < 16 →
    ((high <<< 4) ||| low) >>> 6 = high >>> 2 := by
  decide +kernel

theorem filled_checks (small : ∀ nibble ∈ nibbles, nibble < 16) :
    ((filled nibbles).getD 6 0 >>> 4 = 7 ∧ (filled nibbles).getD 8 0 >>> 6 = 2) ↔
      18 ≤ nibbles.length ∧ nibbles.getD 12 0 = 7 ∧ nibbles.getD 16 0 >>> 2 = 2 := by
  have below : ∀ i, nibbles.getD i 0 < 16 := by
    intro i
    by_cases inside : i < nibbles.length
    · rw [getD_eq_getElem _ _ inside]
      exact small _ (getElem_mem inside)
    · rw [getD_eq_default _ _ (not_lt.mp inside)]
      decide
  rw [getD_filled, getD_filled, getD_pack, getD_pack]
  by_cases enough : 18 ≤ nibbles.length
  · rw [if_pos (by omega), if_pos (by omega), (nibbles_of_byte (below _) (below _)).1,
      variant_of_byte (below _) (below _)]
    exact ⟨fun checks => ⟨enough, checks⟩, fun checks => checks.2⟩
  · rw [if_neg (show ¬ 2 * 8 + 1 < nibbles.length by omega)]
    exact iff_of_false (fun checks => absurd checks.2 (by decide)) fun checks => enough checks.1

theorem forall₂_hexNibble_getD
    (read : List.Forall₂ (fun nibble digit => hexNibble digit = some nibble) nibbles digits) {i : ℕ}
    (inside : i < nibbles.length) : hexNibble (digits.getD i 0) = some (nibbles.getD i 0) := by
  have inside' : i < digits.length := read.length_eq ▸ inside
  rw [getD_eq_getElem _ _ inside, getD_eq_getElem _ _ inside']
  exact read.get inside inside'

theorem exists_mapM_hexNibble : (∃ nibbles, digits.mapM hexNibble = some nibbles) ↔
      ∀ byte ∈ digits, (hexNibble byte).isSome = true := by
  simp only [mapM_hexNibble_eq_some]
  induction digits with
  | nil => simp
  | cons digit digits ih =>
    rw [forall_mem_cons, ← ih, Option.isSome_iff_exists]
    constructor
    · rintro ⟨_, _ | ⟨first, rest⟩⟩
      exact ⟨⟨_, first⟩, _, rest⟩
    · rintro ⟨⟨nibble, first⟩, nibbles, rest⟩
      exact ⟨nibble :: nibbles, .cons first rest⟩

theorem parseBytes_extra (extra : 4 < value.count hyphen) :
    (∃ uuid, parseBytes value = .ok uuid) ↔ ExtraHyphen value := by
  constructor
  · rintro ⟨uuid, parsed⟩
    obtain ⟨form, nibbles, digits, version, variant, -⟩ := parseBytes_eq_ok.mp parsed
    have read := mapM_hexNibble_eq_some.mp digits
    obtain ⟨enough, seven, ten⟩ := (filled_checks (mapM_hexNibble_iff.mp digits).1).mp ⟨version, variant⟩
    refine ⟨form, extra, exists_mapM_hexNibble.mp ⟨nibbles, digits⟩, read.length_eq ▸ enough, ?_, ?_⟩
    · rw [forall₂_hexNibble_getD read (by omega), seven]
    · rw [forall₂_hexNibble_getD read (by omega)]
      simpa using ten
  · intro odd
    obtain ⟨nibbles, digits⟩ := exists_mapM_hexNibble.mpr odd.digits
    have read := mapM_hexNibble_eq_some.mp digits
    have enough : 18 ≤ nibbles.length := read.length_eq ▸ odd.enough
    have seven := odd.version
    have ten := odd.variant
    rw [forall₂_hexNibble_getD read (by omega), Option.some.injEq] at seven
    rw [forall₂_hexNibble_getD read (by omega)] at ten
    obtain ⟨version, variant⟩ := (filled_checks (mapM_hexNibble_iff.mp digits).1).mpr
      ⟨enough, seven, by simpa using ten⟩
    exact ⟨_, parseBytes_eq_ok.mpr ⟨odd.form, nibbles, digits, version, variant, rfl⟩⟩

theorem count_of_canonical
    (same : value.map toAsciiLowercase = layout uuid.canonicalDigits) : value.count hyphen = 4 := by
  have digits : (digitsOf value).length = 32 := by
    rw [← length_map (f := toAsciiLowercase), ← digitsOf_lowercase, same,
      digitsOf_layout uuid.hyphen_not_mem_canonicalDigits, uuid.length_canonicalDigits]
  have long : value.length = 36 := by
    rw [← length_map (f := toAsciiLowercase), same]
    exact (layout_hyphenated uuid.length_canonicalDigits).1
  have all := length_digitsOf value
  omega

/-- A text is read as the identifiers it is a canonical form of, in either case, and as no other,
unless it has a hyphen in the place of a digit and is taken all the same; and two texts without one
that are read as the same identifier differ at most in case. -/
theorem parse_accepts_canonical_form (value : String) : ((∀ uuid, parseUuidV7Canonical value = .ok uuid ↔
        EqIgnoreAsciiCase value uuid.toCanonicalString ∧ uuid.IsVersion7) ↔
      ¬ ExtraHyphen (strBytes value)) ∧
    ∀ (other : String) (uuid : UuidV7), ¬ ExtraHyphen (strBytes value) →
      ¬ ExtraHyphen (strBytes other) → parseUuidV7Canonical value = .ok uuid →
      parseUuidV7Canonical other = .ok uuid → EqIgnoreAsciiCase value other := by
  have sound : ∀ (value : String) (uuid : UuidV7), ¬ ExtraHyphen (strBytes value) →
      parseUuidV7Canonical value = .ok uuid →
      (strBytes value).map toAsciiLowercase = layout uuid.canonicalDigits ∧ uuid.IsVersion7 := by
    intro value uuid plain parsed
    have form := (parseBytes_eq_ok.mp parsed).1
    rcases form.four_le_count.lt_or_eq with extra | four
    · exact absurd ((parseBytes_extra extra).mp ⟨uuid, parsed⟩) plain
    · exact canonical_of_parseBytes parsed four.symm
  refine ⟨⟨fun exactly odd => ?_, fun plain uuid => ?_⟩, ?_⟩
  · obtain ⟨uuid, parsed⟩ := (parseBytes_extra odd.extra).mpr odd
    have same := UuidV7.eqIgnoreAsciiCase_iff.mp ((exactly uuid).mp parsed).1
    have extra := odd.extra
    rw [count_of_canonical same] at extra
    exact lt_irrefl 4 extra
  · rw [UuidV7.eqIgnoreAsciiCase_iff]
    exact ⟨sound value uuid plain, fun canonical => parseBytes_of_canonical canonical.2 canonical.1⟩
  · intro other uuid plain plainOther parsed parsedOther
    exact (sound value uuid plain parsed).1.trans (sound other uuid plainOther parsedOther).1.symm

theorem parse_accepts_canonical_form_upper :
    EqIgnoreAsciiCase "018F32BB-2D83-7000-8000-000000001115" "018f32bb-2d83-7000-8000-000000001115" :=
  (parse_accepts_canonical_form _).2 _ 0x018f32bb2d8370008000000000001115 (by decide +kernel)
    (by decide +kernel) (by decide +kernel) (by decide +kernel)

/-- Hyphens in the place of the last two digits read as zeros. -/
theorem parse_accepts_extra_hyphens :
    ¬ ∀ (value : String) (uuid : UuidV7), parseUuidV7Canonical value = .ok uuid ↔
      EqIgnoreAsciiCase value uuid.toCanonicalString ∧ uuid.IsVersion7 := by
  intro always
  have same := ((always "018f32bb-2d83-7000-8000-0000000011--" 0x018f32bb2d8370008000000000001100).mp
    (by decide +kernel)).1
  revert same
  decide +kernel

end Peinit
