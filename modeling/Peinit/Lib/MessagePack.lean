import Peinit.Lib.FixedWidth

/-!
# MessagePack

A reader for the MessagePack format, nested arrays and maps included. `decodeAll` reads bytes that are one
value and nothing else.
-/

namespace Peinit.MessagePack

variable {α : Type} {n : ℕ} {bytes head rest : List UInt8}

/-- A value of the format.  Texts and floating point numbers are kept as their bytes. -/
inductive Value where
  | nil
  | bool (value : Bool)
  | int (value : ℤ)
  | float (bytes : List UInt8)
  | str (bytes : List UInt8)
  | bin (bytes : List UInt8)
  | array (values : List Value)
  | map (entries : List (Value × Value))
  | ext (kind : UInt8) (bytes : List UInt8)

/-- What the first byte, and the length that may follow it, announce. -/
inductive Head where
  | scalar (value : Value)
  | str (length : ℕ)
  | bin (length : ℕ)
  | array (length : ℕ)
  | map (length : ℕ)
  | ext (length : ℕ)

/-- A reader takes something off the front of some bytes. -/
abbrev Reader (α : Type) : Type := List UInt8 → Option (α × List UInt8)

def takeBytes (count : ℕ) : Reader (List UInt8) := fun bytes =>
  if count ≤ bytes.length then some (bytes.take count, bytes.drop count) else none

/-- A number of `width` bytes. -/
def unsigned {α : Type} (f : ℕ → α) (width : ℕ) : Reader α := fun bytes => do
  let (read, rest) ← takeBytes width bytes
  some (f (ofBeBytes read), rest)

/-- A number of `width` bytes in two's complement. -/
def signed (width : ℕ) : Reader Head :=
  unsigned (fun n => .scalar (.int (if n < 2 ^ (8 * width - 1) then n else n - 2 ^ (8 * width)))) width

def float (width : ℕ) : Reader Head := fun bytes => do
  let (read, rest) ← takeBytes width bytes
  some (.scalar (.float read), rest)

def number (width : ℕ) : Reader Head := unsigned (fun n => .scalar (.int n)) width

def readHead : Reader Head
  | [] => none
  | first :: rest =>
      let n := first.toNat
      if n < 0x80 then some (.scalar (.int n), rest)
      else if n < 0x90 then some (.map (n - 0x80), rest)
      else if n < 0xa0 then some (.array (n - 0x90), rest)
      else if n < 0xc0 then some (.str (n - 0xa0), rest)
      else if 0xe0 ≤ n then some (.scalar (.int (n - 0x100)), rest)
      else match n with
        | 0xc0 => some (.scalar .nil, rest)
        | 0xc2 => some (.scalar (.bool false), rest)
        | 0xc3 => some (.scalar (.bool true), rest)
        | 0xc4 => unsigned .bin 1 rest
        | 0xc5 => unsigned .bin 2 rest
        | 0xc6 => unsigned .bin 4 rest
        | 0xc7 => unsigned .ext 1 rest
        | 0xc8 => unsigned .ext 2 rest
        | 0xc9 => unsigned .ext 4 rest
        | 0xca => float 4 rest
        | 0xcb => float 8 rest
        | 0xcc => number 1 rest
        | 0xcd => number 2 rest
        | 0xce => number 4 rest
        | 0xcf => number 8 rest
        | 0xd0 => signed 1 rest
        | 0xd1 => signed 2 rest
        | 0xd2 => signed 4 rest
        | 0xd3 => signed 8 rest
        | 0xd4 => some (.ext 1, rest)
        | 0xd5 => some (.ext 2, rest)
        | 0xd6 => some (.ext 4, rest)
        | 0xd7 => some (.ext 8, rest)
        | 0xd8 => some (.ext 16, rest)
        | 0xd9 => unsigned .str 1 rest
        | 0xda => unsigned .str 2 rest
        | 0xdb => unsigned .str 4 rest
        | 0xdc => unsigned .array 2 rest
        | 0xdd => unsigned .array 4 rest
        | 0xde => unsigned .map 2 rest
        | 0xdf => unsigned .map 4 rest
        -- 0xc1, which the format never uses
        | _ => none

/-- Read `count` times. -/
def readMany {α : Type} (read : Reader α) : ℕ → Reader (List α)
  | 0, bytes => some ([], bytes)
  | count + 1, bytes => do
      let (first, rest) ← read bytes
      let (others, rest) ← readMany read count rest
      some (first :: others, rest)

def readPair {α : Type} (read : Reader α) : Reader (α × α) := fun bytes => do
  let (key, rest) ← read bytes
  let (value, rest) ← read rest
  some ((key, value), rest)

/-- Read one value, nested at most `depth` deep. -/
def decode : ℕ → Reader Value
  | 0, _ => none
  | depth + 1, bytes => do
      let (head, rest) ← readHead bytes
      match head with
      | .scalar value => some (value, rest)
      | .str length => do
          let (read, rest) ← takeBytes length rest
          some (.str read, rest)
      | .bin length => do
          let (read, rest) ← takeBytes length rest
          some (.bin read, rest)
      | .ext length => do
          let (kind, rest) ← takeBytes 1 rest
          let (read, rest) ← takeBytes length rest
          some (.ext (kind.headD 0) read, rest)
      | .array length => do
          let (values, rest) ← readMany (decode depth) length rest
          some (.array values, rest)
      | .map length => do
          let (entries, rest) ← readMany (readPair (decode depth)) length rest
          some (.map entries, rest)

/-- The value these bytes are.  Every level of nesting takes a byte, so that the depth given is
enough. -/
def decodeAll (bytes : List UInt8) : Option Value :=
  match decode (bytes.length + 2) bytes with
  | some (value, []) => some value
  | _ => none

/-! ## Reading at the front -/

theorem takeBytes_append {count : ℕ} {front : List UInt8} (rest : List UInt8)
    (long : front.length = count) : takeBytes count (front ++ rest) = some (front, rest) := by
  subst long
  rw [takeBytes, if_pos (by simp), List.take_left, List.drop_left]

theorem unsigned_beBytes (f : ℕ → α) (width : ℕ) (small : n < 256 ^ width)
    (rest : List UInt8) : unsigned f width (beBytes width n ++ rest) = some (f n, rest) := by
  rw [unsigned, takeBytes_append rest (length_beBytes width n)]
  simp [ofBeBytes_beBytes small]

theorem number_beBytes (width : ℕ) (small : n < 256 ^ width) (rest : List UInt8) :
    number width (beBytes width n ++ rest) = some (.scalar (.int n), rest) :=
  unsigned_beBytes _ width small rest

theorem readMany_flatMap {β : Type} {read : Reader β} {write : α → List UInt8} {value : α → β}
    {xs : List α} (each : ∀ x ∈ xs, ∀ rest, read (write x ++ rest) = some (value x, rest))
    (rest : List UInt8) :
    readMany read xs.length (xs.flatMap write ++ rest) = some (xs.map value, rest) := by
  induction xs with
  | nil => rfl
  | cons x xs ih =>
    have others := ih fun y mem => each y (List.mem_cons_of_mem x mem)
    rw [List.flatMap_cons, List.append_assoc, List.length_cons, readMany, each x (by simp)]
    simp [others]

theorem readPair_append {γ : Type} {read : Reader γ} {key value : List UInt8}
    {k v : γ} (first : ∀ rest, read (key ++ rest) = some (k, rest))
    (second : ∀ rest, read (value ++ rest) = some (v, rest)) (rest : List UInt8) :
    readPair read (key ++ value ++ rest) = some ((k, v), rest) := by
  rw [readPair, List.append_assoc, first]
  simp [second]

theorem decode_bytes {kind : Head} {value : Value}
    (raw : kind = .str bytes.length ∧ value = .str bytes ∨ kind = .bin bytes.length ∧ value = .bin bytes)
    (announced : readHead (head ++ (bytes ++ rest)) = some (kind, bytes ++ rest)) (depth : ℕ) :
    decode (depth + 1) (head ++ bytes ++ rest) = some (value, rest) := by
  rw [List.append_assoc, decode, announced]
  rcases raw with ⟨rfl, rfl⟩ | ⟨rfl, rfl⟩
  · simp [takeBytes_append rest rfl]
  · simp [takeBytes_append rest rfl]

theorem decode_scalar {value : Value}
    (read : readHead (head ++ rest) = some (.scalar value, rest)) (depth : ℕ) :
    decode (depth + 1) (head ++ rest) = some (value, rest) := by
  rw [decode, read]
  rfl

theorem decodeAll_of_decode {value : Value}
    (read : decode (bytes.length + 2) bytes = some (value, [])) : decodeAll bytes = some value := by
  rw [decodeAll, read]

end Peinit.MessagePack
