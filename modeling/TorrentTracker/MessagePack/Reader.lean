import TorrentTracker.Word

/-
Reading MessagePack by the type that is expected.

The readers take more than the writers produce: headers and integers of
any width, a record as a map from field names to values in any order, and
a `bin` value in the place of a sequence, where it stands for its bytes as
numbers. They refuse anything whose type, length or range is not the
expected one, and stop where the input does. What follows a value is left
alone.

Only a `bin` value may be longer than the sequence that is wanted: its
other bytes are passed over.

# The token

`Token` is a value's first byte together with the length or number that
the byte announces. What a token announces (the elements of a sequence,
the bytes of a text) comes after it and is read by whoever asked.
-/

namespace TorrentTracker.MessagePack

-- ============================================================== tokens

/-- The start of a value. -/
inductive Token where
  | nil
  | boolean (b : Bool)
  /-- A number in one of the unsigned forms. -/
  | natural (n : Nat)
  /-- A number in one of the signed forms. -/
  | integer (n : Int)
  | float
  | text (length : Nat)
  | binary (length : Nat)
  | array (length : Nat)
  | map (length : Nat)
  | extension (length : Nat)
deriving DecidableEq

/-- A natural number of `width` bytes. -/
def readNatural (width : Nat) : Reader Nat := do
  return ofBigEndian (← Reader.bytes width)

/-- An integer of `width` bytes in two's complement. -/
def readInteger (width : Nat) : Reader Int := do
  let n ← readNatural width
  return if n < capacity width / 2 then (n : Int) else (n : Int) - capacity width

/-- The token that a first byte begins. -/
def Token.after (first : Nat) : Reader Token :=
  if first < 0x80 then return natural first
  else if first < 0x90 then return map (first - 0x80)
  else if first < 0xa0 then return array (first - 0x90)
  else if first < 0xc0 then return text (first - 0xa0)
  else if 0xe0 ≤ first then return integer ((first : Int) - 0x100)
  else match first with
    | 0xc0 => return nil
    | 0xc2 => return boolean false
    | 0xc3 => return boolean true
    | 0xc4 => return binary (← readNatural 1)
    | 0xc5 => return binary (← readNatural 2)
    | 0xc6 => return binary (← readNatural 4)
    | 0xc7 => return extension (← readNatural 1)
    | 0xc8 => return extension (← readNatural 2)
    | 0xc9 => return extension (← readNatural 4)
    | 0xca => do
      let _ ← Reader.bytes 4
      return float
    | 0xcb => do
      let _ ← Reader.bytes 8
      return float
    | 0xcc => return natural (← readNatural 1)
    | 0xcd => return natural (← readNatural 2)
    | 0xce => return natural (← readNatural 4)
    | 0xcf => return natural (← readNatural 8)
    | 0xd0 => return integer (← readInteger 1)
    | 0xd1 => return integer (← readInteger 2)
    | 0xd2 => return integer (← readInteger 4)
    | 0xd3 => return integer (← readInteger 8)
    | 0xd4 => return extension 1
    | 0xd5 => return extension 2
    | 0xd6 => return extension 4
    | 0xd7 => return extension 8
    | 0xd8 => return extension 16
    | 0xd9 => return text (← readNatural 1)
    | 0xda => return text (← readNatural 2)
    | 0xdb => return text (← readNatural 4)
    | 0xdc => return array (← readNatural 2)
    | 0xdd => return array (← readNatural 4)
    | 0xde => return map (← readNatural 2)
    | 0xdf => return map (← readNatural 4)
    | _ => Reader.fail

/-- Take a token. -/
def Token.read : Reader Token := do
  Token.after (← Reader.byte).toNat

-- ============================================================= scalars

/-- An integer of any form from `lo` to `hi`. -/
def readBetween (lo hi : Int) : Reader Int := do
  let inside (n : Int) : Reader Int :=
    if lo ≤ n ∧ n ≤ hi then return n else Reader.fail
  match ← Token.read with
  | .natural n => inside n
  | .integer n => inside n
  | _ => Reader.fail

/-- An integer that fits one unsigned byte. -/
def readUInt8 : Reader UInt8 := do
  return UInt8.ofNat (← readBetween 0 (UInt8.size - 1)).toNat

/-- An integer that fits 16 unsigned bits. -/
def readUInt16 : Reader UInt16 := do
  return UInt16.ofNat (← readBetween 0 (UInt16.size - 1)).toNat

/-- An integer that fits 64 signed bits. -/
def readInt64 : Reader Int64 := do
  return Int64.ofInt (← readBetween Int64.minValue.toInt Int64.maxValue.toInt)

/-- A truth value. -/
def readBoolean : Reader Bool := do
  match ← Token.read with
  | .boolean b => return b
  | _ => Reader.fail

-- =========================================================== sequences

variable {α β : Type}

/-- What `reader` makes of some other bytes. The input stays as it is. -/
def readFrom (data : Bytes) (reader : Reader α) : Reader α := fun input =>
  (reader.run data).map fun found => (found.1, input)

/-- Bytes as numbers, one after the other. -/
def numbers (bytes : Bytes) : Bytes := bytes.flatMap fun b => [0xcc, b]

/-- The elements of a sequence of exactly `n`, after its token. -/
def readElements (n : Nat) (elements : Reader α) : Token → Reader α
  | .array len => if len = n then elements else Reader.fail
  | .binary len => do
    let bytes ← Reader.bytes len
    if n ≤ len then readFrom (numbers (bytes.take n)) elements else Reader.fail
  | _ => Reader.fail

/-- A sequence of any length. -/
def readSequence (element : Reader α) : Reader (List α) := do
  match ← Token.read with
  | .array n => Reader.times n element
  | .binary n => do
    let bytes ← Reader.bytes n
    readFrom (numbers bytes) (Reader.times n element)
  | _ => Reader.fail

/-- A sequence of exactly two elements of types of their own. -/
def readPair (first : Reader α) (second : Reader β) : Reader (α × β) := do
  let both : Reader (α × β) := do
    let a ← first
    let b ← second
    return (a, b)
  readElements 2 both (← Token.read)

/-- A sequence of `n` bytes. -/
def readOctets (n : Nat) : Reader (Octets n) := do
  let bytes ← readElements n (Reader.times n readUInt8) (← Token.read)
  match Octets.ofBytes? n bytes with
  | some o => return o
  | none => Reader.fail

-- ======================================================== passing over

/-- Do without the result of `count` readers in a row. -/
def skipTimes (count : Nat) (one : Reader Unit) : Reader Unit :=
  match count with
  | 0 => return ()
  | count + 1 => do
    one
    skipTimes count one

/-- Pass over a value of any type that is nested no deeper than `depth`. -/
def skip : (depth : Nat) → Reader Unit
  | 0 => do
    match ← Token.read with
    | .array _ | .map _ | .extension _ => Reader.fail
    | .text n | .binary n => discard <| Reader.bytes n
    | _ => return ()
  | depth + 1 => do
    match ← Token.read with
    | .array n => skipTimes n (skip depth)
    | .map n => skipTimes (2 * n) (skip depth)
    | .extension n => discard <| Reader.bytes (n + 1)
    | .text n | .binary n => discard <| Reader.bytes n
    | _ => return ()

-- ============================================================= records

/-- The number of a name in a list of names, given by the name or by the
number itself; nothing if there is no such name or number. -/
def readName (names : List String) : Reader (Option Nat) := do
  match ← Token.read with
  | .natural i => return if i < names.length then some i else none
  | .text n | .binary n => do
    let name ← Reader.bytes n
    return names.findIdx? fun s => utf8 s = name
  | _ => Reader.fail

/-- Fill a form from the entries of a map, in any order. An entry that is
not a field of the form is passed over; `fill` refuses a field that it has
already. -/
def readEntries (names : List String) (depth : Nat) (fill : α → Nat → Reader α) :
    (count : Nat) → α → Reader α
  | 0, form => return form
  | count + 1, form => do
    let form ← match ← readName names with
      | some i => fill form i
      | none => do
        skip depth
        return form
    readEntries names depth fill count form

/-- Fill a form from a sequence that has every field in its place. -/
def readFields (fill : α → Nat → Reader α) : (fields : List Nat) → α → Reader α
  | [], form => return form
  | i :: rest, form => do
    readFields fill rest (← fill form i)

/-- A record as a sequence of its fields or as a map. -/
def readRecord (names : List String) (depth : Nat) (fill : α → Nat → Reader α) (blank : α) :
    Reader α := do
  match ← Token.read with
  | .map n => readEntries names depth fill n blank
  | token => readElements names.length (readFields fill (List.range names.length) blank) token

/-- One of several variants: a map with one entry, from the name or the
number of a variant to its value. -/
def readVariant (names : List String) (value : Nat → Reader α) : Reader α := do
  match ← Token.read with
  | .map 1 => match ← readName names with
    | some i => value i
    | none => Reader.fail
  | _ => Reader.fail

end TorrentTracker.MessagePack
