import TorrentTracker.Bencode

/-
The strict reader of bencode.

Each value has one written form, and this reader takes no other: no
leading zeros, no negative zero, dictionary keys strictly ascending. It
takes one value off the front and hands on what follows it.

The recursion is bounded by the length of the input, which every step
shortens; `read` hides the bound.
-/

namespace TorrentTracker.Bencode

/-- The numeral that is the shortest one of its number. -/
def canonicalNatural? (digits : Bytes) : Option Nat :=
  (Decimal.natural? digits).filter fun n => Decimal.ofNat n = digits

/-- The integer numeral that is the shortest one of its number. -/
def canonicalInteger? (digits : Bytes) : Option Int :=
  (Decimal.signed? digits).filter fun n => Decimal.ofInt n = digits

/-- The bytes before the first occurrence of an end mark, and those after
it. -/
def upTo (stop : UInt8) : Reader Bytes := fun data =>
  match data.dropWhile (· ≠ stop) with
  | [] => none
  | _ :: rest => some (data.takeWhile (· ≠ stop), rest)

/-- A byte string. -/
def readString : Reader Bytes := fun data => do
  let (digits, rest) ← (upTo 58).run data
  let n ← canonicalNatural? digits
  (Reader.bytes n).run rest

/-- Whether a key may follow another. -/
def ascends : Option Bytes → Bytes → Bool
  | none, _ => true
  | some last, key => decide (last < key)

mutual

/-- One value, within a bound on the steps. -/
def readValue : Nat → Reader Bencode
  | 0 => Reader.fail
  | fuel + 1 => fun data =>
    match data with
    | 105 :: rest => do
      let (digits, rest) ← (upTo 101).run rest
      let n ← canonicalInteger? digits
      return (integer n, rest)
    | 108 :: rest => do
      let (items, rest) ← (readItems fuel).run rest
      return (list items, rest)
    | 100 :: rest => do
      let (entries, rest) ← (readEntries fuel none).run rest
      return (dict entries, rest)
    | data => do
      let (bytes, rest) ← readString.run data
      return (string bytes, rest)

/-- Items up to the end mark of a list. -/
def readItems : Nat → Reader (List Bencode)
  | 0 => Reader.fail
  | fuel + 1 => fun data =>
    match data with
    | 101 :: rest => some ([], rest)
    | data => do
      let (item, rest) ← (readValue fuel).run data
      let (items, rest) ← (readItems fuel).run rest
      return (item :: items, rest)

/-- Entries up to the end mark of a dictionary, with keys past the last
one. -/
def readEntries : Nat → Option Bytes → Reader (List (Bytes × Bencode))
  | 0, _ => Reader.fail
  | fuel + 1, last => fun data =>
    match data with
    | 101 :: rest => some ([], rest)
    | data => do
      let (key, rest) ← readString.run data
      if ascends last key then
        let (value, rest) ← (readValue fuel).run rest
        let (entries, rest) ← (readEntries fuel (some key)).run rest
        return ((key, value) :: entries, rest)
      else none

end

/-- Take one value off the front. -/
def read : Reader Bencode := fun data => (readValue (data.length + 1)).run data

/-- The value that a byte string is the written form of. -/
def decode? (data : Bytes) : Option Bencode :=
  match read.run data with
  | some (value, []) => some value
  | _ => none

end TorrentTracker.Bencode
