import TorrentTracker.Decimal

/-
Bencode values and how they are written.

Four shapes: integers, byte strings, lists and dictionaries. A dictionary
is written in the order of its entries; it is canonical when its keys
ascend, and whoever builds one keeps them so.
-/

namespace TorrentTracker

/-- A bencode value. -/
inductive Bencode where
  | integer (n : Int)
  | string (bytes : Bytes)
  | list (items : List Bencode)
  | dict (entries : List (Bytes × Bencode))

namespace Bencode

instance : Inhabited Bencode := ⟨integer 0⟩

/-- A byte string: its length, a colon, its bytes. -/
def encodeString (bytes : Bytes) : Bytes :=
  Decimal.ofNat bytes.length ++ 58 :: bytes

mutual

/-- The written form of a value. -/
def encode : Bencode → Bytes
  | integer n => 105 :: Decimal.ofInt n ++ [101]
  | string bytes => encodeString bytes
  | list items => 108 :: encodeItems items ++ [101]
  | dict entries => 100 :: encodeEntries entries ++ [101]

/-- Items one after the other. -/
def encodeItems : List Bencode → Bytes
  | [] => []
  | item :: rest => encode item ++ encodeItems rest

/-- Keys and values one after the other. -/
def encodeEntries : List (Bytes × Bencode) → Bytes
  | [] => []
  | (key, value) :: rest => encodeString key ++ encode value ++ encodeEntries rest

end

/-- A text as a byte string. -/
def text (s : String) : Bencode := string (utf8 s)

end Bencode

end TorrentTracker
