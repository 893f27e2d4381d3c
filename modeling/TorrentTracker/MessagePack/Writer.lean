import TorrentTracker.Word

/-
Writing MessagePack: the forms that snapshots use.

Integers and headers take the shortest form their value allows. What is
written here is a sequence of tokens; a sequence value is its header and
then its elements.
-/

namespace TorrentTracker.MessagePack

/-- A natural number below `2 ^ 64`. -/
def natural (n : Nat) : Bytes :=
  if n < 128 then bigEndian 1 n
  else if n < UInt8.size then 0xcc :: bigEndian 1 n
  else if n < UInt16.size then 0xcd :: bigEndian 2 n
  else if n < UInt32.size then 0xce :: bigEndian 4 n
  else 0xcf :: bigEndian 8 n

/-- The low-order bytes of a negative number in two's complement. -/
def complement (width : Nat) (n : Int) : Bytes :=
  bigEndian width (capacity width + n).toNat

/-- An integer from `-2 ^ 63` and below `2 ^ 64`. -/
def integer (n : Int) : Bytes :=
  if 0 ≤ n then natural n.toNat
  else if -32 ≤ n then complement 1 n
  else if Int8.minValue.toInt ≤ n then 0xd0 :: complement 1 n
  else if Int16.minValue.toInt ≤ n then 0xd1 :: complement 2 n
  else if Int32.minValue.toInt ≤ n then 0xd2 :: complement 4 n
  else 0xd3 :: complement 8 n

/-- A truth value. -/
def boolean (b : Bool) : Bytes := [if b then 0xc3 else 0xc2]

/-- The header of a sequence of `n` elements, fewer than `2 ^ 32`. -/
def arrayHeader (n : Nat) : Bytes :=
  if n < 16 then [UInt8.ofNat (0x90 + n)]
  else if n < UInt16.size then 0xdc :: bigEndian 2 n
  else 0xdd :: bigEndian 4 n

/-- The header of a map with one entry. -/
def singletonHeader : Bytes := [0x81]

/-- A text of fewer than 32 bytes. -/
def shortText (text : String) : Bytes :=
  UInt8.ofNat (0xa0 + (utf8 text).length) :: utf8 text

/-- A sequence. -/
def sequence {α : Type} (element : α → Bytes) (xs : List α) : Bytes :=
  arrayHeader xs.length ++ xs.flatMap element

/-- A byte string as the sequence of its bytes. -/
def octets {n : Nat} (o : Octets n) : Bytes :=
  sequence (fun b => natural b.toNat) o.bytes

end TorrentTracker.MessagePack
