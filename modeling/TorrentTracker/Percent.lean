import TorrentTracker.Decimal

/-
Percent-encoding of query values.

A value is a run of tokens: a percent sign with two hex digits stands for
the byte they spell, a plus sign for a space, any other byte for itself.
Decoded bytes are arbitrary; they are not scanned a second time.
-/

namespace TorrentTracker.Percent

/-- Why a value does not decode, with the offset of the percent sign. -/
inductive Error where
  /-- Fewer than two bytes follow the sign. -/
  | incomplete (offset : Nat)
  /-- The two bytes that follow are not both hex digits. -/
  | invalidHex (offset : Nat)
deriving DecidableEq

/-- The wording of an error. -/
def Error.message : Error → String
  | incomplete offset => "incomplete percent-encoding at offset " ++ numeral 10 offset
  | invalidHex offset => "invalid hex digits in percent-encoding at offset " ++ numeral 10 offset

/-- The value of a hex digit in either case. -/
def hexValue? (b : UInt8) : Option UInt8 :=
  if 48 ≤ b && b ≤ 57 then some (b - 48)
  else if 97 ≤ b && b ≤ 102 then some (b - 97 + 10)
  else if 65 ≤ b && b ≤ 70 then some (b - 65 + 10)
  else none

/-- Decode a value whose first byte stands at the given offset. -/
def decodeFrom : (offset : Nat) → Bytes → Except Error Bytes
  | _, [] => .ok []
  | offset, 37 :: hi :: lo :: rest =>
    match hexValue? hi, hexValue? lo with
    | some h, some l => (decodeFrom (offset + 3) rest).map ((16 * h + l) :: ·)
    | _, _ => .error (.invalidHex offset)
  | offset, b :: rest =>
    if b = 37 then .error (.incomplete offset)
    else (decodeFrom (offset + 1) rest).map ((if b = 43 then 32 else b) :: ·)

/-- Decode a value. -/
def decode (value : Bytes) : Except Error Bytes := decodeFrom 0 value

end TorrentTracker.Percent
