import TorrentTracker.Bytes

/-
Decimal numerals: how integers are spelled in queries and in reply bodies.

Writing uses the shortest form. Reading is more generous: one sign, at
least one digit, any leading zeros, and a value inside the range of the
type that is read.
-/

namespace TorrentTracker

/-- A number in lower-case digits of a base up to sixteen. -/
def numeral (base n : Nat) : String :=
  String.ofList (Nat.toDigits base n)

/-- An integer in decimal digits, with a minus sign below zero. -/
def signedNumeral (n : Int) : String :=
  (if n < 0 then "-" else "") ++ numeral 10 n.natAbs

namespace Decimal

-- ============================================================= writing

/-- The shortest numeral of a natural number. -/
def ofNat (n : Nat) : Bytes :=
  (Nat.toDigits 10 n).map fun c => UInt8.ofNat c.toNat

/-- The shortest numeral of an integer, with a minus sign below zero. -/
def ofInt : Int → Bytes
  | .ofNat n => ofNat n
  | .negSucc n => 45 :: ofNat (n + 1)

-- ============================================================= reading

/-- Whether a byte is one of the ten digits. -/
def isDigit (b : UInt8) : Bool := 48 ≤ b && b ≤ 57

/-- The number that digits spell. -/
def value (digits : Bytes) : Nat :=
  digits.foldl (fun n b => 10 * n + (b.toNat - 48)) 0

/-- Digits only, and at least one. -/
def natural? (bytes : Bytes) : Option Nat :=
  if bytes.isEmpty || !bytes.all isDigit then none else some (value bytes)

/-- A numeral that may begin with a plus sign. -/
def unsigned? : Bytes → Option Nat
  | 43 :: digits => natural? digits
  | digits => natural? digits

/-- A numeral that may begin with a sign of either kind. -/
def signed? : Bytes → Option Int
  | 43 :: digits => (natural? digits).map fun n => (n : Int)
  | 45 :: digits => (natural? digits).map fun n => -(n : Int)
  | digits => (natural? digits).map fun n => (n : Int)

/-- An integer that fits 64 bits. -/
def int64? (bytes : Bytes) : Option Int64 :=
  (signed? bytes).bind fun n =>
    if Int64.minValue.toInt ≤ n ∧ n ≤ Int64.maxValue.toInt then some (Int64.ofInt n) else none

/-- A natural number that fits 16 bits. -/
def uint16? (bytes : Bytes) : Option UInt16 :=
  (unsigned? bytes).bind fun n =>
    if n < UInt16.size then some (UInt16.ofNat n) else none

end Decimal

end TorrentTracker
