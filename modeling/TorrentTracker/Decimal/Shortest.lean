import TorrentTracker.Decimal

/-
The shortest decimal that reads back as a given floating-point number.

A positive double is `m * 2 ^ q`, and the reals that round to it form an
interval around it, whose ends belong to it exactly when `m` is even. Of
the decimals with 1, 2, … 17 digits, the first grid that has a point in the
interval is taken; of two such points the nearer one, and at a tie the even
one. Everything is compared as exact fractions.
-/

namespace TorrentTracker.Decimal

/-- A fraction with a positive denominator. -/
structure Fraction where
  num : Nat
  den : Nat

namespace Fraction

/-- The fraction `n * base ^ e`. -/
def scaled (n base : Nat) (e : Int) : Fraction :=
  if 0 ≤ e then ⟨n * Nat.pow base e.toNat, 1⟩ else ⟨n, Nat.pow base (-e).toNat⟩

/-- Strictly less. -/
def lt (a b : Fraction) : Bool := decide (a.num * b.den < b.num * a.den)

/-- Less or equal. -/
def le (a b : Fraction) : Bool := decide (a.num * b.den ≤ b.num * a.den)

/-- The distance of two fractions. -/
def distance (a b : Fraction) : Fraction :=
  ⟨(a.num * b.den - b.num * a.den) + (b.num * a.den - a.num * b.den), a.den * b.den⟩

/-- How many digits stand before the point; zero or less below one tenth
and so on. -/
def magnitude (a : Fraction) : Int :=
  if a.den ≤ a.num then (Nat.toDigits 10 (a.num / a.den)).length
  else
    let zeros := (List.range 400).takeWhile fun j => decide (a.num * Nat.pow 10 (j + 1) < a.den)
    Int.negOfNat zeros.length

end Fraction

/-- A positive double as `m * 2 ^ q`, with a mark on those whose lower
neighbour is only half as far away as the upper one. -/
structure Binary where
  m : Nat
  q : Int
  narrowBelow : Bool

/-- The parts of a positive finite double. -/
def Binary.ofBits (bits : UInt64) : Binary :=
  let unit := 0x10000000000000
  let fraction := bits.toNat % unit
  let exponent := bits.toNat / unit % 0x800
  if exponent = 0 then ⟨fraction, -1074, false⟩
  else ⟨unit + fraction, (exponent : Int) - 1075, fraction = 0 && 1 < exponent⟩

namespace Binary

/-- The number itself. -/
def value (b : Binary) : Fraction := .scaled (4 * b.m) 2 (b.q - 2)

/-- Whether a fraction rounds to the number. -/
def reads (b : Binary) (a : Fraction) : Bool :=
  let low := Fraction.scaled (4 * b.m - if b.narrowBelow then 1 else 2) 2 (b.q - 2)
  let high := Fraction.scaled (4 * b.m + 2) 2 (b.q - 2)
  if b.m % 2 = 0 then low.le a && a.le high else low.lt a && a.lt high

/-- The point of the grid with `n` digits that rounds to the number, as
digits and a power of ten. -/
def onGrid? (b : Binary) (n : Nat) : Option (Nat × Int) :=
  let e := b.value.magnitude - n
  let step := Fraction.scaled 1 10 e
  let below := b.value.num * step.den / (b.value.den * step.num)
  let point (d : Nat) := Fraction.scaled d 10 e
  match b.reads (point below), b.reads (point (below + 1)) with
  | false, false => none
  | true, false => some (below, e)
  | false, true => some (below + 1, e)
  | true, true =>
    let down := (point below).distance b.value
    let up := (point (below + 1)).distance b.value
    if down.lt up || (down.le up && below % 2 = 0) then some (below, e)
    else some (below + 1, e)

/-- The shortest decimal, as digits and a power of ten. -/
def shortest (b : Binary) : Nat × Int :=
  ((List.range 17).findSome? fun i => b.onGrid? (i + 1)).getD (0, 0)

end Binary

/-- Drop the zeros at the end of digits and count them. -/
def trimZeros (digits : List Char) : List Char × Nat :=
  let kept := (digits.reverse.dropWhile (· = '0')).reverse
  (kept, digits.length - kept.length)

/-- A finite number of zero or more as text: positional with a point
between one hundred-thousandth and ten to the sixteenth, and otherwise with
an exponent. -/
def realText (x : Float) : String :=
  if x.toBits = 0 then "0.0"
  else
    let (n, e) := (Binary.ofBits x.toBits).shortest
    let (digits, zeros) := trimZeros (Nat.toDigits 10 n)
    let e := e + zeros
    let point := digits.length + e
    let text := String.ofList
    if 0 ≤ e ∧ point ≤ 16 then text (digits ++ List.replicate e.toNat '0') ++ ".0"
    else if 0 < point ∧ point ≤ 16 then
      text (digits.take point.toNat) ++ "." ++ text (digits.drop point.toNat)
    else if -5 < point ∧ point ≤ 0 then
      "0." ++ text (List.replicate (-point).toNat '0' ++ digits)
    else
      let sign := if point - 1 < 0 then "-" else ""
      text (digits.take 1) ++ (if digits.length = 1 then "" else "." ++ text (digits.drop 1))
        ++ "e" ++ sign ++ numeral 10 (point - 1).natAbs

end TorrentTracker.Decimal
