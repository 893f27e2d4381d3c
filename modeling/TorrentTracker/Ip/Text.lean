import TorrentTracker.Decimal
import TorrentTracker.Ip
import TorrentTracker.TextReader

/-
IP addresses as text.

Writing follows the one recommended form: dotted decimal for IPv4;
lower-case groups for IPv6 with the longest run of two or more zero groups
(the first of equal ones) as `::`, and a dotted tail for an IPv4-mapped
address. Reading takes every usual spelling of IPv6 and only the canonical
one of IPv4: no leading zeros, at most three digits an octet.
-/

namespace TorrentTracker

-- ============================================================= writing

namespace Ip

/-- Dotted decimal. -/
def dotted (octets : Bytes) : String :=
  String.intercalate "." (octets.map fun b => numeral 10 b.toNat)

/-- The 16-bit groups of an IPv6 address. -/
def groups : Bytes → List Nat
  | hi :: lo :: rest => (256 * hi.toNat + lo.toNat) :: groups rest
  | _ => []

/-- How many zero groups there are in front. -/
def zeroRun (gs : List Nat) : Nat := (gs.takeWhile (· = 0)).length

/-- The longest run of zero groups as start and length; the first of
equally long ones. -/
def longestZeroRun (gs : List Nat) : Nat × Nat :=
  (List.range gs.length).foldl
    (fun best i => if best.2 < zeroRun (gs.drop i) then (i, zeroRun (gs.drop i)) else best)
    (0, 0)

/-- Groups in hexadecimal, a colon between two. -/
def colonHex (gs : List Nat) : String :=
  String.intercalate ":" (gs.map (numeral 16))

/-- Groups with their longest run of zeros left out. -/
def compressed (gs : List Nat) : String :=
  let (start, len) := longestZeroRun gs
  if 2 ≤ len then
    colonHex (gs.take start) ++ "::" ++ colonHex (gs.drop (start + len))
  else colonHex gs

/-- The text of an address. -/
def text : Ip → String
  | v4 o => dotted o.bytes
  | v6 o => match unmapped? o with
    | some o' => "::ffff:" ++ dotted o'.bytes
    | none => compressed (groups o.bytes)

end Ip

-- ============================================================= reading

namespace Ip

open TextReader

/-- One octet of dotted decimal. -/
def octet : TextReader UInt8 := do
  return UInt8.ofNat (← number 10 3 256 false)

/-- Dotted decimal. -/
def readV4 : TextReader (Octets 4) := do
  let a ← octet
  char '.'
  let b ← octet
  char '.'
  let c ← octet
  char '.'
  let d ← octet
  return ⟨[a, b, c, d], rfl⟩

/-- A colon, except before the first of a series. -/
def colonUnlessFirst (first : Bool) : TextReader Unit :=
  if first then pure () else char ':'

/-- Up to `room` groups with a colon between two, and whether the last two
were spelled as dotted decimal. The series ends where no group follows. -/
def groupSeries : (room : Nat) → (first : Bool) → List Char → (List Nat × Bool) × List Char
  | 0, _, text => (([], false), text)
  | room + 1, first, text =>
    let tail : Option (Octets 4 × List Char) :=
      if room = 0 then none else (colonUnlessFirst first *> readV4).run text
    match tail with
    | some (o, rest) => ((groups o.bytes, true), rest)
    | none =>
      match (colonUnlessFirst first *> number 16 4 65536 true).run text with
      | none => (([], false), text)
      | some (g, rest) =>
        let ((gs, dotted), rest) := groupSeries room false rest
        ((g :: gs, dotted), rest)

/-- The two bytes of each group. -/
def groupBytes (gs : List Nat) : Bytes :=
  gs.flatMap fun g => [UInt8.ofNat (g / 256), UInt8.ofNat g]

/-- Eight groups, or fewer around one `::`. A dotted tail ends the
address, so none may stand before the `::`. -/
def readV6 : TextReader (Octets 16) := fun text => do
  let ((front, dotted), rest) := groupSeries 8 true text
  if front.length = 8 then
    let o ← Octets.ofBytes? 16 (groupBytes front)
    return (o, rest)
  else if dotted then none
  else
    let (_, rest) ← (char ':' *> char ':').run rest
    let ((back, _), rest) := groupSeries (7 - front.length) true rest
    let gap := List.replicate (8 - front.length - back.length) 0
    let o ← Octets.ofBytes? 16 (groupBytes (front ++ gap ++ back))
    return (o, rest)

/-- The address a text spells. -/
def parse? (text : String) : Option Ip :=
  match whole? readV4 text with
  | some o => some (.v4 o)
  | none => (whole? readV6 text).map .v6

end Ip

end TorrentTracker
