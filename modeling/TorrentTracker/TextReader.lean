/-
Readers of text: a value off the front, and the rest of the characters.
-/

namespace TorrentTracker

/-- A text reader takes a value off the front of a text. -/
abbrev TextReader := StateT (List Char) Option

namespace TextReader

variable {α : Type}

/-- Stop without an answer. -/
def fail : TextReader α := fun _ => none

/-- The first character, which stays. -/
def peek : TextReader (Option Char) := fun text => some (text.head?, text)

/-- Take one character that passes a test. -/
def satisfy (p : Char → Bool) : TextReader Char
  | c :: rest => if p c then some (c, rest) else none
  | [] => none

/-- Take the characters in front that pass a test. -/
def takeWhile (p : Char → Bool) : TextReader (List Char) := fun text =>
  some (text.takeWhile p, text.dropWhile p)

/-- Take given characters. -/
def literal (s : String) : TextReader Unit := fun text =>
  if s.toList.isPrefixOf text then some ((), text.drop s.length) else none

/-- Read with the length of what is left as the bound on the steps. -/
def bounded (r : Nat → TextReader α) : TextReader α := fun text => (r (text.length + 1)).run text

/-- Take one given character. -/
def char (c : Char) : TextReader Unit
  | d :: rest => if d = c then some ((), rest) else none
  | [] => none

/-- The value of a digit in a base up to sixteen, in either case. -/
def digitValue? (base : Nat) (c : Char) : Option Nat :=
  let n :=
    if '0' ≤ c ∧ c ≤ '9' then c.toNat - '0'.toNat
    else if 'a' ≤ c ∧ c ≤ 'f' then c.toNat - 'a'.toNat + 10
    else if 'A' ≤ c ∧ c ≤ 'F' then c.toNat - 'A'.toNat + 10
    else base
  if n < base then some n else none

/-- The value of a run of digits. -/
def digitsValue (base : Nat) (digits : List Char) : Nat :=
  digits.foldl (fun n c => base * n + (digitValue? base c).getD 0) 0

/-- Take all the digits in front. There has to be one, and no more than
`most`; a leading zero before another digit counts only where `padded`
allows it; and the value is below `bound`. -/
def number (base most bound : Nat) (padded : Bool) : TextReader Nat := fun text =>
  let digits := text.takeWhile fun c => (digitValue? base c).isSome
  let n := digitsValue base digits
  if digits.isEmpty || decide (most < digits.length)
      || (!padded && digits.head? == some '0' && decide (1 < digits.length))
      || decide (bound ≤ n) then none
  else some (n, text.drop digits.length)

/-- Read the whole of a text. -/
def whole? (r : TextReader α) (text : String) : Option α :=
  match r.run text.toList with
  | some (a, []) => some a
  | _ => none

end TextReader

end TorrentTracker
