import TorrentTracker.TextReader
import TorrentTracker.Toml.Node

/-
The small parts of a TOML document: blanks and comments, keys, strings,
numbers and moments.
-/

namespace TorrentTracker.Toml

open TextReader

-- ============================================================== trivia

/-- A space or a tab. -/
def isBlank (c : Char) : Bool := c = ' ' || c = '\t'

/-- A character that may stand in a comment or a string: no control
character but the tab. -/
def isPlain (c : Char) : Bool := c = '\t' || (' ' ≤ c && c ≠ '\x7f')

/-- Pass over spaces and tabs. -/
def blanks : TextReader Unit := discard (takeWhile isBlank)

/-- The end of a line. -/
def newline : TextReader Unit := char '\n' <|> literal "\r\n"

/-- A comment, up to the end of its line. -/
def comment : TextReader Unit := do
  char '#'
  discard (takeWhile isPlain)

/-- The end of a line or of the document. -/
def lineEnd : TextReader Unit := fun text =>
  if text.isEmpty then some ((), []) else newline.run text

/-- What may follow on a line after all there is on it. -/
def lineRest : TextReader Unit := do
  blanks
  discard (optional comment)
  lineEnd

/-- Pass over blanks and line ends, within a bound on the steps. -/
def openSpace : Nat → TextReader Unit
  | 0 => pure ()
  | fuel + 1 => fun text =>
    match (newline <|> discard (satisfy isBlank)).run text with
    | some (_, rest) => (openSpace fuel).run rest
    | none => some ((), text)

/-- Pass over blanks, line ends and comments, within a bound on the
steps. -/
def openTrivia : Nat → TextReader Unit
  | 0 => pure ()
  | fuel + 1 => fun text =>
    match (newline <|> discard (satisfy isBlank) <|> comment).run text with
    | some (_, rest) => (openTrivia fuel).run rest
    | none => some ((), text)

-- ============================================================= strings

/-- A character by its number, if the number is one of a character. -/
def charOfNumber? (n : Nat) : Option Char :=
  if h : n.isValidChar then some (Char.ofNatAux n h) else none

/-- A character given by the digits of its number. -/
def numbered (width : Nat) : TextReader Char := fun text =>
  let digits := text.take width
  if digits.length = width && digits.all fun c => (digitValue? 16 c).isSome then
    (charOfNumber? (digitsValue 16 digits)).map fun c => (c, text.drop width)
  else none

/-- What follows the backslash of an escape. -/
def escaped : TextReader Char := do
  match ← satisfy fun _ => true with
  | 'b' => return '\x08'
  | 't' => return '\t'
  | 'n' => return '\n'
  | 'f' => return '\x0c'
  | 'r' => return '\x0d'
  | '"' => return '"'
  | '\\' => return '\\'
  | 'u' => numbered 4
  | 'U' => numbered 8
  | _ => fail

/-- The characters of a one-line string up to its closing quote. -/
def lineString (quote : Char) (escapes : Bool) : Nat → TextReader (List Char)
  | 0 => fail
  | fuel + 1 => do
    let c ← satisfy isPlain
    if c = quote then return []
    else
      let c ← if escapes && c = '\\' then escaped else pure c
      return c :: (← lineString quote escapes fuel)

/-- A backslash at the end of a line and all blank space after it. -/
def lineContinuation : TextReader Unit := do
  char '\\'
  blanks
  newline
  bounded openSpace

/-- The characters of a string over several lines up to its three closing
quotes. One or two quotes may stand anywhere, also right before the closing
ones. -/
def blockString (quote : Char) (escapes : Bool) : Nat → TextReader (List Char)
  | 0 => fail
  | fuel + 1 => fun text =>
    let run := (text.takeWhile (· = quote)).length
    if 3 ≤ run then
      if run ≤ 5 then some (List.replicate (run - 3) quote, text.drop run) else none
    else
      let next : TextReader (List Char) :=
        (do
          newline
          return ['\n'])
        <|> (do
          if !escapes then fail
          lineContinuation
          return [])
        <|> (do
          let c ← satisfy isPlain
          let c ← if escapes && c = '\\' then escaped else pure c
          return [c])
      (do
        let front ← next
        return front ++ (← blockString quote escapes fuel)).run text

/-- A string with a kind of quote, on one line. -/
def oneLine (quote : Char) : TextReader String := do
  char quote
  return String.ofList (← bounded (lineString quote (quote = '"')))

/-- A string of any kind. -/
def string : TextReader String := fun text => do
  let quote ← text.head?
  if quote ≠ '"' && quote ≠ '\'' then none
  else if (List.replicate 3 quote).isPrefixOf text then
    (do
      discard (optional newline)
      return String.ofList (← bounded (blockString quote (quote = '"')))).run (text.drop 3)
  else (oneLine quote).run text

-- ================================================================ keys

/-- A character of a key without quotes. -/
def isBareKey (c : Char) : Bool :=
  ('a' ≤ c && c ≤ 'z') || ('A' ≤ c && c ≤ 'Z') || ('0' ≤ c && c ≤ '9') || c = '-' || c = '_'

/-- One part of a key. -/
def simpleKey : TextReader String := do
  match ← peek with
  | some '"' => oneLine '"'
  | some '\'' => oneLine '\''
  | _ =>
    let name ← takeWhile isBareKey
    if name.isEmpty then fail
    return String.ofList name

/-- The parts of a key between dots, with blanks around each. -/
def keyParts : Nat → TextReader (List String)
  | 0 => fail
  | fuel + 1 => do
    blanks
    let part ← simpleKey
    blanks
    match ← optional (char '.') with
    | none => return [part]
    | some _ => return part :: (← keyParts fuel)

/-- How deep keys and values may be nested. -/
def maxDepth : Nat := 80

/-- A key: the path to it, and its last part. -/
structure Key where
  path : List String
  name : String

/-- Read a key. -/
def key : TextReader Key := do
  let parts ← bounded keyParts
  if maxDepth ≤ parts.length then fail
  match parts.getLast? with
  | some last => return ⟨parts.dropLast, last⟩
  | none => fail

-- ============================================================= numbers

/-- More digits after the first one, with single underscores between. -/
def moreDigits (isDigit : Char → Bool) : List Char → List Char × List Char
  | '_' :: c :: rest =>
    if isDigit c then
      let (digits, rest) := moreDigits isDigit rest
      (c :: digits, rest)
    else ([], '_' :: c :: rest)
  | c :: rest =>
    if isDigit c then
      let (digits, rest) := moreDigits isDigit rest
      (c :: digits, rest)
    else ([], c :: rest)
  | [] => ([], [])

/-- One digit or more, with single underscores between. -/
def digits (base : Nat) : TextReader (List Char) := do
  let isDigit (c : Char) : Bool := (digitValue? base c).isSome
  let first ← satisfy isDigit
  let others ← fun text => some (moreDigits isDigit text)
  return first :: others

/-- Decimal digits without a leading zero. -/
def wholeDigits : TextReader (List Char) := fun text =>
  match text with
  | '0' :: rest => some (['0'], rest)
  | text => (digits 10).run text

/-- A sign, if there is one: whether it is a minus. -/
def sign : TextReader Bool := do
  match ← peek with
  | some '-' => do
    char '-'
    return true
  | some '+' => do
    char '+'
    return false
  | _ => return false

/-- An integer of 64 bits. -/
def inRange (n : Int) : TextReader Int :=
  if Int64.minValue.toInt ≤ n ∧ n ≤ Int64.maxValue.toInt then pure n else fail

/-- An integer in another base, marked by two characters. -/
def basedInteger (mark : String) (base : Nat) : TextReader Int := do
  literal mark
  inRange (digitsValue base (← digits base))

/-- A decimal integer. -/
def decimalInteger : TextReader Int := do
  let minus ← sign
  let n : Int := digitsValue 10 (← wholeDigits)
  inRange (if minus then -n else n)

/-- An integer. -/
def integer : TextReader Int := fun text =>
  match text with
  | '0' :: 'x' :: _ => (basedInteger "0x" 16).run text
  | '0' :: 'o' :: _ => (basedInteger "0o" 8).run text
  | '0' :: 'b' :: _ => (basedInteger "0b" 2).run text
  | _ => decimalInteger.run text

/-- Whether `n * 10 ^ e` is too large for a double: it would round past
the largest one. -/
def overflows (n : Nat) (e : Int) : Bool :=
  let point := (Nat.toDigits 10 n).length + e
  let bound := Nat.pow 2 1024 - Nat.pow 2 970
  if n = 0 || point < 309 then false
  else if 309 < point then true
  else if 0 ≤ e then decide (bound ≤ n * Nat.pow 10 e.toNat)
  else decide (bound * Nat.pow 10 (-e).toNat ≤ n)

/-- The exponent of a floating-point number. -/
def exponent : TextReader Int := do
  discard (satisfy fun c => c = 'e' || c = 'E')
  let minus ← sign
  let n : Int := digitsValue 10 (← digits 10)
  return if minus then -n else n

/-- A floating-point number with digits. -/
def finiteFloat : TextReader Unit := do
  let minus ← sign
  let whole ← wholeDigits
  let fraction ← optional (do
    char '.'
    digits 10)
  let e ← optional exponent
  if fraction.isNone && e.isNone then fail
  let fraction := fraction.getD []
  let n := digitsValue 10 (whole ++ fraction)
  if !minus && overflows n (e.getD 0 - fraction.length) then fail

/-- A floating-point number. -/
def float : TextReader Unit :=
  finiteFloat <|> (do
    discard sign
    literal "inf" <|> literal "nan")

-- ============================================================= moments

/-- A number of exactly `width` digits between two bounds. -/
def fixedNumber (width lo hi : Nat) : TextReader Nat := fun text =>
  let digits := text.take width
  let n := digitsValue 10 digits
  if digits.length = width && digits.all (fun c => (digitValue? 10 c).isSome)
      && lo ≤ n && n ≤ hi then some (n, text.drop width)
  else none

/-- The days of a month. -/
def daysIn (year month : Nat) : Nat :=
  let leap := year % 4 = 0 && (year % 100 ≠ 0 || year % 400 = 0)
  if month = 2 then if leap then 29 else 28
  else if month = 4 || month = 6 || month = 9 || month = 11 then 30
  else 31

/-- A day of the calendar. -/
def date : TextReader Unit := do
  let year ← fixedNumber 4 0 9999
  char '-'
  let month ← fixedNumber 2 1 12
  char '-'
  discard (fixedNumber 2 1 (daysIn year month))

/-- A time of day. -/
def time : TextReader Unit := do
  discard (fixedNumber 2 0 23)
  char ':'
  discard (fixedNumber 2 0 59)
  char ':'
  discard (fixedNumber 2 0 60)
  discard (optional (do
    char '.'
    discard (satisfy Char.isDigit)
    discard (takeWhile Char.isDigit)))

/-- The distance to universal time. -/
def offset : TextReader Unit :=
  char 'Z' <|> char 'z' <|> (do
    discard (satisfy fun c => c = '+' || c = '-')
    discard (fixedNumber 2 0 23)
    char ':'
    discard (fixedNumber 2 0 59))

/-- A date with or without a time, or a time alone. -/
def moment : TextReader Unit :=
  (do
    date
    discard (optional (do
      discard (satisfy fun c => c = 'T' || c = 't' || c = ' ')
      time
      discard (optional offset))))
  <|> time

end TorrentTracker.Toml
