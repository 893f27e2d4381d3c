import TorrentTracker.Decimal
import TorrentTracker.Word

/-
The actions of the datagram protocol, and what can be wrong with a
message.
-/

namespace TorrentTracker.Wire

/-- The messages that a length can be wrong for. -/
inductive MessageKind where
  | request
  | connectResponse
  | announce
  | announceResponse
  | scrapeResponse
  | errorResponse
deriving DecidableEq

/-- The name of a message in an error. -/
def MessageKind.name : MessageKind → String
  | request => "request"
  | connectResponse => "connect response"
  | announce => "announce"
  | announceResponse => "announce response"
  | scrapeResponse => "scrape response"
  | errorResponse => "error response"

/-- Why a byte string is not the message it was taken for. -/
inductive Error where
  | truncated (message : MessageKind) (expected actual : Nat)
  | misalignedHashes (length : Nat)
  | invalidMagic (found : Int64)
  | invalidAction (found : Int32)
  | invalidEvent (found : Int32)
deriving DecidableEq

/-- A number in at least sixteen hex digits, marked as hexadecimal. -/
def hexWord (n : Nat) : String :=
  let digits := numeral 16 n
  "0x" ++ String.ofList (List.replicate (16 - digits.length) '0') ++ digits

/-- The wording of an error. A magic is shown by its bits. -/
def Error.message : Error → String
  | truncated message expected actual =>
    "malformed " ++ message.name ++ ": need at least " ++ numeral 10 expected ++ " bytes, got "
      ++ numeral 10 actual
  | misalignedHashes length =>
    "malformed scrape: hash region of " ++ numeral 10 length ++ " bytes is not a multiple of 20"
  | invalidMagic found =>
    "malformed connect: unexpected protocol magic " ++ hexWord found.toUInt64.toNat
  | invalidAction found => "unknown action " ++ signedNumeral found.toInt
  | invalidEvent found => "malformed announce: unknown event " ++ signedNumeral found.toInt

/-- What a message is for. -/
inductive Action where
  | connect
  | announce
  | scrape
  | error
  | heartbeat
deriving DecidableEq

namespace Action

/-- The number of an action. -/
def number : Action → Int32
  | connect => 0
  | announce => 1
  | scrape => 2
  | error => 3
  | heartbeat => 4

/-- The action of a number. -/
def ofNumber (n : Int32) : Except Error Action :=
  if n = 0 then .ok connect
  else if n = 1 then .ok announce
  else if n = 2 then .ok scrape
  else if n = 3 then .ok error
  else if n = 4 then .ok heartbeat
  else .error (.invalidAction n)

@[simp]
theorem ofNumber_number (a : Action) : ofNumber a.number = .ok a := by
  cases a <;> rfl

theorem number_of_ofNumber {n : Int32} {a : Action} (h : ofNumber n = .ok a) :
    a.number = n := by
  grind [ofNumber, number]

end Action

/-- Read what a layout says off the front of a message that needs at least
`expected` bytes for it. -/
def decodeWith {α : Type} (message : MessageKind) (expected : Nat) (layout : Reader α)
    (data : Bytes) : Except Error (α × Bytes) :=
  match layout.run data with
  | some found => .ok found
  | none => .error (.truncated message expected data.length)

end TorrentTracker.Wire
