import TorrentTracker.Connections
import TorrentTracker.MessagePack.Address

/-
Snapshots of the connection ids in force.

Restoring one merges it into what is there, so a client that connected
while the tracker came up keeps its id unless the snapshot has one for it
too.
-/

namespace TorrentTracker.Connections

open MessagePack

-- ============================================================= writing

/-- An endpoint: the octets and the port under the name of the family. -/
def encodeEndpoint (e : Endpoint) : Bytes :=
  match e.ip with
  | .v4 o => v4Variant (arrayHeader 2 ++ octets o ++ natural e.port.toNat)
  | .v6 o => v6Variant (arrayHeader 2 ++ octets o ++ natural e.port.toNat)

/-- A ticket: its two fields in order. -/
def encodeTicket (t : Ticket) : Bytes :=
  arrayHeader 2 ++ integer t.id.toInt ++ integer t.issued.toInt

/-- An endpoint and its ticket. -/
def encodeEntry (entry : Endpoint × Ticket) : Bytes :=
  arrayHeader 2 ++ encodeEndpoint entry.1 ++ encodeTicket entry.2

/-- The bytes of a list of tickets. -/
def encodeEntries (entries : List (Endpoint × Ticket)) : Bytes :=
  sequence encodeEntry entries

/-- The tickets in force as bytes. -/
def encode (c : Connections) : Bytes := encodeEntries c.tickets.toList

-- ============================================================= reading

/-- Read an endpoint. -/
def readEndpoint : Reader Endpoint :=
  readVariant familyNames fun i =>
    if i = 0 then do
      let (o, port) ← readPair (readOctets 4) readUInt16
      return ⟨.v4 o, port⟩
    else do
      let (o, port) ← readPair (readOctets 16) readUInt16
      return ⟨.v6 o, port⟩

/-- A ticket while its fields come in. -/
structure TicketForm where
  id : Option Int64 := none
  issued : Option Seconds := none

/-- The names of the fields of a ticket, in order. -/
def ticketFields : List String := ["id", "timestamp"]

/-- Read a field of a ticket that is not there yet. -/
def TicketForm.fill (form : TicketForm) (field : Nat) : Reader TicketForm :=
  match field with
  | 0 => if form.id.isSome then Reader.fail else return { form with id := some (← readInt64) }
  | _ =>
    if form.issued.isSome then Reader.fail
    else return { form with issued := some (← readInt64) }

/-- The ticket of a form that has all its fields. -/
def TicketForm.ticket? (form : TicketForm) : Option Ticket := do
  return ⟨← form.id, ← form.issued⟩

/-- Read a ticket. -/
def readTicket : Reader Ticket := do
  let form ← readRecord ticketFields (maxDepth - 3) TicketForm.fill {}
  match form.ticket? with
  | some t => return t
  | none => Reader.fail

/-- Read a list of tickets. -/
def readEntries : Reader (List (Endpoint × Ticket)) :=
  readSequence (readPair readEndpoint readTicket)

/-- The tickets that bytes begin with. -/
def decodeEntries? (data : Bytes) : Option (List (Endpoint × Ticket)) :=
  (readEntries.run data).map Prod.fst

/-- Merge the tickets that bytes hold, and say how many were read. -/
def restore? (c : Connections) (data : Bytes) : Option (Connections × Nat) :=
  (decodeEntries? data).map fun entries => (c.merge entries, entries.length)

end TorrentTracker.Connections
