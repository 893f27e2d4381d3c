import TorrentTracker.Clock
import TorrentTracker.Endpoint
import TorrentTracker.Table
import TorrentTracker.Word

/-
Connection ids: proof that a client can receive at the address it sends
from.

A client asks for an id and repeats it with each later request. The id is
good for the canonical address and the port it was given to, until it is
replaced or a sweep finds it too old; between two sweeps age alone does not
end it.
-/

namespace TorrentTracker

/-- The family, the octets and the port of an endpoint. -/
def Endpoint.bytes (e : Endpoint) : Bytes :=
  (if e.ip.family = .v4 then 4 else 6) :: (e.ip.bytes ++ Word.write e.port)

/-- The bytes tell endpoints apart: the family fixes how many octets there are
before the port. -/
theorem Endpoint.bytes_injective (a b : Endpoint) (h : a.bytes = b.bytes) : a = b := by
  obtain ⟨ip, port⟩ := a
  obtain ⟨ip', port'⟩ := b
  have hlen : ip.bytes.length = ip'.bytes.length := by
    simpa [bytes] using congrArg List.length h
  obtain ⟨hip, hport⟩ := List.append_inj (List.cons.inj h).2 hlen
  exact congr (congrArg Endpoint.mk (Ip.bytes_injective hip)) (Word.write_injective hport)

/-- Endpoints by family, then by octets, then by port. -/
instance : Table.Key Endpoint :=
  .through (@Table.Key.order Bytes _) Endpoint.bytes Endpoint.bytes_injective

/-- An id that was given out, and when. -/
structure Ticket where
  id : Int64
  issued : Seconds
deriving DecidableEq

/-- The ids in force, by client. -/
structure Connections where
  tickets : Table Endpoint Ticket
  /-- The age in seconds past which a sweep takes an id back. -/
  maxAge : Int64
deriving DecidableEq

/-- The endpoint with its address in canonical form. -/
def Endpoint.canonical (e : Endpoint) : Endpoint := ⟨e.ip.canonical, e.port⟩

@[simp]
theorem Endpoint.canonical_canonical (e : Endpoint) : e.canonical.canonical = e.canonical := by
  simp [Endpoint.canonical]

namespace Connections

/-- No ids in force. -/
def empty (maxAge : Int64) : Connections := ⟨Table.empty, maxAge⟩

/-- Ids lie from zero up to the largest signed word, which is none. -/
def idBound : Nat := 0x7fffffffffffffff

/-- The id that a draw stands for. -/
def drawId (draw : Nat) : Int64 := Int64.ofNat (draw % idBound)

/-- Put a ticket in force for the client behind an endpoint. -/
def file (c : Connections) (e : Endpoint) (t : Ticket) : Connections :=
  { c with tickets := c.tickets.insert e.canonical t }

/-- Give a client a fresh id in place of any it has. -/
def create (c : Connections) (source : SocketAddress) (now : Seconds) (draw : Nat) :
    Connections × Int64 :=
  let id := drawId draw
  (c.file ⟨source.ip, source.port⟩ ⟨id, now⟩, id)

/-- Whether an id is the one in force for a client. -/
def valid (c : Connections) (source : SocketAddress) (id : Int64) : Bool :=
  match c.tickets.get? source.client with
  | some t => t.id = id
  | none => false

/-- Take back all ids that are too old, and say how many they were. -/
def collect (c : Connections) (now : Seconds) : Connections × Nat :=
  let kept := c.tickets.filterMap fun _ t =>
    if t.issued.expired c.maxAge now then none else some t
  ({ c with tickets := kept }, c.tickets.size - kept.size)

/-- Every id needs an age. -/
def collectFault? (c : Connections) (now : Seconds) : Option Overflow :=
  c.tickets.values.findSome? fun t => t.issued.elapsedFault? now

/-- Take back all ids that are too old, in either build. -/
def collectIn (build : Build) (c : Connections) (now : Seconds) :
    Except Overflow (Connections × Nat) :=
  build.settle (c.collectFault? now) (c.collect now)

/-- Put tickets in force one after the other. -/
def merge (c : Connections) (entries : List (Endpoint × Ticket)) : Connections :=
  entries.foldl (fun c entry => c.file entry.1 entry.2) c

/-- How many ids are in force. -/
def size (c : Connections) : Nat := c.tickets.size

end Connections

end TorrentTracker
