import TorrentTracker.MessagePack.Address
import TorrentTracker.Store

/-
Snapshots of the store.

A snapshot is the list of the swarms, each with the list of its peers. As
bytes it is that list in MessagePack. Loading one replaces the whole store:
swarms are rebuilt peer by peer, and bytes that do not decode change
nothing.
-/

namespace TorrentTracker

/-- The content of a store as lists. -/
abbrev Snapshot := List (InfoHash × List (PeerId × Peer))

namespace Snapshot

open MessagePack

-- ============================================================= writing

/-- A peer: its four fields in order. -/
def encodePeer (p : Peer) : Bytes :=
  arrayHeader 4 ++ ip p.ip ++ natural p.port.toNat ++ boolean p.complete
    ++ integer p.lastSeen.toInt

/-- A peer id and its peer. -/
def encodeMember (entry : PeerId × Peer) : Bytes :=
  arrayHeader 2 ++ octets entry.1 ++ encodePeer entry.2

/-- An info hash and its peers. -/
def encodeSwarm (entry : InfoHash × List (PeerId × Peer)) : Bytes :=
  arrayHeader 2 ++ octets entry.1 ++ sequence encodeMember entry.2

/-- The bytes of a snapshot. -/
def encode (s : Snapshot) : Bytes := sequence encodeSwarm s

-- ============================================================= reading

/-- A peer while its fields come in. -/
structure PeerForm where
  ip : Option Ip := none
  port : Option UInt16 := none
  complete : Option Bool := none
  lastSeen : Option Seconds := none

/-- The names of the fields of a peer, in order. -/
def peerFields : List String := ["ip", "port", "complete", "last_seen"]

/-- Read a field of a peer that is not there yet. -/
def PeerForm.fill (form : PeerForm) (field : Nat) : Reader PeerForm :=
  match field with
  | 0 => if form.ip.isSome then Reader.fail else return { form with ip := some (← readIp) }
  | 1 =>
    if form.port.isSome then Reader.fail else return { form with port := some (← readUInt16) }
  | 2 =>
    if form.complete.isSome then Reader.fail
    else return { form with complete := some (← readBoolean) }
  | _ =>
    if form.lastSeen.isSome then Reader.fail
    else return { form with lastSeen := some (← readInt64) }

/-- The peer of a form that has all its fields. -/
def PeerForm.peer? (form : PeerForm) : Option Peer := do
  return ⟨← form.ip, ← form.port, ← form.complete, ← form.lastSeen⟩

/-- Read a peer. -/
def readPeer : Reader Peer := do
  let form ← readRecord peerFields (maxDepth - 5) PeerForm.fill {}
  match form.peer? with
  | some p => return p
  | none => Reader.fail

/-- Read a snapshot. -/
def read : Reader Snapshot :=
  readSequence (readPair (readOctets 20) (readSequence (readPair (readOctets 20) readPeer)))

/-- The snapshot that bytes begin with. -/
def decode? (data : Bytes) : Option Snapshot := (read.run data).map Prod.fst

end Snapshot

namespace Store

/-- The content of the store. -/
def snapshot (s : Store) : Snapshot :=
  s.swarms.toList.map fun entry => (entry.1, entry.2.peers.toList)

/-- The store as bytes. -/
def encode (s : Store) : Bytes := s.snapshot.encode

/-- A swarm with the peers of a snapshot, and how many ids they have. -/
def restoreSwarm (peers : List (PeerId × Peer)) : Swarm × Nat :=
  let w := peers.foldl (fun w entry => w.restore entry.1 entry.2) Swarm.empty
  (w, w.peers.size)

/-- The store with the content of a snapshot, and how many peers were
loaded. A swarm without peers is left out; of two with one hash the later
stays, and both are counted. -/
def ofSnapshot (snapshot : Snapshot) : Store × Nat :=
  snapshot.foldl
    (fun (s, loaded) entry =>
      let (w, n) := restoreSwarm entry.2
      (if w.peers.isEmpty then s else ⟨s.swarms.insert entry.1 w⟩, loaded + n))
    (empty, 0)

/-- The store that bytes hold, and how many peers were loaded. -/
def decode? (data : Bytes) : Option (Store × Nat) :=
  (Snapshot.decode? data).map ofSnapshot

end Store

end TorrentTracker
