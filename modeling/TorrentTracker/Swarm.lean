import TorrentTracker.Peer
import TorrentTracker.Table

/-
A swarm: the peers of one torrent, with a running count of those that
have the whole download.

The count is kept beside the peers so that a scrape does not walk them.
Each operation below therefore says twice what it does, once to the peers
and once to the count; that the two agree is a theorem and not part of the
type, because a snapshot from elsewhere can bring peers in by a path of
its own. Where they do not agree, what is taken from the count may be more
than it has. The count goes up by one for a peer that is held, so there it
has room for more peers than a host has.
-/

namespace TorrentTracker

/-- How many peers of a swarm have the whole download, and how many do
not. -/
structure SwarmCounts where
  complete : UInt32
  incomplete : UInt32
deriving DecidableEq

/-- The peers of one torrent. -/
structure Swarm where
  peers : Table PeerId Peer
  /-- How many of the peers are complete. -/
  seeders : UInt32
deriving DecidableEq

namespace Swarm

/-- A swarm without peers. -/
def empty : Swarm := ⟨Table.empty, 0⟩

/-- The counts, from the running one and the size. -/
def counts (w : Swarm) : SwarmCounts :=
  ⟨w.seeders, UInt32.ofNat w.peers.size - w.seeders⟩

/-- One more seeder if a peer is one. -/
def seedersWith (n : UInt32) (p : Peer) : UInt32 :=
  if p.complete then n + 1 else n

/-- Let a peer in, or refresh it. A peer that is there gets the new
address, port and time; it is complete if it was or says so now. -/
def save (w : Swarm) (id : PeerId) (p : Peer) : Swarm :=
  match w.peers.get? id with
  | none => ⟨w.peers.insert id p, seedersWith w.seeders p⟩
  | some old =>
    ⟨w.peers.insert id { p with complete := old.complete || p.complete },
      if old.complete then w.seeders else seedersWith w.seeders p⟩

/-- Take a peer out, and say whether it was there. -/
def remove (w : Swarm) (id : PeerId) : Swarm × Bool :=
  match w.peers.get? id with
  | none => (w, false)
  | some old =>
    (⟨w.peers.erase id, if old.complete then w.seeders - 1 else w.seeders⟩, true)

/-- Whether a peer was last seen more than `ttl` seconds ago. -/
def stale (now : Seconds) (ttl : Int64) (p : Peer) : Bool :=
  p.lastSeen.expired ttl now

/-- Take all stale peers out. -/
def trim (w : Swarm) (now : Seconds) (ttl : Int64) : Swarm :=
  ⟨w.peers.filterMap fun _ p => if stale now ttl p then none else some p,
    w.seeders - UInt32.ofNat (w.peers.values.countP fun p => stale now ttl p && p.complete)⟩

/-- Put a peer of a snapshot in. The first peer under an id is counted;
a later one under the same id takes its place as it stands. -/
def restore (w : Swarm) (id : PeerId) (p : Peer) : Swarm :=
  ⟨w.peers.insert id p,
    if (w.peers.get? id).isNone then seedersWith w.seeders p else w.seeders⟩

-- ============================================================ overflow

/-- The count of complete peers may be past the size. -/
def countsFault? (w : Swarm) : Option Overflow :=
  Overflow.subtract.ifNot (w.seeders ≤ UInt32.ofNat w.peers.size)

/-- A complete peer that goes has to be in the count. -/
def removeFault? (w : Swarm) (id : PeerId) : Option Overflow :=
  match w.peers.get? id with
  | none => none
  | some old => if old.complete then Overflow.subtract.ifNot (1 ≤ w.seeders) else none

/-- Every peer needs an age, and the complete ones that go have to be in
the count. -/
def trimFault? (w : Swarm) (now : Seconds) (ttl : Int64) : Option Overflow :=
  (w.peers.values.findSome? fun p => p.lastSeen.elapsedFault? now).or
    (Overflow.subtract.ifNot
      (w.peers.values.countP (fun p => stale now ttl p && p.complete) ≤ w.seeders.toNat))

end Swarm

end TorrentTracker
