import TorrentTracker.Draws
import TorrentTracker.Swarm

/-
The swarm database: a swarm under each info hash that has a peer.

# What this file adds

The operations of both transports and of the sweeps. A peer is dropped in
two steps, the second of which removes the swarm only if it is (still)
empty; `drop` runs both. Lists of peers come in two forms, as entries and
packed; both are everything there is when the swarm is no larger than what
is wanted, and a sample otherwise.
-/

namespace TorrentTracker

/-- All swarms by info hash. -/
structure Store where
  swarms : Table InfoHash Swarm
deriving DecidableEq

namespace Store

/-- The store without swarms. -/
def empty : Store := ⟨Table.empty⟩

instance : Inhabited Store := ⟨empty⟩

/-- The swarm of a hash; one without peers if there is none. -/
def swarm (s : Store) (hash : InfoHash) : Swarm :=
  (s.swarms.get? hash).getD Swarm.empty

/-- The peer under a hash and an id. -/
def peer? (s : Store) (hash : InfoHash) (id : PeerId) : Option Peer :=
  (s.swarm hash).peers.get? id

-- ============================================================= changes

/-- Let a peer into a swarm, or refresh it there. -/
def save (s : Store) (hash : InfoHash) (id : PeerId) (p : Peer) : Store :=
  ⟨s.swarms.insert hash ((s.swarm hash).save id p)⟩

/-- Take a peer out of its swarm and leave the swarm in place, and say
whether the peer was there. -/
def removePeer (s : Store) (hash : InfoHash) (id : PeerId) : Store × Bool :=
  match s.swarms.get? hash with
  | none => (s, false)
  | some w =>
    let (w', removed) := w.remove id
    (⟨s.swarms.insert hash w'⟩, removed)

/-- Remove a swarm if it has no peers. -/
def prune (s : Store) (hash : InfoHash) : Store :=
  match s.swarms.get? hash with
  | none => s
  | some w => if w.peers.isEmpty then ⟨s.swarms.erase hash⟩ else s

/-- Drop a peer, and say whether it was there. No empty swarm stays. -/
def drop (s : Store) (hash : InfoHash) (id : PeerId) : Store × Bool :=
  let (s', removed) := s.removePeer hash id
  (s'.prune hash, removed)

/-- Drop all stale peers and then all empty swarms, and say how many peers
went. -/
def trim (s : Store) (now : Seconds) (ttl : Int64) : Store × Nat :=
  let keep (w : Swarm) : Option Swarm :=
    let w' := w.trim now ttl
    if w'.peers.isEmpty then none else some w'
  (⟨s.swarms.filterMap fun _ w => keep w⟩,
    s.swarms.total fun w => w.peers.size - (w.trim now ttl).peers.size)

-- ============================================================ overflow

/-- What dropping a peer runs into. -/
def dropFault? (s : Store) (hash : InfoHash) (id : PeerId) : Option Overflow :=
  (s.swarms.get? hash).bind fun w => w.removeFault? id

/-- Drop a peer, in either build. -/
def dropIn (build : Build) (s : Store) (hash : InfoHash) (id : PeerId) :
    Except Overflow (Store × Bool) :=
  build.settle (s.dropFault? hash id) (s.drop hash id)

/-- What a sweep runs into, in whichever swarm it is. -/
def trimFault? (s : Store) (now : Seconds) (ttl : Int64) : Option Overflow :=
  s.swarms.values.findSome? fun w => w.trimFault? now ttl

/-- Drop all stale peers, in either build. -/
def trimIn (build : Build) (s : Store) (now : Seconds) (ttl : Int64) :
    Except Overflow (Store × Nat) :=
  build.settle (s.trimFault? now ttl) (s.trim now ttl)

-- ============================================================= answers

/-- The counts of a swarm; none of either for an unknown hash. -/
def counts (s : Store) (hash : InfoHash) : SwarmCounts :=
  match s.swarms.get? hash with
  | some w => w.counts
  | none => ⟨0, 0⟩

/-- What the counts of a swarm run into. -/
def countsFault? (s : Store) (hash : InfoHash) : Option Overflow :=
  (s.swarms.get? hash).bind Swarm.countsFault?

/-- The counts of a swarm, in either build. -/
def countsIn (build : Build) (s : Store) (hash : InfoHash) : Except Overflow SwarmCounts :=
  build.settle (s.countsFault? hash) (s.counts hash)

/-- The peers of a swarm but one. -/
def others (s : Store) (hash : InfoHash) (exclude : Option PeerId) : List (PeerId × Peer) :=
  (s.swarm hash).peers.toList.filter fun entry => exclude ≠ some entry.1

/-- The peers of a swarm in one family. -/
def inFamily (s : Store) (hash : InfoHash) (family : Family) : List Peer :=
  (s.swarm hash).peers.values.filter fun p => p.family = family

/-- At most `wanted` of the candidates from a swarm: all of them if the
whole swarm is no larger, or else a sample. -/
def select {α : Type} (s : Store) (hash : InfoHash) (picks : List Nat) (wanted : Nat)
    (candidates : List α) : List α :=
  if (s.swarm hash).peers.size ≤ wanted then candidates else choose picks wanted candidates

/-- At most `wanted` peers of a swarm, without the one that asks. -/
def peerList (s : Store) (hash : InfoHash) (wanted : Nat) (exclude : Option PeerId)
    (picks : List Nat) : List (PeerId × Peer) :=
  s.select hash picks wanted (s.others hash exclude)

/-- At most `wanted` peers of a swarm in one family, in compact form and
packed. -/
def compactPeers (s : Store) (hash : InfoHash) (wanted : Nat) (family : Family)
    (picks : List Nat) : Bytes :=
  (s.select hash picks wanted (s.inFamily hash family)).flatMap Peer.compact

/-- How many peers there are in all swarms. -/
def totalPeers (s : Store) : Nat := s.swarms.total fun w => w.peers.size

/-- How many of them are seeders, by the running counts. -/
def totalSeeders (s : Store) : Nat := s.swarms.total fun w => w.seeders.toNat

/-- How many swarms there are. -/
def activeSwarms (s : Store) : Nat := s.swarms.size

end Store

end TorrentTracker
