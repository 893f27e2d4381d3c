import TorrentTracker.Store

/-
The sections of the store: what its operations do under one lock.

# What this file adds

Callers share the store, and the lock on a swarm is held for a section of
an operation and not for the whole of it. A save is one section. A drop is
two: it takes the peer out and notes whether its swarm is left empty, lets
go of the lock, and if it was comes back to remove the swarm if that is
still empty. A trim is one section for each swarm. Whatever other callers
do between two sections of an operation the later one finds done.
-/

namespace TorrentTracker.Store

/-- Drop the stale peers of one swarm, and the swarm if none are left, and
say how many peers went. -/
def trimSwarm (s : Store) (hash : InfoHash) (now : Seconds) (ttl : Int64) : Store × Nat :=
  match s.swarms.get? hash with
  | none => (s, 0)
  | some w =>
    let w' := w.trim now ttl
    (⟨if w'.peers.isEmpty then s.swarms.erase hash else s.swarms.insert hash w'⟩,
      w.peers.size - w'.peers.size)

/-- Drop the stale peers of one swarm after the other, and say how many
went. -/
def sweep (s : Store) (now : Seconds) (ttl : Int64) : List InfoHash → Store × Nat
  | [] => (s, 0)
  | hash :: hashes =>
    let (s', gone) := s.trimSwarm hash now ttl
    let (s'', later) := s'.sweep now ttl hashes
    (s'', gone + later)

/-- Whether there is a swarm under a hash, and no peer in it. -/
def vacant (s : Store) (hash : InfoHash) : Bool :=
  (s.swarms.get? hash).any fun w => w.peers.isEmpty

/-- What is done under one lock. -/
inductive Section where
  | save (hash : InfoHash) (id : PeerId) (p : Peer)
  /-- The first step of a drop. -/
  | remove (hash : InfoHash) (id : PeerId)
  /-- The second step of a drop. -/
  | prune (hash : InfoHash)
  /-- What a trim does to one swarm. -/
  | trim (hash : InfoHash) (now : Seconds) (ttl : Int64)
deriving DecidableEq

/-- The store after a section. -/
def enter (s : Store) : Section → Store
  | .save hash id p => s.save hash id p
  | .remove hash id => (s.removePeer hash id).1
  | .prune hash => s.prune hash
  | .trim hash now ttl => (s.trimSwarm hash now ttl).1

/-- What a section finds is still to be done: a drop that leaves its swarm
empty has to come back for it. -/
def owed (s : Store) : Section → List Section
  | .remove hash id => if (s.removePeer hash id).1.vacant hash then [.prune hash] else []
  | _ => []

end TorrentTracker.Store
