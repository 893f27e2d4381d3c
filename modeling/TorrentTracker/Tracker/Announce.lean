import TorrentTracker.Tracker

/-
What an announce does, whichever transport it came by.

Both transports hand in the same `Announce` and put the answer into their
own form; the swarm is changed, counted and listed in one place.
-/

namespace TorrentTracker

/-- An announce from a client whose address is known. -/
structure Announce where
  infoHash : InfoHash
  peerId : PeerId
  ip : Ip
  port : UInt16
  left : Int64
  event : Event
  numwant : Option Int64

namespace Announce

/-- The family of the client's address. -/
def family (a : Announce) : Family := a.ip.family

/-- The client as a peer of the swarm. -/
def peer (a : Announce) (complete : Bool) (now : Seconds) : Peer :=
  ⟨a.ip, a.port, complete, now⟩

/-- The store after the announce. -/
def apply (a : Announce) (store : Store) (now : Seconds) : Store :=
  match a.event.transition a.left with
  | .leave => (store.drop a.infoHash a.peerId).1
  | .join complete => store.save a.infoHash a.peerId (a.peer complete now)

/-- Whether the client leaves the swarm. One that leaves is told nothing
about it. -/
def leaves (a : Announce) : Bool := a.event.transition a.left = .leave

/-- The counts a client is told, of the store after its announce. -/
def counts (a : Announce) (store : Store) : SwarmCounts :=
  if a.leaves then ⟨0, 0⟩ else store.counts a.infoHash

/-- The packed peers a client is told, of the store after its announce. -/
def compactPeers (a : Announce) (store : Store) (wanted : Nat) (picks : List Nat) : Bytes :=
  if a.leaves then [] else store.compactPeers a.infoHash wanted a.family picks

/-- The other peers a client is told, of the store after its announce. -/
def otherPeers (a : Announce) (store : Store) (wanted : Nat) (picks : List Nat) :
    List (PeerId × Peer) :=
  if a.leaves then [] else store.peerList a.infoHash wanted (some a.peerId) picks

end Announce

/-- How many peers a client gets from this tracker. -/
def Tracker.wanted (t : Tracker) (numwant : Option Int64) : Nat :=
  (t.config.tracker.clampNumwant numwant).toNat

/-- The seconds until a client should announce again. -/
def Tracker.interval (t : Tracker) (m : Moment) : Int32 :=
  t.config.tracker.jitteredInterval m.draws.jitter

/-- The tracker after an announce. -/
def Tracker.admit (t : Tracker) (m : Moment) (a : Announce) : Tracker :=
  { t with store := a.apply t.store m.now }

/-- What an announce runs into: first the interval, then the count of the
swarm that is left, or the counts of the one that is joined. -/
def Announce.fault? (a : Announce) (t : Tracker) (m : Moment) : Option Overflow :=
  (t.config.tracker.jitterFault? m.draws.jitter).or
    (if a.leaves then t.store.dropFault? a.infoHash a.peerId
      else (a.apply t.store m.now).countsFault? a.infoHash)

end TorrentTracker
