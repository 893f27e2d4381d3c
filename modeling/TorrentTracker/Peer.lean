import TorrentTracker.Clock
import TorrentTracker.Ip
import TorrentTracker.Query
import TorrentTracker.Word

/-
Peers as a swarm keeps them.

A swarm files its peers by peer id, so a peer does not repeat its own.
-/

namespace TorrentTracker

/-- A peer in a swarm. -/
structure Peer where
  ip : Ip
  port : UInt16
  /-- Whether it has the whole download. Once true it stays true. -/
  complete : Bool
  /-- When it last announced. -/
  lastSeen : Seconds
deriving DecidableEq

namespace Peer

/-- The family of the peer's address. -/
def family (p : Peer) : Family := p.ip.family

/-- The compact form: the octets of the address, then the port. -/
def compact (p : Peer) : Bytes := p.ip.bytes ++ Word.write p.port

theorem length_compact (p : Peer) : p.compact.length = p.family.compactWidth := by
  obtain ⟨ip, _, _, _⟩ := p
  cases ip <;> simp [compact, family, Ip.family, Ip.bytes, Family.compactWidth, Word.width]

end Peer

end TorrentTracker
