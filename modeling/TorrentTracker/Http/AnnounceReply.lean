import TorrentTracker.Bencode
import TorrentTracker.Ip.Text
import TorrentTracker.Peer

/-
The body of an announce reply.

One dictionary: the counts of the swarm, the interval until the next
announce, and the peers. An IPv6 compact list stands under `peers6`, beside
an empty `peers`, so that a client which looks at `peers` alone still
reads a well-formed reply.
-/

namespace TorrentTracker

/-- The peers of an announce reply. -/
inductive PeerList where
  /-- Compact entries of one family, packed. -/
  | compact (family : Family) (entries : Bytes)
  /-- A dictionary per peer, with or without its id. -/
  | dicts (withIds : Bool) (peers : List (PeerId × Peer))

/-- What an announce is answered with. -/
structure AnnounceReply where
  seeders : UInt32
  leechers : UInt32
  interval : Int32
  peers : PeerList

/-- A peer as a dictionary. -/
def PeerList.dict (withIds : Bool) (entry : PeerId × Peer) : Bencode :=
  .dict <|
    [(utf8 "ip", .text entry.2.ip.text)]
      ++ (if withIds then [(utf8 "peer id", .string entry.1.bytes)] else [])
      ++ [(utf8 "port", .integer entry.2.port.toNat)]

/-- The entries that carry a list of peers. -/
def PeerList.entries : PeerList → List (Bytes × Bencode)
  | compact .v4 packed => [(utf8 "peers", .string packed)]
  | compact .v6 packed => [(utf8 "peers", .string []), (utf8 "peers6", .string packed)]
  | dicts withIds peers => [(utf8 "peers", .list (peers.map (dict withIds)))]

/-- The reply as a dictionary. -/
def AnnounceReply.value (r : AnnounceReply) : Bencode :=
  .dict <|
    [ (utf8 "complete", .integer r.seeders.toNat)
    , (utf8 "incomplete", .integer r.leechers.toNat)
    , (utf8 "interval", .integer r.interval.toInt) ]
      ++ r.peers.entries

/-- The reply as a body. -/
def AnnounceReply.body (r : AnnounceReply) : Bytes := r.value.encode

end TorrentTracker
