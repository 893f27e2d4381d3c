import TorrentTracker.Bencode
import TorrentTracker.Query

/-
The body of a scrape reply: a dictionary of the asked hashes, each with
its counts.

A dictionary has each key once and its keys in order, whatever the request
repeated and in whatever order. Downloads are not counted and show as
zero.
-/

namespace TorrentTracker

/-- The counts of one swarm under its info hash. -/
structure FileCounts where
  hash : InfoHash
  seeders : UInt32
  leechers : UInt32
deriving DecidableEq

/-- File counts in ascending order of hashes; those under a hash that is
there already take its place. -/
def FileCounts.file (c : FileCounts) : List FileCounts → List FileCounts
  | [] => [c]
  | d :: rest =>
    if c.hash = d.hash then c :: rest
    else if c.hash.bytes < d.hash.bytes then c :: d :: rest
    else d :: file c rest

/-- The counts of a swarm as a dictionary. -/
def FileCounts.value (c : FileCounts) : Bencode :=
  .dict
    [ (utf8 "complete", .integer c.seeders.toNat)
    , (utf8 "downloaded", .integer 0)
    , (utf8 "incomplete", .integer c.leechers.toNat) ]

/-- What a scrape is answered with: counts in the order of the request. -/
structure ScrapeReply where
  files : List FileCounts

/-- The counts filed by hash, the last ones of each. -/
def ScrapeReply.filed (r : ScrapeReply) : List FileCounts :=
  r.files.foldl (fun filed c => c.file filed) []

/-- The reply as a dictionary. -/
def ScrapeReply.value (r : ScrapeReply) : Bencode :=
  .dict [(utf8 "files", .dict (r.filed.map fun c => (c.hash.bytes, c.value)))]

/-- The reply as a body. -/
def ScrapeReply.body (r : ScrapeReply) : Bytes := r.value.encode

end TorrentTracker
