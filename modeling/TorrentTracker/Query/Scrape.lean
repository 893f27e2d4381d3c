import TorrentTracker.Query

/-
The query of a scrape: one info hash or more.

Hashes keep their order and their repetitions. The limit is what one
datagram can carry, so both transports serve the same requests.
-/

namespace TorrentTracker

/-- The most info hashes one scrape may ask for. -/
def maxScrapeHashes : Nat := 74

namespace ScrapeQuery

/-- The one key a scrape knows. -/
def key : String := "info_hash"

/-- Read the hashes while fewer than the limit have been read; a value
past the limit is not looked at. -/
def hashes : (seen : Nat) → List Bytes → Except Query.Error (List InfoHash)
  | _, [] => .ok []
  | seen, value :: rest =>
    if seen = maxScrapeHashes then .error (.tooManyHashes maxScrapeHashes)
    else match Query.id? value with
      | none => .error .invalidInfoHash
      | some hash => (hashes (seen + 1) rest).map (hash :: ·)

/-- The values that the query gives for info hashes. -/
def values (query : Bytes) : List Bytes :=
  ((Query.pairs query).filter fun pair => pair.1 = utf8 key).map Prod.snd

/-- Read the query of a scrape. -/
def parse (query : Bytes) : Except Query.Error (List InfoHash) := do
  match ← hashes 0 (values query) with
  | [] => .error (.missing key)
  | found => .ok found

end ScrapeQuery

end TorrentTracker
