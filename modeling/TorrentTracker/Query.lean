import TorrentTracker.Event
import TorrentTracker.Percent

/-
Queries: the pairs of a query string, and what can be wrong with them.

A query is cut at every ampersand into pairs, and a pair at its first
equals sign into key and value. Keys are taken as they stand; a value is
percent-decoded by whoever wants it. Empty pairs do not count.
-/

namespace TorrentTracker

/-- Twenty bytes that name a torrent. -/
abbrev InfoHash := Octets 20

/-- Twenty bytes that name a client within a swarm. -/
abbrev PeerId := Octets 20

namespace Query

/-- Why a query is turned down. -/
inductive Error where
  | missing (name : String)
  | invalidInfoHash
  | invalidPeerId
  | invalidPort
  | invalidNumwant
  | invalidEvent
  | invalidFormat (name : String)
  | tooManyHashes (limit : Nat)
deriving DecidableEq

/-- The wording of an error. -/
def Error.message : Error → String
  | missing name => "missing " ++ name
  | invalidInfoHash => "invalid info hash"
  | invalidPeerId => "invalid peer id"
  | invalidPort => "invalid port"
  | invalidNumwant => "invalid numwant"
  | invalidEvent => "invalid event"
  | invalidFormat name => "invalid " ++ name
  | tooManyHashes limit => "exceeded " ++ numeral 10 limit ++ " hashes"

/-- A pair as key and value; one without an equals sign has an empty
value. -/
def splitPair (pair : Bytes) : Bytes × Bytes :=
  (pair.takeWhile (· ≠ 61), (pair.dropWhile (· ≠ 61)).drop 1)

/-- The keys and values of a query, in order and undecoded. -/
def pairs (query : Bytes) : List (Bytes × Bytes) :=
  ((query.splitOn 38).filter fun pair => !pair.isEmpty).map splitPair

/-- A value that decodes to twenty bytes. -/
def id? (value : Bytes) : Option (Octets 20) :=
  (Percent.decode value).toOption.bind (Octets.ofBytes? 20)

/-- A value that decodes to an integer of 64 bits. -/
def integer? (value : Bytes) : Option Int64 :=
  (Percent.decode value).toOption.bind Decimal.int64?

/-- A value that decodes to a port, which is never zero. -/
def port? (value : Bytes) : Option UInt16 :=
  ((Percent.decode value).toOption.bind Decimal.uint16?).filter (· ≠ 0)

/-- A value that decodes to the word for an event. -/
def event? (value : Bytes) : Option Event :=
  (Percent.decode value).toOption.bind Event.ofWord?

/-- A raw `1` or `0`. -/
def flag? (value : Bytes) : Option Bool :=
  if value = utf8 "1" then some true
  else if value = utf8 "0" then some false
  else none

end Query

end TorrentTracker
