import TorrentTracker.Event
import TorrentTracker.Query.Scrape
import TorrentTracker.Wire.Action

/-
Requests as datagrams.

Every request begins with the same sixteen bytes: a connection id (the
protocol's magic number in a connect request), an action, and the
transaction id that the reply will repeat. An announce has a fixed size; a
scrape goes on with one info hash after the other. Bytes past a fixed size
are not looked at.
-/

namespace TorrentTracker.Wire

-- =============================================================== sizes

/-- What stands for a connection id in a connect request. -/
def protocolMagic : Int64 := 0x41727101980

/-- The bytes every request begins with. -/
def headerSize : Nat := 16

/-- The bytes of an announce. -/
def announceSize : Nat := 98

/-- The bytes of the largest request there is: a scrape for as many hashes
as one may ask for. -/
def maxRequestSize : Nat := headerSize + 20 * maxScrapeHashes

/-- What a receive takes of a datagram. It is more than any request has, so
an oversized one still shows as such. -/
def receiveSize : Nat := 2048

-- ============================================================== header

/-- The first sixteen bytes of a request. -/
structure Header where
  connectionId : Int64
  action : Int32
  transactionId : Int32
deriving DecidableEq

/-- The layout of a header. -/
def Header.layout : Reader Header := do
  let connectionId ← Word.read
  let action ← Word.read
  let transactionId ← Word.read
  return { connectionId, action, transactionId }

/-- The written form of a header. -/
def Header.encode (h : Header) : Bytes :=
  Word.write h.connectionId ++ Word.write h.action ++ Word.write h.transactionId

/-- The header of a request. -/
def Header.peek (data : Bytes) : Except Error Header :=
  (decodeWith .request headerSize Header.layout data).map Prod.fst

-- ============================================================= connect

/-- A request for a connection id. -/
structure ConnectRequest where
  transactionId : Int32
deriving DecidableEq

/-- The written form of a connect request. -/
def ConnectRequest.encode (r : ConnectRequest) : Bytes :=
  Header.encode ⟨protocolMagic, Action.connect.number, r.transactionId⟩

/-- Read a connect request. -/
def ConnectRequest.decode (data : Bytes) : Except Error ConnectRequest := do
  let header ← Header.peek data
  if header.connectionId = protocolMagic then .ok ⟨header.transactionId⟩
  else .error (.invalidMagic header.connectionId)

-- ============================================================ announce

/-- An announce as a datagram carries it. -/
structure AnnounceRequest where
  connectionId : Int64
  transactionId : Int32
  infoHash : InfoHash
  peerId : PeerId
  downloaded : Int64
  left : Int64
  uploaded : Int64
  event : Event
  /-- The address the client claims. The sender's address counts instead. -/
  ip : UInt32
  key : UInt32
  /-- How many peers the client wants; negative leaves it to the tracker. -/
  numWant : Int32
  port : UInt16
deriving DecidableEq

/-- The written form of an announce. -/
def AnnounceRequest.encode (r : AnnounceRequest) : Bytes :=
  Header.encode ⟨r.connectionId, Action.announce.number, r.transactionId⟩
    ++ r.infoHash.bytes ++ r.peerId.bytes
    ++ Word.write r.downloaded ++ Word.write r.left ++ Word.write r.uploaded
    ++ Word.write r.event.number ++ Word.write r.ip ++ Word.write r.key
    ++ Word.write r.numWant ++ Word.write r.port

/-- The layout of an announce: the number of its event, and the announce
once the event is known. -/
def AnnounceRequest.layout : Reader (Int32 × (Event → AnnounceRequest)) := do
  let header ← Header.layout
  let infoHash ← Reader.octets 20
  let peerId ← Reader.octets 20
  let downloaded ← Word.read
  let left ← Word.read
  let uploaded ← Word.read
  let number ← Word.read
  let ip ← Word.read
  let key ← Word.read
  let numWant ← Word.read
  let port ← Word.read
  return (number, fun event =>
    { connectionId := header.connectionId
      transactionId := header.transactionId
      infoHash, peerId, downloaded, left, uploaded, event, ip, key, numWant, port })

/-- Read an announce. -/
def AnnounceRequest.decode (data : Bytes) : Except Error AnnounceRequest := do
  let ((number, request), _) ← decodeWith .announce announceSize layout data
  match Event.ofNumber? number with
  | some event => .ok (request event)
  | none => .error (.invalidEvent number)

-- ============================================================== scrape

/-- A scrape as a datagram carries it. -/
structure ScrapeRequest where
  connectionId : Int64
  transactionId : Int32
  infoHashes : List InfoHash
deriving DecidableEq

/-- The written form of a scrape. -/
def ScrapeRequest.encode (r : ScrapeRequest) : Bytes :=
  Header.encode ⟨r.connectionId, Action.scrape.number, r.transactionId⟩
    ++ r.infoHashes.flatMap Octets.bytes

/-- Read a scrape. The hashes have to fill the datagram. -/
def ScrapeRequest.decode (data : Bytes) : Except Error ScrapeRequest := do
  let (header, region) ← decodeWith .request headerSize Header.layout data
  if region.length % 20 = 0 then
    match (Reader.times (region.length / 20) (Reader.octets 20)).run region with
    | some (infoHashes, _) =>
      .ok ⟨header.connectionId, header.transactionId, infoHashes⟩
    | none => .error (.misalignedHashes region.length)
  else .error (.misalignedHashes region.length)

end TorrentTracker.Wire
