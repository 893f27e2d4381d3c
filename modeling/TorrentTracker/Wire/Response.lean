import TorrentTracker.Wire.Action

/-
Responses as datagrams.

Every response begins with its action and the transaction id of the
request it answers. A reader of responses knows from its own request which
kind to expect, so the action is written but not looked at.
-/

namespace TorrentTracker.Wire

/-- What every response begins with. -/
def responseHead (action : Action) (transactionId : Int32) : Bytes :=
  Word.write action.number ++ Word.write transactionId

/-- The layout of the head: the action's number and the transaction id. -/
def responseHeadLayout : Reader Int32 := do
  let _ : Int32 ← Word.read
  Word.read

-- ============================================================= connect

/-- A fresh connection id. -/
structure ConnectResponse where
  transactionId : Int32
  connectionId : Int64
deriving DecidableEq

/-- The written form of a connect response. -/
def ConnectResponse.encode (r : ConnectResponse) : Bytes :=
  responseHead .connect r.transactionId ++ Word.write r.connectionId

/-- The layout of a connect response. -/
def ConnectResponse.layout : Reader ConnectResponse := do
  let transactionId ← responseHeadLayout
  let connectionId ← Word.read
  return { transactionId, connectionId }

/-- Read a connect response. -/
def ConnectResponse.decode (data : Bytes) : Except Error ConnectResponse :=
  (decodeWith .connectResponse 16 layout data).map Prod.fst

-- ============================================================ announce

/-- The counts of a swarm and some of its peers, packed. -/
structure AnnounceResponse where
  transactionId : Int32
  interval : Int32
  leechers : Int32
  seeders : Int32
  peers : Bytes
deriving DecidableEq

/-- The written form of an announce response. -/
def AnnounceResponse.encode (r : AnnounceResponse) : Bytes :=
  responseHead .announce r.transactionId ++ Word.write r.interval ++ Word.write r.leechers
    ++ Word.write r.seeders ++ r.peers

/-- The layout of an announce response up to its peers. -/
def AnnounceResponse.layout : Reader (Bytes → AnnounceResponse) := do
  let transactionId ← responseHeadLayout
  let interval ← Word.read
  let leechers ← Word.read
  let seeders ← Word.read
  return fun peers => { transactionId, interval, leechers, seeders, peers }

/-- Read an announce response. -/
def AnnounceResponse.decode (data : Bytes) : Except Error AnnounceResponse := do
  let (response, peers) ← decodeWith .announceResponse 20 layout data
  .ok (response peers)

-- ============================================================== scrape

/-- The counts of one swarm. -/
structure ScrapeRecord where
  complete : Int32
  incomplete : Int32
  downloaded : Int32
deriving DecidableEq

/-- The written form of a record. -/
def ScrapeRecord.encode (r : ScrapeRecord) : Bytes :=
  Word.write r.complete ++ Word.write r.incomplete ++ Word.write r.downloaded

/-- The layout of a record. -/
def ScrapeRecord.layout : Reader ScrapeRecord := do
  let complete ← Word.read
  let incomplete ← Word.read
  let downloaded ← Word.read
  return { complete, incomplete, downloaded }

/-- The bytes of a record. -/
def scrapeRecordSize : Nat := 12

/-- One record for each hash that was asked for. -/
structure ScrapeResponse where
  transactionId : Int32
  records : List ScrapeRecord
deriving DecidableEq

/-- The written form of a scrape response. -/
def ScrapeResponse.encode (r : ScrapeResponse) : Bytes :=
  responseHead .scrape r.transactionId ++ r.records.flatMap ScrapeRecord.encode

/-- Read a scrape response. A record that is cut short needs the bytes
that would fill it. -/
def ScrapeResponse.decode (data : Bytes) : Except Error ScrapeResponse := do
  let (transactionId, region) ← decodeWith .scrapeResponse 8 responseHeadLayout data
  let count := region.length / scrapeRecordSize
  let short := Error.truncated .scrapeResponse (8 + (count + 1) * scrapeRecordSize) data.length
  if region.length % scrapeRecordSize = 0 then
    match (Reader.times count ScrapeRecord.layout).run region with
    | some (records, _) => .ok ⟨transactionId, records⟩
    | none => .error short
  else .error short

-- =============================================================== error

/-- A refusal, with its reason. -/
structure ErrorResponse where
  transactionId : Int32
  text : Bytes
deriving DecidableEq

/-- The written form of an error response. -/
def ErrorResponse.encode (r : ErrorResponse) : Bytes :=
  responseHead .error r.transactionId ++ r.text

/-- Read an error response. -/
def ErrorResponse.decode (data : Bytes) : Except Error ErrorResponse := do
  let (transactionId, text) ← decodeWith .errorResponse 8 responseHeadLayout data
  .ok ⟨transactionId, text⟩

end TorrentTracker.Wire
