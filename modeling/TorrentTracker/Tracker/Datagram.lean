import TorrentTracker.Tracker.Announce
import TorrentTracker.Wire.Request
import TorrentTracker.Wire.Response

/-
The datagram transport: one reply to every datagram.

The checks on a datagram run in a fixed order (long enough, known action,
not too long, registered connection id, well-formed message, usable port)
and the first that fails decides the reply. A refusal is short whatever it
refuses, so a forged source gains nothing from it.
-/

namespace TorrentTracker

-- ============================================================= replies

/-- Why a request is refused. -/
inductive Refusal where
  | invalidAction
  | tooManyHashes
  | tooLarge
  | unregistered
  | invalidPort
  | badConnect
  | badAnnounce
  | badScrape
deriving DecidableEq

/-- What a client reads about a refusal. -/
def Refusal.text : Refusal → String
  | invalidAction => "invalid action"
  | tooManyHashes => "exceeded 74 hashes"
  | tooLarge => "request too large"
  | unregistered => "unregistered connection id"
  | invalidPort => "invalid port"
  | badConnect => "failed to parse connect"
  | badAnnounce => "failed to parse announce"
  | badScrape => "failed to parse scrape"

/-- A reply to a datagram. -/
inductive Reply where
  /-- To what is too short for a request. -/
  | tooShort
  /-- To a heartbeat. -/
  | alive
  | connect (r : Wire.ConnectResponse)
  | announce (r : Wire.AnnounceResponse)
  | scrape (r : Wire.ScrapeResponse)
  | refused (transactionId : Int32) (why : Refusal)
deriving DecidableEq

/-- A reply as a datagram. -/
def Reply.encode : Reply → Bytes
  | tooShort => utf8 "nope"
  | alive => utf8 "ok"
  | connect r => r.encode
  | announce r => r.encode
  | scrape r => r.encode
  | refused transactionId why => Wire.ErrorResponse.encode ⟨transactionId, utf8 why.text⟩

namespace Tracker

/-- Refuse a request. -/
def refuse (t : Tracker) (transactionId : Int32) (why : Refusal) : Tracker × Reply :=
  (t.count .clientErrors, .refused transactionId why)

/-- A count as a reply carries it, at most the largest there is room for. -/
def cappedCount (n : UInt32) : Int32 := Int32.ofNat (min n.toNat 0x7fffffff)

/-- What stands for the downloads of a swarm, which are not counted. -/
def downloadsUnknown : Int32 := -1

-- ============================================================ requests

/-- Give the source of a datagram a connection id. -/
def connect (t : Tracker) (m : Moment) (source : SocketAddress) (transactionId : Int32)
    (data : Bytes) : Tracker × Reply :=
  let t := t.count .udpConnects
  match Wire.ConnectRequest.decode data with
  | .error _ => t.refuse transactionId .badConnect
  | .ok request =>
    let (connections, connectionId) :=
      t.connections.create source m.now m.draws.connection
    ({ t with connections }, .connect { transactionId := request.transactionId, connectionId })

/-- The announce that a datagram carries, from the canonical address of
its source. -/
def announceOf (source : SocketAddress) (r : Wire.AnnounceRequest) : Announce where
  infoHash := r.infoHash
  peerId := r.peerId
  ip := source.client.ip
  port := r.port
  left := r.left
  event := r.event
  numwant := some r.numWant.toInt64

/-- Take an announce in and tell the source about its swarm. -/
def announce (t : Tracker) (m : Moment) (source : SocketAddress) (transactionId : Int32)
    (data : Bytes) : Tracker × Reply :=
  let t := t.count .udpAnnounces
  match Wire.AnnounceRequest.decode data with
  | .error _ => t.refuse transactionId .badAnnounce
  | .ok request =>
    if request.port = 0 then t.refuse request.transactionId .invalidPort
    else
      let a := announceOf source request
      let t := t.admit m a
      let counts := a.counts t.store
      (t, .announce
        { transactionId := request.transactionId
          interval := t.interval m
          leechers := cappedCount counts.incomplete
          seeders := cappedCount counts.complete
          peers := a.compactPeers t.store (t.wanted a.numwant) m.draws.picks })

/-- The counts of a swarm as a record. -/
def scrapeRecord (counts : SwarmCounts) : Wire.ScrapeRecord :=
  ⟨cappedCount counts.complete, cappedCount counts.incomplete, downloadsUnknown⟩

/-- Tell the counts of the swarms that a datagram asks for. -/
def scrape (t : Tracker) (transactionId : Int32) (data : Bytes) : Tracker × Reply :=
  let t := t.count .udpScrapes
  match Wire.ScrapeRequest.decode data with
  | .error _ => t.refuse transactionId .badScrape
  | .ok request =>
    if maxScrapeHashes < request.infoHashes.length then
      t.refuse request.transactionId .tooManyHashes
    else
      (t, .scrape
        { transactionId := request.transactionId
          records := request.infoHashes.map fun hash => scrapeRecord (t.store.counts hash) })

/-- Whether a request may go on with the connection id it carries. -/
def registered (t : Tracker) (source : SocketAddress) (connectionId : Int64) : Bool :=
  !t.config.udp.validateConnectionId || t.connections.valid source connectionId

/-- Answer a datagram. -/
def reply (t : Tracker) (m : Moment) (source : SocketAddress) (data : Bytes) :
    Tracker × Reply :=
  let t := t.count .udpHits
  match Wire.Header.peek data with
  | .error _ => (t.count .clientErrors, .tooShort)
  | .ok header =>
    match Wire.Action.ofNumber header.action with
    | .error _ => t.refuse header.transactionId .invalidAction
    | .ok action =>
      if Wire.maxRequestSize < data.length then
        t.refuse header.transactionId
          (if action = .scrape then .tooManyHashes else .tooLarge)
      else match action with
        | .heartbeat => (t.count .udpHeartbeats, .alive)
        | .connect => t.connect m source header.transactionId data
        | .error => t.refuse header.transactionId .invalidAction
        | .announce =>
          if t.registered source header.connectionId then
            t.announce m source header.transactionId data
          else t.refuse header.transactionId .unregistered
        | .scrape =>
          if t.registered source header.connectionId then
            t.scrape header.transactionId data
          else t.refuse header.transactionId .unregistered

/-- Answer a datagram with a datagram. -/
def process (t : Tracker) (m : Moment) (source : SocketAddress) (data : Bytes) :
    Tracker × Bytes :=
  let (t, r) := t.reply m source data
  (t, r.encode)

/-- What a datagram runs into. Only one that is admitted gets to where
words are added and subtracted. -/
def replyFault? (t : Tracker) (m : Moment) (source : SocketAddress) (data : Bytes) :
    Option Overflow :=
  match (t.reply m source data).2 with
  | .announce _ => match Wire.AnnounceRequest.decode data with
    | .ok request => (announceOf source request).fault? t m
    | .error _ => none
  | .scrape _ => match Wire.ScrapeRequest.decode data with
    | .ok request => request.infoHashes.findSome? t.store.countsFault?
    | .error _ => none
  | _ => none

/-- Answer a datagram, in either build. -/
def replyIn (build : Build) (t : Tracker) (m : Moment) (source : SocketAddress) (data : Bytes) :
    Except Overflow (Tracker × Reply) :=
  build.settle (t.replyFault? m source data) (t.reply m source data)

-- ============================================================== output

/-- What a client reads whose reply could not be written. -/
def unwritten : Bytes := utf8 "internal error"

/-- Write a reply into a buffer, in place of what is there. If writing it
fails, what was written is discarded and a fixed text takes its place, so
that the client gets a datagram all the same. -/
def writeReply (t : Tracker) (out : Buffer) (encode : Buffer → Except WriteError Buffer) :
    Tracker × Buffer :=
  match encode out.clear with
  | .ok out => (t, out)
  | .error _ => (t.count .internalErrors, out.clear.append unwritten)

/-- Answer a datagram into a buffer, whatever it holds. The two fixed
replies are copied, the others are encoded. -/
def answerInto (t : Tracker) (m : Moment) (source : SocketAddress) (data : Bytes)
    (out : Buffer) : Tracker × Buffer :=
  let out := out.clear
  let (t, r) := t.reply m source data
  match r with
  | .tooShort | .alive => (t, out.append r.encode)
  | r => t.writeReply out fun out => out.write r.encode

/-- Answer a datagram into a buffer, in either build. -/
def answerIntoIn (build : Build) (t : Tracker) (m : Moment) (source : SocketAddress)
    (data : Bytes) (out : Buffer) : Except Overflow (Tracker × Buffer) :=
  build.settle (t.replyFault? m source data) (t.answerInto m source data out)

/-- What a receive takes of a datagram: its first bytes, as many as fit. -/
def received (data : Bytes) : Bytes := data.take Wire.receiveSize

/-- Answer a datagram as it comes off a socket. -/
def serve (t : Tracker) (m : Moment) (source : SocketAddress) (datagram : Bytes)
    (out : Buffer) : Tracker × Buffer :=
  t.answerInto m source (received datagram) out

/-- Answer a datagram as it comes off a socket, in either build. -/
def serveIn (build : Build) (t : Tracker) (m : Moment) (source : SocketAddress)
    (datagram : Bytes) (out : Buffer) : Except Overflow (Tracker × Buffer) :=
  t.answerIntoIn build m source (received datagram) out

end Tracker

end TorrentTracker
