import TorrentTracker.Http.AnnounceReply
import TorrentTracker.Http.Failure
import TorrentTracker.Http.ScrapeReply
import TorrentTracker.Query.Announce
import TorrentTracker.Query.Scrape
import TorrentTracker.Tracker.Announce

/-
The query transport: announces and scrapes over HTTP, and two pages for
whoever runs the tracker.

A path is matched as it stands in the target, letter for letter. A known
path answers `GET`, and `HEAD` in the same way but for the content; an
unknown one answers anything.
-/

namespace TorrentTracker

open Http

-- ============================================================ announce

/-- The announce that a query spells, from the canonical address of its
source. -/
def AnnounceQuery.announce (q : AnnounceQuery) (source : SocketAddress) : Announce where
  infoHash := q.infoHash
  peerId := q.peerId
  ip := source.client.ip
  port := q.port
  left := q.left
  event := q.event
  numwant := q.numwant

namespace Tracker

/-- Count a failed request and answer it. -/
def fail {α : Type} (t : Tracker) (f : Failure) : Tracker × Except Failure α :=
  (t.count .httpFailures, .error f)

/-- Take in the announce of a query and tell the source about its
swarm. -/
def announceReply (t : Tracker) (m : Moment) (source : SocketAddress) (q : AnnounceQuery) :
    Tracker × AnnounceReply :=
  let a := q.announce source
  let t := t.admit m a
  let counts := a.counts t.store
  let wanted := t.wanted a.numwant
  let peers :=
    if q.compact then
      PeerList.compact a.family (a.compactPeers t.store wanted m.draws.picks)
    else PeerList.dicts (!q.noPeerId) (a.otherPeers t.store wanted m.draws.picks)
  (t, ⟨counts.complete, counts.incomplete, t.interval m, peers⟩)

/-- Answer the query of an announce. -/
def announceQuery (t : Tracker) (m : Moment) (source : SocketAddress) (query : Option Bytes) :
    Tracker × Except Failure AnnounceReply :=
  match query with
  | none => t.fail .browserAccess
  | some query =>
    match AnnounceQuery.parse query with
    | .error cause => t.fail (.invalid cause)
    | .ok q =>
      let (t, reply) := (t.count .httpAnnounces).announceReply m source q
      (t, .ok reply)

/-- What the query of an announce runs into, once it is parsed. -/
def announceQueryFault? (t : Tracker) (m : Moment) (source : SocketAddress)
    (query : Option Bytes) : Option Overflow :=
  (query.bind fun text => (AnnounceQuery.parse text).toOption).bind fun q =>
    (q.announce source).fault? t m

/-- Answer the query of an announce, in either build. -/
def announceQueryIn (build : Build) (t : Tracker) (m : Moment) (source : SocketAddress)
    (query : Option Bytes) : Except Overflow (Tracker × Except Failure AnnounceReply) :=
  build.settle (t.announceQueryFault? m source query) (t.announceQuery m source query)

-- ============================================================== scrape

/-- The counts of a swarm for a scrape. -/
def fileCounts (t : Tracker) (hash : InfoHash) : FileCounts :=
  let counts := t.store.counts hash
  ⟨hash, counts.complete, counts.incomplete⟩

/-- Answer the query of a scrape; a target without a query has an empty
one. -/
def scrapeQuery (t : Tracker) (query : Option Bytes) : Tracker × Except Failure ScrapeReply :=
  match ScrapeQuery.parse (query.getD []) with
  | .error cause => t.fail (.invalid cause)
  | .ok hashes =>
    let t := t.count .httpScrapes
    (t, .ok ⟨hashes.map t.fileCounts⟩)

/-- What the query of a scrape runs into, once it is parsed. -/
def scrapeQueryFault? (t : Tracker) (query : Option Bytes) : Option Overflow :=
  (ScrapeQuery.parse (query.getD [])).toOption.bind fun hashes =>
    hashes.findSome? t.store.countsFault?

-- =============================================================== pages

/-- Whether the tracker is up, and how large its stores are. -/
def health (t : Tracker) (now : Seconds) : List (String × Scalar) :=
  [ ("status", .word "ok")
  , ("timestamp", .integer now.toInt)
  , ("udp_enabled", .boolean t.config.udp.enabled)
  , ("http_enabled", .boolean t.config.http.enabled)
  , ("swarms", .integer t.store.activeSwarms)
  , ("peers", .integer t.store.totalPeers)
  , ("connections", .integer t.connections.size) ]

end Tracker

/-- The figures under the names they are shown by. -/
def Figures.fields (f : Figures) : List (String × Scalar) :=
  Counter.all.map (fun c => (c.name, .integer (f.metrics.get c).toNat))
    ++ [ ("peers", .integer f.peers)
       , ("seeders", .integer f.seeders)
       , ("leechers", .integer f.leechers)
       , ("swarms", .integer f.swarms)
       , ("connections", .integer f.connections)
       , ("uptime_seconds", .integer f.uptime.toInt)
       , ("requests_per_second", .real f.requestsPerSecond) ]

-- ============================================================ fallback

/-- What the name of a browser has in it. -/
def browserMarks : List String := ["Mozilla", "Chrome", "Safari", "Firefox", "Edge"]

/-- Whether a byte string stands somewhere in another. -/
def occursIn (part : Bytes) : Bytes → Bool
  | [] => part.isEmpty
  | b :: rest => part.isPrefixOf (b :: rest) || occursIn part rest

/-- Printable ASCII or a tab: what the value of a header may be read as
text with. -/
def isHeaderText (b : UInt8) : Bool := (32 ≤ b && b < 127) || b = 9

/-- Whether a request looks like one from a browser. A name that is not
plain text counts as none. -/
def Http.Request.fromBrowser (r : Request) : Bool :=
  let name := ((r.header? "user-agent").filter fun v => v.all isHeaderText).getD []
  browserMarks.any fun mark => occursIn (utf8 mark) name

/-- The answer on a path that leads nowhere. -/
def strayResponse (r : Request) : Response :=
  if r.fromBrowser then
    ⟨404, some "text/html; charset=utf-8",
      .bytes (utf8 "Nothing to see here. Lost in the void!")⟩
  else
    .plain 404 (Failure.reason "invalid endpoint, use /announce or /scrape instead").encode

-- ============================================================= routing

/-- The paths that lead somewhere. -/
inductive Route where
  | announce
  | scrape
  | health
  | stats
deriving DecidableEq

/-- The path of a route. -/
def Route.path : Route → String
  | announce => "/announce"
  | scrape => "/scrape"
  | health => "/health"
  | stats => "/stats"

/-- The route of a path. -/
def Route.ofPath? (path : Bytes) : Option Route :=
  [announce, scrape, health, stats].find? fun r => utf8 r.path = path

/-- The response to a request that was answered or failed. -/
def outcomeResponse {α : Type} (body : α → Bytes) : Except Failure α → Response
  | .ok reply => .plain 200 (body reply)
  | .error f => f.response

namespace Tracker

/-- Follow a route. -/
def follow (t : Tracker) (m : Moment) (source : SocketAddress) (query : Option Bytes) :
    Route → Tracker × Response
  | .announce =>
    let (t, outcome) := t.announceQuery m source query
    (t, outcomeResponse AnnounceReply.body outcome)
  | .scrape =>
    let (t, outcome) := t.scrapeQuery query
    (t, outcomeResponse ScrapeReply.body outcome)
  | .health => (t, .json (t.health m.now))
  | .stats => (t, .json (t.figures m.now).fields)

/-- What a route runs into. -/
def followFault? (t : Tracker) (m : Moment) (source : SocketAddress) (query : Option Bytes) :
    Route → Option Overflow
  | .announce => t.announceQueryFault? m source query
  | .scrape => t.scrapeQueryFault? query
  | .health => none
  | .stats => t.metrics.figuresFault? m.now

/-- Answer a request. -/
def respond (t : Tracker) (m : Moment) (source : SocketAddress) (r : Request) :
    Tracker × Response :=
  let trimmed (answer : Response) : Response :=
    if r.method = "HEAD" then answer.withoutBody else answer
  match Route.ofPath? r.target.path with
  | some route =>
    if r.method = "GET" || r.method = "HEAD" then
      let (t, answer) := t.follow m source r.target.query route
      (t, trimmed answer)
    else (t, ⟨405, none, .bytes []⟩)
  | none => (t, trimmed (strayResponse r))

/-- What a request runs into. Only one that is routed does anything. -/
def respondFault? (t : Tracker) (m : Moment) (source : SocketAddress) (r : Request) :
    Option Overflow :=
  (Route.ofPath? r.target.path).bind fun route =>
    if r.method = "GET" || r.method = "HEAD" then
      t.followFault? m source r.target.query route
    else none

/-- Answer a request, in either build. -/
def respondIn (build : Build) (t : Tracker) (m : Moment) (source : SocketAddress)
    (r : Request) : Except Overflow (Tracker × Response) :=
  build.settle (t.respondFault? m source r) (t.respond m source r)

end Tracker

end TorrentTracker
