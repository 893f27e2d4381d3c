import TorrentTracker.Proofs.Query.Announce
import TorrentTracker.Proofs.Tracker.Announced
import TorrentTracker.Proofs.Tracker.Response

/-
Whichever way an announce comes in, it is the same announce.

A datagram and a query that carry the same fields make the same `Announce`
(`Matches.announce_eq`). What becomes of it, the swarm after it and what
its client is told, is decided in one place, so the stores are equal and
the two replies are filled from the same figures. They differ in form only:
the datagram's counts are signed words and stop at the largest, and the
query's peers stand under the key of their family.

Chance enters in two places. The interval has no jitter where none is set
(`interval_eq`), and a sample of peers is drawn only from a swarm that is
larger than what is wanted (`compactPeers_congr`).

# Main statement

- `transports_agree`: every announce has a datagram and a query, and both
  have one effect and one answer.
-/

namespace TorrentTracker.Tracker

variable {t : Tracker} {m m' : Moment} {source : SocketAddress} {data : Bytes}
  {request : Wire.AnnounceRequest} {q : AnnounceQuery}

-- ========================================================== same fields

/-- A query with the fields of an announce datagram. It says how many peers
are wanted, and asks for the compact form. -/
structure Matches (q : AnnounceQuery) (request : Wire.AnnounceRequest) : Prop where
  infoHash : q.infoHash = request.infoHash
  peerId : q.peerId = request.peerId
  port : q.port = request.port
  left : q.left = request.left
  event : q.event = request.event
  numwant : q.numwant = some request.numWant.toInt64
  compact : q.compact = true

theorem Matches.announce_eq (h : Matches q request) (source : SocketAddress) :
    q.announce source = announceOf source request := by
  unfold AnnounceQuery.announce announceOf
  rw [h.infoHash, h.peerId, h.port, h.left, h.event, h.numwant]

def queryOf (request : Wire.AnnounceRequest) : AnnounceQuery where
  infoHash := request.infoHash
  peerId := request.peerId
  port := request.port
  uploaded := request.uploaded
  downloaded := request.downloaded
  left := request.left
  event := request.event
  numwant := some request.numWant.toInt64
  compact := true
  noPeerId := false

/-- Every request has a query with the same fields. -/
theorem matches_queryOf (request : Wire.AnnounceRequest) : Matches (queryOf request) request :=
  ⟨rfl, rfl, rfl, rfl, rfl, rfl, rfl⟩

/-- The datagram of an announce is admitted if its port and its connection
id are. -/
theorem admitted_encode (hport : request.port ≠ 0)
    (hgate : t.config.udp.validateConnectionId = true →
      t.connections.valid source request.connectionId = true) :
    Admitted t source request.encode request where
  fits := by
    rw [request.length_encode]
    decide
  action := by
    unfold field
    rw [request.encode_eq, Wire.Header.take_drop_encode]
    show ofBigEndian (Word.write Wire.Action.announce.number) = 1
    decide
  gate := hgate
  decoded := request.decode_encode
  port := hport

-- ============================================================== answers

/-- Without fuzz the interval is the setting, whatever is drawn. -/
theorem interval_eq (h : t.config.tracker.announceFuzz ≤ 0) (m : Moment) :
    t.interval m = t.config.tracker.announceInterval := by
  unfold interval Config.Announce.jitteredInterval
  rw [if_neg (Int32.not_lt.mpr h)]

/-- A request for the path of announces with a query that can be read is
answered with a reply. -/
theorem respond_announce {query : Bytes} (hparse : AnnounceQuery.parse query = .ok q)
    (t : Tracker) (m : Moment) (source : SocketAddress) (headers : List (String × Bytes)) :
    t.respond m source ⟨"GET", ⟨utf8 "/announce", some query⟩, headers⟩
      = (((t.count .httpAnnounces).announceReply m source q).1,
        .plain 200 ((t.count .httpAnnounces).announceReply m source q).2.body) := by
  have hroute : Route.ofPath? (utf8 "/announce") = some .announce := by decide
  rw [respond_get hroute]
  unfold follow announceQuery
  dsimp only
  rw [hparse]
  rfl

/-- Both transports leave one store and tell one tale: the counts, where a
datagram has room for them, the interval, and the packed peers, which a
client finds under the key of its family. -/
structure Agree (source : SocketAddress) (datagram : Tracker × Bytes)
    (query : Tracker × Http.Response) : Prop where
  stores : query.1.store = datagram.1.store
  replies : ∃ (r : Wire.AnnounceResponse) (complete incomplete : UInt32),
    Wire.AnnounceResponse.decode datagram.2 = .ok r
      ∧ r.seeders.toInt = (min complete.toNat 2147483647 : Nat)
      ∧ r.leechers.toInt = (min incomplete.toNat 2147483647 : Nat)
      ∧ query.2 = .plain 200 (Bencode.encode (.dict (
        [ (utf8 "complete", .integer complete.toNat)
        , (utf8 "incomplete", .integer incomplete.toNat)
        , (utf8 "interval", .integer r.interval.toInt) ]
        ++ match source.ip.canonical.family with
          | .v4 => [(utf8 "peers", .string r.peers)]
          | .v6 => [(utf8 "peers", .string []), (utf8 "peers6", .string r.peers)])))

/-- The body of a reply with packed peers, written out as a dictionary. -/
theorem body_compact (complete incomplete : UInt32) (interval : Int32) (family : Family)
    (packed : Bytes) :
    AnnounceReply.body ⟨complete, incomplete, interval, .compact family packed⟩
      = Bencode.encode (.dict (
        [ (utf8 "complete", .integer complete.toNat)
        , (utf8 "incomplete", .integer incomplete.toNat)
        , (utf8 "interval", .integer interval.toInt) ]
        ++ match family with
          | .v4 => [(utf8 "peers", .string packed)]
          | .v6 => [(utf8 "peers", .string []), (utf8 "peers6", .string packed)])) := by
  cases family with
  | _ => rfl

/-- The reply to a matching query is filled from the store after the
announce that the datagram carries. -/
theorem announceReply_of_matches (hmatches : Matches q request) {after : Store}
    (hafter : (announceOf source request).apply t.store m.now = after) :
    ((t.count .httpAnnounces).announceReply m source q).1.store = after
      ∧ ((t.count .httpAnnounces).announceReply m source q).2
        = ⟨((announceOf source request).counts after).complete,
          ((announceOf source request).counts after).incomplete, t.interval m,
          .compact source.ip.canonical.family ((announceOf source request).compactPeers after
            (t.wanted (some request.numWant.toInt64)) m.draws.picks)⟩ := by
  subst hafter
  unfold announceReply
  rw [hmatches.announce_eq, hmatches.compact]
  exact ⟨rfl, rfl⟩

/-- One announce by two transports: the store, the counts, the interval and the
peers are those of the announce, and each reply is decoded on its own. -/
theorem agree_of_matches (hfuzz : t.config.tracker.announceFuzz ≤ 0) (hnow : m'.now = m.now)
    (hadmitted : Admitted t source data request) {query : Bytes}
    (hparse : AnnounceQuery.parse query = .ok q) (hmatches : Matches q request)
    (hpicks : wantedOf t.config request.numWant
        < ((t.process m source data).1.store.swarm request.infoHash).peers.size →
      m'.draws.picks = m.draws.picks) (headers : List (String × Bytes)) :
    Agree source (t.process m source data)
      (t.respond m' source ⟨"GET", ⟨utf8 "/announce", some query⟩, headers⟩) := by
  rw [process_eq, hadmitted.reply_eq m] at hpicks ⊢
  rw [respond_announce hparse]
  have hafter : (announceOf source request).apply t.store m'.now
      = (t.afterAnnounce m source request).store := by
    rw [hnow]
    rfl
  obtain ⟨hstore, hreply⟩ := announceReply_of_matches hmatches hafter
  constructor
  case stores => exact hstore
  case replies =>
    refine ⟨_, _, _, Wire.AnnounceResponse.decode_encode _, toInt_cappedCount _,
      toInt_cappedCount _, ?_⟩
    -- chance enters the interval and the sample, and has no say in either
    have hinterval : t.interval m' = (t.afterAnnounce m source request).interval m :=
      (interval_eq hfuzz m').trans (interval_eq hfuzz m).symm
    have hsampled : t.wanted (some request.numWant.toInt64)
          < ((t.afterAnnounce m source request).store.swarm request.infoHash).peers.size →
        m'.draws.picks = m.draws.picks := by
      rw [wanted_eq]
      exact hpicks
    have hpeers := Announce.compactPeers_congr (a := announceOf source request) hsampled
    rw [hreply, body_compact, hinterval, hpeers]
    rfl

/-- Every announce with a port and, where one is needed, a connection id
has a datagram that is admitted and a query that can be read; and whenever a
datagram and a query carry the same fields, and the same picks are drawn
where the swarm has to be sampled, they have the same effect and the same
answer. -/
theorem transports_agree (hfuzz : t.config.tracker.announceFuzz ≤ 0) (hnow : m'.now = m.now)
    (hport : request.port ≠ 0)
    (hgate : t.config.udp.validateConnectionId = true →
      t.connections.valid source request.connectionId = true) :
    Admitted t source request.encode request
      ∧ (∃ query q, AnnounceQuery.parse query = .ok q ∧ Matches q request)
      ∧ ∀ data query q headers, Admitted t source data request →
        AnnounceQuery.parse query = .ok q → Matches q request →
        (wantedOf t.config request.numWant
            < ((t.process m source data).1.store.swarm request.infoHash).peers.size →
          m'.draws.picks = m.draws.picks) →
        Agree source (t.process m source data)
          (t.respond m' source ⟨"GET", ⟨utf8 "/announce", some query⟩, headers⟩) := by
  refine ⟨admitted_encode hport hgate, ?_, ?_⟩
  · have hquery : (queryOf request).port ≠ 0 := hport
    exact ⟨_, _, AnnounceQuery.parse_write hquery, matches_queryOf request⟩
  · intro data query q headers hadmitted hparse hmatches hpicks
    exact agree_of_matches hfuzz hnow hadmitted hparse hmatches hpicks headers

/-- An IPv6 client with a connection id joins by either way. The two requests
come in one second and with draws of their own. -/
theorem transports_agree_joining :
    let source := SocketAddress.v6 (.replicate 16 1) 5000 0
    let t : Tracker := ⟨{ tracker := { announceFuzz := 0 } }, Store.empty,
      ((Connections.empty 120).create source 990 99).1, { startTime := 0 },
      { medium := .memory none, opened := true }⟩
    let request : Wire.AnnounceRequest :=
      ⟨99, 8, .replicate 20 1, .replicate 20 2, 0, 7, 0, .started, 0, 0, -1, 6881⟩
    (t.process ⟨1000, {}⟩ source request.encode).1.store.totalPeers = 1
      ∧ Agree source (t.process ⟨1000, {}⟩ source request.encode)
        (t.respond ⟨1000, { picks := [3] }⟩ source
          ⟨"GET", ⟨utf8 "/announce", some (queryOf request).write⟩, []⟩) := by
  intro source t request
  have hfuzz : t.config.tracker.announceFuzz ≤ 0 := by decide
  have hnow : (⟨1000, { picks := [3] }⟩ : Moment).now = (⟨1000, {}⟩ : Moment).now := rfl
  have hport : request.port ≠ 0 := by decide
  have hgate : t.config.udp.validateConnectionId = true →
      t.connections.valid source request.connectionId = true := fun _ => by decide
  obtain ⟨hadmitted, -, hagree⟩ := transports_agree hfuzz hnow hport hgate
  refine ⟨by decide, hagree _ _ _ [] hadmitted (AnnounceQuery.parse_write hport)
    (matches_queryOf request) ?_⟩
  intro hlarge
  exact absurd hlarge (by decide)

end TorrentTracker.Tracker
