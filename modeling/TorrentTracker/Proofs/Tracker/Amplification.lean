import TorrentTracker.Proofs.Announce
import TorrentTracker.Proofs.Config
import TorrentTracker.Proofs.Connections
import TorrentTracker.Proofs.Tracker.Reply

/-
How long a reply can be.

The source of a datagram can be forged, and then the reply goes to someone
who did not ask for it. So what is sent to a source that has not proved
itself is short, a connect reply is as long as the least connect request,
and a scrape reply has twelve bytes for every twenty of the request. Only
an announce reply can be longer than what it answers, by the width of a
peer for each that is wanted, and how many are wanted is not for the client
to say: with valid settings there is a ceiling (`clampNumwant_le`).

# Main statement

- `bounded_replies`: these bounds hold of the reply to every datagram.
-/

namespace TorrentTracker

-- ============================================================== lengths

/-- The packed peers a client is told are no more than wanted, each in as many
bytes as its family takes. -/
theorem Announce.length_compactPeers_le (a : Announce) (store : Store) (wanted : Nat)
    (picks : List Nat) :
    (a.compactPeers store wanted picks).length ≤ wanted * a.family.compactWidth := by
  by_cases hevent : a.event = .stopped
  · rw [compactPeers_of_stopped hevent]
    exact Nat.zero_le _
  · obtain ⟨entries, hpacked, hwidth, -, hcount⟩ := exists_entries hevent store wanted picks
    have hlen : (entries.flatMap id).length = entries.length * a.family.compactWidth :=
      Reader.length_flatMap hwidth
    rw [hpacked, ← List.flatMap_id, hlen]
    apply Nat.mul_le_mul_right
    omega

theorem Reply.length_refused_le (transactionId : Int32) (why : Refusal) :
    (refused transactionId why).encode.length ≤ 34 := by
  have htext : (utf8 why.text).length ≤ 26 := by cases why <;> decide
  have hlen : (refused transactionId why).encode.length = 8 + (utf8 why.text).length :=
    Wire.ErrorResponse.length_encode _
  omega

namespace Tracker

open Wire (Header Action)

variable {t : Tracker} {m : Moment} {source : SocketAddress} {data : Bytes} {header : Header}
  {action : Action}

/-- What bounds the reply to a datagram. -/
structure Bounded (t : Tracker) (source : SocketAddress) (data reply : Bytes) : Prop where
  /-- While ids are checked, more goes only to who begins an announce or a
  scrape with its own. -/
  unverified : t.config.udp.validateConnectionId = true → 34 < reply.length →
    (field data 8 4 = 1 ∨ field data 8 4 = 2)
      ∧ ∃ ticket, t.connections.tickets.get? source.client = some ticket
        ∧ data.take 8 = Word.write ticket.id
  connect : reply.take 4 = [0, 0, 0, 0] → reply.length ≤ data.length
  scrape : reply.take 4 = [0, 0, 0, 2] → reply.length < data.length
  announce : t.config.validate = .ok () → reply.take 4 = [0, 0, 0, 1] →
    reply.length ≤ 20 + 18 * t.config.tracker.maxNumwant.toNat
      ∧ (source.ip.canonical.family = .v4 →
        reply.length ≤ 20 + 6 * t.config.tracker.maxNumwant.toNat)

/-- A datagram that gets past the check begins with the id on the ticket of its
source, in its first eight bytes. -/
theorem Framed.exists_ticket (h : Framed data header action)
    (hgate : t.config.udp.validateConnectionId = true)
    (hregistered : t.registered source header.connectionId = true) :
    ∃ ticket, t.connections.tickets.get? source.client = some ticket
      ∧ data.take 8 = Word.write ticket.id := by
  have hvalid : t.connections.valid source header.connectionId = true := by
    simpa [registered, hgate] using hregistered
  obtain ⟨ticket, hticket, hid⟩ := Connections.valid_iff.mp hvalid
  obtain ⟨hlen, rfl⟩ := peek_eq_ok h.peek
  have hwidth : Word.width Int64 ≤ data.length := Nat.le_trans (by decide) hlen
  exact ⟨ticket, hticket, (Word.front_eq_iff hwidth).mp hid.symm⟩

/-- A refusal or a fixed reply is bounded by its length alone: the longest of
their texts comes to 34 bytes with its head. -/
theorem bounded_of_short {r : Reply} (hlen : r.encode.length ≤ 34)
    (hconnect : action? r ≠ some .connect) (hannounce : action? r ≠ some .announce)
    (hscrape : action? r ≠ some .scrape) : Bounded t source data r.encode where
  unverified := fun _ hlong => absurd hlen (Nat.not_le.mpr hlong)
  connect := fun htake => absurd (action?_of_take htake) hconnect
  scrape := fun htake => absurd (action?_of_take htake) hscrape
  announce := fun _ htake => absurd (action?_of_take htake) hannounce

/-- The reply to a connect is as long as the shortest request, so nobody gets
more out of it than was sent. -/
theorem bounded_connected (h : Framed data header .connect) (r : Wire.ConnectResponse) :
    Bounded t source data (Reply.connect r).encode := by
  obtain ⟨hlen, -⟩ := peek_eq_ok h.peek
  have hreply : (Reply.connect r).encode.length = 16 := r.length_encode
  constructor
  case unverified =>
    intro _ hlong
    omega
  case connect => exact fun _ => Nat.le_trans (Nat.le_of_eq hreply) hlen
  case scrape => exact fun htake => absurd htake (take_encode_ne .scrape rfl nofun)
  case announce => exact fun _ htake => absurd htake (take_encode_ne .announce rfl nofun)

/-- The reply to an announce has the peers it may have, and goes to a source
with an id in force. -/
theorem bounded_told {t' : Tracker} {request : Wire.AnnounceRequest}
    (h : Framed data header .announce)
    (hregistered : t.registered source header.connectionId = true)
    (hconfig : t'.config = t.config) :
    Bounded t source data (Reply.announce (t'.told m source request)).encode := by
  constructor
  case unverified =>
    intro hgate _
    exact ⟨.inl h.field_eq, h.exists_ticket hgate hregistered⟩
  case connect => exact fun htake => absurd htake (take_encode_ne .connect rfl nofun)
  case scrape => exact fun htake => absurd htake (take_encode_ne .scrape rfl nofun)
  case announce =>
    intro hvalid _
    have hlen : (Reply.announce (t'.told m source request)).encode.length
        = 20 + (t'.told m source request).peers.length := Wire.AnnounceResponse.length_encode _
    have hpeers : (t'.told m source request).peers.length
        ≤ t'.wanted (some request.numWant.toInt64) * source.ip.canonical.family.compactWidth :=
      (announceOf source request).length_compactPeers_le _ _ _
    have hwanted : t'.wanted (some request.numWant.toInt64)
        ≤ t.config.tracker.maxNumwant.toNat := by
      unfold wanted
      rw [hconfig]
      exact Config.clampNumwant_le hvalid _
    -- the width of a packed peer is all that the family decides
    rw [hlen]
    cases hfamily : source.ip.canonical.family with
    | v4 =>
        rw [hfamily] at hpeers
        have hwidth : Family.v4.compactWidth = 6 := rfl
        rw [hwidth] at hpeers
        constructor
        · omega
        · intro _
          omega
    | v6 =>
        rw [hfamily] at hpeers
        have hwidth : Family.v6.compactWidth = 18 := rfl
        rw [hwidth] at hpeers
        exact ⟨by omega, nofun⟩

/-- The reply to a scrape has twelve bytes for every twenty of the request, and
a shorter head. -/
theorem bounded_scraped {request : Wire.ScrapeRequest} (h : Framed data header .scrape)
    (hregistered : t.registered source header.connectionId = true)
    (hdecode : Wire.ScrapeRequest.decode data = .ok request) (transactionId : Int32)
    (record : InfoHash → Wire.ScrapeRecord) :
    Bounded t source data
      (Reply.scrape ⟨transactionId, request.infoHashes.map record⟩).encode := by
  obtain ⟨hlen, -⟩ := peek_eq_ok h.peek
  obtain ⟨-, hcount, -⟩ := good_of_scrape_decode hdecode
  have hreply : (Reply.scrape ⟨transactionId, request.infoHashes.map record⟩).encode.length
      = 8 + (data.length - 16) / 20 * 12 := by
    refine (Wire.ScrapeResponse.length_encode _).trans ?_
    dsimp only
    rw [List.length_map, hcount]
  constructor
  case unverified =>
    intro hgate _
    exact ⟨.inr h.field_eq, h.exists_ticket hgate hregistered⟩
  case connect => exact fun htake => absurd htake (take_encode_ne .connect rfl nofun)
  case scrape =>
    intro _
    rw [hreply]
    omega
  case announce => exact fun _ htake => absurd htake (take_encode_ne .announce rfl nofun)

theorem Answered.bounded {p : Tracker × Reply} (h : Answered t m source data p) :
    Bounded t source data p.2.encode := by
  cases h with
  | tooShort =>
      exact bounded_of_short (show Reply.tooShort.encode.length ≤ 34 by decide) nofun nofun nofun
  | heartbeat =>
      exact bounded_of_short (show Reply.alive.encode.length ≤ 34 by decide) nofun nofun nofun
  | connected h => exact bounded_connected h _
  | announced h hregistered _ _ htracker =>
      subst htracker
      exact bounded_told h hregistered rfl
  | scraped h hregistered hdecode => exact bounded_scraped h hregistered hdecode _ _
  | _ => exact bounded_of_short (Reply.length_refused_le _ _) nofun nofun nofun

/-- Nobody can have the tracker send much to a source that did not ask, and
what a source that did gets is bounded by its request or by the
settings. -/
theorem bounded_replies (t : Tracker) (m : Moment) (source : SocketAddress) (data : Bytes) :
    Bounded t source data (t.process m source data).2 :=
  (answered_reply t m source data).bounded

end Tracker

end TorrentTracker
