import TorrentTracker.Proofs.Connections
import TorrentTracker.Proofs.Store.Entry
import TorrentTracker.Proofs.Tracker.Reply
import TorrentTracker.Proofs.Tracker.Response

/-
What a request can change can be read off its answer.

A client that is refused, or that only asks for counts, has changed
nothing, and one that is admitted has changed one entry: a connect the
ticket of its own address, an announce the peer it names. `Confined` and
`ConfinedQuery` say so of the two transports, and they speak of the bytes
that go out. For a datagram these begin with the action of the reply
(`action?_of_take`). A failed query is a dictionary whose one key no other
reply begins with (`body_ne_reason`).

Nothing is asked of the tracker here: what one request changes does not
depend on the state it comes to.

# Main statement

- `confined_answers`: every datagram and every request is confined so.
-/

namespace TorrentTracker.Tracker

open Wire (Header Action)

variable {t : Tracker} {m : Moment} {source : SocketAddress} {data : Bytes}

-- ============================================================ datagrams

/-- What a datagram changes, by the reply to it. -/
structure Confined (t : Tracker) (source : SocketAddress) (data : Bytes) (t' : Tracker)
    (reply : Bytes) : Prop where
  kinds : reply = utf8 "nope" ∨ reply = utf8 "ok" ∨ ∃ n ≤ 3, reply.take 4 = [0, 0, 0, n]
  /-- After a fixed reply, a scrape reply or an error all is as it was. -/
  idle : reply = utf8 "nope" ∨ reply = utf8 "ok" ∨ reply.take 4 = [0, 0, 0, 2]
      ∨ reply.take 4 = [0, 0, 0, 3] →
    t'.store = t.store ∧ t'.connections = t.connections
  connected : reply.take 4 = [0, 0, 0, 0] →
    t'.store = t.store ∧ t'.connections.maxAge = t.connections.maxAge
      ∧ ∀ client, client ≠ source.client →
        t'.connections.tickets.get? client = t.connections.tickets.get? client
  announced : reply.take 4 = [0, 0, 0, 1] →
    t'.connections = t.connections ∧ ∃ request, Wire.AnnounceRequest.decode data = .ok request
      ∧ t.store.SameBut t'.store request.infoHash request.peerId

/-- The first bytes of a reply tell its kind: one of the two fixed texts, or
the number of an action. -/
theorem kind_encode (r : Reply) :
    r.encode = utf8 "nope" ∨ r.encode = utf8 "ok" ∨ ∃ n ≤ 3, r.encode.take 4 = [0, 0, 0, n] := by
  have hhead : ∀ {action : Action} {n : UInt8}, action? r = some action → n ≤ 3 →
      Word.write action.number = [0, 0, 0, n] → ∃ n ≤ 3, r.encode.take 4 = [0, 0, 0, n] :=
    fun hr hn hwrite => ⟨_, hn, (take_encode hr).trans hwrite⟩
  cases r with
  | tooShort => exact .inl rfl
  | alive => exact .inr (.inl rfl)
  | connect => exact .inr (.inr (hhead rfl (by decide : (0 : UInt8) ≤ 3) rfl))
  | announce => exact .inr (.inr (hhead rfl (by decide : (1 : UInt8) ≤ 3) rfl))
  | scrape => exact .inr (.inr (hhead rfl (by decide : (2 : UInt8) ≤ 3) rfl))
  | refused => exact .inr (.inr (hhead rfl (by decide : (3 : UInt8) ≤ 3) rfl))

/-- An answer that neither gives out a ticket nor takes a peer in may be
any but the two that say so. -/
theorem confined_of_unchanged {p : Tracker × Reply} (hstore : p.1.store = t.store)
    (hconnections : p.1.connections = t.connections) (hconnect : action? p.2 ≠ some .connect)
    (hannounce : action? p.2 ≠ some .announce) :
    Confined t source data p.1 p.2.encode where
  kinds := kind_encode p.2
  idle := fun _ => ⟨hstore, hconnections⟩
  connected := fun h => absurd (action?_of_take h) hconnect
  announced := fun h => absurd (action?_of_take h) hannounce

/-- A connect or an announce reply is none of those after which all is as
it was. -/
theorem not_idle {r : Reply} {action : Action} (hr : action? r = some action)
    (haction : action = .connect ∨ action = .announce) :
    ¬(r.encode = utf8 "nope" ∨ r.encode = utf8 "ok" ∨ r.encode.take 4 = [0, 0, 0, 2]
      ∨ r.encode.take 4 = [0, 0, 0, 3]) := by
  have htake := take_encode hr
  rintro (h | h | h | h) <;>
    (rw [h] at htake; revert htake; rcases haction with rfl | rfl <;> decide)

/-- Every way out changes what its reply says it changes, and no more. -/
theorem Answered.confined {p : Tracker × Reply} (h : Answered t m source data p) :
    Confined t source data p.1 p.2.encode := by
  cases h with
  | connected =>
      constructor
      case kinds => exact kind_encode _
      case idle => exact fun hidle => absurd hidle (not_idle rfl (.inl rfl))
      case connected =>
        refine fun _ => ⟨rfl, rfl, fun client hother => ?_⟩
        exact (Connections.get?_create _ _ _ _ _).trans (if_neg hother.symm)
      case announced => exact fun htake => absurd htake (take_encode_ne .announce rfl nofun)
  | @announced header request t' _ _ hdecode _ htracker =>
      subst htracker
      constructor
      case kinds => exact kind_encode _
      case idle => exact fun hidle => absurd hidle (not_idle rfl (.inr rfl))
      case connected => exact fun htake => absurd htake (take_encode_ne .connect rfl nofun)
      case announced =>
        exact fun _ => ⟨rfl, request, hdecode, (announceOf source request).sameBut_apply _ _⟩
  -- every other way out counts the request and does no more
  | _ => exact confined_of_unchanged rfl rfl nofun nofun

-- ============================================================== queries

/-- What a request over HTTP changes: the store, if the path is that of
announces and the answer is no failure, and there the peer that the query
names. -/
structure ConfinedQuery (t : Tracker) (r : Http.Request) (t' : Tracker)
    (answer : Http.Response) : Prop where
  connections : t'.connections = t.connections
  elsewhere : r.target.path ≠ utf8 "/announce" → t'.store = t.store
  failed : ∀ why, answer.body.render = (Http.Failure.reason why).encode → t'.store = t.store
  announced : t'.store = t.store ∨ ∃ query q, r.target.query = some query
    ∧ AnnounceQuery.parse query = .ok q ∧ t.store.SameBut t'.store q.infoHash q.peerId

/-- A request that changes neither the store nor the tickets is confined,
whatever it is answered. -/
theorem confinedQuery_of_unchanged {r : Http.Request} {t' : Tracker} {answer : Http.Response}
    (hstore : t'.store = t.store) (hconnections : t'.connections = t.connections) :
    ConfinedQuery t r t' answer where
  connections := hconnections
  elsewhere := fun _ => hstore
  failed := fun _ _ => hstore
  announced := .inl hstore

/-- The body of an announce reply is no failure: the first key of either is
not as long as that of the other. -/
theorem body_ne_reason (reply : AnnounceReply) (why : String) :
    reply.body ≠ (Http.Failure.reason why).encode := by
  have hshort : Decimal.ofNat (utf8 "complete").length = [56] := by decide
  have hlong : Decimal.ofNat (utf8 "failure reason").length = [49, 52] := by decide
  intro h
  simp [AnnounceReply.body, AnnounceReply.value, Http.Failure.reason, Bencode.encode,
    Bencode.encodeEntries, Bencode.encodeString, hshort, hlong] at h

/-- An announce that gets through changes the peer it names. A trimmed
answer is empty, which no failure is. -/
theorem Responded.confined {r : Http.Request} {p : Tracker × Http.Response}
    (h : Responded t m source r p) : ConfinedQuery t r p.1 p.2 := by
  cases h with
  | @announced text q t' hasks hquery hparse htracker =>
      subst htracker
      constructor
      case connections => rfl
      case elsewhere => exact fun hother => absurd hasks.path hother
      case failed =>
        intro why hwhy
        rcases body_trimmed r (.plain 200 (toldQuery _ m source q).body) with hfull | hempty
        · rw [hfull] at hwhy
          exact absurd hwhy (body_ne_reason _ why)
        · rw [hempty] at hwhy
          cases hwhy
      case announced => exact .inr ⟨text, q, hquery, hparse, (q.announce source).sameBut_apply _ _⟩
  | _ => exact confinedQuery_of_unchanged rfl rfl

/-- And the others are announces, which change one entry. -/
theorem confined_respond (t : Tracker) (m : Moment) (source : SocketAddress)
    (r : Http.Request) : ConfinedQuery t r (t.respond m source r).1 (t.respond m source r).2 :=
  (responded_respond t m source r).confined

/-- Whatever is answered with a failure, or with counts alone, has changed
nothing, and what gets through has changed one entry. -/
theorem confined_answers (t : Tracker) (m : Moment) (source : SocketAddress) :
    (∀ data, Confined t source data (t.process m source data).1 (t.process m source data).2)
      ∧ ∀ r, ConfinedQuery t r (t.respond m source r).1 (t.respond m source r).2 :=
  ⟨fun data => (answered_reply t m source data).confined, t.confined_respond m source⟩

end TorrentTracker.Tracker
