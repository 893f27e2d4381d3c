import TorrentTracker.Proofs.Wire.Response
import TorrentTracker.Tracker.Datagram

/-
How a datagram is answered: one case for every way out of `reply`.

`reply` is a cascade of checks. `Answered` lists its exits, each with the
checks that lead to it, the tracker it leaves and the reply it gives, and
`answered_reply` says that the list is complete. What holds of all replies
is then a case analysis over the exits, and the cascade is opened once.

# Main statements

- `answered_reply`: every datagram is answered in one of these ways;
- `Answered.effect`: what an answer leaves of the store and the connection
  ids. Only an announce that gets through touches the one, and only a
  connect that gets through the other;
- `Reply.eq_connect_of_encode`, `Reply.eq_refused_of_encode`: the bytes of
  a connect reply, or of a refusal, are the bytes of no other reply.
-/

namespace TorrentTracker

open Wire (Header Action)

-- ============================================================= replies

/-- A head tells its action and its transaction. -/
theorem Wire.responseHead_inj {a b : Action} {tid tid' : Int32} {v w : Bytes}
    (h : responseHead a tid ++ v = responseHead b tid' ++ w) :
    a.number = b.number ∧ tid = tid' ∧ v = w := by
  unfold responseHead at h
  rw [List.append_assoc, List.append_assoc] at h
  obtain ⟨hnumber, hrest⟩ := Word.append_inj h
  obtain ⟨htid, hvw⟩ := Word.append_inj hrest
  exact ⟨hnumber, htid, hvw⟩

/-- Only a connect reply reads as one: the two bare texts are too short for it,
and every other reply has an action of its own in its first four bytes. -/
theorem Reply.eq_connect_of_encode {r : Reply} {c : Wire.ConnectResponse}
    (h : r.encode = c.encode) : r = .connect c := by
  cases r with
  | tooShort =>
      have hlen := congrArg List.length h
      rw [c.length_encode] at hlen
      cases hlen
  | alive =>
      have hlen := congrArg List.length h
      rw [c.length_encode] at hlen
      cases hlen
  | connect c' =>
      -- behind the action are the transaction and the id, each of a width
      obtain ⟨-, htid, hid⟩ := Wire.responseHead_inj h
      have hsame : c' = c := by
        cases c
        cases c'
        exact congr (congrArg _ htid) (Word.write_injective hid)
      rw [hsame]
  | announce r =>
      unfold encode Wire.AnnounceResponse.encode at h
      simp only [List.append_assoc] at h
      cases (Wire.responseHead_inj h).1
  | scrape r => cases (Wire.responseHead_inj h).1
  | refused tid why => cases (Wire.responseHead_inj h).1

/-- No two refusals read alike. -/
theorem Refusal.utf8_text_injective {a b : Refusal} (h : utf8 a.text = utf8 b.text) : a = b := by
  revert h
  cases a <;> cases b <;> decide

/-- Only a refusal reads as one, and only as itself, since no two refusals have
one text. -/
theorem Reply.eq_refused_of_encode {r : Reply} {tid : Int32} {why : Refusal}
    (h : r.encode = Wire.ErrorResponse.encode ⟨tid, utf8 why.text⟩) : r = .refused tid why := by
  have hlen : 8 ≤ (Wire.ErrorResponse.encode ⟨tid, utf8 why.text⟩).length := by
    rw [Wire.ErrorResponse.length_encode]
    exact Nat.le_add_right _ _
  cases r with
  | tooShort =>
      rw [← h] at hlen
      exact absurd hlen (by decide)
  | alive =>
      rw [← h] at hlen
      exact absurd hlen (by decide)
  | connect r => cases (Wire.responseHead_inj h).1
  | announce r =>
      unfold encode Wire.AnnounceResponse.encode at h
      simp only [List.append_assoc] at h
      cases (Wire.responseHead_inj h).1
  | scrape r => cases (Wire.responseHead_inj h).1
  | refused tid' why' =>
      obtain ⟨-, rfl, htext⟩ := Wire.responseHead_inj h
      rw [Refusal.utf8_text_injective htext]

namespace Tracker

variable {t : Tracker} {m : Moment} {source : SocketAddress} {data : Bytes}

-- =============================================================== exits

/-- A datagram with a header of a known action, and no longer than a
request can be. -/
structure Framed (data : Bytes) (header : Header) (action : Action) : Prop where
  peek : Header.peek data = .ok header
  known : Action.ofNumber header.action = .ok action
  fits : data.length ≤ Wire.maxRequestSize

/-- A datagram with a header's worth of bytes, an action by its number and
no more bytes than a request can have is framed. -/
theorem exists_framed {data : Bytes} {action : Action} (hlong : Wire.headerSize ≤ data.length)
    (hshort : data.length ≤ Wire.maxRequestSize)
    (haction : (data.drop 8).take 4 = Word.write action.number) :
    ∃ header, Framed data header action ∧ data.take 8 = Word.write header.connectionId := by
  obtain ⟨header, rest, rfl⟩ := Header.exists_encode hlong
  rw [Header.take_drop_encode] at haction
  refine ⟨header, ⟨header.peek_encode rest, ?_, hshort⟩, header.take_encode rest⟩
  rw [Word.write_injective haction]
  exact action.ofNumber_number

/-- What the source of an announce is told, of the tracker after it. -/
def told (t : Tracker) (m : Moment) (source : SocketAddress) (r : Wire.AnnounceRequest) :
    Wire.AnnounceResponse :=
  let a := announceOf source r
  { transactionId := r.transactionId
    interval := t.interval m
    leechers := cappedCount (a.counts t.store).incomplete
    seeders := cappedCount (a.counts t.store).complete
    peers := a.compactPeers t.store (t.wanted a.numwant) m.draws.picks }

/-- The ways a datagram is answered. -/
inductive Answered (t : Tracker) (m : Moment) (source : SocketAddress) (data : Bytes) :
    Tracker × Reply → Prop where
  | tooShort {e : Wire.Error} (hpeek : Header.peek data = .error e) :
      Answered t m source data ((t.count .udpHits).count .clientErrors, .tooShort)
  | unknown {header : Header} {e : Wire.Error} (hpeek : Header.peek data = .ok header)
      (hunknown : Action.ofNumber header.action = .error e) :
      Answered t m source data
        ((t.count .udpHits).refuse header.transactionId .invalidAction)
  | oversized {header : Header} {action : Action} (hpeek : Header.peek data = .ok header)
      (hknown : Action.ofNumber header.action = .ok action)
      (hsize : Wire.maxRequestSize < data.length) :
      Answered t m source data
        ((t.count .udpHits).refuse header.transactionId
          (if action = .scrape then .tooManyHashes else .tooLarge))
  | heartbeat {header : Header} (h : Framed data header .heartbeat) :
      Answered t m source data ((t.count .udpHits).count .udpHeartbeats, .alive)
  | errorAction {header : Header} (h : Framed data header .error) :
      Answered t m source data
        ((t.count .udpHits).refuse header.transactionId .invalidAction)
  | badConnect {header : Header} {e : Wire.Error} (h : Framed data header .connect)
      (hdecode : Wire.ConnectRequest.decode data = .error e) :
      Answered t m source data
        (((t.count .udpHits).count .udpConnects).refuse header.transactionId .badConnect)
  | connected {header : Header} {request : Wire.ConnectRequest}
      (h : Framed data header .connect)
      (hdecode : Wire.ConnectRequest.decode data = .ok request) :
      Answered t m source data
        ({ (t.count .udpHits).count .udpConnects with
            connections := (t.connections.create source m.now m.draws.connection).1 },
          .connect ⟨request.transactionId, Connections.drawId m.draws.connection⟩)
  | unregistered {header : Header} {action : Action} (h : Framed data header action)
      (haction : action = .announce ∨ action = .scrape)
      (hregistered : t.registered source header.connectionId = false) :
      Answered t m source data
        ((t.count .udpHits).refuse header.transactionId .unregistered)
  | badAnnounce {header : Header} {e : Wire.Error} (h : Framed data header .announce)
      (hregistered : t.registered source header.connectionId = true)
      (hdecode : Wire.AnnounceRequest.decode data = .error e) :
      Answered t m source data
        (((t.count .udpHits).count .udpAnnounces).refuse header.transactionId .badAnnounce)
  | zeroPort {header : Header} {request : Wire.AnnounceRequest}
      (h : Framed data header .announce)
      (hregistered : t.registered source header.connectionId = true)
      (hdecode : Wire.AnnounceRequest.decode data = .ok request) (hport : request.port = 0) :
      Answered t m source data
        (((t.count .udpHits).count .udpAnnounces).refuse request.transactionId .invalidPort)
  | announced {header : Header} {request : Wire.AnnounceRequest} {t' : Tracker}
      (h : Framed data header .announce)
      (hregistered : t.registered source header.connectionId = true)
      (hdecode : Wire.AnnounceRequest.decode data = .ok request) (hport : request.port ≠ 0)
      (htracker : Tracker.admit ((t.count .udpHits).count .udpAnnounces) m
        (announceOf source request) = t') :
      Answered t m source data (t', .announce (told t' m source request))
  | badScrape {header : Header} {e : Wire.Error} (h : Framed data header .scrape)
      (hregistered : t.registered source header.connectionId = true)
      (hdecode : Wire.ScrapeRequest.decode data = .error e) :
      Answered t m source data
        (((t.count .udpHits).count .udpScrapes).refuse header.transactionId .badScrape)
  | tooManyHashes {header : Header} {request : Wire.ScrapeRequest}
      (h : Framed data header .scrape)
      (hregistered : t.registered source header.connectionId = true)
      (hdecode : Wire.ScrapeRequest.decode data = .ok request)
      (hmany : maxScrapeHashes < request.infoHashes.length) :
      Answered t m source data
        (((t.count .udpHits).count .udpScrapes).refuse request.transactionId .tooManyHashes)
  | scraped {header : Header} {request : Wire.ScrapeRequest}
      (h : Framed data header .scrape)
      (hregistered : t.registered source header.connectionId = true)
      (hdecode : Wire.ScrapeRequest.decode data = .ok request)
      (hfew : request.infoHashes.length ≤ maxScrapeHashes) :
      Answered t m source data
        ((t.count .udpHits).count .udpScrapes,
          .scrape ⟨request.transactionId,
            request.infoHashes.map fun hash => scrapeRecord (t.store.counts hash)⟩)

theorem answered_connect {header : Header} (h : Framed data header .connect) :
    Answered t m source data
      ((t.count .udpHits).connect m source header.transactionId data) := by
  unfold connect
  cases hdecode : Wire.ConnectRequest.decode data with
  | error e => exact .badConnect h hdecode
  | ok request => exact .connected h hdecode

/-- The three ends of an announce that got past the gate: it cannot be read,
its port is zero, or it is answered. -/
theorem answered_announce {header : Header} (h : Framed data header .announce)
    (hregistered : t.registered source header.connectionId = true) :
    Answered t m source data
      ((t.count .udpHits).announce m source header.transactionId data) := by
  unfold announce
  cases hdecode : Wire.AnnounceRequest.decode data with
  | error e => exact .badAnnounce h hregistered hdecode
  | ok request =>
      by_cases hport : request.port = 0
      · simp only [hport, if_true]
        exact .zeroPort h hregistered hdecode hport
      · simp only [hport, if_false]
        exact .announced h hregistered hdecode hport rfl

/-- The three ends of a scrape that got past the gate: it cannot be read, it
has too many hashes, or it is answered. -/
theorem answered_scrape {header : Header} (h : Framed data header .scrape)
    (hregistered : t.registered source header.connectionId = true) :
    Answered t m source data
      ((t.count .udpHits).scrape header.transactionId data) := by
  unfold scrape
  cases hdecode : Wire.ScrapeRequest.decode data with
  | error e => exact .badScrape h hregistered hdecode
  | ok request =>
      by_cases hmany : maxScrapeHashes < request.infoHashes.length
      · simp only [hmany, if_true]
        exact .tooManyHashes h hregistered hdecode hmany
      · simp only [hmany, if_false]
        exact .scraped h hregistered hdecode (Nat.le_of_not_lt hmany)

/-- Every datagram is answered in one of these ways. The cases are those of the
handler in its order: the header, the action, the size, the connection, the
body. -/
theorem answered_reply (t : Tracker) (m : Moment) (source : SocketAddress) (data : Bytes) :
    Answered t m source data (t.reply m source data) := by
  unfold reply
  cases hpeek : Header.peek data with
  | error e => exact .tooShort hpeek
  | ok header =>
      dsimp only
      cases hknown : Action.ofNumber header.action with
      | error e => exact .unknown hpeek hknown
      | ok action =>
          by_cases hsize : Wire.maxRequestSize < data.length
          · simp only [hsize, if_true]
            exact .oversized hpeek hknown hsize
          · have hframed : Framed data header action := ⟨hpeek, hknown, Nat.le_of_not_lt hsize⟩
            simp only [hsize, if_false]
            cases action with
            | heartbeat => exact .heartbeat hframed
            | error => exact .errorAction hframed
            | connect => exact answered_connect hframed
            | announce =>
                cases hregistered : (t.count .udpHits).registered source header.connectionId with
                | false => exact .unregistered hframed (.inl rfl) hregistered
                | true => exact answered_announce hframed hregistered
            | scrape =>
                cases hregistered : (t.count .udpHits).registered source header.connectionId with
                | false => exact .unregistered hframed (.inr rfl) hregistered
                | true => exact answered_scrape hframed hregistered

theorem process_eq (t : Tracker) (m : Moment) (source : SocketAddress) (data : Bytes) :
    t.process m source data = ((t.reply m source data).1, (t.reply m source data).2.encode) :=
  rfl

-- =============================================================== gates

/-- An announce that is framed comes to the gate, and past it if its id is in
force. -/
theorem Framed.reply_announce {header : Header} (h : Framed data header .announce) :
    t.reply m source data = if t.registered source header.connectionId then
        (t.count .udpHits).announce m source header.transactionId data
      else (t.count .udpHits).refuse header.transactionId .unregistered := by
  unfold reply
  rw [h.peek]
  dsimp only
  rw [h.known]
  exact if_neg (Nat.not_lt.mpr h.fits)

theorem Framed.reply_scrape {header : Header} (h : Framed data header .scrape) :
    t.reply m source data = if t.registered source header.connectionId then
        (t.count .udpHits).scrape header.transactionId data
      else (t.count .udpHits).refuse header.transactionId .unregistered := by
  unfold reply
  rw [h.peek]
  dsimp only
  rw [h.known]
  exact if_neg (Nat.not_lt.mpr h.fits)

/-- An announce or a scrape with an id that is not in force gets nowhere: it is
refused before its body is read. -/
theorem reply_of_unregistered {header : Header} {action : Action} (h : Framed data header action)
    (haction : action = .announce ∨ action = .scrape)
    (hregistered : t.registered source header.connectionId = false) :
    t.reply m source data = (t.count .udpHits).refuse header.transactionId .unregistered := by
  rcases haction with rfl | rfl
  · rw [h.reply_announce, hregistered]
    rfl
  · rw [h.reply_scrape, hregistered]
    rfl

/-- Who is told that an id is unregistered sent an announce or a scrape
with one that is not in force. -/
theorem Answered.exists_unregistered {p : Tracker × Reply} {tid : Int32}
    (h : Answered t m source data p) (hreply : p.2 = .refused tid .unregistered) :
    ∃ header action, Framed data header action
      ∧ t.registered source header.connectionId = false := by
  cases h with
  | unregistered hframed _ hregistered => exact ⟨_, _, hframed, hregistered⟩
  | @oversized header action =>
      have hwhy := (Reply.refused.inj hreply).2
      split at hwhy
      · cases hwhy
      · cases hwhy
  | _ => cases hreply

-- ============================================================= effects

/-- No datagram changes the settings. -/
theorem Answered.config {p : Tracker × Reply} (h : Answered t m source data p) :
    p.1.config = t.config := by
  cases h with
  | announced _ _ _ _ htracker =>
      subst htracker
      rfl
  | _ => rfl

theorem Answered.backup {p : Tracker × Reply} (h : Answered t m source data p) :
    p.1.backup = t.backup := by
  cases h with
  | announced _ _ _ _ htracker =>
      subst htracker
      rfl
  | _ => rfl

/-- What an answer leaves of the store and the connection ids: all, or a
ticket more, or a store after an announce. -/
inductive Effect (t : Tracker) (m : Moment) (source : SocketAddress) (data : Bytes) :
    Tracker × Reply → Prop where
  | none {p : Tracker × Reply} (hconnections : p.1.connections = t.connections)
      (hstore : p.1.store = t.store) (hconnect : ∀ r, p.2 ≠ .connect r)
      (hannounce : ∀ r, p.2 ≠ .announce r) : Effect t m source data p
  | connected {p : Tracker × Reply} {tid : Int32}
      (hconnections : p.1.connections = (t.connections.create source m.now m.draws.connection).1)
      (hstore : p.1.store = t.store)
      (hreply : p.2 = .connect ⟨tid, Connections.drawId m.draws.connection⟩) :
      Effect t m source data p
  | announced {p : Tracker × Reply} {header : Header} {request : Wire.AnnounceRequest}
      (hregistered : t.registered source header.connectionId = true)
      (hconnections : p.1.connections = t.connections)
      (hstore : p.1.store = (announceOf source request).apply t.store m.now)
      (hreply : p.2 = .announce (told p.1 m source request)) : Effect t m source data p

/-- Every way out has one of the three effects; what it counts does not matter
here. -/
theorem Answered.effect {p : Tracker × Reply} (h : Answered t m source data p) :
    Effect t m source data p := by
  cases h with
  | connected => exact .connected rfl rfl rfl
  | announced _ hregistered _ _ htracker =>
      subst htracker
      exact .announced hregistered rfl rfl rfl
  | _ => exact .none rfl rfl nofun nofun

end Tracker

end TorrentTracker
