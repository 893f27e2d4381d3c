import TorrentTracker.Proofs.Config
import TorrentTracker.Proofs.Tracker.Reached
import TorrentTracker.Proofs.Tracker.Reply

/-
An announce from end to end: the datagram that comes in, the store it
leaves, and the bytes that go out.

Of the checks on a datagram an announce passes all (`Admitted`), and then
its exit of `reply` is known (`Admitted.reply_eq`). What is left is to read
the store and the reply. The store is that after one announce
(`peer?_apply`). The books of a tracker that was reached by requests, sweeps
and loads are in order, so the two counts in the reply are recounts
(`toInt_counts`); they fit into signed words because each is cut off at the
largest. The peers are whole entries (`exists_entries`), and how many was
settled by `clampNumwant`.

# Main statement

- `Reached.announced`: who stops is gone and told nothing, who stays is
  there and told of the swarm.
-/

namespace TorrentTracker.Tracker

open Wire (Header Action)

variable {t : Tracker} {m : Moment} {source : SocketAddress} {data : Bytes}
  {request : Wire.AnnounceRequest}

-- =========================================================== the request

/-- A datagram that passes every check as an announce. -/
structure Admitted (t : Tracker) (source : SocketAddress) (data : Bytes)
    (request : Wire.AnnounceRequest) : Prop where
  fits : data.length ≤ 1496
  action : field data 8 4 = 1
  gate : t.config.udp.validateConnectionId = true →
    t.connections.valid source request.connectionId = true
  decoded : Wire.AnnounceRequest.decode data = .ok request
  port : request.port ≠ 0

/-- The tracker after an announce that got through. -/
def afterAnnounce (t : Tracker) (m : Moment) (source : SocketAddress)
    (request : Wire.AnnounceRequest) : Tracker :=
  Tracker.admit ((t.count .udpHits).count .udpAnnounces) m (announceOf source request)

/-- An admitted datagram gets past every check, so it is framed as an
announce. -/
theorem Admitted.framed (h : Admitted t source data request) :
    ∃ header, Framed data header .announce ∧ header.connectionId = request.connectionId := by
  obtain ⟨hlen, event, -, rfl⟩ := (Wire.AnnounceRequest.decode_eq_ok_iff data).mp h.decoded
  have hheader : Wire.headerSize ≤ data.length := Nat.le_trans (by decide) hlen
  have hpeek := Header.peek_eq data
  rw [if_pos hheader] at hpeek
  refine ⟨_, ⟨hpeek, ?_, h.fits⟩, rfl⟩
  rw [Wire.Action.ofNumber_eq_ok_iff, Word.toNat_front]
  exact h.action

/-- An id that is in force gets past the gate, if there is one. -/
theorem registered_of_gate {id : Int64} (h : t.config.udp.validateConnectionId = true →
    t.connections.valid source id = true) : t.registered source id = true := by
  unfold registered
  cases hvalidate : t.config.udp.validateConnectionId with
  | false => rfl
  | true => exact h hvalidate

/-- What an admitted announce is answered with, and the tracker after it. None
of the earlier checks turns it away, so the reply is the one made from the
store. -/
theorem Admitted.reply_eq (h : Admitted t source data request) (m : Moment) :
    t.reply m source data
      = (t.afterAnnounce m source request,
        .announce (told (t.afterAnnounce m source request) m source request)) := by
  obtain ⟨header, hframed, hid⟩ := h.framed
  have hregistered : t.registered source header.connectionId = true := by
    rw [hid]
    exact registered_of_gate h.gate
  rw [hframed.reply_announce, if_pos hregistered]
  unfold announce
  rw [h.decoded]
  dsimp only
  rw [if_neg h.port]
  rfl

-- ============================================================= the reply

/-- A capped count is never negative, and is exact up to the largest that a
reply has room for. -/
theorem toInt_cappedCount (n : UInt32) :
    (cappedCount n).toInt = min n.toNat 2147483647 := by
  unfold cappedCount
  have hlt : min n.toNat 2147483647 < 2 ^ 31 := by omega
  rw [Int32.toInt_ofNat_of_lt hlt]

theorem seeders_told (t : Tracker) (m : Moment) (source : SocketAddress)
    (r : Wire.AnnounceRequest) :
    (told t m source r).seeders = cappedCount ((announceOf source r).counts t.store).complete :=
  rfl

theorem leechers_told (t : Tracker) (m : Moment) (source : SocketAddress)
    (r : Wire.AnnounceRequest) :
    (told t m source r).leechers = cappedCount ((announceOf source r).counts t.store).incomplete :=
  rfl

/-- How many peers a client is told of that asks for so many. -/
def wantedOf (c : Config) (n : Int32) : Nat :=
  if 0 ≤ n.toInt then min n.toInt.toNat c.tracker.maxNumwant.toNat
  else c.tracker.defaultNumwant.toNat

/-- How many peers are wanted depends on what the request asks for and on the
settings alone. -/
theorem wanted_eq (t : Tracker) (n : Int32) :
    t.wanted (some n.toInt64) = wantedOf t.config n := by
  unfold wanted wantedOf
  rw [Config.Announce.clampNumwant_eq, Int32.toInt_toInt64]

/-- What becomes of a client that stops: it is gone, and told nothing. -/
structure Departed (after : Store) (request : Wire.AnnounceRequest)
    (r : Wire.AnnounceResponse) : Prop where
  absent : after.peer? request.infoHash request.peerId = none
  seeders : r.seeders = 0
  leechers : r.leechers = 0
  peers : r.peers = []

/-- What becomes of a client that stays: it is in the swarm as it
announced itself, complete if it was or says so, and told how many peers
of either kind there are, and of some in its own family. -/
structure Present (config : Config) (before after : Store) (now : Seconds) (client : Ip)
    (request : Wire.AnnounceRequest) (r : Wire.AnnounceResponse) : Prop where
  filed : ∃ complete, after.peer? request.infoHash request.peerId
      = some ⟨client, request.port, complete, now⟩
    ∧ (complete = true ↔
      (∃ old, before.peer? request.infoHash request.peerId = some old ∧ old.complete = true)
        ∨ request.event = .completed ∨ request.left = 0)
  seeders : r.seeders.toInt
    = (min (after.swarm request.infoHash).completeCount 2147483647 : Nat)
  leechers : r.leechers.toInt
    = (min (after.swarm request.infoHash).incompleteCount 2147483647 : Nat)
  somebody : 1 ≤ r.seeders.toInt + r.leechers.toInt
  peers : ∃ entries : List Bytes, r.peers = entries.flatten
    ∧ (∀ entry ∈ entries, entry.length = client.family.compactWidth)
    ∧ entries.Subperm ((after.inFamily request.infoHash client.family).map Peer.compact)
    ∧ entries.length = min (wantedOf config request.numWant)
      (after.inFamily request.infoHash client.family).length
  ceiling : wantedOf config request.numWant ≤ config.tracker.maxNumwant.toNat

/-- Who leaves is told nothing about the swarm it left: both counts are zero
and there is nobody on the list. -/
theorem departed_told (hevent : request.event = .stopped) (t : Tracker) (m : Moment)
    (source : SocketAddress) :
    Departed (t.afterAnnounce m source request).store request
      (told (t.afterAnnounce m source request) m source request) := by
  have hstopped : (announceOf source request).event = .stopped := hevent
  have hcounts := Announce.counts_of_stopped hstopped (t.afterAnnounce m source request).store
  constructor
  case absent =>
    refine ((announceOf source request).peer?_apply t.store m.now _ _).trans ?_
    rw [if_pos ⟨rfl, rfl⟩, if_pos hstopped]
  case seeders =>
    rw [seeders_told, hcounts]
    rfl
  case leechers =>
    rw [leechers_told, hcounts]
    rfl
  case peers => exact Announce.compactPeers_of_stopped hstopped _ _ _

/-- When a client is filed as complete: it was before, or says so, or has
nothing left. -/
theorem completes_iff (store : Store) (source : SocketAddress) :
    (announceOf source request).completes store = true ↔
      (∃ old, store.peer? request.infoHash request.peerId = some old ∧ old.complete = true)
        ∨ request.event = .completed ∨ request.left = 0 := by
  unfold Announce.completes
  rw [Bool.or_eq_true, Bool.or_eq_true, decide_eq_true_eq, decide_eq_true_eq,
    Option.any_eq_true]
  rfl

/-- Who joins is told of the swarm it is in: recounts of it, and peers of it in
its own family. -/
theorem Reached.present_told (h : t.Reached) (hevent : request.event ≠ .stopped)
    (hroom : (t.afterAnnounce m source request).store.Roomy) :
    Present t.config t.store (t.afterAnnounce m source request).store m.now source.ip.canonical
      request (told (t.afterAnnounce m source request) m source request) := by
  have hstays : (announceOf source request).event ≠ .stopped := hevent
  have hstore : (t.afterAnnounce m source request).store.Reached :=
    h.store.touched (.inr ⟨_, rfl⟩) hroom
  obtain ⟨hcomplete, hincomplete⟩ := hstore.consistent.counts hroom request.infoHash
  have hcounts := Announce.counts_of_not_stopped hstays (t.afterAnnounce m source request).store
  -- the words of the reply are the recounts, cut at what they can hold
  have hseeders : (told (t.afterAnnounce m source request) m source request).seeders.toInt
      = min ((t.afterAnnounce m source request).store.swarm request.infoHash).completeCount
        2147483647 := by
    rw [seeders_told, hcounts, toInt_cappedCount]
    exact congrArg (fun n => ((min n 2147483647 : Nat) : Int)) hcomplete
  have hleechers : (told (t.afterAnnounce m source request) m source request).leechers.toInt
      = min ((t.afterAnnounce m source request).store.swarm request.infoHash).incompleteCount
        2147483647 := by
    rw [leechers_told, hcounts, toInt_cappedCount]
    exact congrArg (fun n => ((min n 2147483647 : Nat) : Int)) hincomplete
  constructor
  case filed =>
    refine ⟨(announceOf source request).completes t.store, ?_, completes_iff t.store source⟩
    exact Announce.peer?_apply_self hstays t.store m.now
  case seeders => exact hseeders
  case leechers => exact hleechers
  case somebody =>
    have hone : 1 ≤ ((t.afterAnnounce m source request).store.swarm request.infoHash).completeCount
        + ((t.afterAnnounce m source request).store.swarm request.infoHash).incompleteCount :=
      Announce.one_le_counts hstays t.store m.now
    rw [hseeders, hleechers]
    omega
  case peers =>
    rw [← wanted_eq]
    exact Announce.exists_entries hstays _ _ m.draws.picks
  case ceiling =>
    rw [← wanted_eq]
    exact Config.clampNumwant_le h.validate _

/-- An admitted announce from the bytes in to the bytes out, in its two cases:
who stops is gone and is told nothing, all others are in the swarm that they
are told of. -/
theorem Reached.announced (h : t.Reached) (hadmitted : Admitted t source data request)
    (hroom : (t.process m source data).1.store.Roomy) :
    ∃ r, Wire.AnnounceResponse.decode (t.process m source data).2 = .ok r
      ∧ (request.event = .stopped → Departed (t.process m source data).1.store request r)
      ∧ (request.event ≠ .stopped → Present t.config t.store (t.process m source data).1.store
        m.now source.ip.canonical request r) := by
  rw [process_eq, hadmitted.reply_eq m] at hroom ⊢
  refine ⟨_, Wire.AnnounceResponse.decode_encode _, ?_, ?_⟩
  · intro hevent
    exact departed_told hevent t m source
  · intro hevent
    exact h.present_told hevent hroom

/-- A client that got a connection id from a tracker with the default
settings announces that it has completed, and is the one seeder. -/
theorem announced_completed :
    let source := SocketAddress.v4 (.replicate 4 10) 5000
    let fresh : Tracker := ⟨{}, Store.empty, Connections.empty 120, { startTime := 0 },
      { medium := .memory none, opened := true }⟩
    let greeted := (fresh.process ⟨1000, { connection := 99 }⟩ source
      (Wire.ConnectRequest.encode ⟨7⟩)).1
    let request : Wire.AnnounceRequest :=
      ⟨99, 8, .replicate 20 1, .replicate 20 2, 0, 0, 0, .completed, 0, 0, -1, 6881⟩
    greeted.Reached ∧ Admitted greeted source request.encode request
      ∧ (greeted.process ⟨1060, {}⟩ source request.encode).1.store.Roomy
      ∧ (greeted.process ⟨1060, {}⟩ source request.encode).1.store.totalSeeders = 1
      ∧ ∃ r, Wire.AnnounceResponse.decode (greeted.process ⟨1060, {}⟩ source request.encode).2
          = .ok r
        ∧ Present greeted.config greeted.store
          (greeted.process ⟨1060, {}⟩ source request.encode).1.store 1060 source.ip.canonical
          request r := by
  intro source fresh greeted request
  have hfresh : fresh.Reached :=
    .start (show ({} : Config).validate = .ok () by decide)
      (show Tracker.start {} Disk.empty 0 = (.ok fresh, Disk.empty) by rfl)
  have hgreeted : greeted.Reached := .datagram _ _ _ hfresh (by decide)
  have hadmitted : Admitted greeted source request.encode request :=
    ⟨by decide, by decide, fun _ => by decide, by decide, by decide⟩
  have hroom : (greeted.process ⟨1060, {}⟩ source request.encode).1.store.Roomy := by decide
  obtain ⟨r, hr, -, hpresent⟩ := hgreeted.announced hadmitted hroom
  exact ⟨hgreeted, hadmitted, hroom, by decide, r, hr, hpresent (by decide)⟩

end TorrentTracker.Tracker
