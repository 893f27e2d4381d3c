import TorrentTracker.Proofs.Tracker.Overflow

/-
What is computed from settings, in words of a fixed width.

Each setting is checked for itself, and then two of them are added and one
is multiplied. The sum is the interval of a reply, in a signed word of 32
bits; the product is the room of a buffer for peers, in a word of 64. Both
can be too large. A wrapping build gives out what is left of them after
whole turns, and a checked build has no such interval, and no tracker to
begin with.

Both are exact under a condition on the settings that the check does not
ask for (`Announce.Fits`, and a ceiling for the number of peers). The
conditions are the weakest, for either build: without them some draw gives
no interval, and there is no such buffer.

# Main statements

- `derived_words`: what comes out in either build, and when it is what it
  looks like;
- `overflow_accepted`: valid settings with which neither is exact.
-/

namespace TorrentTracker

variable {build : Build}

-- =============================================================== replies

namespace Tracker

variable {t t' : Tracker} {m : Moment} {source : SocketAddress}

/-- The interval in a reply to a datagram is that of the moment: the setting,
with the jitter that is drawn for this one reply. -/
theorem interval_of_replyIn {data : Bytes} {r : Wire.AnnounceResponse}
    (h : t.replyIn build m source data = .ok (t', .announce r)) :
    t.config.tracker.jitteredIntervalIn build m.draws.jitter = .ok r.interval := by
  obtain ⟨hreply, hnone⟩ := Build.settle_eq_ok_iff.mp h
  obtain ⟨a, hfault, hinterval⟩ := exists_of_announced (congrArg Prod.snd hreply)
  rw [hfault] at hnone
  rw [hinterval]
  exact Announce.jitteredIntervalIn_of_fault? hnone

/-- And so is the interval in a reply to a query. -/
theorem interval_of_announceQueryIn {query : Option Bytes} {r : AnnounceReply}
    (h : t.announceQueryIn build m source query = .ok (t', .ok r)) :
    t.config.tracker.jitteredIntervalIn build m.draws.jitter = .ok r.interval := by
  obtain ⟨hreply, hnone⟩ := Build.settle_eq_ok_iff.mp h
  obtain ⟨a, hfault, hinterval, -⟩ := exists_of_announceQuery (congrArg Prod.snd hreply)
  rw [hfault] at hnone
  rw [hinterval]
  exact Announce.jitteredIntervalIn_of_fault? hnone

end Tracker

-- =============================================================== buffers

namespace BufferPool

variable {capacity maxNumwant : UInt64}

/-- The room of a buffer for peers is the rest after whole turns. -/
theorem bufferSize_forPeerLists (capacity maxNumwant : UInt64) :
    (forPeerLists capacity maxNumwant).bufferSize
      = maxNumwant.toNat * 18 % 18446744073709551616 :=
  UInt64.toNat_mul maxNumwant 18

/-- A checked build makes no pool whose buffers are larger than a word can
say. -/
theorem forPeerListsFault?_when (maxNumwant : UInt64) :
    Overflow.multiply.When (1024819115206086200 < maxNumwant.toNat)
      (forPeerListsFault? maxNumwant) := by
  refine (Overflow.when_ifNot _ _).congr ?_
  rw [show (maxNumwant * 18).toNat = _ from UInt64.toNat_mul maxNumwant 18]
  show ¬maxNumwant.toNat * 18 % 18446744073709551616 = _ ↔ _
  omega

/-- Either build has a pool with the room it is to have just if the product
is a word. -/
theorem exists_exact_forPeerListsIn_iff :
    (∃ pool, forPeerListsIn build capacity maxNumwant = .ok pool
        ∧ pool.bufferSize = maxNumwant.toNat * 18)
      ↔ maxNumwant.toNat ≤ 1024819115206086200 := by
  constructor
  · intro hexists
    obtain ⟨pool, hpool, hsize⟩ := hexists
    obtain ⟨rfl, -⟩ := Build.settle_eq_ok_iff.mp hpool
    rw [bufferSize_forPeerLists] at hsize
    omega
  · intro hfits
    refine ⟨forPeerLists capacity maxNumwant, ?_, ?_⟩
    · exact (forPeerListsFault?_when maxNumwant).settle_eq_ok_iff.mpr
        ⟨rfl, fun _ => Nat.not_lt.mpr hfits⟩
    · rw [bufferSize_forPeerLists]
      omega

end BufferPool

-- =============================================================== the law

/-- What comes out of valid settings in words, by a build. The jitter is
any number below the fuzz, or none. An interval with jitter on top is exact,
or a turn less; a checked build stops over one that is not exact. That every
draw has its exact interval, and that every draw has a positive one, is so
under one condition on the sum. Intervals in replies are such intervals. The
room of a buffer for peers is the product, or what is left of it after whole
turns; a checked build stops over one that is too large, and either build
has an exact one as long as the product is a word. -/
structure Derived (build : Build) (c : Config) : Prop where
  jitter : ∀ n : Nat, (n : Int) < max c.tracker.announceFuzz.toInt 1
    ↔ ∃ draw, c.tracker.jitter draw = n
  intervals : ∀ draw i, c.tracker.jitteredIntervalIn build draw = .ok i → i.toInt
    = if c.tracker.announceInterval.toInt + c.tracker.jitter draw < 2147483648 then
        c.tracker.announceInterval.toInt + c.tracker.jitter draw
      else c.tracker.announceInterval.toInt + c.tracker.jitter draw - 4294967296
  stops : ∀ draw o, c.tracker.jitteredIntervalIn build draw = .error o
    ↔ build = .checked ∧ o = .add
      ∧ 2147483648 ≤ c.tracker.announceInterval.toInt + c.tracker.jitter draw
  exact_iff : (∀ draw, ∃ i, c.tracker.jitteredIntervalIn build draw = .ok i
      ∧ i.toInt = c.tracker.announceInterval.toInt + c.tracker.jitter draw)
    ↔ c.tracker.announceInterval.toInt + max c.tracker.announceFuzz.toInt 1 ≤ 2147483648
  positive_iff : (∀ draw, ∃ i, c.tracker.jitteredIntervalIn build draw = .ok i ∧ 0 < i.toInt)
    ↔ c.tracker.announceInterval.toInt + max c.tracker.announceFuzz.toInt 1 ≤ 2147483648
  replies : ∀ (t t' : Tracker) m source data r, t.config = c →
    t.replyIn build m source data = .ok (t', .announce r) →
    c.tracker.jitteredIntervalIn build m.draws.jitter = .ok r.interval
  queries : ∀ (t t' : Tracker) m source query r, t.config = c →
    t.announceQueryIn build m source query = .ok (t', .ok r) →
    c.tracker.jitteredIntervalIn build m.draws.jitter = .ok r.interval
  room : ∀ pool,
    BufferPool.forPeerListsIn build c.peers.listPoolCapacity c.tracker.maxNumwant = .ok pool →
    pool.bufferSize = c.tracker.maxNumwant.toNat * 18 % 18446744073709551616
  room_stops : ∀ o,
    BufferPool.forPeerListsIn build c.peers.listPoolCapacity c.tracker.maxNumwant = .error o
      ↔ build = .checked ∧ o = .multiply ∧ 1024819115206086200 < c.tracker.maxNumwant.toNat
  room_iff : (∃ pool,
      BufferPool.forPeerListsIn build c.peers.listPoolCapacity c.tracker.maxNumwant = .ok pool
        ∧ pool.bufferSize = c.tracker.maxNumwant.toNat * 18)
    ↔ c.tracker.maxNumwant.toNat ≤ 1024819115206086200

/-- The law of what is derived from settings, in either build. Both builds
settle one condition of overflow, so each field is the exact number where that
condition fails. -/
theorem derived_words (build : Build) {c : Config} (h : c.validate = .ok ()) :
    Derived build c := by
  have hinterval := (Config.validate_eq_ok_iff.mp h).1.announceInterval
  constructor
  case jitter =>
    intro n
    constructor
    · exact fun hn => ⟨n, Config.Announce.jitter_of_lt hn⟩
    · rintro ⟨draw, rfl⟩
      exact c.tracker.jitter_lt draw
  case intervals =>
    intro draw i hi
    rw [← (Build.settle_eq_ok_iff.mp hi).1]
    exact Config.Announce.toInt_jitteredInterval hinterval draw
  case stops =>
    exact fun draw o => (Config.Announce.jitterFault?_when hinterval draw).settle_eq_error_iff
  case exact_iff => exact Config.Announce.forall_exact_jitteredIntervalIn_iff hinterval
  case positive_iff => exact Config.Announce.forall_pos_jitteredIntervalIn_iff hinterval
  case replies =>
    rintro t t' m source data r rfl hreply
    exact Tracker.interval_of_replyIn hreply
  case queries =>
    rintro t t' m source query r rfl hreply
    exact Tracker.interval_of_announceQueryIn hreply
  case room =>
    intro pool hpool
    rw [← (Build.settle_eq_ok_iff.mp hpool).1]
    exact BufferPool.bufferSize_forPeerLists _ _
  case room_stops =>
    exact fun o => (BufferPool.forPeerListsFault?_when _).settle_eq_error_iff
  case room_iff => exact BufferPool.exists_exact_forPeerListsIn_iff

/-- Settings whose longest interval is the longest there is room for, and
whose buffers for peers are as large as a word can say: neither build has
anything to stop for. -/
theorem derived_words_limit :
    let c : Config := { tracker :=
      { announceInterval := 2147483600, announceFuzz := 48, maxNumwant := 1024819115206086200 } }
    c.validate = .ok () ∧ (∀ build, Derived build c) ∧ c.tracker.Fits
      ∧ c.tracker.jitteredIntervalIn .checked 47 = .ok 2147483647
      ∧ (BufferPool.forPeerListsIn .checked c.peers.listPoolCapacity c.tracker.maxNumwant).map
        BufferPool.bufferSize = .ok 18446744073709551600 := by
  intro c
  have hvalid : c.validate = .ok () := by decide
  exact ⟨hvalid, fun build => derived_words build hvalid, by decide, by decide, by decide⟩

/-- Valid settings with one second of jitter more than there is room for,
and with more peers for a client than a word can say the width of. In a
wrapping build an announce is answered with a negative interval, and the
buffers for peers have no room; a checked build stops over the announce, and
before that over the start. -/
theorem overflow_accepted :
    let c : Config := {
      udp := { validateConnectionId := false }
      tracker := { announceInterval := 2147483647, announceFuzz := 2,
                   maxNumwant := 9223372036854775808 } }
    let t : Tracker := ⟨c, Store.empty, Connections.empty 120, { startTime := 0 },
      { medium := .memory none, opened := true }⟩
    let source := SocketAddress.v4 (.replicate 4 10) 5000
    let request : Wire.AnnounceRequest :=
      ⟨0, 8, .replicate 20 1, .replicate 20 2, 0, 0, 0, .started, 0, 0, -1, 6881⟩
    c.validate = .ok () ∧ c.tracker.jitter 1 = 1
      ∧ c.tracker.jitteredIntervalIn .wrapping 1 = .ok (-2147483648)
      ∧ c.tracker.jitteredIntervalIn .checked 1 = .error .add
      ∧ (t.replyIn .wrapping ⟨1000, { jitter := 1 }⟩ source request.encode).map
          (fun p => p.2.encode.take 12)
        = .ok [0, 0, 0, 1, 0, 0, 0, 8, 128, 0, 0, 0]
      ∧ (t.replyIn .checked ⟨1000, { jitter := 1 }⟩ source request.encode).map
          (fun p => p.2.encode.take 12)
        = .error .add
      ∧ t.listPool.bufferSize = 0
      ∧ BufferPool.forPeerListsIn .checked c.peers.listPoolCapacity c.tracker.maxNumwant
        = .error .multiply := by
  decide

end TorrentTracker
