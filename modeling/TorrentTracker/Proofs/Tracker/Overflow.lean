import TorrentTracker.Proofs.Config.Interval
import TorrentTracker.Proofs.Config.Laws
import TorrentTracker.Proofs.Connections
import TorrentTracker.Proofs.Store.Overflow
import TorrentTracker.Proofs.Store.Trim
import TorrentTracker.Proofs.Tracker.Reached

/-
When both builds of a tracker are one.

A request can overflow in the interval it is told and in the counts of a
swarm; a sweep, in the age of what it looks at. So a request runs the same
way in both builds where the books of the store are in order and intervals
fit (`Steady`), and a sweep does where nothing is from before the epoch as
well (`Dated`). A tracker that came of valid settings and kept its own
snapshots is steady but for the interval, which the check of the settings
leaves open.

What is proved of the plain functions holds of either build there. It is
for the rest that the two have to be told apart: moments that came in with
bytes from elsewhere, and settings whose intervals do not fit.

# Main statements

- `Reached.steady`: which trackers are steady;
- `Steady.replyIn`, `Steady.respondIn`: a request, in either build;
- `Steady.upkeepIn`: the tasks of any number of seconds, by one step
  (`Steady.performIn`) and what it keeps.
-/

namespace TorrentTracker

variable {t : Tracker} {m : Moment} {source : SocketAddress} {data : Bytes}
  {r : Http.Request} {now : Seconds} {disk : Disk} {task : Task}

namespace Tracker

/-- The books of the store are in order, and every interval that is drawn
is one a reply has room for. -/
structure Steady (t : Tracker) : Prop where
  consistent : t.store.Consistent
  roomy : t.store.Roomy
  interval : 0 < t.config.tracker.announceInterval.toInt
  fits : t.config.tracker.Fits

/-- Nothing that a sweep looks at is from before the epoch. -/
structure Dated (t : Tracker) : Prop where
  peers : t.store.SinceEpoch
  tickets : ∀ client ticket, t.connections.tickets.get? client = some ticket →
    0 ≤ ticket.issued.toInt

/-- A tracker of valid settings that kept to its own snapshots lacks nothing
but intervals that fit. -/
theorem Reached.steady (h : t.Reached) (hfits : t.config.tracker.Fits) : t.Steady where
  consistent := h.store.consistent
  roomy := h.store.roomy
  interval := (Config.validate_eq_ok_iff.mp h.validate).1.announceInterval
  fits := hfits

end Tracker

-- ============================================================== announces

/-- An announce to a steady tracker overflows nowhere, if the swarm has
room for its peer. -/
theorem Announce.fault?_eq_none (a : Announce) (h : t.Steady)
    (hroom : (a.apply t.store m.now).Roomy) : a.fault? t m = none := by
  unfold Announce.fault?
  rw [h.fits.jitterFault? h.interval, Option.none_or]
  split
  · exact h.consistent.dropFault? h.roomy _ _
  · refine Store.Consistent.countsFault? ?_ hroom _
    rw [a.apply_eq_perform]
    exact Store.consistent_perform h.consistent _

/-- What either build gives as the interval of an announce that it
answers. -/
theorem Announce.jitteredIntervalIn_of_fault? {a : Announce} {build : Build}
    (h : build = .checked → a.fault? t m = none) :
    t.config.tracker.jitteredIntervalIn build m.draws.jitter = .ok (t.interval m) :=
  Build.settle_eq_ok_iff.mpr ⟨rfl, fun hbuild => (Option.or_eq_none_iff.mp (h hbuild)).1⟩

namespace Tracker

-- ============================================================== datagrams

/-- A datagram that is answered as an announce runs into what its announce
does. -/
theorem exists_of_announced {response : Wire.AnnounceResponse}
    (h : (t.reply m source data).2 = .announce response) :
    ∃ a : Announce, t.replyFault? m source data = a.fault? t m
      ∧ response.interval = t.interval m := by
  have hanswered := answered_reply t m source data
  unfold replyFault?
  generalize t.reply m source data = p at h hanswered ⊢
  cases hanswered with
  | @announced _ request _ _ _ hdecode _ htracker =>
      cases h
      subst htracker
      refine ⟨announceOf source request, ?_, rfl⟩
      dsimp only
      rw [hdecode]
  | _ => cases h

/-- Only an announce and a scrape come to where words are added and subtracted,
and there all is in order. -/
theorem Steady.replyFault? (h : t.Steady) (hroom : (t.reply m source data).1.store.Roomy) :
    t.replyFault? m source data = none := by
  have hanswered := answered_reply t m source data
  unfold Tracker.replyFault?
  generalize t.reply m source data = p at hroom hanswered ⊢
  cases hanswered with
  | announced _ _ hdecode _ htracker =>
      subst htracker
      dsimp only
      rw [hdecode]
      exact Announce.fault?_eq_none _ h hroom
  | scraped _ _ hdecode _ =>
      dsimp only
      rw [hdecode]
      exact List.findSome?_eq_none_iff.mpr fun hash _ =>
        h.consistent.countsFault? h.roomy hash
  | _ => rfl

/-- A steady tracker answers a datagram in either build as in the other. -/
theorem Steady.replyIn (h : t.Steady) (hroom : (t.reply m source data).1.store.Roomy)
    (build : Build) : t.replyIn build m source data = .ok (t.reply m source data) :=
  Build.settle_eq_ok_iff.mpr ⟨rfl, fun _ => h.replyFault? hroom⟩

/-- Also as it comes off a socket, into any buffer. -/
theorem Steady.serveIn {datagram : Bytes} (h : t.Steady)
    (hroom : (t.reply m source (received datagram)).1.store.Roomy) (build : Build)
    (out : Buffer) :
    t.serveIn build m source datagram out = .ok (t.serve m source datagram out) :=
  Build.settle_eq_ok_iff.mpr ⟨rfl, fun _ => h.replyFault? hroom⟩

-- =============================================================== requests

/-- A query that is answered as an announce runs into what its announce does,
and leaves the store after it. -/
theorem exists_of_announceQuery {query : Option Bytes} {reply : AnnounceReply}
    (h : (t.announceQuery m source query).2 = .ok reply) :
    ∃ a : Announce, t.announceQueryFault? m source query = a.fault? t m
      ∧ reply.interval = t.interval m
      ∧ (t.announceQuery m source query).1.store = a.apply t.store m.now := by
  cases query with
  | none => cases h
  | some text =>
      unfold announceQuery at h ⊢
      unfold announceQueryFault?
      dsimp only at h ⊢
      cases hparse : AnnounceQuery.parse text with
      | error cause =>
          rw [hparse] at h
          cases h
      | ok q =>
          rw [hparse] at h
          cases h
          refine ⟨q.announce source, ?_, rfl, rfl⟩
          rw [Option.bind_some, hparse]
          rfl

/-- So it runs into nothing in a steady tracker, if it is answered; and if it
is not, it comes to nothing that could overflow. -/
theorem Steady.announceQueryFault? {query : Option Bytes} (h : t.Steady)
    (hroom : (t.announceQuery m source query).1.store.Roomy) :
    t.announceQueryFault? m source query = none := by
  cases hreply : (t.announceQuery m source query).2 with
  | ok reply =>
      obtain ⟨a, hfault, -, hstore⟩ := exists_of_announceQuery hreply
      rw [hfault]
      rw [hstore] at hroom
      exact a.fault?_eq_none h hroom
  | error f =>
      cases query with
      | none => rfl
      | some text =>
          unfold announceQuery at hreply
          unfold Tracker.announceQueryFault?
          dsimp only at hreply
          rw [Option.bind_some]
          cases hparse : AnnounceQuery.parse text with
          | error cause => rfl
          | ok q =>
              rw [hparse] at hreply
              cases hreply

/-- The counts of every swarm that is asked for are in order. -/
theorem Steady.scrapeQueryFault? (h : t.Steady) (query : Option Bytes) :
    t.scrapeQueryFault? query = none := by
  refine Option.bind_eq_none_iff.mpr fun hashes _ => ?_
  exact List.findSome?_eq_none_iff.mpr fun hash _ => h.consistent.countsFault? h.roomy hash

end Tracker

/-- The figures of a tracker that started since the epoch, and counted
fewer requests than a word can say. -/
theorem Metrics.figuresFault?_eq_none {metrics : Metrics}
    (hstart : 0 ≤ metrics.startTime.toInt) (hnow : 0 ≤ now.toInt)
    (hrequests : metrics.udpHits.toNat + metrics.httpAnnounces.toNat + metrics.httpScrapes.toNat
      < UInt64.size) : metrics.figuresFault? now = none := by
  refine Option.or_eq_none_iff.mpr ⟨?_, Overflow.ifNot_eq_none_iff.mpr hrequests⟩
  exact Overflow.ifNot_eq_none_iff.mpr (Seconds.toInt_elapsed hstart hnow)

namespace Tracker

/-- A steady tracker answers a request in either build as in the other, if
it has its figures. -/
theorem Steady.respondIn (h : t.Steady) (hroom : (t.respond m source r).1.store.Roomy)
    (hfigures : t.metrics.figuresFault? m.now = none) (build : Build) :
    t.respondIn build m source r = .ok (t.respond m source r) := by
  refine Build.settle_eq_ok_iff.mpr ⟨rfl, fun _ => ?_⟩
  unfold respondFault?
  refine Option.bind_eq_none_iff.mpr fun route hroute => ?_
  split
  · next hmethod =>
      unfold respond at hroom
      rw [hroute] at hroom
      dsimp only at hroom
      rw [if_pos hmethod] at hroom
      cases route with
      | announce => exact h.announceQueryFault? hroom
      | scrape => exact h.scrapeQueryFault? _
      | health => rfl
      | stats => exact hfigures
  · rfl

-- ================================================================= sweeps

/-- No sweep of a steady and dated tracker is stopped. Moments and clock are
not negative, so no age is beyond a word, and no swarm has fewer seeders on its
books than in it. -/
theorem Steady.performFault? (h : t.Steady) (hdated : t.Dated) (hnow : 0 ≤ now.toInt)
    (task : Task) : t.performFault? now task = none := by
  -- from the epoch on no two moments are further apart than a word holds
  have hages : ∀ moment : Seconds, 0 ≤ moment.toInt →
      ¬Seconds.span ≤ now.toInt - moment.toInt := by
    intro moment hmoment
    have hlt : now.toInt < Seconds.span := now.toInt_lt
    omega
  cases task with
  | trimPeers =>
      refine (t.store.trimFault?_when hnow).eq_none_iff.mpr ?_
      rintro (⟨hash, id, p, hp, hage⟩ | hshort)
      · exact hages _ (hdated.peers.seen hp) hage
      · exact h.consistent.not_overdrawn h.roomy hshort
  | collectConnections =>
      refine List.findSome?_eq_none_iff.mpr fun ticket hticket => ?_
      obtain ⟨client, ticket, hfound, rfl⟩ :=
        Table.exists_mem_values_iff.mp ⟨ticket, hticket, rfl⟩
      exact (Seconds.elapsedFault?_when hnow).eq_none_iff.mpr
        (hages _ (hdated.tickets client ticket hfound))
  | saveBackup => rfl

/-- A task of a steady and dated tracker runs in either build as in the
other. -/
theorem Steady.performIn (h : t.Steady) (hdated : t.Dated) (hnow : 0 ≤ now.toInt)
    (build : Build) (disk : Disk) (task : Task) :
    t.performIn build now disk task = .ok (t.perform now disk task) :=
  Build.settle_eq_ok_iff.mpr ⟨rfl, fun _ => h.performFault? hdated hnow task⟩

/-- A task leaves a steady tracker steady: a trim keeps counts and room, and no
other task touches the store. -/
theorem Steady.perform (h : t.Steady) : (t.perform now disk task).1.Steady := by
  cases task with
  | trimPeers => exact ⟨h.consistent.trim now _, h.roomy.trim now _, h.interval, h.fits⟩
  | collectConnections => exact ⟨h.consistent, h.roomy, h.interval, h.fits⟩
  | saveBackup => exact ⟨h.consistent, h.roomy, h.interval, h.fits⟩

/-- A task makes nothing older than it was, as all it does to entries is to
take them away. -/
theorem Dated.perform (h : t.Dated) : (t.perform now disk task).1.Dated := by
  cases task with
  | trimPeers => exact ⟨h.peers.trim now _, h.tickets⟩
  | collectConnections =>
      refine ⟨h.peers, fun client ticket hticket => h.tickets client ticket ?_⟩
      have hkept := (t.connections.get?_collect now client).symm.trans hticket
      exact (Option.filter_eq_some_iff.mp hkept).1
  | saveBackup => exact ⟨h.peers, h.tickets⟩

/-- A run of steps that have their outcome in a build as long as something
is kept, and that keep it. -/
theorem foldlM_eq_ok {σ ι : Type} (kept : σ → Prop) {stepIn : σ → ι → Except Overflow σ}
    {step : σ → ι → σ} (hstep : ∀ s i, kept s → stepIn s i = .ok (step s i) ∧ kept (step s i))
    (is : List ι) {s : σ} (hs : kept s) :
    is.foldlM stepIn s = .ok (is.foldl step s) ∧ kept (is.foldl step s) := by
  induction is generalizing s with
  | nil => exact ⟨rfl, hs⟩
  | cons i is ih =>
      obtain ⟨hi, hkept⟩ := hstep s i hs
      rw [List.foldlM_cons, List.foldl_cons, hi]
      exact ih hkept

/-- The tasks of any number of seconds since the epoch run in either build
as in the other. -/
theorem Steady.upkeepIn {clock : Nat → Seconds} (h : t.Steady) (hdated : t.Dated)
    (hclock : ∀ second, 0 ≤ (clock second).toInt) (build : Build) (disk : Disk) (seconds : Nat) :
    t.upkeepIn build clock disk seconds = .ok (t.upkeep clock disk seconds) := by
  let kept (state : Tracker × Disk) : Prop := state.1.Steady ∧ state.1.Dated
  refine (foldlM_eq_ok kept (fun state second hstate => ?_) (List.range (seconds + 1))
    ⟨h, hdated⟩).1
  refine foldlM_eq_ok kept (fun state task hstate => ?_) (Task.due t.config second) hstate
  exact ⟨hstate.1.performIn hstate.2 (hclock second) build state.2 task,
    hstate.1.perform, hstate.2.perform⟩

/-- A wrapping build runs the tasks whatever it meets, so all that a sum or an
age can do to it is to come out wrong. -/
theorem upkeepIn_wrapping (t : Tracker) (clock : Nat → Seconds) (disk : Disk) (seconds : Nat) :
    t.upkeepIn .wrapping clock disk seconds = .ok (t.upkeep clock disk seconds) := by
  refine (foldlM_eq_ok (fun _ => True) (fun state second _ => ?_) (List.range (seconds + 1))
    trivial).1
  exact foldlM_eq_ok (fun _ => True) (fun state task _ => ⟨rfl, trivial⟩)
    (Task.due t.config second) trivial

end Tracker

end TorrentTracker
