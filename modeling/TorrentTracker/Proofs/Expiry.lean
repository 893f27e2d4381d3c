import TorrentTracker.Proofs.Connections
import TorrentTracker.Proofs.Connections.Snapshot
import TorrentTracker.Proofs.Store.Overflow
import TorrentTracker.Proofs.Store.Restore

/-
What sweeps make of moments that no clock has read.

Peers and connection ids bear the moment they are from, and a sweep takes
those whose age is past the limit. The tracker gives out moments since the
epoch only, but a snapshot can have any word in their place, and none is
refused. The age of an entry is a difference of words, so an entry from
long enough before the epoch has no age that fits. In a wrapping build it
passes for one from the future and stays; in a checked build the sweep that
meets it stops, and takes nothing out.

Both sweeps keep what is not `expired`, of peers by hash and id and of
tickets by client, and both stop at an age that does not fit. So there is
one law for both (`Sweeps.of_settle`). The sweep of peers has a second
reason to stop, a swarm that counted fewer complete peers than go; that is
what `short` is for. An age that does not fit only grows, so whatever the
build, no later sweep finds the entry either.

# Main statements

- `sweeps_expire`: what either sweep comes to in either build, whatever was
  loaded;
- `never_expired`: a peer and a ticket, from bytes that are taken, that no
  sweep finds.
-/

namespace TorrentTracker

variable {κ α : Type}

/-- What a sweep makes of entries, by the moment that each bears. A checked
build stops at an age that does not fit in a word, or where something else
is short. What there is of a result are the entries that are not past the
limit and those whose age does not fit. So a sweep is exact just if there
are none of the second kind and nothing stops it; and these are never found
too old later on, by no build. -/
structure Sweeps (build : Build) (before : κ → Option α)
    (outcome : Except Overflow (κ → Option α)) (moment : α → Seconds) (limit : Int64)
    (now : Seconds) (short : Prop) : Prop where
  stops : ∀ o, outcome = .error o ↔ build = .checked ∧ o = .subtract
    ∧ ((∃ k a, before k = some a ∧ Seconds.span ≤ now.toInt - (moment a).toInt) ∨ short)
  stays : ∀ after, outcome = .ok after → ∀ k a, after k = some a ↔ before k = some a
    ∧ (now.toInt - (moment a).toInt ≤ limit.toInt
      ∨ Seconds.span ≤ now.toInt - (moment a).toInt)
  exact_iff : (∃ after, outcome = .ok after ∧ ∀ k a, after k = some a ↔
      before k = some a ∧ now.toInt - (moment a).toInt ≤ limit.toInt)
    ↔ (∀ k a, before k = some a → now.toInt - (moment a).toInt < Seconds.span)
      ∧ (build = .checked → ¬short)
  missed : ∀ k a, before k = some a → Seconds.span ≤ now.toInt - (moment a).toInt →
    ∀ later : Seconds, now.toInt ≤ later.toInt →
    ∀ other : Build, (moment a).expiredIn other limit later ≠ .ok true

/-- A sweep that keeps what is not expired, and whose fault is an age that
does not fit or whatever else is short. -/
theorem Sweeps.of_settle {build : Build} {before after : κ → Option α}
    {moment : α → Seconds} {limit : Int64} {now : Seconds} {short : Prop}
    {fault : Option Overflow} (hnow : 0 ≤ now.toInt) (hlimit : 0 ≤ limit.toInt)
    (hkeeps : ∀ k, after k = (before k).filter fun a => !(moment a).expired limit now)
    (hfault : Overflow.subtract.When
      ((∃ k a, before k = some a ∧ Seconds.span ≤ now.toInt - (moment a).toInt) ∨ short) fault) :
    Sweeps build before (build.settle fault after) moment limit now short := by
  have hstays : ∀ k a, after k = some a ↔ before k = some a
      ∧ (now.toInt - (moment a).toInt ≤ limit.toInt
        ∨ Seconds.span ≤ now.toInt - (moment a).toInt) := by
    intro k a
    rw [hkeeps, Option.filter_eq_some_iff, Bool.not_eq_true', ← Bool.not_eq_true,
      Seconds.expired_iff_of_age hnow hlimit, not_and_or, Int.not_lt, Int.not_lt]
  have hfits : limit.toInt < Seconds.span := limit.toInt_lt
  constructor
  case stops => exact fun o => hfault.settle_eq_error_iff
  case stays =>
    -- with no fault on the way both builds leave the one table
    intro left hleft
    rw [← (hfault.settle_eq_ok_iff.mp hleft).1]
    exact hstays
  case exact_iff =>
    constructor
    · intro hexists
      obtain ⟨left, hleft, hexact⟩ := hexists
      obtain ⟨rfl, hruns⟩ := hfault.settle_eq_ok_iff.mp hleft
      refine ⟨fun k a ha => ?_, fun hbuild hshort => hruns hbuild (.inr hshort)⟩
      -- an age beyond a word counts as none, so its entry would still be there
      by_contra hage
      have hin := (hexact k a).mp ((hstays k a).mpr ⟨ha, .inr (Int.not_lt.mp hage)⟩)
      omega
    · rintro ⟨hages, hnot⟩
      refine ⟨after, hfault.settle_eq_ok_iff.mpr ⟨rfl, fun hbuild => ?_⟩, fun k a => ?_⟩
      · rintro (⟨k, a, ha, hage⟩ | hshort)
        · exact absurd (hages k a ha) (Int.not_lt.mpr hage)
        · exact hnot hbuild hshort
      · rw [hstays]
        refine and_congr_right fun ha => or_iff_left ?_
        exact Int.not_le.mpr (hages k a ha)
  case missed =>
    intro k a _ hage later hle other
    exact Seconds.expiredIn_ne_of_age (Int.le_trans hnow hle) hlimit (by omega) other

/-- Whatever moments the peers and the tickets bear, a sweep takes all of
them that are past the limit but those whose age does not fit in a word,
and in a checked build these stop it. Nothing else stops a sweep of tickets,
nor one of peers in a store whose counts are recounts and have room. -/
theorem sweeps_expire (build : Build) {now : Seconds} {limit : Int64} (hnow : 0 ≤ now.toInt)
    (hlimit : 0 < limit.toInt) :
    (∀ s : Store, Sweeps build (fun key : InfoHash × PeerId => s.peer? key.1 key.2)
        ((s.trimIn build now limit).map fun p key => p.1.peer? key.1 key.2)
        Peer.lastSeen limit now (s.Overdrawn now limit))
      ∧ (∀ s : Store, s.Consistent → s.Roomy → ¬s.Overdrawn now limit)
      ∧ ∀ c : Connections, c.maxAge = limit →
        Sweeps build c.tickets.get? ((c.collectIn build now).map fun p => p.1.tickets.get?)
          Ticket.issued limit now False := by
  have hlimit' := Int.le_of_lt hlimit
  refine ⟨fun s => ?_, fun s h hroom => h.not_overdrawn hroom, ?_⟩
  · unfold Store.trimIn
    rw [Build.map_settle]
    refine .of_settle hnow hlimit' (fun key => s.peer?_trim now limit key.1 key.2) ?_
    refine (s.trimFault?_when hnow).congr (or_congr_left ?_)
    rw [Prod.exists]
  · rintro c rfl
    unfold Connections.collectIn
    rw [Build.map_settle]
    refine .of_settle hnow hlimit' (fun client => c.get?_collect now client) ?_
    have hages : Overflow.subtract.When _ (c.collectFault? now) :=
      .findSome? fun t _ => Seconds.elapsedFault?_when hnow
    refine hages.congr ?_
    rw [Table.exists_mem_values_iff, or_false]

/-- Bytes that list tickets put them in force. -/
theorem Connections.restore?_encodeEntries (c : Connections)
    {entries : List (Endpoint × Ticket)} (hlength : entries.length < UInt32.size) :
    c.restore? (encodeEntries entries) = some (c.merge entries, entries.length) := by
  have hread := decodeEntries?_encode hlength []
  rw [List.append_nil] at hread
  unfold restore?
  rw [hread]
  rfl

/-- Bytes with moments on either side of the epoch, one of them as far back
as a word goes. A wrapping build takes one entry out of each, a checked one
stops. -/
theorem sweeps_expire_loaded :
    let host : Octets 4 := .replicate 4 10
    let peers : Snapshot := [(.replicate 20 1, [(.replicate 20 2, ⟨.v4 host, 1, true, -500⟩),
      (.replicate 20 3, ⟨.v4 host, 2, false, Int64.maxValue⟩),
      (.replicate 20 4, ⟨.v4 host, 3, false, Int64.minValue⟩)])]
    let tickets : List (Endpoint × Ticket) :=
      [(⟨.v4 host, 1⟩, ⟨7, 549⟩), (⟨.v4 host, 2⟩, ⟨8, 550⟩), (⟨.v4 host, 3⟩, ⟨9, Int64.minValue⟩)]
    (0 : Int) ≤ (1000 : Seconds).toInt ∧ (0 : Int) < (450 : Int64).toInt
      ∧ ∃ s c, Store.decode? peers.encode = some (s, 3)
        ∧ (Connections.empty 450).restore? (Connections.encodeEntries tickets) = some (c, 3)
        ∧ (∀ build, Sweeps build (fun key : InfoHash × PeerId => s.peer? key.1 key.2)
          ((s.trimIn build 1000 450).map fun p key => p.1.peer? key.1 key.2)
          Peer.lastSeen 450 1000 (s.Overdrawn 1000 450))
        ∧ (∀ build, Sweeps build c.tickets.get?
          ((c.collectIn build 1000).map fun p => p.1.tickets.get?) Ticket.issued 450 1000 False)
        ∧ (s.trimIn .wrapping 1000 450).map Prod.snd = .ok 1
        ∧ (c.collectIn .wrapping 1000).map Prod.snd = .ok 1
        ∧ s.trimIn .checked 1000 450 = .error .subtract
        ∧ c.collectIn .checked 1000 = .error .subtract := by
  intro host peers tickets
  have hnow : (0 : Int) ≤ (1000 : Seconds).toInt := by decide
  have hlimit : (0 : Int) < (450 : Int64).toInt := by decide
  have hpeers : Store.decode? peers.encode = _ := Store.decode?_encode (by decide) (by decide)
  have hloaded : (Store.ofSnapshot peers).2 = 3 := by decide
  have htickets := (Connections.empty 450).restore?_encodeEntries
    (show tickets.length < UInt32.size by decide)
  refine ⟨hnow, hlimit, (Store.ofSnapshot peers).1, _, ?_, htickets,
    fun build => (sweeps_expire build hnow hlimit).1 _,
    fun build => (sweeps_expire build hnow hlimit).2.2 _ rfl,
    by decide, by decide, by decide, by decide⟩
  rw [hpeers, ← hloaded]

/-- A peer and a ticket that are as old as a word can say are loaded like
any other, and no sweep takes them: a wrapping build leaves them, a checked
one stops. -/
theorem never_expired :
    let host : Octets 4 := .replicate 4 10
    let peer : Peer := ⟨.v4 host, 6881, false, Int64.minValue⟩
    let peers : Snapshot := [(.replicate 20 1, [(.replicate 20 2, peer)])]
    let tickets : List (Endpoint × Ticket) := [(⟨.v4 host, 6881⟩, ⟨7, Int64.minValue⟩)]
    (∃ s, Store.decode? peers.encode = some (s, 1)
        ∧ s.trimIn .wrapping 1000 450 = .ok (s, 0)
        ∧ s.trimIn .checked 1000 450 = .error .subtract
        ∧ s.peer? (.replicate 20 1) (.replicate 20 2) = some peer
        ∧ 450 < 1000 - peer.lastSeen.toInt)
      ∧ ∃ c, (Connections.empty 120).restore? (Connections.encodeEntries tickets) = some (c, 1)
        ∧ c.collectIn .wrapping 1000 = .ok (c, 0)
        ∧ c.collectIn .checked 1000 = .error .subtract
        ∧ c.tickets.get? ⟨.v4 host, 6881⟩ = some ⟨7, Int64.minValue⟩
        ∧ 120 < 1000 - Int64.minValue.toInt := by
  intro host peer peers tickets
  have hpeers : Store.decode? peers.encode = _ := Store.decode?_encode (by decide) (by decide)
  have htickets := (Connections.empty 120).restore?_encodeEntries
    (show tickets.length < UInt32.size by decide)
  have hloaded : (Store.ofSnapshot peers).2 = 1 := by decide
  refine ⟨⟨(Store.ofSnapshot peers).1, ?_, by decide, by decide, by decide, by decide⟩,
    _, htickets, by decide, by decide, by decide, by decide⟩
  rw [hpeers, ← hloaded]

end TorrentTracker
