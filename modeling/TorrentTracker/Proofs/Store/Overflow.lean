import TorrentTracker.Proofs.Clock
import TorrentTracker.Proofs.Store.Reached

/-
What stops an operation on a store in a checked build.

Words are subtracted in three places: the moment of a peer from the clock,
peers that go from a running count, and a running count from the size of
its swarm. So whatever overflows overflows by a subtraction, and the only
question is when.

A sweep that meets a peer whose age does not fit stops there. It also stops
at a swarm with more complete peers to take out than it counted. That can
come of bytes that name a peer twice, but not of operations: where every
count is a recount and has room, no subtraction on a swarm goes below zero
(`Swarm.Counted.subtractions`), so there all that can stop a store is an
age.

# Main statements

- `trimFault?_when`: what stops a sweep, in any store;
- `Consistent.not_overdrawn`, `Consistent.dropFault?`,
  `Consistent.countsFault?`: what does not stop a store whose books are in
  order.
-/

namespace TorrentTracker

variable {κ α : Type} [Table.Key κ] {now : Seconds} {ttl : Int64}

/-- The values of a table are what is found under its keys. -/
theorem Table.exists_mem_values_iff {t : Table κ α} {p : α → Prop} :
    (∃ a ∈ t.values, p a) ↔ ∃ k a, t.get? k = some a ∧ p a := by
  constructor
  · intro hexists
    obtain ⟨a, ha, hp⟩ := hexists
    obtain ⟨x, hx, rfl⟩ := List.mem_map.mp ha
    exact ⟨x.1, x.2, Table.mem_toList_iff.mp hx, hp⟩
  · intro hexists
    obtain ⟨k, a, ha, hp⟩ := hexists
    exact ⟨a, List.mem_map.mpr ⟨(k, a), Table.mem_toList_iff.mpr ha, rfl⟩, hp⟩

namespace Swarm

variable {w : Swarm}

/-- There are more complete peers for a sweep to take out than were
counted. -/
def Overdrawn (w : Swarm) (now : Seconds) (ttl : Int64) : Prop :=
  w.seeders.toNat < w.peers.count fun p => stale now ttl p && p.complete

/-- The trim of a swarm stops at a peer whose age does not fit, and at a count
that is too small. -/
theorem trimFault?_when (w : Swarm) (hnow : 0 ≤ now.toInt) :
    Overflow.subtract.When
      ((∃ id p, w.peers.get? id = some p ∧ Seconds.span ≤ now.toInt - p.lastSeen.toInt)
        ∨ w.Overdrawn now ttl)
      (w.trimFault? now ttl) := by
  have hages : Overflow.subtract.When _
      (w.peers.values.findSome? fun p => p.lastSeen.elapsedFault? now) :=
    .findSome? fun p _ => Seconds.elapsedFault?_when hnow
  exact (hages.or (Overflow.when_ifNot _ _)).congr
    (or_congr Table.exists_mem_values_iff Nat.not_le)

/-- Who goes was counted, if the count is a recount and has room, so there is
enough to take off. -/
theorem Counted.not_overdrawn (h : w.Counted) (hroom : w.peers.size < UInt32.size) :
    ¬w.Overdrawn now ttl := by
  have hgone := w.completeCount_trim now ttl
  unfold Overdrawn
  rw [h.toNat hroom, ← hgone]
  exact Nat.not_lt.mpr (Nat.le_add_left _ _)

/-- So a complete peer that is removed can be taken off the count: it is one of
those that were counted. -/
theorem Counted.removeFault? (h : w.Counted) (hroom : w.peers.size < UInt32.size)
    (id : PeerId) : w.removeFault? id = none := by
  unfold Swarm.removeFault?
  cases hold : w.peers.get? id with
  | none => rfl
  | some old =>
      dsimp only
      split
      · next hcomplete =>
          exact Overflow.ifNot_eq_none_iff.mpr
            ((h.subtractions hroom).remove id old hold hcomplete)
      · rfl

theorem Counted.countsFault? (h : w.Counted) (hroom : w.peers.size < UInt32.size) :
    w.countsFault? = none :=
  Overflow.ifNot_eq_none_iff.mpr (h.subtractions hroom).counts

end Swarm

namespace Store

variable {s : Store}

/-- Some swarm has more complete peers for a sweep to take out than it
counted. -/
def Overdrawn (s : Store) (now : Seconds) (ttl : Int64) : Prop :=
  ∃ hash w, s.swarms.get? hash = some w ∧ w.Overdrawn now ttl

/-- A sweep of any store stops at a peer whose age does not fit, and at a
swarm that counted too few. -/
theorem trimFault?_when (s : Store) (hnow : 0 ≤ now.toInt) :
    Overflow.subtract.When
      ((∃ hash id p, s.peer? hash id = some p
          ∧ Seconds.span ≤ now.toInt - p.lastSeen.toInt)
        ∨ s.Overdrawn now ttl)
      (s.trimFault? now ttl) := by
  have hswarms : Overflow.subtract.When _ (s.trimFault? now ttl) :=
    .findSome? fun w _ => w.trimFault?_when hnow
  refine hswarms.congr ?_
  rw [Table.exists_mem_values_iff]
  constructor
  · intro hexists
    obtain ⟨hash, w, hw, hold | hshort⟩ := hexists
    · obtain ⟨id, p, hp, hage⟩ := hold
      rw [← peer?_of_get? hw] at hp
      exact .inl ⟨hash, id, p, hp, hage⟩
    · exact .inr ⟨hash, w, hw, hshort⟩
  · rintro (⟨hash, id, p, hp, hage⟩ | ⟨hash, w, hw, hshort⟩)
    · cases hw : s.swarms.get? hash with
      | none =>
          rw [peer?_of_get?_none hw] at hp
          cases hp
      | some w =>
          rw [peer?_of_get? hw] at hp
          exact ⟨hash, w, hw, .inl ⟨id, p, hp, hage⟩⟩
    · exact ⟨hash, w, hw, .inr hshort⟩

/-- None of the swarms of such a store counted too few. -/
theorem Consistent.not_overdrawn (h : s.Consistent) (hroom : s.Roomy) :
    ¬s.Overdrawn now ttl := by
  rintro ⟨hash, w, hw, hshort⟩
  exact (h.counted hw).not_overdrawn (hroom.size_lt hw) hshort

theorem Consistent.dropFault? (h : s.Consistent) (hroom : s.Roomy) (hash : InfoHash)
    (id : PeerId) : s.dropFault? hash id = none := by
  refine Option.bind_eq_none_iff.mpr fun w hw => ?_
  exact (h.counted hw).removeFault? (hroom.size_lt hw) id

theorem Consistent.countsFault? (h : s.Consistent) (hroom : s.Roomy) (hash : InfoHash) :
    s.countsFault? hash = none := by
  refine Option.bind_eq_none_iff.mpr fun w hw => ?_
  exact (h.counted hw).countsFault? (hroom.size_lt hw)

end Store

end TorrentTracker
