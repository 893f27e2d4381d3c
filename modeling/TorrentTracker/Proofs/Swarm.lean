import Mathlib.Data.Option.Basic
import TorrentTracker.Proofs.Table
import TorrentTracker.Swarm

/-
What the operations of a swarm do to its peers, and that the running
count keeps up with them.

The count is a word of 32 bits that each operation adjusts on its own
branch. `Counted` says that it is the number of complete peers as far as
32 bits can tell. In that form the operations keep it without any bound
on the size of the swarm: additions and subtractions of words agree with
those of numbers, so no step has to know that nothing overflows. The bound
enters once, where a word is read back as a number (`Counted.toNat`).

# Main statements

- `get?_save`, `get?_remove`, `get?_trim`: the peers after an operation;
- `Counted.save`, `Counted.remove`, `Counted.trim`: the count keeps up;
- `Counted.subtractions`: what is subtracted from the count, or the count
  from the size, is never the larger of the two.
-/

namespace TorrentTracker

/-- A peer as it is filed over the one that was there: complete if either
is. -/
def Peer.over (p : Peer) (old : Option Peer) : Peer :=
  { p with complete := old.any Peer.complete || p.complete }

@[simp]
theorem Peer.over_none (p : Peer) : p.over none = p := by
  cases p
  rfl

namespace Swarm

/-- How many of the peers have the whole download. -/
def completeCount (w : Swarm) : Nat := w.peers.count Peer.complete

/-- How many of the peers have not. -/
def incompleteCount (w : Swarm) : Nat := w.peers.count fun p => !p.complete

/-- The running count is the number of complete peers, in 32 bits. -/
def Counted (w : Swarm) : Prop := w.seeders = UInt32.ofNat w.completeCount

theorem completeCount_le_size (w : Swarm) : w.completeCount ≤ w.peers.size :=
  Table.count_le_size _ _

/-- Every peer is complete or not, so the two counts add up to the size. -/
theorem completeCount_add_incompleteCount (w : Swarm) :
    w.completeCount + w.incompleteCount = w.peers.size :=
  Table.count_add_count_not _ _

-- ========================================================== the peers

/-- A save files the peer over the one under its id; the two branches of the
definition differ in the count alone. -/
theorem save_peers (w : Swarm) (id : PeerId) (p : Peer) :
    (w.save id p).peers = w.peers.insert id (p.over (w.peers.get? id)) := by
  unfold save
  cases h : w.peers.get? id with
  | none => rw [Peer.over_none]
  | some old => rfl

theorem get?_save (w : Swarm) (id id' : PeerId) (p : Peer) :
    (w.save id p).peers.get? id'
      = if id = id' then some (p.over (w.peers.get? id)) else w.peers.get? id' := by
  rw [save_peers, Table.get?_insert]

theorem isEmpty_save (w : Swarm) (id : PeerId) (p : Peer) :
    (w.save id p).peers.isEmpty = false := by
  refine Table.isEmpty_eq_false_iff.mpr ⟨id, p.over (w.peers.get? id), ?_⟩
  rw [get?_save, if_pos rfl]

/-- A removal erases the id, also where there was nobody to remove. -/
theorem remove_peers (w : Swarm) (id : PeerId) :
    (w.remove id).1.peers = w.peers.erase id := by
  unfold remove
  cases h : w.peers.get? id with
  | none => exact (Table.erase_of_get?_none h).symm
  | some old => rfl

theorem get?_remove (w : Swarm) (id id' : PeerId) :
    (w.remove id).1.peers.get? id' = if id = id' then none else w.peers.get? id' := by
  rw [remove_peers, Table.get?_erase]

/-- The answer of a removal is whether the peer was there before it. -/
theorem remove_snd (w : Swarm) (id : PeerId) :
    (w.remove id).2 = (w.peers.get? id).isSome := by
  unfold remove
  cases h : w.peers.get? id with
  | none => rfl
  | some old => rfl

theorem get?_trim (w : Swarm) (now : Seconds) (ttl : Int64) (id : PeerId) :
    (w.trim now ttl).peers.get? id
      = (w.peers.get? id).filter fun p => !stale now ttl p :=
  Table.get?_filterMap_unless _ _ _

-- ========================================================== the count

/-- The invariant to begin with: nobody is counted in a swarm without peers. -/
theorem counted_empty : empty.Counted := by
  simp [Counted, completeCount, empty]

/-- One more seeder is one more in the count. -/
theorem seedersWith_ofNat (n : Nat) (p : Peer) :
    seedersWith (UInt32.ofNat n) p
      = UInt32.ofNat (n + if p.complete then 1 else 0) := by
  unfold seedersWith
  by_cases hp : p.complete
  · rw [if_pos hp, if_pos hp, UInt32.ofNat_add]
    rfl
  · rw [if_neg hp, if_neg hp, Nat.add_zero]

/-- A save keeps the count right. What it adds is seen against the swarm
without the id: one for a complete peer, and one for a peer that is refreshed
and was complete before. -/
theorem Counted.save {w : Swarm} (h : w.Counted) (id : PeerId) (p : Peer) :
    (w.save id p).Counted := by
  unfold Counted completeCount
  rw [save_peers, Table.count_insert]
  unfold Swarm.save
  cases hold : w.peers.get? id with
  | none =>
      have hw : w.completeCount = (w.peers.erase id).count Peer.complete := by
        rw [Table.erase_of_get?_none hold]
        rfl
      rw [Peer.over_none, ← hw, ← seedersWith_ofNat, ← h]
  | some old =>
      have hw : w.completeCount
          = (w.peers.erase id).count Peer.complete + if old.complete then 1 else 0 :=
        Table.count_erase hold _
      show (if old.complete then w.seeders else seedersWith w.seeders p) = _
      rw [h, hw]
      by_cases hc : old.complete
      · simp [Peer.over, hc]
      · simp only [hc, Bool.false_eq_true, if_false, Nat.add_zero, seedersWith_ofNat]
        simp [Peer.over, hc]

/-- A removal takes one off the count if the peer that goes is complete, and
that is what goes from the recount. -/
theorem Counted.remove {w : Swarm} (h : w.Counted) (id : PeerId) :
    (w.remove id).1.Counted := by
  unfold Counted completeCount
  rw [remove_peers]
  unfold Swarm.remove
  cases hold : w.peers.get? id with
  | none =>
      rw [Table.erase_of_get?_none hold]
      exact h
  | some old =>
      have hw : w.completeCount
          = (w.peers.erase id).count Peer.complete + if old.complete then 1 else 0 :=
        Table.count_erase hold _
      show (if old.complete then w.seeders - 1 else w.seeders) = _
      rw [h, hw]
      by_cases hc : old.complete
      · rw [if_pos hc, if_pos hc, UInt32.ofNat_add]
        exact UInt32.add_sub_cancel _ _
      · rw [if_neg hc, if_neg hc, Nat.add_zero]

/-- A trim drops from the count the complete peers that are stale. -/
theorem completeCount_trim (w : Swarm) (now : Seconds) (ttl : Int64) :
    (w.trim now ttl).completeCount
        + w.peers.values.countP (fun p => stale now ttl p && p.complete)
      = w.completeCount :=
  Table.count_filterMap w.peers (stale now ttl) Peer.complete

/-- A trim takes off the count what goes from the recount, by
`completeCount_trim`. -/
theorem Counted.trim {w : Swarm} (h : w.Counted) (now : Seconds) (ttl : Int64) :
    (w.trim now ttl).Counted := by
  unfold Counted
  show w.seeders - UInt32.ofNat _ = _
  rw [h, ← w.completeCount_trim now ttl, UInt32.ofNat_add]
  exact UInt32.add_sub_cancel _ _

theorem size_trim_add (w : Swarm) (now : Seconds) (ttl : Int64) :
    (w.trim now ttl).peers.size + w.peers.count (stale now ttl) = w.peers.size :=
  Table.size_filterMap_add w.peers (stale now ttl)

/-- A trim leaves nothing for the same trim to do, neither a peer to drop nor
one to take off the count. -/
theorem trim_trim (w : Swarm) (now : Seconds) (ttl : Int64) :
    (w.trim now ttl).trim now ttl = w.trim now ttl := by
  have hpeers : ((w.trim now ttl).trim now ttl).peers = (w.trim now ttl).peers := by
    refine Table.ext_get? fun id => ?_
    rw [get?_trim, get?_trim, Option.filter_filter]
    simp only [Bool.and_self]
  have hgone : (w.trim now ttl).peers.count (fun p => stale now ttl p && p.complete) = 0 := by
    have hcount := Table.count_filterMap w.peers (stale now ttl)
      fun p => stale now ttl p && p.complete
    simp only [Bool.and_self_left] at hcount
    exact Nat.add_eq_right.mp hcount
  have hseeders : ((w.trim now ttl).trim now ttl).seeders = (w.trim now ttl).seeders := by
    show _ - UInt32.ofNat ((w.trim now ttl).peers.count _) = _
    rw [hgone]
    exact UInt32.sub_zero _
  exact congrArg₂ Swarm.mk hpeers hseeders

/-- A count that is a recount follows from the peers, so swarms with the same
peers are one swarm. -/
theorem Counted.ext {v w : Swarm} (hv : v.Counted) (hw : w.Counted)
    (h : v.peers = w.peers) : v = w := by
  obtain ⟨peers, seeders⟩ := v
  obtain ⟨peers', seeders'⟩ := w
  cases h
  have hseeders : seeders = seeders' := hv.trans hw.symm
  rw [hseeders]

-- ==================================================== reading it back

/-- With room for its peers in 32 bits, the running count of a swarm is the
number of complete ones. -/
theorem Counted.toNat {w : Swarm} (h : w.Counted) (hroom : w.peers.size < UInt32.size) :
    w.seeders.toNat = w.completeCount := by
  rw [h]
  exact UInt32.toNat_ofNat_of_lt' (Nat.lt_of_le_of_lt w.completeCount_le_size hroom)

theorem toNat_size {w : Swarm} (hroom : w.peers.size < UInt32.size) :
    (UInt32.ofNat w.peers.size).toNat = w.peers.size :=
  UInt32.toNat_ofNat_of_lt' hroom

/-- Whatever its size, the counts a swarm answers are those of a recount,
as far as words carry them. -/
theorem Counted.counts_eq {w : Swarm} (h : w.Counted) :
    w.counts = ⟨UInt32.ofNat w.completeCount, UInt32.ofNat w.incompleteCount⟩ := by
  unfold Swarm.counts
  rw [h, ← w.completeCount_add_incompleteCount, UInt32.ofNat_add, UInt32.add_comm,
    UInt32.add_sub_cancel]

/-- The counts a swarm answers are a recount. The incomplete ones are what is
left of its size, which needs no second counter. -/
theorem Counted.counts {w : Swarm} (h : w.Counted) (hroom : w.peers.size < UInt32.size) :
    w.counts.complete.toNat = w.completeCount
      ∧ w.counts.incomplete.toNat = w.incompleteCount := by
  have hsum := w.completeCount_add_incompleteCount
  rw [h.counts_eq]
  exact ⟨UInt32.toNat_ofNat_of_lt' (by omega), UInt32.toNat_ofNat_of_lt' (by omega)⟩

/-- The subtractions on a swarm, none of which goes below zero: the count
from the size, one from the count when a complete peer goes, and the stale
complete peers from the count. -/
structure Subtractions (w : Swarm) : Prop where
  counts : w.seeders ≤ UInt32.ofNat w.peers.size
  remove : ∀ id old, w.peers.get? id = some old → old.complete → 1 ≤ w.seeders
  trim : ∀ now ttl,
    UInt32.ofNat (w.peers.values.countP fun p => stale now ttl p && p.complete) ≤ w.seeders

/-- With room for the peers no subtraction goes below zero: the count is a
recount then, and what is taken from it is a part of it. -/
theorem Counted.subtractions {w : Swarm} (h : w.Counted)
    (hroom : w.peers.size < UInt32.size) : w.Subtractions where
  counts := by
    rw [UInt32.le_iff_toNat_le, h.toNat hroom, toNat_size hroom]
    exact w.completeCount_le_size
  remove := by
    intro id old hold hc
    have hw : w.completeCount = _ := Table.count_erase hold Peer.complete
    rw [if_pos hc] at hw
    rw [UInt32.le_iff_toNat_le, h.toNat hroom, hw]
    exact Nat.le_add_left _ _
  trim := by
    intro now ttl
    rw [UInt32.le_iff_toNat_le, h.toNat hroom, ← w.completeCount_trim now ttl]
    exact Nat.le_trans (Nat.mod_le _ _) (Nat.le_add_left _ _)

end Swarm

end TorrentTracker
