import TorrentTracker.Proofs.Announce

/-
One entry of a store, and what an announce leaves of the rest.

A store that differs from another in one entry (`SameBut`) has the same
swarms under all other hashes, and under the hash itself the same peers
under all other ids. Two things follow the peers there, and a frame has to
speak of both: the swarm is there as long as a peer is, and its two counts
are made of shares, one for each peer.

The shares are words, and so is the sum of what an entry had and of what
it has now. So no size is bounded here, and the count of a swarm need not
be a recount.

# Main statements

- `Store.sameBut_save`, `Store.sameBut_drop`: the two changes of one peer;
- `Announce.sameBut_apply`: an announce has no effect on any peer but the
  one it names.
-/

namespace TorrentTracker

-- =============================================================== shares

attribute [ext] SwarmCounts

/-- Counts are added as words. -/
instance : Add SwarmCounts :=
  ⟨fun a b => ⟨a.complete + b.complete, a.incomplete + b.incomplete⟩⟩

/-- What the entry under an id has of the counts of its swarm. -/
def SwarmCounts.share : Option Peer → SwarmCounts
  | none => ⟨0, 0⟩
  | some p => if p.complete then ⟨1, 0⟩ else ⟨0, 1⟩

/-- A share is one peer's, if there is a peer. -/
theorem SwarmCounts.share_sum (p : Option Peer) :
    (share p).complete + (share p).incomplete = UInt32.ofNat (if p.isSome then 1 else 0) := by
  cases p with
  | none => rfl
  | some p => by_cases hp : p.complete <;> simp [share, hp]

namespace Swarm

/-- Swarms with the same peers but for one have counts that differ by its
shares, if the running counts do. -/
theorem counts_add_share {v w : Swarm} {id : PeerId}
    (hpeers : v.peers.erase id = w.peers.erase id)
    (hseeders : v.seeders + (SwarmCounts.share (w.peers.get? id)).complete
      = w.seeders + (SwarmCounts.share (v.peers.get? id)).complete) :
    v.counts + .share (w.peers.get? id) = w.counts + .share (v.peers.get? id) := by
  have hv := congrArg UInt32.ofNat (v.peers.size_erase_add id)
  have hw := congrArg UInt32.ofNat (w.peers.size_erase_add id)
  rw [UInt32.ofNat_add, ← SwarmCounts.share_sum] at hv hw
  rw [hpeers] at hv
  refine SwarmCounts.ext hseeders ?_
  show UInt32.ofNat v.peers.size - v.seeders + _ = UInt32.ofNat w.peers.size - w.seeders + _
  grind

variable (w : Swarm) (id : PeerId)

/-- A save moves the counts of its swarm by the share of one peer, as it was
and as it is. -/
theorem counts_save (p : Peer) :
    (w.save id p).counts + .share (w.peers.get? id)
      = w.counts + .share ((w.save id p).peers.get? id) := by
  apply counts_add_share
  · rw [save_peers, Table.erase_insert_self]
  · rw [get?_save, if_pos rfl]
    unfold save
    cases w.peers.get? id with
    | none => by_cases hp : p.complete <;> simp [SwarmCounts.share, seedersWith, hp]
    | some old =>
        by_cases hold : old.complete
        · simp [SwarmCounts.share, Peer.over, hold]
        · by_cases hp : p.complete <;>
            simp [SwarmCounts.share, Peer.over, seedersWith, hold, hp]

theorem counts_remove :
    (w.remove id).1.counts + .share (w.peers.get? id)
      = w.counts + .share ((w.remove id).1.peers.get? id) := by
  apply counts_add_share
  · rw [remove_peers, Table.erase_erase_self]
  · rw [get?_remove, if_pos rfl]
    unfold remove
    cases w.peers.get? id with
    | none => rfl
    | some old => by_cases hold : old.complete <;> simp [SwarmCounts.share, hold]

end Swarm

namespace Store

-- ================================================================ frame

/-- A store that is another but for what is under one hash and one id. -/
structure SameBut (before after : Store) (hash : InfoHash) (id : PeerId) : Prop where
  swarms : ∀ hash', hash' ≠ hash → after.swarms.get? hash' = before.swarms.get? hash'
  peers : ∀ id', id' ≠ id → after.peer? hash id' = before.peer? hash id'
  /-- The counts of the swarm lose the share of the entry that was and gain
  that of the entry that is. -/
  counts : after.swarms.get? hash ≠ none →
    after.counts hash + .share (before.peer? hash id)
      = before.counts hash + .share (after.peer? hash id)
  gone : after.swarms.get? hash = none ↔ ∀ id', after.peer? hash id' = none

/-- A hash without a swarm is answered for like one without peers. -/
theorem counts_eq (s : Store) (hash : InfoHash) : s.counts hash = (s.swarm hash).counts := by
  unfold counts
  cases h : s.swarms.get? hash with
  | none =>
      rw [swarm_of_get?_none h]
      rfl
  | some w => rw [swarm_of_get? h]

variable (s : Store) (hash : InfoHash) (id : PeerId)

/-- A save leaves a store that is another but for one entry. The swarm of
the hash gains the peer, or has it replaced, and its shares of the counts
with it. -/
theorem sameBut_save (p : Peer) : SameBut s (s.save hash id p) hash id := by
  have hswarm : (s.save hash id p).swarm hash = (s.swarm hash).save id p := by
    rw [swarm_save, if_pos rfl]
  constructor
  case swarms =>
    intro hash' hne
    show (Table.insert _ _ _).get? hash' = _
    rw [Table.get?_insert, if_neg hne.symm]
  case peers =>
    intro id' hne
    rw [peer?_save, if_neg fun h => hne h.2.symm]
  case counts =>
    intro _
    -- only the swarm of the hash has other shares than before
    unfold peer?
    rw [counts_eq, counts_eq, hswarm]
    exact Swarm.counts_save _ id p
  case gone =>
    constructor
    · exact peer?_of_get?_none
    · intro hnone
      have hpeer := hnone id
      rw [peer?_save, if_pos ⟨rfl, rfl⟩] at hpeer
      cases hpeer

/-- A drop leaves its swarm without the peer, or no swarm, and the others
alone. -/
theorem get?_drop (hash' : InfoHash) :
    (s.drop hash id).1.swarms.get? hash'
      = if hash = hash' then
          ((s.removePeer hash id).1.swarms.get? hash).filter fun w => !w.peers.isEmpty
        else s.swarms.get? hash' := by
  unfold drop
  rw [get?_prune]
  by_cases hh : hash = hash'
  · rw [if_pos hh, if_pos hh]
  · rw [if_neg hh, if_neg hh]
    unfold removePeer
    cases s.swarms.get? hash with
    | none => rfl
    | some w =>
        show (Table.insert _ _ _).get? hash' = _
        rw [Table.get?_insert, if_neg hh]

/-- So does a drop, and so the same is left by it. -/
theorem sameBut_drop : SameBut s (s.drop hash id).1 hash id := by
  constructor
  case swarms =>
    intro hash' hne
    rw [get?_drop, if_neg hne.symm]
  case peers =>
    intro id' hne
    rw [peer?_drop, if_neg fun h => hne h.2.symm]
  case counts =>
    intro hsome
    obtain ⟨w, hw⟩ := Option.ne_none_iff_exists'.mp hsome
    -- what stays is the swarm that the peer was taken out of
    have hswarm : w = ((s.swarm hash).remove id).1 := by
      rw [get?_drop, if_pos rfl] at hw
      have hkept := swarm_of_get? (Option.filter_eq_some_iff.mp hw).1
      rw [swarm_removePeer, if_pos rfl] at hkept
      exact hkept.symm
    rw [peer?_of_get? hw, counts_eq, counts_eq, swarm_of_get? hw, hswarm]
    exact Swarm.counts_remove _ id
  case gone =>
    constructor
    · exact peer?_of_get?_none
    · intro hnone
      cases hw : (s.drop hash id).1.swarms.get? hash with
      | none => rfl
      | some w =>
          have hfilter := hw
          rw [get?_drop, if_pos rfl] at hfilter
          have hinhabited : w.peers.isEmpty = false := by
            simpa using (Option.filter_eq_some_iff.mp hfilter).2
          obtain ⟨id', p, hp⟩ := Table.isEmpty_eq_false_iff.mp hinhabited
          rw [← peer?_of_get? hw, hnone] at hp
          cases hp

end Store

/-- And so does an announce, which is one or the other. -/
theorem Announce.sameBut_apply (a : Announce) (store : Store) (now : Seconds) :
    store.SameBut (a.apply store now) a.infoHash a.peerId := by
  by_cases hevent : a.event = .stopped
  · rw [apply_of_stopped hevent]
    exact store.sameBut_drop _ _
  · rw [apply_of_not_stopped hevent]
    exact store.sameBut_save _ _ _

end TorrentTracker
