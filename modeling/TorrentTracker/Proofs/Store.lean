import TorrentTracker.Proofs.Swarm
import TorrentTracker.Store

/-
What the operations of the store do to its peers, and the invariant that
makes the peers all there is to know.

A store is a table of tables with a running count in each swarm. The laws
below describe every operation by the one question `peer?`: which peer is
under this hash and this id? They need no invariant. What they leave out
(empty swarms, running counts) is what `Consistent` pins down: every swarm
has a peer and every count is a recount. Two consistent stores with the
same peers are one store (`Consistent.ext`), so that an equation between
stores comes down to `peer?` on both sides. The first half alone,
`Populated`, also holds of stores whose counts came from elsewhere, and it
is enough to tell which swarms there are.

# Main statements

- `peer?_save`, `peer?_drop`, `peer?_trim`: the peers after an operation;
- `Populated.save`, `Populated.drop`, `Populated.trim`, and the same of
  `Consistent`: what is kept;
- `Populated.samePeers`: populated stores with the same peers have the same
  swarms;
- `Consistent.ext`: the peers tell consistent stores apart.
-/

namespace TorrentTracker.Store

-- =========================================================== the swarms

/-- Where there is a swarm, `swarm` is that swarm. -/
theorem swarm_of_get? {s : Store} {hash : InfoHash} {w : Swarm}
    (h : s.swarms.get? hash = some w) : s.swarm hash = w := by
  unfold swarm
  rw [h]
  rfl

/-- Where there is none, `swarm` stands in with no peers. -/
theorem swarm_of_get?_none {s : Store} {hash : InfoHash}
    (h : s.swarms.get? hash = none) : s.swarm hash = Swarm.empty := by
  unfold swarm
  rw [h]
  rfl

theorem peer?_of_get? {s : Store} {hash : InfoHash} {w : Swarm}
    (h : s.swarms.get? hash = some w) (id : PeerId) :
    s.peer? hash id = w.peers.get? id := by
  unfold peer?
  rw [swarm_of_get? h]

theorem peer?_of_get?_none {s : Store} {hash : InfoHash}
    (h : s.swarms.get? hash = none) (id : PeerId) : s.peer? hash id = none := by
  unfold peer?
  rw [swarm_of_get?_none h]
  exact Table.get?_empty id

@[simp]
theorem peer?_empty (hash : InfoHash) (id : PeerId) : empty.peer? hash id = none :=
  peer?_of_get?_none (Table.get?_empty hash) id

/-- A save changes one swarm, which may not have been there before. -/
theorem swarm_save (s : Store) (hash hash' : InfoHash) (id : PeerId) (p : Peer) :
    (s.save hash id p).swarm hash'
      = if hash = hash' then (s.swarm hash).save id p else s.swarm hash' := by
  unfold save
  show (Table.get? _ hash').getD Swarm.empty = _
  rw [Table.get?_insert]
  split
  · rfl
  · rfl

/-- The first step of a drop changes one swarm. The swarm stays, even if that
was its last peer; the second step sees to it. -/
theorem swarm_removePeer (s : Store) (hash hash' : InfoHash) (id : PeerId) :
    (s.removePeer hash id).1.swarm hash'
      = if hash = hash' then ((s.swarm hash).remove id).1 else s.swarm hash' := by
  unfold removePeer
  cases h : s.swarms.get? hash with
  | none =>
      rw [swarm_of_get?_none h]
      by_cases hh : hash = hash'
      · subst hh
        rw [if_pos rfl]
        exact swarm_of_get?_none h
      · rw [if_neg hh]
  | some w =>
      rw [swarm_of_get? h]
      show (Table.get? _ hash').getD Swarm.empty = _
      rw [Table.get?_insert]
      split
      · rfl
      · rfl

-- ============================================================ the peers

/-- A save shows under its own hash and id and nowhere else, with the flag of
the entry it replaces. -/
theorem peer?_save (s : Store) (hash hash' : InfoHash) (id id' : PeerId) (p : Peer) :
    (s.save hash id p).peer? hash' id'
      = if hash = hash' ∧ id = id' then some (p.over (s.peer? hash id))
        else s.peer? hash' id' := by
  unfold peer?
  rw [swarm_save]
  by_cases hh : hash = hash'
  · subst hh
    rw [if_pos rfl, Swarm.get?_save]
    simp only [true_and]
  · rw [if_neg hh, if_neg fun h => hh h.1]

/-- The first step of a drop shows under its own hash and id and nowhere
else. -/
theorem peer?_removePeer (s : Store) (hash hash' : InfoHash) (id id' : PeerId) :
    (s.removePeer hash id).1.peer? hash' id'
      = if hash = hash' ∧ id = id' then none else s.peer? hash' id' := by
  unfold peer?
  rw [swarm_removePeer]
  by_cases hh : hash = hash'
  · subst hh
    rw [if_pos rfl, Swarm.get?_remove]
    simp only [true_and]
  · rw [if_neg hh, if_neg fun h => hh h.1]

/-- The answer of a drop is whether the peer was there before it. -/
theorem removePeer_snd (s : Store) (hash : InfoHash) (id : PeerId) :
    (s.removePeer hash id).2 = (s.peer? hash id).isSome := by
  unfold removePeer
  cases h : s.swarms.get? hash with
  | none =>
      rw [peer?_of_get?_none h]
      rfl
  | some w =>
      rw [peer?_of_get? h]
      exact Swarm.remove_snd w id

/-- Pruning takes away a swarm only when there is no peer in it, so no peer is
lost by it. -/
theorem peer?_prune (s : Store) (hash hash' : InfoHash) (id : PeerId) :
    (s.prune hash).peer? hash' id = s.peer? hash' id := by
  unfold prune
  cases h : s.swarms.get? hash with
  | none => rfl
  | some w =>
      by_cases hw : w.peers.isEmpty
      · simp only [hw, if_true]
        by_cases hh : hash = hash'
        · subst hh
          rw [peer?_of_get? h, Table.isEmpty_iff_get?.mp hw]
          exact peer?_of_get?_none (Table.get?_erase_self _ _) id
        · unfold peer? swarm
          rw [Table.get?_erase, if_neg hh]
      · simp only [hw, Bool.false_eq_true, if_false]

/-- A drop shows under its own hash and id and nowhere else. That an empty
swarm goes with the peer cannot be seen from the peers. -/
theorem peer?_drop (s : Store) (hash hash' : InfoHash) (id id' : PeerId) :
    (s.drop hash id).1.peer? hash' id'
      = if hash = hash' ∧ id = id' then none else s.peer? hash' id' := by
  unfold drop
  rw [peer?_prune, peer?_removePeer]

/-- A drop says whether the peer was there. -/
theorem drop_snd (s : Store) (hash : InfoHash) (id : PeerId) :
    (s.drop hash id).2 = (s.peer? hash id).isSome := by
  unfold drop
  exact removePeer_snd s hash id

/-- The swarm that a trim leaves under a hash: the one that was there, trimmed,
unless nobody stays in it. -/
theorem get?_trim (s : Store) (now : Seconds) (ttl : Int64) (hash : InfoHash) :
    (s.trim now ttl).1.swarms.get? hash
      = ((s.swarms.get? hash).map fun w => w.trim now ttl).filter
          fun w => !w.peers.isEmpty := by
  unfold trim
  rw [Table.get?_filterMap]
  cases s.swarms.get? hash with
  | none => rfl
  | some w =>
      rw [Option.bind_some, Option.map_some, Option.filter_some]
      by_cases hw : (w.trim now ttl).peers.isEmpty <;> simp [hw]

/-- A trim keeps, of all peers, who is not stale. That emptied swarms go as
well cannot be seen from the peers. -/
theorem peer?_trim (s : Store) (now : Seconds) (ttl : Int64) (hash : InfoHash)
    (id : PeerId) :
    (s.trim now ttl).1.peer? hash id
      = (s.peer? hash id).filter fun p => !Swarm.stale now ttl p := by
  cases h : s.swarms.get? hash with
  | none =>
      rw [peer?_of_get?_none h, peer?_of_get?_none]
      · rfl
      · rw [get?_trim, h]
        rfl
  | some w =>
      rw [peer?_of_get? h, ← Swarm.get?_trim]
      by_cases hw : (w.trim now ttl).peers.isEmpty
      · rw [Table.isEmpty_iff_get?.mp hw, peer?_of_get?_none]
        rw [get?_trim, h, Option.map_some, Option.filter_some, hw]
        rfl
      · have hkept : (s.trim now ttl).1.swarms.get? hash = some (w.trim now ttl) := by
          rw [get?_trim, h, Option.map_some, Option.filter_some, if_pos (by simpa using hw)]
        exact peer?_of_get? hkept id

-- ======================================================== which swarms

/-- The swarm that pruning leaves under a hash: the one that was there unless
it is empty. Under another hash it leaves all as it was. -/
theorem get?_prune (s : Store) (hash hash' : InfoHash) :
    (s.prune hash).swarms.get? hash'
      = if hash = hash' then (s.swarms.get? hash).filter fun w => !w.peers.isEmpty
        else s.swarms.get? hash' := by
  unfold prune
  cases h : s.swarms.get? hash with
  | none =>
      by_cases hh : hash = hash'
      · subst hh
        rw [if_pos rfl]
        exact h
      · rw [if_neg hh]
  | some w =>
      rw [Option.filter_some]
      by_cases hw : w.peers.isEmpty
      · simp only [hw, if_true, Bool.not_true, Bool.false_eq_true, if_false]
        rw [Table.get?_erase]
      · simp only [hw, Bool.false_eq_true, if_false, Bool.not_false, if_true]
        by_cases hh : hash = hash'
        · subst hh
          rw [if_pos rfl]
          exact h
        · rw [if_neg hh]

/-- Taking a peer out leaves every swarm but its own as it is. -/
theorem get?_removePeer_of_ne (s : Store) {hash hash' : InfoHash} (id : PeerId)
    (hne : hash ≠ hash') :
    (s.removePeer hash id).1.swarms.get? hash' = s.swarms.get? hash' := by
  unfold removePeer
  cases s.swarms.get? hash with
  | none => rfl
  | some w =>
      show (s.swarms.insert hash (w.remove id).1).get? hash' = _
      rw [Table.get?_insert, if_neg hne]

/-- Every swarm has a peer. -/
def Populated (s : Store) : Prop :=
  ∀ hash w, s.swarms.get? hash = some w → w.peers.isEmpty = false

theorem populated_empty : Populated empty := by
  intro hash w h
  cases (Table.get?_empty hash).symm.trans h

/-- The swarm of a save has a peer, and the others are as they were, so none is
without peers. -/
theorem Populated.save {s : Store} (h : s.Populated) (hash : InfoHash) (id : PeerId)
    (p : Peer) : (s.save hash id p).Populated := by
  intro hash' w hw
  have hw' : (s.swarms.insert hash ((s.swarm hash).save id p)).get? hash' = some w := hw
  rw [Table.get?_insert] at hw'
  split at hw'
  · cases hw'
    exact Swarm.isEmpty_save _ id p
  · exact h hash' w hw'

/-- Taking a peer out can leave its own swarm empty, and no other. -/
theorem Populated.inhabited_removePeer {s : Store} (h : s.Populated) (hash : InfoHash)
    (id : PeerId) {hash' : InfoHash} {w : Swarm} (hne : hash ≠ hash')
    (hw : (s.removePeer hash id).1.swarms.get? hash' = some w) :
    w.peers.isEmpty = false := by
  rw [s.get?_removePeer_of_ne id hne] at hw
  exact h hash' w hw

/-- The one swarm that the first step of a drop can empty is the one that the
second step looks at. -/
theorem Populated.drop {s : Store} (h : s.Populated) (hash : InfoHash) (id : PeerId) :
    (s.drop hash id).1.Populated := by
  intro hash' w hw
  have hw' : ((s.removePeer hash id).1.prune hash).swarms.get? hash' = some w := hw
  rw [get?_prune] at hw'
  split at hw'
  · have hkept := (Option.filter_eq_some_iff.mp hw').2
    simpa using hkept
  · next hne => exact h.inhabited_removePeer hash id hne hw'

/-- A trim leaves no swarm empty. -/
theorem populated_trim (s : Store) (now : Seconds) (ttl : Int64) :
    (s.trim now ttl).1.Populated := by
  intro hash w hw
  rw [get?_trim] at hw
  have hkept := (Option.filter_eq_some_iff.mp hw).2
  simpa using hkept

/-- Which swarms a populated store has can be seen from its peers: a hash
without a peer is one without a swarm. -/
theorem Populated.get?_eq_none_iff {s : Store} (h : s.Populated) {hash : InfoHash} :
    s.swarms.get? hash = none ↔ ∀ id, s.peer? hash id = none := by
  constructor
  · exact fun hnone id => peer?_of_get?_none hnone id
  · intro hnone
    cases hw : s.swarms.get? hash with
    | none => rfl
    | some w =>
        obtain ⟨id, p, hp⟩ := Table.isEmpty_eq_false_iff.mp (h hash w hw)
        rw [← peer?_of_get? hw, hnone] at hp
        cases hp

/-- The stores have the same swarms with the same peers. -/
def SamePeers (s t : Store) : Prop :=
  ∀ hash, (s.swarms.get? hash).map Swarm.peers = (t.swarms.get? hash).map Swarm.peers

/-- Populated stores in which the same peers are found have the same
swarms. -/
theorem Populated.samePeers {s t : Store} (hs : s.Populated) (ht : t.Populated)
    (h : ∀ hash id, s.peer? hash id = t.peer? hash id) : s.SamePeers t := by
  intro hash
  have hnone : s.swarms.get? hash = none ↔ t.swarms.get? hash = none := by
    rw [hs.get?_eq_none_iff, ht.get?_eq_none_iff]
    simp only [h]
  cases hv : s.swarms.get? hash with
  | none => rw [hnone.mp hv]
  | some v =>
      cases hw : t.swarms.get? hash with
      | none =>
          rw [hnone.mpr hw] at hv
          cases hv
      | some w =>
          refine congrArg some (Table.ext_get? fun id => ?_)
          rw [← peer?_of_get? hv, h, peer?_of_get? hw]

-- ======================================================== the invariant

/-- Every running count is a recount, also where there is no swarm. -/
def Counted (s : Store) : Prop := ∀ hash, (s.swarm hash).Counted

/-- The invariant need only be checked where there is a swarm; elsewhere there
is nothing to count. -/
theorem counted_iff {s : Store} :
    s.Counted ↔ ∀ hash w, s.swarms.get? hash = some w → w.Counted := by
  constructor
  · intro h hash w hw
    rw [← swarm_of_get? hw]
    exact h hash
  · intro h hash
    cases hw : s.swarms.get? hash with
    | none =>
        rw [swarm_of_get?_none hw]
        exact Swarm.counted_empty
    | some w =>
        rw [swarm_of_get? hw]
        exact h hash w hw

/-- A save keeps every count right, as it does in its own swarm; it does
nothing to the others. -/
theorem Counted.save {s : Store} (h : s.Counted) (hash : InfoHash) (id : PeerId) (p : Peer) :
    (s.save hash id p).Counted := by
  intro hash'
  rw [swarm_save]
  split
  · exact (h hash).save id p
  · exact h hash'

theorem Counted.removePeer {s : Store} (h : s.Counted) (hash : InfoHash) (id : PeerId) :
    (s.removePeer hash id).1.Counted := by
  intro hash'
  rw [swarm_removePeer]
  split
  · exact (h hash).remove id
  · exact h hash'

/-- The second step of a drop keeps the counts right too: it takes a swarm away
as a whole or leaves it as it is. -/
theorem Counted.prune {s : Store} (h : s.Counted) (hash : InfoHash) :
    (s.prune hash).Counted := by
  refine counted_iff.mpr fun hash' w hw => ?_
  rw [get?_prune] at hw
  split at hw
  · exact counted_iff.mp h hash w (Option.filter_eq_some_iff.mp hw).1
  · exact counted_iff.mp h hash' w hw

/-- So does a trim, which trims each swarm for itself. -/
theorem Counted.trim {s : Store} (h : s.Counted) (now : Seconds) (ttl : Int64) :
    (s.trim now ttl).1.Counted := by
  refine counted_iff.mpr fun hash w hw => ?_
  rw [get?_trim] at hw
  obtain ⟨v, hv, rfl⟩ := Option.map_eq_some_iff.mp (Option.filter_eq_some_iff.mp hw).1
  exact (counted_iff.mp h hash v hv).trim now ttl

/-- Every swarm has a peer, and every running count is a recount. -/
structure Consistent (s : Store) : Prop where
  inhabited : ∀ {hash w}, s.swarms.get? hash = some w → w.peers.isEmpty = false
  counted : ∀ {hash w}, s.swarms.get? hash = some w → w.Counted

/-- The invariant has two independent halves, of the swarms and of the counts,
and the operations keep each for itself. -/
theorem consistent_iff {s : Store} : s.Consistent ↔ s.Populated ∧ s.Counted := by
  rw [counted_iff]
  exact ⟨fun h => ⟨fun _ _ => h.inhabited, fun _ _ => h.counted⟩, fun h => ⟨h.1 _ _, h.2 _ _⟩⟩

theorem Consistent.populated {s : Store} (h : s.Consistent) : s.Populated :=
  (consistent_iff.mp h).1

theorem Consistent.counted_swarm {s : Store} (h : s.Consistent) : s.Counted :=
  (consistent_iff.mp h).2

theorem consistent_empty : Consistent empty where
  inhabited := fun h => populated_empty _ _ h
  counted := by
    intro hash w h
    cases (Table.get?_empty hash).symm.trans h

theorem Consistent.save {s : Store} (h : s.Consistent) (hash : InfoHash) (id : PeerId)
    (p : Peer) : (s.save hash id p).Consistent :=
  consistent_iff.mpr ⟨h.populated.save hash id p, h.counted_swarm.save hash id p⟩

/-- A drop keeps the invariant as a whole. Between its two steps only the half
about counts holds. -/
theorem Consistent.drop {s : Store} (h : s.Consistent) (hash : InfoHash) (id : PeerId) :
    (s.drop hash id).1.Consistent :=
  consistent_iff.mpr ⟨h.populated.drop hash id, (h.counted_swarm.removePeer hash id).prune hash⟩

theorem Consistent.trim {s : Store} (h : s.Consistent) (now : Seconds) (ttl : Int64) :
    (s.trim now ttl).1.Consistent :=
  consistent_iff.mpr ⟨s.populated_trim now ttl, h.counted_swarm.trim now ttl⟩

-- ============================================================= equality

theorem ext_get? {s t : Store} (h : ∀ hash, s.swarms.get? hash = t.swarms.get? hash) :
    s = t := by
  cases s
  cases t
  exact congrArg Store.mk (Table.ext_get? h)

/-- Consistent stores with the same swarms and peers are one store. The seeder
count, the one other thing in a store, is a recount of these. -/
theorem SamePeers.eq {s t : Store} (h : s.SamePeers t) (hs : s.Consistent)
    (ht : t.Consistent) : s = t := by
  refine ext_get? fun hash => ?_
  have hpeers := h hash
  cases hv : s.swarms.get? hash with
  | none =>
      rw [hv] at hpeers
      exact (Option.map_eq_none_iff.mp hpeers.symm).symm
  | some v =>
      rw [hv] at hpeers
      obtain ⟨w, hw, hsame⟩ := Option.map_eq_some_iff.mp hpeers.symm
      rw [hw, (hs.counted hv).ext (ht.counted hw) hsame.symm]

/-- Consistent stores in which the same peers are found are one store. -/
theorem Consistent.ext {s t : Store} (hs : s.Consistent) (ht : t.Consistent)
    (h : ∀ hash id, s.peer? hash id = t.peer? hash id) : s = t :=
  (hs.populated.samePeers ht.populated h).eq hs ht

end TorrentTracker.Store
