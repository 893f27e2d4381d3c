import Mathlib.Data.Finset.Card
import TorrentTracker.Proofs.Store.Snapshot

/-
The stores that a tracker can get into, and that their books are in order.

`Reached` is every store that comes of the empty one by saves, drops and
trims in any order, and by loading a snapshot that such a store was saved
to. Its one condition is that no swarm outgrows the 32 bits of a count.

# The invariant

`Consistent` (every swarm has a peer, every count is a recount) holds of
the empty store and is kept by the three operations as it stands
(`consistent_perform`). A load does not keep it but makes it anew: it
builds from whatever lists the bytes decode to, and what the snapshot of a
store decodes to are listings of tables, in which no id comes twice
(`Consistent.decode?_encode`).

# Main statements

- `Reached.consistent`: the invariant along every run;
- `Reached.accounted`: whatever such a store says about its size is a
  recount of its peers, and no subtraction of words goes below zero.
-/

namespace TorrentTracker.Store

-- =========================================================== operations

/-- What can be done to a store. -/
inductive Operation where
  | save (hash : InfoHash) (id : PeerId) (p : Peer)
  | drop (hash : InfoHash) (id : PeerId)
  | trim (now : Seconds) (ttl : Int64)

/-- The store after an operation. -/
def perform (s : Store) : Operation → Store
  | .save hash id p => s.save hash id p
  | .drop hash id => (s.drop hash id).1
  | .trim now ttl => (s.trim now ttl).1

/-- No swarm has more peers than 32 bits can count. -/
def Roomy (s : Store) : Prop :=
  ∀ x ∈ s.swarms.toList, x.2.peers.size < UInt32.size

instance (s : Store) : Decidable s.Roomy :=
  inferInstanceAs (Decidable (∀ x ∈ s.swarms.toList, _))

theorem Roomy.size_lt {s : Store} (h : s.Roomy) {hash : InfoHash} {w : Swarm}
    (hw : s.swarms.get? hash = some w) : w.peers.size < UInt32.size :=
  h (hash, w) (Table.mem_toList_iff.mpr hw)

/-- The bound may be shown where there is a swarm. -/
theorem roomy_of_size_lt {s : Store}
    (h : ∀ hash w, s.swarms.get? hash = some w → w.peers.size < UInt32.size) :
    s.Roomy := by
  rintro ⟨hash, w⟩ hx
  exact h hash w (Table.mem_toList_iff.mp hx)

/-- The stores that come of the empty one by operations on it and by
loading, over whatever is there, the snapshot of another such store. -/
inductive Reached : Store → Prop where
  | empty : Reached empty
  | perform {s : Store} (op : Operation) :
      Reached s → (s.perform op).Roomy → Reached (s.perform op)
  | load {s t : Store} {loaded : Nat} :
      Reached s → decode? s.encode = some (t, loaded) → Reached t

-- ======================================================== the invariant

/-- Every operation keeps the invariant. -/
theorem consistent_perform {s : Store} (h : s.Consistent) (op : Operation) :
    (s.perform op).Consistent := by
  cases op with
  | save hash id p => exact h.save hash id p
  | drop hash id => exact h.drop hash id
  | trim now ttl => exact h.trim now ttl

/-- The half of it that does not need the counts is kept by itself. -/
theorem populated_perform {s : Store} (h : s.Populated) (op : Operation) :
    (s.perform op).Populated := by
  cases op with
  | save hash id p => exact h.save hash id p
  | drop hash id => exact h.drop hash id
  | trim now ttl => exact s.populated_trim now ttl

/-- What a snapshot says of a swarm is the listing of its peers. -/
theorem exists_of_mem_snapshot {s : Store} {entry : InfoHash × List (PeerId × Peer)}
    (h : entry ∈ s.snapshot) :
    ∃ w, s.swarms.get? entry.1 = some w ∧ entry.2 = w.peers.toList := by
  obtain ⟨x, hx, rfl⟩ := List.mem_map.mp h
  exact ⟨x.2, Table.mem_toList_iff.mp hx, rfl⟩

/-- In a snapshot no id comes twice under a hash. -/
theorem nodup_of_mem_snapshot {s : Store} {entry : InfoHash × List (PeerId × Peer)}
    (h : entry ∈ s.snapshot) : (entry.2.map Prod.fst).Nodup := by
  obtain ⟨w, -, hw⟩ := exists_of_mem_snapshot h
  rw [hw]
  exact w.peers.nodup_keys

/-- So the lists in a snapshot have room in their headers. -/
theorem Roomy.snapshot {s : Store} (h : s.Roomy) :
    ∀ entry ∈ s.snapshot, entry.2.length < UInt32.size := by
  intro entry hentry
  obtain ⟨w, hw, hpeers⟩ := exists_of_mem_snapshot hentry
  rw [hpeers, Table.length_toList]
  exact h.size_lt hw

/-- The bytes of a roomy store decode, and what they decode to is the
front of its snapshot, as much as a header can announce. -/
theorem Roomy.decode?_encode {s : Store} (h : s.Roomy) :
    decode? s.encode
      = some (ofSnapshot (s.snapshot.take (MessagePack.headed s.snapshot.length))) := by
  have hread := Snapshot.decode?_encode h.snapshot []
  rw [List.append_nil] at hread
  unfold decode? encode
  rw [hread]
  rfl

/-- What is loaded from the bytes of a roomy store is what is made of its
snapshot, and nothing else. -/
theorem Roomy.eq_of_decode? {s t : Store} {loaded : Nat} (h : s.Roomy)
    (hload : decode? s.encode = some (t, loaded)) :
    t = (ofSnapshot (s.snapshot.take (MessagePack.headed s.snapshot.length))).1 := by
  rw [h.decode?_encode] at hload
  exact congrArg Prod.fst (Option.some.inj hload).symm

/-- A swarm that was loaded from a snapshot has the peers of the one that
was saved. -/
theorem peers_of_get?_ofSnapshot {s : Store} {n : Nat} {hash : InfoHash} {w : Swarm}
    (h : (ofSnapshot (s.snapshot.take n)).1.swarms.get? hash = some w) :
    ∃ v, s.swarms.get? hash = some v ∧ w.peers = v.peers := by
  obtain ⟨peers, hmem, -, rfl⟩ := exists_of_get?_ofSnapshot h
  obtain ⟨v, hv, hpeers⟩ := exists_of_mem_snapshot (List.mem_of_mem_take hmem)
  have hlist : peers = v.peers.toList := hpeers
  refine ⟨v, hv, ?_⟩
  rw [restoreSwarm_fst, hlist]
  exact Table.ofList_toList v.peers

/-- No swarm outgrows its count on the way, and a load brings no larger one
than was saved. -/
theorem Reached.roomy {s : Store} (h : s.Reached) : s.Roomy := by
  induction h with
  | empty =>
      intro x hx
      cases hx
  | perform op _ hroom _ => exact hroom
  | load _ hload ih =>
      rw [ih.eq_of_decode? hload]
      refine roomy_of_size_lt fun hash w hw => ?_
      obtain ⟨v, hv, hpeers⟩ := peers_of_get?_ofSnapshot hw
      rw [hpeers]
      exact ih.size_lt hv

/-- The invariant along every run. By induction on the run: an operation keeps
it, and a load brings the store that was saved. -/
theorem Reached.consistent {s : Store} (h : s.Reached) : s.Consistent := by
  induction h with
  | empty => exact consistent_empty
  | perform op _ _ ih => exact consistent_perform ih op
  | load hs hload _ =>
      rw [hs.roomy.eq_of_decode? hload]
      exact consistent_ofSnapshot fun entry hentry =>
        nodup_of_mem_snapshot (List.mem_of_mem_take hentry)

-- ============================================================ the books

/-- All peers with the hash and the id they are filed under. -/
def entries (s : Store) : List (InfoHash × PeerId × Peer) :=
  s.swarms.toList.flatMap fun x => x.2.peers.toList.map fun y => (x.1, y)

/-- The listing has the peers that are found, under the hash and the id they
are found under. -/
theorem mem_entries_iff {s : Store} {hash : InfoHash} {id : PeerId} {p : Peer} :
    (hash, id, p) ∈ s.entries ↔ s.peer? hash id = some p := by
  unfold entries
  rw [List.mem_flatMap]
  constructor
  · intro hexists
    obtain ⟨x, hx, hy⟩ := hexists
    obtain ⟨y, hy, heq⟩ := List.mem_map.mp hy
    obtain ⟨rfl, rfl⟩ := Prod.mk.inj heq
    rw [peer?_of_get? (Table.mem_toList_iff.mp hx)]
    exact Table.mem_toList_iff.mp hy
  · intro hp
    cases hw : s.swarms.get? hash with
    | none =>
        rw [peer?_of_get?_none hw] at hp
        cases hp
    | some w =>
        rw [peer?_of_get? hw] at hp
        refine ⟨(hash, w), Table.mem_toList_iff.mpr hw, ?_⟩
        exact List.mem_map.mpr ⟨(id, p), Table.mem_toList_iff.mpr hp, rfl⟩

/-- No peer is listed twice, as no hash is a key of the store twice and no id
one of a swarm. -/
theorem nodup_entries (s : Store) : s.entries.Nodup := by
  unfold entries
  rw [List.nodup_flatMap]
  constructor
  · intro x _
    refine List.Nodup.map (fun y y' h => (Prod.mk.inj h).2) ?_
    exact List.Nodup.of_map _ x.2.peers.nodup_keys
  · have hkeys : s.swarms.toList.Pairwise fun x y => x.1 ≠ y.1 :=
      List.pairwise_map.mp s.swarms.nodup_keys
    refine hkeys.imp fun hne e hx hy => hne ?_
    obtain ⟨_, -, rfl⟩ := List.mem_map.mp hx
    obtain ⟨_, -, hsame⟩ := List.mem_map.mp hy
    exact (congrArg Prod.fst hsame).symm

/-- What is listed under a hash and an id is the one peer that is found
there. -/
theorem filter_entries (s : Store) (hash : InfoHash) (id : PeerId) :
    (s.entries.filter fun e => e.1 = hash ∧ e.2.1 = id)
      = (s.peer? hash id).toList.map fun p => (hash, id, p) := by
  have hmem : ∀ e, (e ∈ s.entries.filter fun e => e.1 = hash ∧ e.2.1 = id)
      ↔ e ∈ (s.peer? hash id).toList.map fun p => (hash, id, p) := by
    rintro ⟨hash', id', p⟩
    rw [List.mem_filter, mem_entries_iff]
    constructor
    · rintro ⟨hp, hsame⟩
      obtain ⟨rfl, rfl⟩ := of_decide_eq_true hsame
      exact List.mem_map.mpr ⟨p, Option.mem_toList.mpr hp, rfl⟩
    · intro hlisted
      obtain ⟨p, hp, hsame⟩ := List.mem_map.mp hlisted
      cases hsame
      exact ⟨Option.mem_toList.mp hp, decide_eq_true ⟨rfl, rfl⟩⟩
  -- neither list has anything twice, so the members decide
  have hperm := (List.perm_ext_iff_of_nodup (s.nodup_entries.filter _) ?_).mpr hmem
  · cases hp : s.peer? hash id with
    | none =>
        rw [hp] at hperm
        exact hperm.eq_nil
    | some p =>
        rw [hp] at hperm
        exact List.perm_singleton.mp hperm
  · cases s.peer? hash id with
    | none => exact List.nodup_nil
    | some p => exact List.nodup_singleton _

/-- A total over the swarms is a count over all peers, when what each swarm
adds is a count over its own. -/
theorem total_eq_countP {s : Store} {amount : Swarm → Nat} {p : Peer → Bool}
    (h : ∀ hash w, s.swarms.get? hash = some w → amount w = w.peers.count p) :
    s.swarms.total amount = s.entries.countP fun e => p e.2.2 := by
  have hlist : ∀ xs : List (InfoHash × Swarm),
      (∀ x ∈ xs, amount x.2 = x.2.peers.count p) →
      (xs.map Prod.snd).foldr (fun w n => amount w + n) 0
        = (xs.flatMap fun x => x.2.peers.toList.map fun y => (x.1, y)).countP
            fun e => p e.2.2 := by
    intro xs
    induction xs with
    | nil => intro _; rfl
    | cons x xs ih =>
        intro hxs
        have hx : amount x.2 = (x.2.peers.toList.map fun y => (x.1, y)).countP
            fun e => p e.2.2 := by
          rw [hxs x List.mem_cons_self, List.countP_map]
          exact List.countP_map
        rw [List.map_cons, List.foldr_cons, List.flatMap_cons, List.countP_append, hx,
          ih fun y hy => hxs y (List.mem_cons_of_mem _ hy)]
  exact hlist _ fun x hx => h x.1 x.2 (Table.mem_toList_iff.mp hx)

theorem totalPeers_eq_length (s : Store) : s.totalPeers = s.entries.length := by
  have htotal := total_eq_countP (s := s) fun _ w _ => w.peers.size_eq_count
  exact htotal.trans (List.countP_eq_length.mpr fun _ _ => rfl)

/-- In a consistent store the hashes with a swarm are those with a peer, since
no swarm stays without one. -/
theorem Consistent.activeSwarms {s : Store} (h : s.Consistent) :
    s.activeSwarms = (s.entries.map Prod.fst).toFinset.card := by
  have hsame : (s.entries.map Prod.fst).toFinset = (s.swarms.toList.map Prod.fst).toFinset := by
    refine Finset.ext fun hash => ?_
    rw [List.mem_toFinset, List.mem_toFinset, List.mem_map, List.mem_map]
    constructor
    · intro hexists
      obtain ⟨e, he, rfl⟩ := hexists
      obtain ⟨x, hx, hy⟩ := List.mem_flatMap.mp he
      obtain ⟨y, -, rfl⟩ := List.mem_map.mp hy
      exact ⟨x, hx, rfl⟩
    · intro hexists
      obtain ⟨⟨hash, w⟩, hx, rfl⟩ := hexists
      have hw := Table.mem_toList_iff.mp hx
      obtain ⟨id, p, hp⟩ := Table.isEmpty_eq_false_iff.mp (h.inhabited hw)
      refine ⟨(hash, id, p), mem_entries_iff.mpr ?_, rfl⟩
      rw [peer?_of_get? hw, hp]
  rw [hsame, List.toFinset_card_of_nodup s.swarms.nodup_keys, List.length_map]
  exact (Table.length_toList s.swarms).symm

/-- The books of a store are in order: its swarms have peers, the running
counts, the counts it answers and the totals are recounts of its peers, and
the subtractions they are made with stay above zero. -/
structure Accounted (s : Store) : Prop where
  inhabited : ∀ hash w, s.swarms.get? hash = some w → w.peers.isEmpty = false
  seeders : ∀ hash w, s.swarms.get? hash = some w → w.seeders.toNat = w.completeCount
  complete : ∀ hash, (s.counts hash).complete.toNat = (s.swarm hash).completeCount
  incomplete : ∀ hash, (s.counts hash).incomplete.toNat = (s.swarm hash).incompleteCount
  unknown : ∀ hash, s.counts hash = ⟨0, 0⟩ ↔ s.swarms.get? hash = none
  totalPeers : s.totalPeers = s.entries.length
  totalSeeders : s.totalSeeders = s.entries.countP fun e => e.2.2.complete
  activeSwarms : s.activeSwarms = (s.entries.map Prod.fst).toFinset.card
  subtractions : ∀ hash w, s.swarms.get? hash = some w → w.Subtractions

/-- The counts a roomy, consistent store answers are recounts, also for a
hash it does not know. -/
theorem Consistent.counts {s : Store} (h : s.Consistent) (hroom : s.Roomy)
    (hash : InfoHash) :
    (s.counts hash).complete.toNat = (s.swarm hash).completeCount
      ∧ (s.counts hash).incomplete.toNat = (s.swarm hash).incompleteCount := by
  unfold Store.counts
  cases hw : s.swarms.get? hash with
  | none =>
      rw [swarm_of_get?_none hw]
      exact ⟨(Table.count_empty _).symm, (Table.count_empty _).symm⟩
  | some w =>
      rw [swarm_of_get? hw]
      exact (h.counted hw).counts (hroom.size_lt hw)

/-- A swarm with a peer is never answered for as if there were none. The two
counts add up to its peers, and a swarm on the books has at least one. -/
theorem Consistent.counts_eq_zero_iff {s : Store} (h : s.Consistent) (hroom : s.Roomy)
    (hash : InfoHash) : s.counts hash = ⟨0, 0⟩ ↔ s.swarms.get? hash = none := by
  constructor
  · intro hzero
    obtain ⟨hcomplete, hincomplete⟩ := h.counts hroom hash
    rw [hzero] at hcomplete hincomplete
    cases hw : s.swarms.get? hash with
    | none => rfl
    | some w =>
        rw [swarm_of_get? hw] at hcomplete hincomplete
        have hsum := w.completeCount_add_incompleteCount
        rw [← hcomplete, ← hincomplete] at hsum
        have hempty := Table.isEmpty_iff_size.mpr hsum.symm
        rw [h.inhabited hw] at hempty
        cases hempty
  · intro hnone
    unfold Store.counts
    rw [hnone]

/-- With the invariant and room for the counts the books are in order: each is
a recount, told in words that can hold it. -/
theorem Consistent.accounted_of_roomy {s : Store} (h : s.Consistent) (hroom : s.Roomy) :
    s.Accounted where
  inhabited := fun _ _ => h.inhabited
  seeders := fun _ _ hw => (h.counted hw).toNat (hroom.size_lt hw)
  complete := fun hash => (h.counts hroom hash).1
  incomplete := fun hash => (h.counts hroom hash).2
  unknown := h.counts_eq_zero_iff hroom
  totalPeers := s.totalPeers_eq_length
  totalSeeders := total_eq_countP fun _ _ hw => (h.counted hw).toNat (hroom.size_lt hw)
  activeSwarms := h.activeSwarms
  subtractions := fun _ _ hw => (h.counted hw).subtractions (hroom.size_lt hw)

/-- Along every run of operations and loads the books are in order. What a run
keeps is the invariant, and with room for the counts the words on the books are
recounts. -/
theorem Reached.accounted {s : Store} (h : s.Reached) : s.Accounted :=
  h.consistent.accounted_of_roomy h.roomy

/-- A store that lost a stale seeder to a trim, saved and loaded again: its
books are those of the peers that stayed. -/
theorem accounted_reloaded :
    let busy := ((empty.perform (.save (.replicate 20 1) (.replicate 20 2)
        ⟨.v4 (.replicate 4 10), 6881, true, 1000⟩)).perform
      (.save (.replicate 20 1) (.replicate 20 3)
        ⟨.v4 (.replicate 4 11), 6882, false, 1100⟩)).perform (.trim 1500 450)
    busy.Reached ∧ ∃ t loaded, decode? busy.encode = some (t, loaded) ∧ t.Accounted := by
  intro busy
  have hbusy : busy.Reached :=
    .perform _ (.perform _ (.perform _ .empty (by decide)) (by decide)) (by decide)
  have hload := hbusy.roomy.decode?_encode
  exact ⟨hbusy, _, _, hload, (Reached.load hbusy hload).accounted⟩

end TorrentTracker.Store
