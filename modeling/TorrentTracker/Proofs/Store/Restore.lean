import TorrentTracker.Proofs.Store.Reached

/-
Loading bytes from anywhere: what the store is afterwards, and exactly when
its books are in order.

The bytes of a snapshot need not come from a store. They decode to lists
in which a peer id may come several times in one swarm, and an info hash
several times in all. The peers then go by the last mention, of an id in
its swarm and of a hash among the swarms. The figures do not follow:

- the running count of a swarm goes up when an id is new, by the flag it
  has then, and stays when a later mention of the id has another flag;
- the number of peers loaded goes up for every list, also for one whose
  swarm a later list replaces.

# Main statements

- `get?_ofSnapshot`: the swarm under a hash, from the list it goes by;
- `accounted_ofSnapshot_iff`: the books are in order exactly if in each of
  these lists as many ids are complete where they come first as where they
  come last;
- `loaded_eq_totalPeers_iff`: the number loaded is right exactly if no hash
  that has peers comes twice.

That the figures can be read as numbers needs no bound on the input: a
sequence that was read is no longer than a header can announce.
-/

namespace TorrentTracker

open Reader (Answers)
open MessagePack

/-- Every list of peers that was read has room in 32 bits, since its header has
no wider form to announce a length. -/
theorem Snapshot.length_lt_of_decode? {data : Bytes} {snapshot : Snapshot}
    (h : decode? data = some snapshot) :
    ∀ entry ∈ snapshot, entry.2.length < UInt32.size := by
  obtain ⟨found, hfound, rfl⟩ := Option.map_eq_some_iff.mp h
  have hmembers : Answers (readSequence (readPair (readOctets 20) readPeer))
      fun peers => peers.length < UInt32.size ∧ ∀ x ∈ peers, True :=
    answers_readSequence (Reader.answers_true _)
  have hswarms : Answers read fun snapshot => snapshot.length < UInt32.size
      ∧ ∀ entry ∈ snapshot, entry.2.length < UInt32.size
        ∧ ∀ x ∈ entry.2, True :=
    answers_readSequence (answers_readPair hmembers)
  intro entry hentry
  exact ((hswarms.holds hfound).2 entry hentry).1

namespace Store

variable {snapshot : Snapshot} {hash : InfoHash} {peers : List (PeerId × Peer)}

/-- The list of peers that the swarm of a hash goes by: the last one that
is not empty. -/
def listOf? (snapshot : Snapshot) (hash : InfoHash) : Option (List (PeerId × Peer)) :=
  (Table.ofList (swarmsOf snapshot)).get? hash

/-- How many ids of a list are complete where they come first. -/
def completeAtFirst (peers : List (PeerId × Peer)) : Nat :=
  (Table.ofList peers.reverse).count Peer.complete

/-- How many ids of a list are complete where they come last. -/
def completeAtLast (peers : List (PeerId × Peer)) : Nat :=
  (Table.ofList peers).count Peer.complete

-- =========================================================== the swarms

theorem get?_ofSnapshot (snapshot : Snapshot) (hash : InfoHash) :
    (ofSnapshot snapshot).1.swarms.get? hash
      = (listOf? snapshot hash).map fun peers => (restoreSwarm peers).1 := by
  unfold listOf?
  rw [ofSnapshot_fst, Table.get?_ofList, Table.get?_ofList]
  unfold restored
  rw [← List.map_reverse, List.find?_map, Option.map_map, Option.map_map]
  rfl

theorem mem_of_listOf? (h : listOf? snapshot hash = some peers) :
    (hash, peers) ∈ snapshot ∧ peers.isEmpty = false := by
  obtain ⟨hin, hne⟩ := List.mem_filter.mp (Table.mem_of_get?_ofList h)
  exact ⟨hin, by simpa using hne⟩

/-- Every swarm goes by a list: it has the peers that come last under their
ids, and counts those that come first. -/
theorem exists_listOf? {w : Swarm} (hroom : ∀ entry ∈ snapshot, entry.2.length < UInt32.size)
    (h : (ofSnapshot snapshot).1.swarms.get? hash = some w) :
    ∃ peers, listOf? snapshot hash = some peers
      ∧ w.peers = Table.ofList peers
      ∧ w.peers.size < UInt32.size
      ∧ w.seeders = UInt32.ofNat (completeAtFirst peers)
      ∧ completeAtFirst peers < UInt32.size := by
  rw [get?_ofSnapshot, Option.map_eq_some_iff] at h
  obtain ⟨peers, hlist, rfl⟩ := h
  have hlt := hroom _ (mem_of_listOf? hlist).1
  rw [restoreSwarm_fst]
  refine ⟨peers, hlist, rfl, ?_, rfl, ?_⟩
  · exact Nat.lt_of_le_of_lt (Table.size_ofList_le peers) hlt
  · have hle := Table.size_ofList_le peers.reverse
    rw [List.length_reverse] at hle
    exact Nat.lt_of_le_of_lt (Nat.le_trans (Table.count_le_size _ _) hle) hlt

-- ============================================================ the books

/-- The books of a restored store are in order exactly if no repeated id
changes the number of complete peers. -/
theorem accounted_ofSnapshot_iff
    (hroom : ∀ entry ∈ snapshot, entry.2.length < UInt32.size) :
    (ofSnapshot snapshot).1.Accounted
      ↔ ∀ hash peers, listOf? snapshot hash = some peers →
          completeAtFirst peers = completeAtLast peers := by
  constructor
  · intro h hash peers hlist
    have hw := get?_ofSnapshot snapshot hash
    rw [hlist, Option.map_some] at hw
    obtain ⟨peers', hlist', hpeers, -, hfirst, hlt⟩ := exists_listOf? hroom hw
    obtain rfl := Option.some.inj (hlist.symm.trans hlist')
    -- the counter is that of the first mentions, the map holds the last
    have hseeders := h.seeders hash _ hw
    unfold Swarm.completeCount at hseeders
    rw [hfirst, UInt32.toNat_ofNat_of_lt' hlt, hpeers] at hseeders
    exact hseeders
  · intro h
    refine Consistent.accounted_of_roomy ⟨inhabited_ofSnapshot, ?_⟩ (roomy_of_size_lt ?_)
    · intro hash w hw
      obtain ⟨peers, hlist, hpeers, -, hfirst, -⟩ := exists_listOf? hroom hw
      have hlast : w.completeCount = completeAtLast peers := congrArg (Table.count · _) hpeers
      unfold Swarm.Counted
      rw [hfirst, hlast, h hash peers hlist]
    · intro hash w hw
      obtain ⟨peers, -, -, hsize, -, -⟩ := exists_listOf? hroom hw
      exact hsize

/-- The lists that are not empty are all that is loaded. -/
theorem loaded_eq_sumOf (snapshot : Snapshot) :
    (ofSnapshot snapshot).2
      = Table.sumOf (restored snapshot) fun w => w.peers.size := by
  rw [ofSnapshot_snd]
  induction snapshot with
  | nil => rfl
  | cons entry snapshot ih =>
      rw [Table.sumOf_cons, ih]
      unfold restored swarmsOf
      cases hentry : entry.2.isEmpty with
      | true =>
          -- a list without peers is filtered out, and would add nothing
          rw [List.filter_cons, hentry, List.isEmpty_iff.mp hentry]
          exact Nat.zero_add _
      | false =>
          rw [List.filter_cons, hentry, ← restoreSwarm_snd]
          rfl

/-- The number loaded is the number of peers exactly if no list of peers
replaces another. -/
theorem loaded_eq_totalPeers_iff (snapshot : Snapshot) :
    (ofSnapshot snapshot).2 = (ofSnapshot snapshot).1.totalPeers
      ↔ ((swarmsOf snapshot).map Prod.fst).Nodup := by
  have hpos : ∀ x ∈ restored snapshot, 0 < x.2.peers.size := by
    intro x hx
    obtain ⟨entry, hentry, rfl⟩ := List.mem_map.mp hx
    rw [restoreSwarm_fst]
    exact Table.size_ofList_pos (by simpa using (List.mem_filter.mp hentry).2)
  have hkeys : (restored snapshot).map Prod.fst = (swarmsOf snapshot).map Prod.fst := by
    unfold restored
    rw [List.map_map]
    rfl
  unfold totalPeers
  rw [loaded_eq_sumOf, ofSnapshot_fst, eq_comm, ← hkeys]
  exact Table.total_ofList_eq_iff hpos

-- ============================================================= loading

/-- Lists of any content, with repetitions or without, can be loaded. What is
asked of them is that headers have room for their lengths. -/
theorem decode?_encode (hlength : snapshot.length < UInt32.size)
    (hroom : ∀ entry ∈ snapshot, entry.2.length < UInt32.size) :
    decode? snapshot.encode = some (ofSnapshot snapshot) := by
  have hread := Snapshot.decode?_encode hroom []
  rw [List.append_nil, headed_of_lt hlength, List.take_length] at hread
  unfold decode?
  rw [hread]
  rfl

/-- What a load makes of bytes: every swarm has the peers of the list it
goes by, and counts as complete those that are where they come first. So
the books are in order exactly if in each of these lists as many ids are
complete where they come first as where they come last, and the number
loaded is the number of peers exactly if no hash that has peers comes
twice. -/
theorem loaded_accounted_iff {data : Bytes} {s : Store} {loaded : Nat}
    (h : decode? data = some (s, loaded)) :
    ∃ snapshot, Snapshot.decode? data = some snapshot
      ∧ (∀ hash w, s.swarms.get? hash = some w →
          w.peers.isEmpty = false ∧ ∃ peers, listOf? snapshot hash = some peers
            ∧ w.peers = Table.ofList peers ∧ w.seeders.toNat = completeAtFirst peers)
      ∧ (s.Accounted ↔ ∀ hash peers, listOf? snapshot hash = some peers →
          completeAtFirst peers = completeAtLast peers)
      ∧ (loaded = s.totalPeers ↔ ((swarmsOf snapshot).map Prod.fst).Nodup) := by
  obtain ⟨snapshot, hread, hrestore⟩ := Option.map_eq_some_iff.mp h
  have hs : (ofSnapshot snapshot).1 = s := congrArg Prod.fst hrestore
  have hloaded : (ofSnapshot snapshot).2 = loaded := congrArg Prod.snd hrestore
  subst hs hloaded
  have hroom := Snapshot.length_lt_of_decode? hread
  refine ⟨snapshot, hread, ?_, accounted_ofSnapshot_iff hroom, loaded_eq_totalPeers_iff snapshot⟩
  intro hash w hw
  obtain ⟨peers, hlist, hpeers, -, hfirst, hlt⟩ := exists_listOf? hroom hw
  refine ⟨inhabited_ofSnapshot hw, peers, hlist, hpeers, ?_⟩
  rw [hfirst, UInt32.toNat_ofNat_of_lt' hlt]

/-- A peer that comes twice and is complete both times does no harm: it is
counted once, as it stands in the map. -/
theorem loaded_accounted_repeated :
    let snapshot : Snapshot :=
      [(.replicate 20 1, [(.replicate 20 2, ⟨.v4 (.replicate 4 10), 6881, true, 1000⟩),
          (.replicate 20 2, ⟨.v4 (.replicate 4 11), 6882, true, 1100⟩)]),
        (.replicate 20 4, [(.replicate 20 2, ⟨.v4 (.replicate 4 10), 6881, false, 1000⟩)])]
    ∃ s loaded, decode? snapshot.encode = some (s, loaded)
      ∧ s.Accounted ∧ loaded = s.totalPeers := by
  intro snapshot
  have hroom : ∀ entry ∈ snapshot, entry.2.length < UInt32.size := by decide
  have hload := decode?_encode (by decide) hroom
  obtain ⟨read, hread, -, haccounted, hloaded⟩ := loaded_accounted_iff hload
  have hread' := Snapshot.decode?_encode hroom []
  rw [List.append_nil, hread] at hread'
  obtain rfl : read = snapshot := Option.some.inj hread'
  refine ⟨_, _, hload, haccounted.mpr ?_, hloaded.mpr (by decide)⟩
  have hlists : ∀ entry ∈ snapshot, completeAtFirst entry.2 = completeAtLast entry.2 := by decide
  exact fun hash peers hlist => hlists _ (mem_of_listOf? hlist).1

/-- An id that is incomplete where it comes first and complete where it
comes last makes a swarm with a complete peer and a count of none, and of
two peers under a hash that comes twice one stays, but two were loaded. -/
theorem loaded_miscounted :
    let flagged : Snapshot :=
      [(.replicate 20 1, [(.replicate 20 2, ⟨.v4 (.replicate 4 10), 6881, false, 1000⟩),
        (.replicate 20 2, ⟨.v4 (.replicate 4 10), 6881, true, 1000⟩)])]
    let replaced : Snapshot :=
      [(.replicate 20 1, [(.replicate 20 2, ⟨.v4 (.replicate 4 10), 6881, false, 1000⟩)]),
        (.replicate 20 1, [(.replicate 20 3, ⟨.v4 (.replicate 4 10), 6881, true, 1000⟩)])]
    (∃ s loaded w, decode? flagged.encode = some (s, loaded)
        ∧ s.swarms.get? (.replicate 20 1) = some w ∧ w.completeCount = 1 ∧ w.seeders = 0)
      ∧ ∃ s, decode? replaced.encode = some (s, 2) ∧ s.totalPeers = 1 := by
  intro flagged replaced
  have hflagged : decode? flagged.encode = _ := decode?_encode (by decide) (by decide)
  have hreplaced : decode? replaced.encode = _ := decode?_encode (by decide) (by decide)
  have hloaded : (ofSnapshot replaced).2 = 2 := by decide
  have htotal : (ofSnapshot replaced).1.totalPeers = 1 := by decide
  have hswarm := get?_ofSnapshot flagged (.replicate 20 1)
  refine ⟨⟨_, _, _, hflagged, hswarm.trans rfl, by decide, by decide⟩, _, ?_, htotal⟩
  rw [hreplaced, ← hloaded]

end Store

end TorrentTracker
