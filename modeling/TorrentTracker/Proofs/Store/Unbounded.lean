import TorrentTracker.Proofs.Store.RoundTrip

/-
Stores of any size.

The header of a list in a snapshot has 32 bits for its length, and so have
the counts of a swarm. A store may outgrow both. What is still true then is
said here, of every store that comes of the empty one by operations and by
loading whatever listing such a store was saved as (`Arises`).

# Loading

Of a swarm that its header has no room for, as much is read as the header
says. What stands after that is a peer in the place of a swarm, which no
reader takes (`refuses_readSwarm`), so either nothing more was asked for or
nothing is loaded. In any case each list that is loaded is the front of one
that was saved, and no id comes twice in it.

# Main statements

- `Arises.consistent`: the invariant, with no condition on the size;
- `Consistent.counts_eq`: the counts a store answers, as words.
-/

namespace TorrentTracker

open Reader (Reads Refuses)
open MessagePack

namespace Snapshot

variable {s found : Snapshot} {entry : InfoHash × List (PeerId × Peer)} {rest : Bytes}

-- ============================================================== reading

/-- An info hash and its peers. -/
def readSwarm : Reader (InfoHash × List (PeerId × Peer)) :=
  readPair (readOctets 20) (readSequence (readPair (readOctets 20) readPeer))

/-- The part of a written swarm that its header announces. -/
def announcedSwarm (entry : InfoHash × List (PeerId × Peer)) : Bytes :=
  arrayHeader 2 ++ (octets entry.1 ++ announced encodeMember entry.2)

/-- The peers of a swarm that its header does not announce. -/
def unannounced (entry : InfoHash × List (PeerId × Peer)) : List (PeerId × Peer) :=
  entry.2.drop (headed entry.2.length)

/-- A written swarm is what its header announces and then what it does not. -/
theorem encodeSwarm_eq (entry : InfoHash × List (PeerId × Peer)) :
    encodeSwarm entry = announcedSwarm entry ++ (unannounced entry).flatMap encodeMember := by
  unfold encodeSwarm announcedSwarm unannounced announced MessagePack.sequence
  simp only [List.append_assoc, ← List.flatMap_append, List.take_append_drop]

/-- What is announced is read as a swarm, however much follows. -/
theorem reads_announcedSwarm (entry : InfoHash × List (PeerId × Peer)) :
    Reads readSwarm (announcedSwarm entry) (entry.1, entry.2.take (headed entry.2.length)) :=
  reads_readPair (reads_readOctets (by decide) entry.1)
    (reads_sequence fun member _ => reads_member member)

/-- A written peer starts as no written swarm does. So what is left over of one
swarm is not read as the next. -/
theorem exists_encodeMember (member : PeerId × Peer) :
    ∃ rest, encodeMember member
      = arrayHeader 2 ++ (octets member.1 ++ (arrayHeader 4 ++ singletonHeader)) ++ rest := by
  unfold encodeMember encodePeer
  cases member.2.ip with
  | v4 o => exact ⟨_, by simp only [ip, v4Variant, List.append_assoc]; rfl⟩
  | v6 o => exact ⟨_, by simp only [ip, v6Variant, List.append_assoc]; rfl⟩

/-- A peer with its id does not begin as a swarm does: where the id of the
first peer would be, there is an address. -/
theorem refuses_readSwarm (id : PeerId) :
    Refuses readSwarm (arrayHeader 2 ++ (octets id ++ (arrayHeader 4 ++ singletonHeader))) := by
  have hmembers : Refuses (readSequence (readPair (readOctets 20) readPeer))
      (arrayHeader 4 ++ singletonHeader) := by
    refine (reads_arrayHeader 4).refuses ?_
    rw [headed_of_lt (show 4 < UInt32.size by decide)]
    exact (refuses_readElements 2 _).bind _
  refine (reads_arrayHeader 2).refuses ?_
  rw [headed_of_lt (show 2 < UInt32.size by decide)]
  exact (reads_readOctets (by decide) id).refuses (hmembers.bind _)

/-- A swarm that was cut short, or that is whole. -/
def FrontOf (entry whole : InfoHash × List (PeerId × Peer)) : Prop :=
  entry.1 = whole.1 ∧ entry.2 <+: whole.2

/-- The first swarms of a snapshot, each of them whole or cut short. -/
structure FrontsOf (found s : Snapshot) : Prop where
  hashes : found.map Prod.fst <+: s.map Prod.fst
  peers : ∀ entry ∈ found, ∃ whole ∈ s, FrontOf entry whole

theorem frontsOf_nil (s : Snapshot) : FrontsOf [] s := ⟨List.nil_prefix, nofun⟩

theorem FrontsOf.cons {whole : InfoHash × List (PeerId × Peer)} (h : FrontsOf found s)
    (hfront : FrontOf entry whole) : FrontsOf (entry :: found) (whole :: s) where
  hashes := by
    rw [List.map_cons, List.map_cons, hfront.1]
    exact (List.prefix_cons_inj whole.1).mpr h.hashes
  peers := by
    refine List.forall_mem_cons.mpr ⟨⟨whole, List.mem_cons_self, hfront⟩, fun other hother => ?_⟩
    obtain ⟨whole', hmem, hfront'⟩ := h.peers other hother
    exact ⟨whole', List.mem_cons_of_mem _ hmem, hfront'⟩

/-- The swarms that are read are fronts of those that were written. -/
theorem frontsOf_of_times {n : Nat} (hn : n ≤ s.length)
    (h : (Reader.times n readSwarm).run (s.flatMap encodeSwarm) = some (found, rest)) :
    FrontsOf found s := by
  induction s generalizing n found with
  | nil =>
      obtain rfl : n = 0 := Nat.le_zero.mp hn
      cases h
      exact frontsOf_nil _
  | cons whole s ih =>
      cases n with
      | zero =>
          cases h
          exact frontsOf_nil _
      | succ n =>
          obtain ⟨first, middle, others, hfirst, hothers, rfl⟩ := Reader.run_times_succ_eq_some h
          rw [List.flatMap_cons, encodeSwarm_eq, List.append_assoc,
            (reads_announcedSwarm whole).gives] at hfirst
          cases hfirst
          refine FrontsOf.cons ?_ ⟨rfl, List.take_prefix _ _⟩
          cases hunread : unannounced whole with
          | nil =>
              rw [hunread] at hothers
              exact ih (Nat.le_of_succ_le_succ hn) hothers
          | cons member members =>
              cases n with
              | zero =>
                  cases hothers
                  exact frontsOf_nil s
              | succ n =>
                  -- another swarm is asked for, and there is a peer
                  obtain ⟨_, _, _, hnext, -, -⟩ := Reader.run_times_succ_eq_some hothers
                  obtain ⟨_, hmember⟩ := exists_encodeMember member
                  rw [hunread, List.flatMap_cons, hmember, List.append_assoc, List.append_assoc,
                    refuses_readSwarm] at hnext
                  cases hnext

/-- What is read of a snapshot, whatever its size, are fronts of its
swarms. -/
theorem frontsOf_of_decode? (h : decode? s.encode = some found) : FrontsOf found s := by
  obtain ⟨⟨swarms, rest⟩, hread, rfl⟩ := Option.map_eq_some_iff.mp h
  have htimes : (Reader.times (headed s.length) readSwarm).run (s.flatMap encodeSwarm)
      = some (swarms, rest) := by
    unfold encode MessagePack.sequence Snapshot.read readSequence at hread
    rw [StateT.run_bind, (reads_arrayHeader s.length).gives] at hread
    exact hread
  exact frontsOf_of_times (Nat.mod_le _ _) htimes

end Snapshot

namespace Store

variable {s t : Store}

-- ============================================================= loading

/-- The stores that come of the empty one by operations on it and by
loading, over whatever is there, a listing of another such store. -/
inductive Arises : Store → Prop where
  | empty : Arises empty
  | perform {s : Store} (op : Operation) : Arises s → Arises (s.perform op)
  | load {s t : Store} {listing : Snapshot} {loaded : Nat} :
      Arises s → s.Lists listing → decode? listing.encode = some (t, loaded) → Arises t

variable {listing : Snapshot} {loaded : Nat}

/-- What is loaded of a listing are fronts of its swarms. -/
theorem exists_frontsOf_of_decode? (h : decode? listing.encode = some (t, loaded)) :
    ∃ found, Snapshot.FrontsOf found listing ∧ (ofSnapshot found).1 = t
      ∧ (ofSnapshot found).2 = loaded := by
  obtain ⟨found, hfound, hstore⟩ := Option.map_eq_some_iff.mp h
  exact ⟨found, Snapshot.frontsOf_of_decode? hfound, congrArg Prod.fst hstore,
    congrArg Prod.snd hstore⟩

/-- What is loaded of a listing is consistent: in no swarm of it an id comes
twice, so first and last mentions are the same. -/
theorem Lists.consistent_of_decode? (h : s.Lists listing)
    (hload : decode? listing.encode = some (t, loaded)) : t.Consistent := by
  obtain ⟨found, hfronts, rfl, -⟩ := exists_frontsOf_of_decode? hload
  refine consistent_ofSnapshot fun entry hentry => ?_
  obtain ⟨whole, hwhole, -, hfront⟩ := hfronts.peers entry hentry
  exact (h.nodup_ids whole hwhole).sublist (hfront.sublist.map Prod.fst)

/-- No hash comes twice either, so all that was loaded is there. -/
theorem Lists.loaded_eq_totalPeers (h : s.Lists listing)
    (hload : decode? listing.encode = some (t, loaded)) : loaded = t.totalPeers := by
  obtain ⟨found, hfronts, rfl, rfl⟩ := exists_frontsOf_of_decode? hload
  refine (loaded_eq_totalPeers_iff found).mpr ?_
  exact (h.nodup_hashes.sublist hfronts.hashes.sublist).sublist (List.filter_sublist.map _)

/-- Every peer that was loaded is one of those that were listed: what came in
under a pair was there when the listing was made. -/
theorem Lists.peer?_of_decode? (h : s.Lists listing)
    (hload : decode? listing.encode = some (t, loaded)) {hash : InfoHash} {id : PeerId} {p : Peer}
    (hp : t.peer? hash id = some p) : s.peer? hash id = some p := by
  obtain ⟨found, hfronts, rfl, -⟩ := exists_frontsOf_of_decode? hload
  cases hw : (ofSnapshot found).1.swarms.get? hash with
  | none =>
      rw [peer?_of_get?_none hw] at hp
      cases hp
  | some w =>
      rw [peer?_of_get? hw] at hp
      obtain ⟨peers, hmem, -, rfl⟩ := exists_of_get?_ofSnapshot hw
      rw [restoreSwarm_fst] at hp
      obtain ⟨whole, hwhole, hhash, hfront⟩ := hfronts.peers _ hmem
      have hlisted : (id, p) ∈ whole.2 := hfront.subset (Table.mem_of_get?_ofList hp)
      have hheld := Table.mem_toList_iff.mp ((h.peers whole hwhole).mem_iff.mp hlisted)
      rw [← hhash] at hheld
      exact hheld

/-- The invariant along runs of any size. A load that loses what its headers do
not announce loses whole peers, so it still counts what it has. -/
theorem Arises.consistent (h : s.Arises) : s.Consistent := by
  induction h with
  | empty => exact consistent_empty
  | perform op _ ih => exact consistent_perform ih op
  | load _ hlists hload _ => exact hlists.consistent_of_decode? hload

-- =============================================================== counts

/-- The counts a store answers are those of a recount, as far as words
carry them. -/
theorem Consistent.counts_eq (h : s.Consistent) (hash : InfoHash) :
    s.counts hash = ⟨UInt32.ofNat (s.swarm hash).completeCount,
      UInt32.ofNat (s.swarm hash).incompleteCount⟩ := by
  unfold Store.counts
  cases hw : s.swarms.get? hash with
  | none =>
      rw [swarm_of_get?_none hw]
      rfl
  | some w =>
      rw [swarm_of_get? hw]
      exact (h.counted hw).counts_eq

end Store

end TorrentTracker
