import TorrentTracker.Proofs.MessagePack
import TorrentTracker.Proofs.Store
import TorrentTracker.Store.Snapshot

/-
Snapshots: what was written is what is read, and what a store made from
one looks like.

# Reading

`reads_snapshot` composes the laws of the format along the shape of a
snapshot. It asks that each swarm has fewer peers than 32 bits can count;
of the list of swarms itself it gives back as much as its header says.

# Restoring

A swarm is restored peer by peer: the table keeps the last peer under an
id, the running count goes up for the first. `restoreSwarm_fst` puts both
in closed form. They are about the same peers when no id comes twice, as
in every listing of a table, and then the restored store is consistent
(`consistent_ofSnapshot`). What holds when ids do come twice is said in
`Restore`.
-/

namespace TorrentTracker

open Reader (Reads)
open MessagePack

namespace Snapshot

-- ============================================================== reading

/-- The four fields of a peer in order: address, port, flag, moment. The
address is a map of one entry, from the name of its family to its octets. -/
theorem reads_readPeer (p : Peer) : Reads readPeer (encodePeer p) p := by
  have hip : Reads (PeerForm.fill {} 0) (ip p.ip) ⟨some p.ip, none, none, none⟩ :=
    (reads_readIp p.ip).map fun a => PeerForm.mk (some a) none none none
  have hport : Reads (PeerForm.fill ⟨some p.ip, none, none, none⟩ 1) (natural p.port.toNat)
      ⟨some p.ip, some p.port, none, none⟩ :=
    (reads_readUInt16 p.port).map fun n => PeerForm.mk (some p.ip) (some n) none none
  have hcomplete : Reads (PeerForm.fill ⟨some p.ip, some p.port, none, none⟩ 2)
      (boolean p.complete) ⟨some p.ip, some p.port, some p.complete, none⟩ :=
    (reads_readBoolean p.complete).map fun b =>
      PeerForm.mk (some p.ip) (some p.port) (some b) none
  have hlastSeen : Reads (PeerForm.fill ⟨some p.ip, some p.port, some p.complete, none⟩ 3)
      (integer p.lastSeen.toInt) ⟨some p.ip, some p.port, some p.complete, some p.lastSeen⟩ :=
    (reads_readInt64 p.lastSeen).map fun t =>
      PeerForm.mk (some p.ip) (some p.port) (some p.complete) (some t)
  have hfields : Reads (readFields PeerForm.fill (List.range peerFields.length) {}) _ _ :=
    reads_readFields_cons hip (reads_readFields_cons hport
      (reads_readFields_cons hcomplete (reads_readFields_cons hlastSeen (reads_readFields_nil _))))
  have hrecord := reads_readRecord (maxDepth - 5) (by decide) hfields
  have hwhole : encodePeer p = arrayHeader 4 ++ (ip p.ip ++ (natural p.port.toNat
      ++ (boolean p.complete ++ (integer p.lastSeen.toInt ++ [])))) ++ [] := by
    unfold encodePeer
    simp only [List.append_assoc, List.append_nil]
  unfold readPeer
  rw [hwhole]
  exact hrecord.bind (Reads.pure p)

/-- A peer id and its peer. -/
theorem reads_member (entry : PeerId × Peer) :
    Reads (readPair (readOctets 20) readPeer) (encodeMember entry) entry := by
  unfold encodeMember
  rw [List.append_assoc]
  exact reads_readPair (reads_readOctets (by decide) entry.1) (reads_readPeer entry.2)

/-- An info hash and its peers, with room for them in a header. -/
theorem reads_swarm {entry : InfoHash × List (PeerId × Peer)}
    (hroom : entry.2.length < UInt32.size) :
    Reads (readPair (readOctets 20) (readSequence (readPair (readOctets 20) readPeer)))
      (encodeSwarm entry) entry := by
  unfold encodeSwarm
  rw [List.append_assoc]
  exact reads_readPair (reads_readOctets (by decide) entry.1)
    (reads_sequence_of_lt (fun member _ => reads_member member) hroom)

/-- As many swarms as the header of a snapshot says. -/
theorem reads_snapshot {s : Snapshot} (hroom : ∀ entry ∈ s, entry.2.length < UInt32.size) :
    Reads read (announced encodeSwarm s) (s.take (headed s.length)) :=
  reads_sequence fun entry hentry => reads_swarm (hroom entry hentry)

/-- A written snapshot is read back, swarm by swarm, as many as its header
announces. -/
theorem decode?_encode {s : Snapshot} (hroom : ∀ entry ∈ s, entry.2.length < UInt32.size)
    (rest : Bytes) : decode? (s.encode ++ rest) = some (s.take (headed s.length)) := by
  obtain ⟨unread, hsplit⟩ := exists_sequence_eq_append encodeSwarm s
  unfold decode? encode
  rw [hsplit, List.append_assoc, (reads_snapshot hroom).gives]
  rfl

/-- A snapshot that is cut off before the end of what it announces is no
snapshot, wherever the cut is. -/
theorem decode?_take_eq_none_iff {s : Snapshot}
    (hroom : ∀ entry ∈ s, entry.2.length < UInt32.size) (k : Nat) :
    decode? (s.encode.take k) = none ↔ k < (announced encodeSwarm s).length := by
  obtain ⟨unread, hsplit⟩ := exists_sequence_eq_append encodeSwarm s
  unfold decode? encode
  rw [hsplit, Option.map_eq_none_iff]
  exact (reads_snapshot hroom).run_take_eq_none_iff unread k

end Snapshot

namespace Store

-- ============================================================ restoring

/-- A restored swarm has the last peer under each id, and counts the
first. -/
theorem restoreSwarm_fst (peers : List (PeerId × Peer)) :
    (restoreSwarm peers).1
      = ⟨Table.ofList peers, UInt32.ofNat ((Table.ofList peers.reverse).count Peer.complete)⟩ := by
  show peers.foldl (fun w entry => w.restore entry.1 entry.2) Swarm.empty = _
  induction peers using List.reverseRecOn with
  | nil => rfl
  | append_singleton peers entry ih =>
      rw [List.foldl_append, ih, Table.ofList_concat, List.reverse_append,
        List.reverse_singleton, List.singleton_append, Table.count_ofList_cons]
      -- an id is there by then, whichever end the list is gone through from
      have hsame : (Table.ofList peers.reverse).get? entry.1 = none
          ↔ (Table.ofList peers).get? entry.1 = none := by
        rw [Table.get?_ofList_eq_none_iff, Table.get?_ofList_eq_none_iff]
        simp only [List.mem_reverse]
      show Swarm.restore _ entry.1 entry.2 = _
      unfold Swarm.restore
      congr 1
      cases hentry : (Table.ofList peers).get? entry.1 with
      | none =>
          rw [hsame.mpr hentry]
          exact Swarm.seedersWith_ofNat _ _
      | some p =>
          have hsome : ((Table.ofList peers.reverse).get? entry.1).isNone = false := by
            rw [← Bool.not_eq_true, Option.isNone_iff_eq_none, hsame, hentry]
            exact Option.some_ne_none p
          rw [hsome]
          rfl

/-- The number that is loaded of a swarm counts every id once. -/
theorem restoreSwarm_snd (peers : List (PeerId × Peer)) :
    (restoreSwarm peers).2 = (Table.ofList peers).size := by
  have hpeers := congrArg Swarm.peers (restoreSwarm_fst peers)
  exact congrArg Table.size hpeers

/-- What is counted as it comes in is counted right if no id comes
twice. -/
theorem counted_restoreSwarm {peers : List (PeerId × Peer)}
    (h : (peers.map Prod.fst).Nodup) : (restoreSwarm peers).1.Counted := by
  rw [restoreSwarm_fst, Table.ofList_reverse h]
  rfl

/-- The lists of peers of a snapshot that make a swarm. -/
def swarmsOf (snapshot : Snapshot) : Snapshot :=
  snapshot.filter fun entry => !entry.2.isEmpty

/-- The swarms made from these lists. -/
def restored (snapshot : Snapshot) : List (InfoHash × Swarm) :=
  (swarmsOf snapshot).map fun entry => (entry.1, (restoreSwarm entry.2).1)

/-- The last list of a snapshot is restored over all others, unless it is
empty: then it is as if it were not there. -/
theorem ofSnapshot_concat (snapshot : Snapshot) (entry : InfoHash × List (PeerId × Peer)) :
    ofSnapshot (snapshot ++ [entry])
      = (if (restoreSwarm entry.2).1.peers.isEmpty then (ofSnapshot snapshot).1
          else ⟨(ofSnapshot snapshot).1.swarms.insert entry.1 (restoreSwarm entry.2).1⟩,
        (ofSnapshot snapshot).2 + (restoreSwarm entry.2).2) := by
  unfold ofSnapshot
  rw [List.foldl_append]
  rfl

/-- A restored store has the swarms of the lists that are not empty. By
induction from the end of the snapshot, since a later swarm takes the place of
an earlier one. -/
theorem ofSnapshot_fst (snapshot : Snapshot) :
    (ofSnapshot snapshot).1 = ⟨Table.ofList (restored snapshot)⟩ := by
  unfold restored
  induction snapshot using List.reverseRecOn with
  | nil => rfl
  | append_singleton snapshot entry ih =>
      have hempty : (restoreSwarm entry.2).1.peers.isEmpty = entry.2.isEmpty := by
        rw [restoreSwarm_fst]
        exact Table.isEmpty_ofList entry.2
      rw [ofSnapshot_concat, hempty, ih]
      unfold swarmsOf
      rw [List.filter_append, List.filter_cons, List.filter_nil]
      cases hentry : entry.2.isEmpty with
      | true =>
          simp only [Bool.not_true, Bool.false_eq_true, if_false, if_true, List.append_nil]
      | false =>
          simp only [Bool.not_false, Bool.false_eq_true, if_false, if_true, List.map_append,
            List.map_cons, List.map_nil, Table.ofList_concat]

/-- Every peer id that a list has is loaded once. -/
theorem ofSnapshot_snd (snapshot : Snapshot) :
    (ofSnapshot snapshot).2 = Table.sumOf snapshot fun peers => (Table.ofList peers).size := by
  induction snapshot using List.reverseRecOn with
  | nil => rfl
  | append_singleton snapshot entry ih =>
      rw [ofSnapshot_concat, ih, restoreSwarm_snd, Nat.add_comm]
      exact (Table.sumOf_perm (List.perm_append_singleton entry snapshot)
        fun peers => (Table.ofList peers).size).symm

/-- The swarm a restored store has under a hash was restored from one of
the lists. -/
theorem exists_of_get?_ofSnapshot {snapshot : Snapshot} {hash : InfoHash} {w : Swarm}
    (h : (ofSnapshot snapshot).1.swarms.get? hash = some w) :
    ∃ peers, (hash, peers) ∈ snapshot ∧ peers.isEmpty = false
      ∧ w = (restoreSwarm peers).1 := by
  rw [ofSnapshot_fst] at h
  obtain ⟨entry, hentry, heq⟩ := List.mem_map.mp (Table.mem_of_get?_ofList h)
  obtain ⟨rfl, rfl⟩ := Prod.mk.inj heq
  obtain ⟨hin, hne⟩ := List.mem_filter.mp hentry
  exact ⟨entry.2, hin, by simpa using hne, rfl⟩

/-- A load brings no swarm without peers: empty lists are left out. -/
theorem inhabited_ofSnapshot {snapshot : Snapshot} {hash : InfoHash} {w : Swarm}
    (h : (ofSnapshot snapshot).1.swarms.get? hash = some w) : w.peers.isEmpty = false := by
  obtain ⟨peers, -, hne, rfl⟩ := exists_of_get?_ofSnapshot h
  rw [restoreSwarm_fst]
  exact (Table.isEmpty_ofList peers).trans hne

/-- A store restored from lists in which no id comes twice is
consistent. -/
theorem consistent_ofSnapshot {snapshot : Snapshot}
    (h : ∀ entry ∈ snapshot, (entry.2.map Prod.fst).Nodup) :
    (ofSnapshot snapshot).1.Consistent where
  inhabited := inhabited_ofSnapshot
  counted := by
    intro hash w hw
    obtain ⟨peers, hmem, -, rfl⟩ := exists_of_get?_ofSnapshot hw
    exact counted_restoreSwarm (h _ hmem)

end Store

end TorrentTracker
