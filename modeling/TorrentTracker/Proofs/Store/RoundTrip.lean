import TorrentTracker.Backup
import TorrentTracker.Proofs.MessagePack.Format
import TorrentTracker.Proofs.Store.Restore

/-
Saving a store and loading it again gives the same store.

The listing a store is saved as has an order, and no part of the store
depends on it: `Lists` says that a snapshot lists a store in some order, of
its swarms and of the peers in each. Every such listing restores to the
store itself (`Consistent.ofSnapshot_of_lists`), with nothing of what the
store it is loaded into had before, and counts every peer.

# The layout

`Snapshot.value` is what a listing says as a MessagePack value: sequences
for lists, ids and records, a map with one entry for an address. Its bytes
are the one spelling of that value in which every head is as short as the
format has it.

# Main statement

- `Reached.portable`: round trip, bytes after the snapshot, and layout, for
  every store that operations and loads lead to.
-/

namespace TorrentTracker

open MessagePack

namespace Snapshot

-- ============================================================== layout

/-- A peer is the sequence of its fields. -/
def peerValue (p : Peer) : Value :=
  .array [.ofIp p.ip, .integer p.port.toNat, .boolean p.complete, .integer p.lastSeen.toInt]

/-- A peer id and its peer. -/
def memberValue (entry : PeerId × Peer) : Value :=
  .array [.ofOctets entry.1, peerValue entry.2]

/-- An info hash and its peers. -/
def swarmValue (entry : InfoHash × List (PeerId × Peer)) : Value :=
  .array [.ofOctets entry.1, .array (entry.2.map memberValue)]

/-- A snapshot as a value. -/
def value (s : Snapshot) : Value := .array (s.map swarmValue)

theorem writes_peer (p : Peer) : Writes (peerValue p) (encodePeer p) := by
  have hport : p.port.toNat < UInt64.size := Nat.lt_trans p.port.toNat_lt (by decide)
  have hwrites := writes_array [(.ofIp p.ip, ip p.ip),
    (.integer p.port.toNat, natural p.port.toNat), (.boolean p.complete, boolean p.complete),
    (.integer p.lastSeen.toInt, integer p.lastSeen.toInt)] (show 4 < UInt32.size by decide) (by
      simp only [List.forall_mem_cons]
      exact ⟨writes_ip p.ip, writes_natural hport, writes_boolean p.complete,
        writes_integer p.lastSeen, nofun⟩)
  unfold peerValue encodePeer
  simpa using hwrites

/-- A pair is a sequence of two. -/
theorem writes_pair {v w : Value} {a b : Bytes} (ha : Writes v a) (hb : Writes w b) :
    Writes (.array [v, w]) (arrayHeader 2 ++ a ++ b) := by
  have hwrites := writes_array [(v, a), (w, b)] (show 2 < UInt32.size by decide) (by
    simp only [List.forall_mem_cons]
    exact ⟨ha, hb, nofun⟩)
  simpa using hwrites

theorem writes_member (entry : PeerId × Peer) : Writes (memberValue entry) (encodeMember entry) :=
  writes_pair (writes_octets entry.1 (by decide)) (writes_peer entry.2)

/-- A written swarm is terse all the way down, if the list of its peers can be
announced. -/
theorem writes_swarm {entry : InfoHash × List (PeerId × Peer)}
    (hroom : entry.2.length < UInt32.size) : Writes (swarmValue entry) (encodeSwarm entry) :=
  writes_pair (writes_octets entry.1 (by decide))
    (writes_sequence (fun member _ => writes_member member) hroom)

/-- The bytes of a snapshot spell it, with the shortest head at every
turn. -/
theorem writes_encode {s : Snapshot} (hlength : s.length < UInt32.size)
    (hroom : ∀ entry ∈ s, entry.2.length < UInt32.size) : Writes s.value s.encode :=
  writes_sequence (fun entry hentry => writes_swarm (hroom entry hentry)) hlength

end Snapshot

namespace Store

variable {s : Store} {listing : Snapshot} {hash : InfoHash}

-- ============================================================ listings

/-- The snapshot lists the store: every hash with a swarm comes once, in
any order, and with it the peers of the swarm, in any order. -/
structure Lists (s : Store) (listing : Snapshot) : Prop where
  hashes : (listing.map Prod.fst).Perm (s.swarms.toList.map Prod.fst)
  peers : ∀ entry ∈ listing, entry.2.Perm (s.swarm entry.1).peers.toList

/-- The snapshot of a store is one of its listings. -/
theorem lists_snapshot (s : Store) : s.Lists s.snapshot where
  hashes := by
    unfold snapshot
    rw [List.map_map]
    exact List.Perm.refl _
  peers := by
    intro entry hentry
    obtain ⟨w, hw, hpeers⟩ := exists_of_mem_snapshot hentry
    rw [swarm_of_get? hw, hpeers]

theorem Lists.nodup_hashes (h : s.Lists listing) : (listing.map Prod.fst).Nodup :=
  h.hashes.nodup_iff.mpr s.swarms.nodup_keys

theorem Lists.nodup_ids (h : s.Lists listing) :
    ∀ entry ∈ listing, (entry.2.map Prod.fst).Nodup := by
  intro entry hentry
  exact ((h.peers entry hentry).map Prod.fst).nodup_iff.mpr (s.swarm entry.1).peers.nodup_keys

theorem Lists.length_eq (h : s.Lists listing) : listing.length = s.activeSwarms := by
  have hlen := h.hashes.length_eq
  rw [List.length_map, List.length_map, Table.length_toList] at hlen
  exact hlen

theorem Lists.exists_mem (h : s.Lists listing) {w : Swarm} (hw : s.swarms.get? hash = some w) :
    ∃ peers, (hash, peers) ∈ listing := by
  have hkey : hash ∈ s.swarms.toList.map Prod.fst :=
    List.mem_map.mpr ⟨_, Table.mem_toList_iff.mpr hw, rfl⟩
  obtain ⟨⟨hash', peers⟩, hentry, rfl⟩ := List.mem_map.mp (h.hashes.mem_iff.mpr hkey)
  exact ⟨peers, hentry⟩

/-- Where the store has room for its counts, the lists of any of its listings
have room in their headers. -/
theorem Lists.roomy (h : s.Lists listing) (hroom : s.Roomy) :
    ∀ entry ∈ listing, entry.2.length < UInt32.size := by
  intro entry hentry
  have hlen := (h.peers entry hentry).length_eq
  rw [Table.length_toList] at hlen
  rw [hlen]
  cases hw : s.swarms.get? entry.1 with
  | none =>
      rw [swarm_of_get?_none hw]
      decide
  | some w =>
      rw [swarm_of_get? hw]
      exact hroom.size_lt hw

-- =========================================================== restoring

/-- A restored listing has the peers of the store it lists. -/
theorem Lists.peer?_ofSnapshot (h : s.Lists listing) (hash : InfoHash) (id : PeerId) :
    (ofSnapshot listing).1.peer? hash id = s.peer? hash id := by
  have hkeys : ((swarmsOf listing).map Prod.fst).Nodup :=
    h.nodup_hashes.sublist (List.filter_sublist.map _)
  have hget := get?_ofSnapshot listing hash
  cases hlist : listOf? listing hash with
  | none =>
      -- no list that is not empty has the hash, so the swarm would be empty
      rw [hlist] at hget
      rw [peer?_of_get?_none hget]
      symm
      cases hw : s.swarms.get? hash with
      | none => exact peer?_of_get?_none hw id
      | some w =>
          obtain ⟨peers, hentry⟩ := h.exists_mem hw
          have hempty : peers = [] := by
            by_contra hne
            have hin : (hash, peers) ∈ swarmsOf listing :=
              List.mem_filter.mpr ⟨hentry, by simpa using hne⟩
            rw [← Table.get?_ofList_eq_some_iff hkeys] at hin
            rw [listOf?, hin] at hlist
            cases hlist
          have hpeers := Table.ofList_of_perm (h.peers _ hentry)
          rw [hempty] at hpeers
          unfold peer?
          rw [← hpeers]
          exact Table.get?_empty id
  | some peers =>
      rw [hlist, Option.map_some] at hget
      have hpeers := Table.ofList_of_perm (h.peers _ (mem_of_listOf? hlist).1)
      rw [peer?_of_get? hget, restoreSwarm_fst, peer?, ← hpeers]

/-- Every listing of a consistent store restores to it, and counts its
peers. -/
theorem Consistent.ofSnapshot_of_lists (hs : s.Consistent) (h : s.Lists listing) :
    ofSnapshot listing = (s, s.totalPeers) := by
  have hstore : (ofSnapshot listing).1 = s :=
    (consistent_ofSnapshot h.nodup_ids).ext hs h.peer?_ofSnapshot
  have hloaded : (ofSnapshot listing).2 = (ofSnapshot listing).1.totalPeers :=
    (loaded_eq_totalPeers_iff listing).mpr (h.nodup_hashes.sublist (List.filter_sublist.map _))
  rw [hstore] at hloaded
  exact Prod.ext hstore hloaded

/-- Every listing of a populated store restores to one with the same swarms
and peers, and with its counts in order. -/
theorem Populated.restores (hs : s.Populated) (h : s.Lists listing) :
    (ofSnapshot listing).1.SamePeers s ∧ (ofSnapshot listing).1.Consistent := by
  have hconsistent := consistent_ofSnapshot h.nodup_ids
  exact ⟨hconsistent.populated.samePeers hs h.peer?_ofSnapshot, hconsistent⟩

/-- All peers of a store are loaded from its own snapshot. -/
theorem ofSnapshot_snapshot_snd (s : Store) : (ofSnapshot s.snapshot).2 = s.totalPeers := by
  unfold totalPeers snapshot
  rw [ofSnapshot_snd, Table.total_eq_sumOf]
  induction s.swarms.toList with
  | nil => rfl
  | cons x xs ih => rw [List.map_cons, Table.sumOf_cons, Table.sumOf_cons, ih, Table.ofList_toList]

/-- Whatever follows a snapshot, it restores to its lists: the header says how
many there are, and nothing is read after them. -/
theorem decode?_encode_append (hlength : listing.length < UInt32.size)
    (hroom : ∀ entry ∈ listing, entry.2.length < UInt32.size) (rest : Bytes) :
    decode? (listing.encode ++ rest) = some (ofSnapshot listing) := by
  have hread := Snapshot.decode?_encode hroom rest
  rw [headed_of_lt hlength, List.take_length] at hread
  unfold decode?
  rw [hread]
  rfl

/-- A populated store comes back from its own bytes, all peers counted. Its own
counts need not be right for that. -/
theorem Populated.decode?_encode (hs : s.Populated) (hroom : s.Roomy)
    (hswarms : s.activeSwarms < UInt32.size) :
    ∃ t, decode? s.encode = some (t, s.totalPeers) ∧ t.SamePeers s ∧ t.Consistent := by
  have hlists := lists_snapshot s
  have hread := Store.decode?_encode (hlists.length_eq ▸ hswarms) (hlists.roomy hroom)
  refine ⟨(ofSnapshot s.snapshot).1, ?_, hs.restores hlists⟩
  rw [← ofSnapshot_snapshot_snd]
  exact hread

-- ========================================================== round trip

/-- The store can be carried over as bytes: whatever order it is listed in,
and whatever follows, its bytes load to the store itself and count its
peers, in place of any store that was there, and they are the one shortest
spelling of the listing. -/
structure Portable (s : Store) : Prop where
  saved : s.Lists s.snapshot ∧ s.encode = s.snapshot.encode
  loaded : ∀ listing, s.Lists listing → ∀ rest,
    decode? (listing.encode ++ rest) = some (s, s.totalPeers)
  replaced : ∀ listing, s.Lists listing → ∀ rest disk target,
    Backup.load ⟨.memory (some (listing.encode ++ rest)), true⟩ disk target
      = .ok (s, s.totalPeers)
  spelled : ∀ listing, s.Lists listing → ∀ bytes,
    Spells [listing.value] bytes ↔ bytes = listing.encode

/-- The bytes of any listing, followed by anything, load to the store that was
listed, whatever was there before. Those of the snapshot are, besides, the one
shortest spelling of it. -/
theorem Reached.portable (h : s.Reached) (hswarms : s.activeSwarms < UInt32.size) :
    s.Portable where
  saved := ⟨lists_snapshot s, rfl⟩
  loaded := by
    intro listing hlists rest
    rw [decode?_encode_append (hlists.length_eq ▸ hswarms) (hlists.roomy h.roomy),
      h.consistent.ofSnapshot_of_lists hlists]
  replaced := by
    intro listing hlists rest disk target
    show Backup.decode (listing.encode ++ rest) = _
    unfold Backup.decode
    rw [decode?_encode_append (hlists.length_eq ▸ hswarms) (hlists.roomy h.roomy),
      h.consistent.ofSnapshot_of_lists hlists]
  spelled := by
    intro listing hlists bytes
    have hspells := (Snapshot.writes_encode (hlists.length_eq ▸ hswarms)
      (hlists.roomy h.roomy)).spells
    constructor
    · exact fun hbytes => hbytes.unique hspells
    · rintro rfl
      exact hspells

/-- Two swarms with peers of both families and times on both sides of the
epoch, listed back to front. -/
theorem portable_mixed :
    let s := ((empty.perform (.save (.replicate 20 1) (.replicate 20 2)
        ⟨.v4 (.replicate 4 10), 6881, true, -40000⟩)).perform
      (.save (.replicate 20 1) (.replicate 20 3)
        ⟨.v6 (.replicate 16 32), 200, false, 70000⟩)).perform
      (.save (.replicate 20 4) (.replicate 20 2) ⟨.v4 (.replicate 4 10), 6881, false, 0⟩)
    let backwards : Snapshot := s.snapshot.reverse.map fun entry => (entry.1, entry.2.reverse)
    s.Reached ∧ s.activeSwarms < UInt32.size ∧ s.Lists backwards
      ∧ backwards.encode ≠ s.encode
      ∧ decode? (backwards.encode ++ [0xc1]) = some (s, 3) := by
  intro s backwards
  have hreached : s.Reached :=
    .perform _ (.perform _ (.perform _ .empty (by decide)) (by decide)) (by decide)
  have hlists : s.Lists backwards := ⟨by decide, by decide⟩
  have htotal : s.totalPeers = 3 := by decide
  refine ⟨hreached, by decide, hlists, by decide, ?_⟩
  rw [(hreached.portable (by decide)).loaded backwards hlists, htotal]

end Store

end TorrentTracker
