import Mathlib.Data.List.Induction
import TorrentTracker.Http.AnnounceReply
import TorrentTracker.Http.ScrapeReply
import TorrentTracker.Proofs.Bencode
import TorrentTracker.Proofs.Ip.Text

/-
The bodies of announce and scrape replies, as a client that reads strictly
understands them.

Both bodies are written forms of values, so all there is to show is that
the values are canonical, and then what they say. An announce reply is put
together from few keys in a fixed order. A scrape reply is not: its keys
are the hashes of the request, in whatever order and however often they
came. They are filed one after the other into a list that ascends
(`ascending_file`), where the counts that came last under a hash stay
(`mem_filed_iff`).

A peer that is listed by itself carries its address as text. That text is
one of many spellings, so what it says is told by a reader: it is read as
the address of the peer (`Ip.parse?_text_bytes`).

# Main statement

- `legible_bodies`: what is read from the two bodies.
-/

namespace TorrentTracker

variable {c d : FileCounts} {sorted files : List FileCounts}

-- =============================================================== filing

namespace FileCounts

/-- File counts by hash, each hash once. -/
def Ascending (sorted : List FileCounts) : Prop :=
  sorted.Pairwise fun c d => c.hash.bytes < d.hash.bytes

theorem hash_ne_of_lt (h : c.hash.bytes < d.hash.bytes) : d.hash ≠ c.hash := by
  intro heq
  rw [heq] at h
  exact List.lt_irrefl _ h

/-- What is filed is there, with all that has another hash. -/
theorem mem_file_iff (h : Ascending sorted) :
    d ∈ c.file sorted ↔ d = c ∨ (d ∈ sorted ∧ d.hash ≠ c.hash) := by
  induction sorted with
  | nil => simp [file]
  | cons e rest ih =>
      obtain ⟨hfirst, hrest⟩ := List.pairwise_cons.mp h
      unfold file
      by_cases hsame : c.hash = e.hash
      · -- it takes the place of the first
        rw [if_pos hsame, List.mem_cons, List.mem_cons]
        refine or_congr_right ⟨fun hd => ⟨.inr hd, ?_⟩, fun hd => hd.1.resolve_left ?_⟩
        · rw [hsame]
          exact hash_ne_of_lt (hfirst d hd)
        · rintro rfl
          exact hd.2 hsame.symm
      rw [if_neg hsame]
      by_cases hlt : c.hash.bytes < e.hash.bytes
      · -- it stands before all others
        rw [if_pos hlt, List.mem_cons]
        refine or_congr_right (iff_self_and.mpr fun hd => ?_)
        rcases List.mem_cons.mp hd with rfl | hd
        · exact Ne.symm hsame
        · exact hash_ne_of_lt (List.lt_trans hlt (hfirst d hd))
      · rw [if_neg hlt, List.mem_cons, ih hrest, List.mem_cons, or_and_right, or_left_comm]
        refine or_congr_right (or_congr_left (iff_self_and.mpr ?_))
        rintro rfl
        exact Ne.symm hsame

/-- Filing keeps the order, whether the hash is new or takes the place of an
earlier one. -/
theorem ascending_file (h : Ascending sorted) (c : FileCounts) : Ascending (c.file sorted) := by
  induction sorted with
  | nil => exact List.pairwise_singleton _ _
  | cons e rest ih =>
      obtain ⟨hfirst, hrest⟩ := List.pairwise_cons.mp h
      unfold file
      by_cases hsame : c.hash = e.hash
      · rw [if_pos hsame]
        refine List.pairwise_cons.mpr ⟨?_, hrest⟩
        rw [hsame]
        exact hfirst
      rw [if_neg hsame]
      by_cases hlt : c.hash.bytes < e.hash.bytes
      · rw [if_pos hlt]
        refine List.pairwise_cons.mpr ⟨List.forall_mem_cons.mpr ⟨hlt, fun d hd => ?_⟩, h⟩
        exact List.lt_trans hlt (hfirst d hd)
      · rw [if_neg hlt]
        refine List.pairwise_cons.mpr ⟨fun d hd => ?_, ih hrest⟩
        rcases (mem_file_iff hrest).mp hd with rfl | ⟨hd, -⟩
        · have hne : e.hash.bytes ≠ d.hash.bytes := by
            intro heq
            exact hsame (Octets.bytes_injective heq.symm)
          -- neither before it nor the same
          exact Std.lt_of_le_of_ne (List.not_lt.mp hlt) hne
        · exact hfirst d hd

end FileCounts

namespace ScrapeReply

theorem filed_concat (files : List FileCounts) (c : FileCounts) :
    filed ⟨files ++ [c]⟩ = c.file (filed ⟨files⟩) := by
  unfold filed
  rw [List.foldl_append, List.foldl_cons, List.foldl_nil]

theorem ascending_filed (r : ScrapeReply) : FileCounts.Ascending r.filed := by
  obtain ⟨files⟩ := r
  induction files using List.reverseRecOn with
  | nil => exact .nil
  | append_singleton files c ih =>
      rw [filed_concat]
      exact FileCounts.ascending_file ih c

/-- Of the counts that came under a hash the last ones are filed, since an
entry takes the place of an earlier one. -/
theorem mem_filed_iff :
    c ∈ filed ⟨files⟩ ↔ files.reverse.find? (fun d => d.hash = c.hash) = some c := by
  induction files using List.reverseRecOn with
  | nil => exact iff_of_false nofun nofun
  | append_singleton files d ih =>
      rw [filed_concat, FileCounts.mem_file_iff (ascending_filed _), ih, List.reverse_append,
        List.reverse_singleton, List.singleton_append, List.find?_cons]
      by_cases hsame : d.hash = c.hash
      · rw [decide_eq_true hsame, Option.some_inj]
        exact (or_iff_left fun h => h.2 hsame.symm).trans eq_comm
      · rw [decide_eq_false hsame]
        have hne : c ≠ d := by
          rintro rfl
          exact hsame rfl
        exact (or_iff_right hne).trans (and_iff_left (Ne.symm hsame))

theorem mem_of_mem_filed (h : c ∈ filed ⟨files⟩) : c ∈ files :=
  List.mem_reverse.mp (List.mem_of_find?_eq_some (mem_filed_iff.mp h))

/-- Every hash that came is filed, and no other. A hash that came more than
once is filed once. -/
theorem exists_mem_filed_iff {key : Bytes} :
    (∃ c ∈ filed ⟨files⟩, c.hash.bytes = key) ↔ ∃ c ∈ files, c.hash.bytes = key := by
  constructor
  · rintro ⟨c, hc, rfl⟩
    exact ⟨c, mem_of_mem_filed hc, rfl⟩
  · rintro ⟨c, hc, rfl⟩
    have hsome : (files.reverse.find? fun d => d.hash = c.hash).isSome :=
      List.find?_isSome.mpr ⟨c, List.mem_reverse.mpr hc, decide_eq_true rfl⟩
    obtain ⟨d, hd⟩ := Option.isSome_iff_exists.mp hsome
    have hhash : d.hash = c.hash := by simpa using List.find?_some hd
    rw [← hhash] at hd ⊢
    exact ⟨d, mem_filed_iff.mpr hd, rfl⟩

end ScrapeReply

-- =============================================================== values

namespace PeerList

/-- The keys of a listed peer are in order, with or without its id, so the
reader finds them where it looks. -/
theorem canonical_dict (withIds : Bool) (entry : PeerId × Peer) :
    (dict withIds entry).Canonical := by
  cases withIds with
  | false =>
      have hkeys : [utf8 "ip", utf8 "port"].Pairwise (· < ·) := by decide
      refine .dict hkeys ?_
      exact List.forall_mem_cons.mpr ⟨.string _, List.forall_mem_singleton.mpr (.integer _)⟩
  | true =>
      have hkeys : [utf8 "ip", utf8 "peer id", utf8 "port"].Pairwise (· < ·) := by decide
      refine .dict hkeys (List.forall_mem_cons.mpr ⟨.string _, ?_⟩)
      exact List.forall_mem_cons.mpr ⟨.string _, List.forall_mem_singleton.mpr (.integer _)⟩

/-- So what stands for the peers is canonical in each of its forms, a string of
bytes for each family or a list of dictionaries. -/
theorem canonical_entries (peers : PeerList) : ∀ entry ∈ peers.entries, entry.2.Canonical := by
  cases peers with
  | compact family packed =>
      cases family with
      | v4 => exact List.forall_mem_singleton.mpr (.string _)
      | v6 =>
          refine List.forall_mem_cons.mpr ⟨.string _, ?_⟩
          exact List.forall_mem_singleton.mpr (.string _)
  | dicts withIds peers =>
      refine List.forall_mem_singleton.mpr (.list fun item hitem => ?_)
      obtain ⟨entry, -, rfl⟩ := List.mem_map.mp hitem
      exact canonical_dict withIds entry

end PeerList

/-- The reply to an announce has four or five keys, all in order: the second
key of peers comes after the first. -/
theorem AnnounceReply.canonical_value (r : AnnounceReply) : r.value.Canonical := by
  refine .dict ?_ ?_
  · obtain ⟨seeders, leechers, interval, peers⟩ := r
    have hkeys : [utf8 "complete", utf8 "incomplete", utf8 "interval", utf8 "peers",
      utf8 "peers6"].Pairwise (· < ·) := by decide
    cases peers with
    | compact family packed =>
        cases family with
        | v4 => exact hkeys.sublist (List.sublist_append_left _ [utf8 "peers6"])
        | v6 => exact hkeys
    | dicts withIds peers => exact hkeys.sublist (List.sublist_append_left _ [utf8 "peers6"])
  · refine List.forall_mem_append.mpr ⟨?_, r.peers.canonical_entries⟩
    refine List.forall_mem_cons.mpr ⟨.integer _, List.forall_mem_cons.mpr ⟨.integer _, ?_⟩⟩
    exact List.forall_mem_singleton.mpr (.integer _)

/-- The counts of a swarm have three keys in order. -/
theorem FileCounts.canonical_value (c : FileCounts) : c.value.Canonical := by
  have hkeys : [utf8 "complete", utf8 "downloaded", utf8 "incomplete"].Pairwise (· < ·) := by
    decide
  refine .dict hkeys ?_
  refine List.forall_mem_cons.mpr ⟨.integer _, List.forall_mem_cons.mpr ⟨.integer _, ?_⟩⟩
  exact List.forall_mem_singleton.mpr (.integer _)

/-- The reply to a scrape is one key over the hashes, which ascend by the way
they are filed. -/
theorem ScrapeReply.canonical_value (r : ScrapeReply) : r.value.Canonical := by
  refine .dict (List.pairwise_singleton _ _) (List.forall_mem_singleton.mpr (.dict ?_ ?_))
  · rw [List.map_map]
    exact List.pairwise_map.mpr r.ascending_filed
  · intro entry hentry
    obtain ⟨c, -, rfl⟩ := List.mem_map.mp hentry
    exact c.canonical_value

-- =============================================================== bodies

/-- The entries of a scrape reply for the counts that were to be sent. -/
structure Filed (files : List FileCounts) (entries : List (Bytes × Bencode)) : Prop where
  ascending : (entries.map Prod.fst).Pairwise (· < ·)
  hashes : ∀ key, key ∈ entries.map Prod.fst ↔ ∃ c ∈ files, c.hash.bytes = key
  last : ∀ earlier c later, files = earlier ++ c :: later → (∀ d ∈ later, d.hash ≠ c.hash) →
    (c.hash.bytes, .dict
      [ (utf8 "complete", .integer c.seeders.toNat)
      , (utf8 "downloaded", .integer 0)
      , (utf8 "incomplete", .integer c.leechers.toNat) ]) ∈ entries

/-- What is filed are the hashes of the list, each once and with what the list
said last. -/
theorem ScrapeReply.filed_entries (files : List FileCounts) :
    Filed files ((filed ⟨files⟩).map fun c => (c.hash.bytes, c.value)) := by
  refine ⟨?_, fun key => ?_, fun earlier c later hfiles hlater => ?_⟩
  · rw [List.map_map]
    exact List.pairwise_map.mpr (ascending_filed _)
  · rw [List.map_map, List.mem_map]
    exact exists_mem_filed_iff
  · refine List.mem_map.mpr ⟨c, mem_filed_iff.mpr ?_, rfl⟩
    rw [List.find?_eq_some_iff_append]
    refine ⟨decide_eq_true rfl, later.reverse, earlier.reverse, ?_, fun d hd => ?_⟩
    · rw [hfiles, List.reverse_append, List.reverse_cons, List.append_assoc,
        List.singleton_append]
    · rw [decide_eq_false (hlater d (List.mem_reverse.mp hd))]
      rfl

/-- What an announce reply says, with the given entries for its peers. -/
def announcement (seeders leechers : UInt32) (interval : Int32)
    (peers : List (Bytes × Bencode)) : Bencode :=
  .dict <|
    [ (utf8 "complete", .integer seeders.toNat)
    , (utf8 "incomplete", .integer leechers.toNat)
    , (utf8 "interval", .integer interval.toInt) ] ++ peers

/-- What a strict reader finds in the bodies of announce and scrape replies.
The address of a listed peer is a text, and from its bytes an address is
read that is the peer's and no other. -/
structure LegibleBodies : Prop where
  reading : Bencode.Strict
  addresses : ∀ ip : Ip, (text? (utf8 ip.text)).bind Ip.parse? = some ip
  compact_v4 : ∀ seeders leechers interval packed,
    Bencode.decode? (AnnounceReply.body ⟨seeders, leechers, interval, .compact .v4 packed⟩)
      = some (announcement seeders leechers interval [(utf8 "peers", .string packed)])
  compact_v6 : ∀ seeders leechers interval packed,
    Bencode.decode? (AnnounceReply.body ⟨seeders, leechers, interval, .compact .v6 packed⟩)
      = some (announcement seeders leechers interval
          [(utf8 "peers", .string []), (utf8 "peers6", .string packed)])
  with_ids : ∀ seeders leechers interval peers,
    Bencode.decode? (AnnounceReply.body ⟨seeders, leechers, interval, .dicts true peers⟩)
      = some (announcement seeders leechers interval
          [(utf8 "peers", .list <| peers.map fun entry => .dict
            [ (utf8 "ip", .string (utf8 entry.2.ip.text))
            , (utf8 "peer id", .string entry.1.bytes)
            , (utf8 "port", .integer entry.2.port.toNat) ])])
  without_ids : ∀ seeders leechers interval peers,
    Bencode.decode? (AnnounceReply.body ⟨seeders, leechers, interval, .dicts false peers⟩)
      = some (announcement seeders leechers interval
          [(utf8 "peers", .list <| peers.map fun entry => .dict
            [ (utf8 "ip", .string (utf8 entry.2.ip.text))
            , (utf8 "port", .integer entry.2.port.toNat) ])])
  scraped : ∀ files, ∃ entries,
    Bencode.decode? (ScrapeReply.body ⟨files⟩) = some (.dict [(utf8 "files", .dict entries)])
      ∧ Filed files entries

/-- Both bodies are read back as what they were written from, since both are
canonical; an address, by what its text is read as. -/
theorem legible_bodies : LegibleBodies where
  reading := Bencode.strict_reading
  addresses := Ip.parse?_text_bytes
  compact_v4 := fun _ _ _ _ => (AnnounceReply.canonical_value _).decode?_encode
  compact_v6 := fun _ _ _ _ => (AnnounceReply.canonical_value _).decode?_encode
  with_ids := fun _ _ _ _ => (AnnounceReply.canonical_value _).decode?_encode
  without_ids := fun _ _ _ _ => (AnnounceReply.canonical_value _).decode?_encode
  scraped := fun files =>
    ⟨_, (ScrapeReply.canonical_value _).decode?_encode, ScrapeReply.filed_entries files⟩

end TorrentTracker
