import TorrentTracker.Proofs.Http.Replies
import TorrentTracker.Proofs.Query.Scrape
import TorrentTracker.Proofs.Store.Unbounded
import TorrentTracker.Proofs.Tracker.Announced
import TorrentTracker.Proofs.Tracker.Response

/-
A list of hashes is told the same by either transport.

A datagram is answered with a record for each place of its list. A query is
answered with a dictionary, which has each hash once and has its own order.
What both are filled from is the same function of the hash
(`Store.counts`), so what is filed last under a hash is what the record at
any of its places says (`entryOf_mem`). The records are signed and stop at
the largest number there is room for. In a consistent store, of any size,
the numbers are those of a recount (`shows_ofNat`).

# Main statement

- `scrapes_agree`: for every store that operations and loads lead to and
  every list of one to 74 hashes.
-/

namespace TorrentTracker.Tracker

open Wire (Header Action)

variable {t : Tracker} {m : Moment} {source : SocketAddress} {hash : InfoHash}
  {hashes : List InfoHash} {id : Int64} {tid : Int32} {query : Bytes}

-- ========================================================= the datagram

/-- The datagram that asks for a list of hashes. -/
def scrapeOf (id : Int64) (tid : Int32) (hashes : List InfoHash) : Bytes :=
  Wire.ScrapeRequest.encode ⟨id, tid, hashes⟩

/-- The records for a list of hashes. -/
def recordsOf (t : Tracker) (hashes : List InfoHash) : List Wire.ScrapeRecord :=
  hashes.map fun hash => scrapeRecord (t.store.counts hash)

/-- A written scrape gets past the checks of its form: it has a header with a
known action, and is not too long. -/
theorem framed_scrapeOf (hfew : hashes.length ≤ maxScrapeHashes) :
    Framed (scrapeOf id tid hashes) ⟨id, Action.scrape.number, tid⟩ .scrape where
  peek := Header.peek_encode _ _
  known := Action.ofNumber_number .scrape
  fits := by
    have hregion : (hashes.flatMap Octets.bytes).length = hashes.length * 20 :=
      Reader.length_flatMap fun hash _ => hash.length_bytes
    unfold scrapeOf Wire.ScrapeRequest.encode Wire.maxRequestSize
    rw [List.length_append, Header.length_encode, hregion]
    omega

/-- A scrape that gets past the gate is answered with a record for each
hash. -/
theorem process_scrapeOf (hfew : hashes.length ≤ maxScrapeHashes)
    (hgate : t.registered source id = true) (m : Moment) (tid : Int32) :
    t.process m source (scrapeOf id tid hashes)
      = ((t.count .udpHits).count .udpScrapes,
        Wire.ScrapeResponse.encode ⟨tid, t.recordsOf hashes⟩) := by
  have hframed : Framed (scrapeOf id tid hashes) _ .scrape := framed_scrapeOf hfew
  have hdecode : Wire.ScrapeRequest.decode (scrapeOf id tid hashes) = .ok ⟨id, tid, hashes⟩ :=
    Wire.ScrapeRequest.decode_encode _
  rw [process_eq, hframed.reply_scrape, if_pos hgate]
  unfold scrape
  rw [hdecode]
  dsimp only
  rw [if_neg (Nat.not_lt.mpr hfew)]
  rfl

-- ============================================================ the query

/-- A query that spells hashes is answered with the counts of each, in the
order of the query. It is the body that files them by hash. -/
theorem respond_scrape (hspells : ScrapeQuery.Spells query hashes) (hsome : hashes ≠ [])
    (hfew : hashes.length ≤ maxScrapeHashes) (m : Moment) (source : SocketAddress)
    (headers : List (String × Bytes)) :
    t.respond m source ⟨"GET", ⟨utf8 "/scrape", some query⟩, headers⟩
      = (t.count .httpScrapes,
        .plain 200 (ScrapeReply.body ⟨hashes.map t.fileCounts⟩)) := by
  have hparse := ScrapeQuery.parse_eq_ok_iff.mpr ⟨hspells, hsome, hfew⟩
  have hroute : Route.ofPath? (utf8 "/scrape") = some .scrape := by decide
  rw [respond_get hroute]
  unfold follow scrapeQuery
  dsimp only
  rw [Option.getD_some, hparse]
  rfl

/-- The dictionary for a list of hashes. -/
def entriesOf (t : Tracker) (hashes : List InfoHash) : List (Bytes × Bencode) :=
  (ScrapeReply.filed ⟨hashes.map t.fileCounts⟩).map fun c => (c.hash.bytes, c.value)

/-- The body of the reply is read back, hash by hash as filed. -/
theorem decode?_body (t : Tracker) (hashes : List InfoHash) :
    Bencode.decode? (ScrapeReply.body ⟨hashes.map t.fileCounts⟩)
      = some (.dict [(utf8 "files", .dict (t.entriesOf hashes))]) :=
  (ScrapeReply.canonical_value _).decode?_encode

/-- The entries for a list of hashes: in order, and one for each hash. -/
structure OncePer (hashes : List InfoHash) (entries : List (Bytes × Bencode)) : Prop where
  ascending : (entries.map Prod.fst).Pairwise (· < ·)
  asked : ∀ key ∈ entries.map Prod.fst, ∃ hash ∈ hashes, hash.bytes = key
  once : ∀ hash ∈ hashes, (entries.map Prod.fst).count hash.bytes = 1

/-- Each hash that was asked for has one entry, whatever the order and the
repetitions. -/
theorem oncePer_entriesOf (t : Tracker) (hashes : List InfoHash) :
    OncePer hashes (t.entriesOf hashes) := by
  have hfiled := ScrapeReply.filed_entries (hashes.map t.fileCounts)
  constructor
  case ascending => exact hfiled.ascending
  case asked =>
    intro key hkey
    obtain ⟨c, hc, rfl⟩ := (hfiled.hashes key).mp hkey
    obtain ⟨hash, hhash, rfl⟩ := List.mem_map.mp hc
    exact ⟨hash, hhash, rfl⟩
  case once =>
    intro hash hhash
    have hnodup : ((t.entriesOf hashes).map Prod.fst).Nodup := by
      refine hfiled.ascending.imp fun hlt heq => ?_
      exact List.lt_irrefl _ (heq ▸ hlt)
    refine List.count_eq_one_of_mem hnodup ((hfiled.hashes _).mpr ?_)
    exact ⟨t.fileCounts hash, List.mem_map_of_mem hhash, rfl⟩

/-- What is filed under a hash are its counts, at whichever of its places
they were filed. -/
theorem entryOf_mem (hmem : hash ∈ hashes) :
    (hash.bytes, (t.fileCounts hash).value) ∈ t.entriesOf hashes := by
  obtain ⟨c, hc, hkey⟩ : ∃ c ∈ ScrapeReply.filed ⟨hashes.map t.fileCounts⟩,
      c.hash.bytes = hash.bytes :=
    ScrapeReply.exists_mem_filed_iff.mpr ⟨_, List.mem_map_of_mem hmem, rfl⟩
  obtain ⟨hash', -, rfl⟩ := List.mem_map.mp (ScrapeReply.mem_of_mem_filed hc)
  have hsame : hash' = hash := Octets.bytes_injective hkey
  subst hsame
  exact List.mem_map.mpr ⟨_, hc, rfl⟩

-- ============================================================== numbers

/-- How a record and an entry show a number of peers. -/
structure Shows (peers : Nat) (record : Int32) (entry : Int) : Prop where
  capped : record.toInt = min entry 2147483647
  counted : peers < 4294967296 → entry = peers
  exact : peers < 2147483648 → record.toInt = peers ∧ entry = peers

/-- Up to the largest number that a record has room for, both forms show it.
Beyond that the record shows the cap. -/
theorem shows_ofNat (peers : Nat) :
    Shows peers (cappedCount (UInt32.ofNat peers)) (UInt32.ofNat peers).toNat := by
  have hcapped := toInt_cappedCount (UInt32.ofNat peers)
  have hword : peers < 4294967296 → (UInt32.ofNat peers).toNat = peers :=
    UInt32.toNat_ofNat_of_lt'
  constructor
  case capped => exact hcapped.trans (by omega)
  case counted =>
    intro hroom
    rw [hword hroom]
  case exact =>
    intro hsmall
    rw [hcapped, hword (by omega)]
    omega

/-- How a record and an entry show the peers of a swarm. -/
structure Tells (s : Store) (hash : InfoHash) (record : Wire.ScrapeRecord)
    (seeders leechers : Int) : Prop where
  complete : Shows (s.swarm hash).completeCount record.complete seeders
  incomplete : Shows (s.swarm hash).incompleteCount record.incomplete leechers
  unknown : (∀ id, s.peer? hash id = none) →
    record.complete = 0 ∧ record.incomplete = 0 ∧ seeders = 0 ∧ leechers = 0

/-- So a record and an entry of one hash tell the same counts, a recount. -/
theorem tells_scrapeRecord (h : t.store.Consistent) (hash : InfoHash) :
    Tells t.store hash (scrapeRecord (t.store.counts hash))
      (t.fileCounts hash).seeders.toNat (t.fileCounts hash).leechers.toNat := by
  unfold fileCounts scrapeRecord
  rw [h.counts_eq]
  constructor
  case complete => exact shows_ofNat _
  case incomplete => exact shows_ofNat _
  case unknown =>
    intro hnone
    have hsize : (t.store.swarm hash).peers.size = 0 :=
      Table.isEmpty_iff_size.mp (Table.isEmpty_iff_get?.mpr hnone)
    have hsum := (t.store.swarm hash).completeCount_add_incompleteCount
    have hcomplete : (t.store.swarm hash).completeCount = 0 := by omega
    have hincomplete : (t.store.swarm hash).incompleteCount = 0 := by omega
    rw [hcomplete, hincomplete]
    exact ⟨rfl, rfl, rfl, rfl⟩

-- ============================================================ agreement

/-- Records and entries for a list of hashes, a record for each place and an
entry for each hash, all by what the store has. -/
structure Covers (s : Store) (hashes : List InfoHash) (records : List Wire.ScrapeRecord)
    (entries : List (Bytes × Bencode)) : Prop extends OncePer hashes entries where
  length : records.length = hashes.length
  told : ∀ (i : Nat) hash, hashes[i]? = some hash → ∃ record seeders leechers,
    records[i]? = some record ∧ (hash.bytes, .dict
      [ (utf8 "complete", .integer seeders)
      , (utf8 "downloaded", .integer 0)
      , (utf8 "incomplete", .integer leechers) ]) ∈ entries
    ∧ Tells s hash record seeders leechers

/-- And so do the records and the entries of all that were asked for, the
records by place and the entries by hash. -/
theorem covers_recordsOf (h : t.store.Consistent) (hashes : List InfoHash) :
    Covers t.store hashes (t.recordsOf hashes) (t.entriesOf hashes) where
  toOncePer := t.oncePer_entriesOf hashes
  length := List.length_map _
  told := by
    intro i hash hi
    have hrecord : (t.recordsOf hashes)[i]? = some (scrapeRecord (t.store.counts hash)) := by
      rw [recordsOf, List.getElem?_map, hi]
      rfl
    exact ⟨_, _, _, hrecord, entryOf_mem (List.mem_of_getElem? hi), tells_scrapeRecord h hash⟩

/-- Both transports leave the store, and answer with the same numbers. -/
structure Tallies (s : Store) (tid : Int32) (hashes : List InfoHash)
    (datagram : Tracker × Bytes) (query : Tracker × Http.Response) : Prop where
  stores : datagram.1.store = s ∧ query.1.store = s
  answers : ∃ records entries body, datagram.2 = Wire.ScrapeResponse.encode ⟨tid, records⟩
    ∧ query.2 = .plain 200 body
    ∧ Bencode.decode? body = some (.dict [(utf8 "files", .dict entries)])
    ∧ Covers s hashes records entries

/-- Every list of one to 74 hashes can be asked for by a query, and however
it is asked for, the two transports tell the same of it. -/
theorem scrapes_agree (h : t.store.Arises) (hsome : hashes ≠ [])
    (hfew : hashes.length ≤ maxScrapeHashes)
    (hgate : t.config.udp.validateConnectionId = true → t.connections.valid source id = true) :
    (∃ query, ScrapeQuery.Spells query hashes)
      ∧ ∀ query, ScrapeQuery.Spells query hashes → ∀ m m' source' tid headers,
        Tallies t.store tid hashes (t.process m source (scrapeOf id tid hashes))
          (t.respond m' source' ⟨"GET", ⟨utf8 "/scrape", some query⟩, headers⟩) := by
  refine ⟨⟨_, ScrapeQuery.spells_write hashes⟩, ?_⟩
  intro query hspells m m' source' tid headers
  rw [process_scrapeOf hfew (registered_of_gate hgate), respond_scrape hspells hsome hfew]
  exact ⟨⟨rfl, rfl⟩, _, _, _, rfl, rfl, t.decode?_body hashes,
    covers_recordsOf h.consistent hashes⟩

/-- A client with a connection id asks a store that was loaded for a hash
it knows, for one that it does not know, and for the first one again. -/
theorem scrapes_agree_repeated :
    let source := SocketAddress.v4 (.replicate 4 10) 5000
    let saved := (Store.empty.perform (.save (.replicate 20 9) (.replicate 20 2)
        ⟨.v4 (.replicate 4 10), 6881, true, 1000⟩)).perform
      (.save (.replicate 20 9) (.replicate 20 3) ⟨.v4 (.replicate 4 11), 6882, false, 1000⟩)
    let hashes : List InfoHash := [.replicate 20 9, .replicate 20 1, .replicate 20 9]
    ∃ store loaded, Store.decode? saved.encode = some (store, loaded)
      ∧ store.counts (.replicate 20 9) = ⟨1, 1⟩
      ∧ let t : Tracker := ⟨{}, store, ((Connections.empty 120).create source 990 99).1,
          { startTime := 0 }, { medium := .memory none, opened := true }⟩
        Tallies store 7 hashes (t.process ⟨1000, {}⟩ source (scrapeOf 99 7 hashes))
          (t.respond ⟨1001, {}⟩ source
            ⟨"GET", ⟨utf8 "/scrape", some (ScrapeQuery.write hashes)⟩, []⟩) := by
  intro source saved hashes
  have hroom : saved.Roomy := by decide
  have hsaved : saved.Arises := .perform _ (.perform _ .empty)
  have hload := hroom.decode?_encode
  have hloaded := hsaved.load saved.lists_snapshot hload
  refine ⟨_, _, hload, by decide +kernel, ?_⟩
  intro t
  have hsome : hashes ≠ [] := by decide
  have hgate : t.config.udp.validateConnectionId = true → t.connections.valid source 99 = true :=
    fun _ => by decide
  have hstore : t.store.Arises := hloaded
  have hagree := scrapes_agree hstore hsome (by decide) hgate
  exact hagree.2 _ (ScrapeQuery.spells_write hashes) ⟨1000, {}⟩ ⟨1001, {}⟩ source 7 []

end TorrentTracker.Tracker
