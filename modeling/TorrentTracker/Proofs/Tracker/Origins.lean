import TorrentTracker.Proofs.Tracker.Visit

/-
Where the peers of a swarm come from, and those of every list that is given
out.

# The invariant

A peer is in a swarm because an announce put it there, and the latest
announce under its hash and id decides what is known of it (`Kept`). That
is an invariant of visits and sweeps: a visit with an announce changes the
one place it names, and the search for the latest visit stops there
(`latest?_of_some`); any other visit leaves both alone, and a sweep only
takes peers out. Whatever an announce says of its client was looked at when
it came in: the port by either transport, the address because it is the
canonical one of the source (`Announce.Sound`).

So what is packed from a store can be told from the visits before
(`Kept.entries`). Every list was packed from the store its own visit leaves
(`Visit.Made`), and the induction over the course goes back to that visit.

# Main statement

- `Course.wellFormed`: only well-formed peers are stored and given out.
-/

namespace TorrentTracker.Tracker

variable {t₀ t : Tracker} {log : List Visit} {s : Store} {v : Visit} {a : Announce}
  {hash : InfoHash} {id : PeerId} {p : Peer}

-- ================================================================ runs

/-- What became of a tracker whose store only visits and sweeps have
changed, and the visits, the latest first. -/
inductive Course (t₀ : Tracker) : List Visit → Tracker → Prop where
  | start : Course t₀ [] t₀
  | datagram {log : List Visit} {t : Tracker} (m : Moment) (source : SocketAddress)
      (data : Bytes) : Course t₀ log t →
      Course t₀ (.datagram m source data (t.process m source data).2 :: log)
        (t.process m source data).1
  | query {log : List Visit} {t : Tracker} (m : Moment) (source : SocketAddress)
      (r : Http.Request) : Course t₀ log t →
      Course t₀ (.query m source r (t.respond m source r).2 :: log) (t.respond m source r).1
  | trim {log : List Visit} {t : Tracker} (now : Seconds) : Course t₀ log t →
      Course t₀ log (t.sweepPeers now).1
  | beside {log : List Visit} {t u : Tracker} : Course t₀ log t → u.store = t.store →
      Course t₀ log u

-- =============================================================== stored

/-- The visit whose announce was the latest to name a torrent and a
client. -/
def latest? (log : List Visit) (hash : InfoHash) (id : PeerId) : Option Visit :=
  log.find? fun v => v.names hash id

/-- Every peer is as the latest announce under its hash and id has it. -/
def Kept (log : List Visit) (s : Store) : Prop :=
  ∀ hash id p, s.peer? hash id = some p → ∃ v a, latest? log hash id = some v
    ∧ v.announce? = some a ∧ a.infoHash = hash ∧ a.peerId = id ∧ p = a.peer p.complete v.now

theorem latest?_of_none (h : v.announce? = none) (log : List Visit) (hash : InfoHash)
    (id : PeerId) : latest? (v :: log) hash id = latest? log hash id := by
  unfold latest?
  rw [List.find?_cons, Visit.names, h, Option.any_none]

/-- A visit that announces something is the latest for its own pair, and leaves
the latest of every other pair. -/
theorem latest?_of_some (h : v.announce? = some a) (log : List Visit) (hash : InfoHash)
    (id : PeerId) : latest? (v :: log) hash id
      = if a.infoHash = hash ∧ a.peerId = id then some v else latest? log hash id := by
  unfold latest?
  rw [List.find?_cons, Visit.names, h, Option.any_some, ← Bool.decide_and]
  by_cases hsame : a.infoHash = hash ∧ a.peerId = id
  · rw [decide_eq_true hsame, if_pos hsame]
  · rw [decide_eq_false hsame, if_neg hsame]

/-- What is stored is still as the latest announce had it after one more
visit. -/
theorem Kept.visit (h : Kept log s) (v : Visit) : Kept (v :: log) (v.after s) := by
  intro hash id p hp
  unfold Visit.after at hp
  cases hannounce : v.announce? with
  | none =>
      rw [hannounce] at hp
      rw [latest?_of_none hannounce]
      exact h hash id p hp
  | some a =>
      rw [hannounce] at hp
      rw [latest?_of_some hannounce]
      dsimp only at hp
      rw [a.peer?_apply] at hp
      by_cases hsame : a.infoHash = hash ∧ a.peerId = id
      · rw [if_pos hsame] at hp ⊢
        by_cases hstopped : a.event = .stopped
        · rw [if_pos hstopped] at hp
          cases hp
        · rw [if_neg hstopped] at hp
          cases hp
          exact ⟨v, a, rfl, hannounce, hsame.1, hsame.2, rfl⟩
      · rw [if_neg hsame] at hp ⊢
        exact h hash id p hp

theorem Kept.trim (h : Kept log s) (now : Seconds) (ttl : Int64) :
    Kept log (s.trim now ttl).1 := by
  intro hash id p hp
  rw [Store.peer?_trim, Option.filter_eq_some_iff] at hp
  exact h hash id p hp.1

-- =============================================================== listed

/-- A packed peer of a family: as wide as the family says, with a port, not
the IPv6 spelling of an IPv4 address, and as a client announced itself. -/
structure Listed (log : List Visit) (family : Family) (entry : Bytes) : Prop where
  width : entry.length = family.compactWidth
  port : entry.drop (family.compactWidth - 2) ≠ [0, 0]
  unmapped : family = .v6 → entry.take 12 ≠ Ip.mappedLead.bytes
  announced : ∃ v ∈ log, ∃ a, v.announce? = some a ∧ Announce.family a = family
    ∧ entry = a.ip.bytes ++ Word.write a.port

/-- All announces that got through are spelled so by their bytes, and have a
port and a canonical address. -/
def Spelled (log : List Visit) : Prop :=
  ∀ v ∈ log, ∀ a, v.announce? = some a → v.Spells a ∧ a.Sound

/-- The octets of an address make up an entry, but for the two bytes of the
port. -/
theorem length_bytes (ip : Ip) : ip.bytes.length = ip.family.compactWidth - 2 := by
  cases ip with
  | v4 o => exact o.length_bytes
  | v6 o => exact o.length_bytes

/-- What is packed for a sound announce is a whole entry of its family, and no
port in it is nought. -/
theorem listed_of_sound (hv : v ∈ log) (ha : v.announce? = some a) (hsound : a.Sound) :
    Listed log a.family (a.ip.bytes ++ Word.write a.port) where
  width := (a.peer true 0).length_compact
  port := by
    -- the port is in the last two bytes, of either width
    have hdrop : (a.ip.bytes ++ Word.write a.port).drop (a.family.compactWidth - 2)
        = Word.write a.port := List.drop_left' (length_bytes a.ip)
    rw [hdrop]
    exact fun hzero => hsound.port (Word.write_injective (b := 0) hzero)
  unmapped := by
    intro hfamily
    have hip := hsound.ip
    unfold Announce.family at hfamily
    cases hv6 : a.ip with
    | v4 o =>
        rw [hv6] at hfamily
        cases hfamily
    | v6 o =>
        rw [hv6] at hip
        have htake : (Ip.bytes (.v6 o) ++ Word.write a.port).take 12 = o.bytes.take 12 :=
          List.take_append_of_le_length (by rw [Ip.bytes, o.length_bytes]; decide)
        rw [htake]
        exact Ip.take_ne_of_canonical hip
  announced := ⟨v, hv, a, ha, rfl, rfl⟩

/-- So is what is packed for any stored peer: it is as some announce in the log
had it. -/
theorem Kept.listed (h : Kept log s) (hspelled : Spelled log)
    (hp : s.peer? hash id = some p) : Listed log p.family p.compact := by
  obtain ⟨v, a, hlatest, hannounce, -, -, hpeer⟩ := h hash id p hp
  have hv := List.mem_of_find?_eq_some hlatest
  rw [hpeer]
  exact listed_of_sound hv hannounce (hspelled v hv a hannounce).2

/-- The peers of a family in a swarm are stored peers, so what holds of all
that is stored holds of them. -/
theorem exists_peer?_of_mem_inFamily {family : Family} (h : p ∈ s.inFamily hash family) :
    p.family = family ∧ ∃ id, s.peer? hash id = some p := by
  obtain ⟨hmem, hfamily⟩ := List.mem_filter.mp h
  obtain ⟨⟨id, p⟩, hentry, rfl⟩ := List.mem_map.mp hmem
  exact ⟨of_decide_eq_true hfamily, id, Table.mem_toList_iff.mp hentry⟩

/-- Whole entries, each as a client announced itself. -/
def Entries (log : List Visit) (family : Family) (packed : Bytes) : Prop :=
  ∃ entries : List Bytes, packed = entries.flatten ∧ ∀ entry ∈ entries, Listed log family entry

/-- So a packed list is made of such entries, whichever were picked for it. -/
theorem Kept.entries (h : Kept log s) (hspelled : Spelled log) (a : Announce) (wanted : Nat)
    (picks : List Nat) : Entries log a.family (a.compactPeers s wanted picks) := by
  by_cases hstopped : a.event = .stopped
  · exact ⟨[], Announce.compactPeers_of_stopped hstopped s wanted picks, nofun⟩
  · obtain ⟨entries, hpacked, -, hsubperm, -⟩ := Announce.exists_entries hstopped s wanted picks
    refine ⟨entries, hpacked, fun entry hentry => ?_⟩
    obtain ⟨p, hp, rfl⟩ := List.mem_map.mp (hsubperm.subset hentry)
    obtain ⟨hfamily, id, hpeer⟩ := exists_peer?_of_mem_inFamily hp
    rw [← hfamily]
    exact h.listed hspelled hpeer

-- ============================================================ the whole

/-- Every peer, every announce and every list of a course is in order. -/
structure Genuine (log : List Visit) (s : Store) : Prop where
  kept : Kept log s
  spelled : Spelled log
  packed : ∀ later v earlier, log = later ++ v :: earlier → ∀ family packed,
    v.Packs family packed → Entries (v :: earlier) family packed

theorem genuine_empty : Genuine [] Store.empty where
  kept := by
    intro hash id p hp
    rw [Store.peer?_empty] at hp
    cases hp
  spelled := nofun
  packed := fun later v earlier hlog =>
    absurd hlog.symm (List.append_ne_nil_of_right_ne_nil _ (List.cons_ne_nil _ _))

/-- The invariant after a visit, by what the visit made of the store: the
announced peer came in, it went, or nothing changed. -/
theorem Genuine.visit {s' : Store} (h : Genuine log s) (hmade : v.Made s s') :
    Genuine (v :: log) s' := by
  have hkept : Kept (v :: log) s' := hmade.after ▸ h.kept.visit v
  have hspelled : Spelled (v :: log) := List.forall_mem_cons.mpr ⟨hmade.announced, h.spelled⟩
  refine ⟨hkept, hspelled, fun later v' earlier hlog family packed hpacks => ?_⟩
  cases later with
  | nil =>
      cases hlog
      rcases hmade.packed family packed hpacks with rfl | ⟨a, wanted, picks, rfl, rfl⟩
      · exact ⟨[], rfl, nofun⟩
      · exact hkept.entries hspelled a wanted picks
  | cons last later =>
      cases hlog
      exact h.packed later v' earlier rfl family packed hpacks

/-- The invariant along a course. By induction on its steps, of which only a
visit can bring in a peer. -/
theorem Course.genuine (h : Course t₀ log t) (hstore : t₀.store = Store.empty) :
    Genuine log t.store := by
  induction h with
  | start => exact hstore ▸ genuine_empty
  | datagram m source data _ ih => exact ih.visit (answered_reply _ m source data).made
  | query m source r _ ih => exact ih.visit (responded_respond _ m source r).made
  | @trim log t now _ ih => exact ⟨ih.kept.trim now t.config.peers.ttl, ih.spelled, ih.packed⟩
  | beside _ hsame ih => exact hsame ▸ ih

/-- A stored peer has a port and a canonical address, and is as the latest
announce under its hash and id has it. What an announce has stands in the
bytes of its visit. All packed peers that were given out were whole, with a
port, under the family of their addresses, and announced before. -/
structure WellFormed (log : List Visit) (t : Tracker) : Prop where
  stored : ∀ hash id p, t.store.peer? hash id = some p →
    p.port ≠ 0 ∧ (∀ o, p.ip ≠ .v6 (Ip.mapped o))
      ∧ ∃ v a, latest? log hash id = some v ∧ v.announce? = some a
        ∧ a.infoHash = hash ∧ a.peerId = id ∧ p = a.peer p.complete v.now
  announced : ∀ v ∈ log, ∀ a, v.announce? = some a → v.Spells a
  packed : ∀ later v earlier, log = later ++ v :: earlier → ∀ family packed,
    v.Packs family packed → Entries (v :: earlier) family packed

/-- Whatever comes in by either transport, from no peers on, only
well-formed peers are stored and given out. -/
theorem Course.wellFormed (hstore : t₀.store = Store.empty) (h : Course t₀ log t) :
    WellFormed log t := by
  have hgenuine := h.genuine hstore
  constructor
  case stored =>
    intro hash id p hp
    obtain ⟨v, a, hlatest, hannounce, hhash, hid, hpeer⟩ := hgenuine.kept hash id p hp
    have hsound := (hgenuine.spelled v (List.mem_of_find?_eq_some hlatest) a hannounce).2
    rw [hpeer]
    exact ⟨hsound.port, Ip.ne_mapped_of_canonical hsound.ip, v, a, hlatest, hannounce, hhash, hid,
      rfl⟩
  case announced => exact fun v hv a ha => (hgenuine.spelled v hv a ha).1
  case packed => exact hgenuine.packed

/-- An IPv4 client that shows up as an IPv6 one joins by a datagram, and an
IPv6 client joins its swarm by a query. -/
theorem wellFormed_mixed :
    let mapped := SocketAddress.v6 (Ip.mapped (.replicate 4 10)) 5000 0
    let source := SocketAddress.v6 (.replicate 16 32) 6000 0
    let start : Tracker := ⟨{ udp := { validateConnectionId := false } }, Store.empty,
      Connections.empty 120, { startTime := 0 }, { medium := .memory none, opened := true }⟩
    let joining := Wire.AnnounceRequest.encode
      ⟨0, 8, .replicate 20 1, .replicate 20 2, 0, 7, 0, .started, 0, 0, -1, 6881⟩
    let query : AnnounceQuery :=
      ⟨.replicate 20 1, .replicate 20 3, 6882, 0, 0, 7, .started, none, true, false⟩
    let r : Http.Request := ⟨"GET", ⟨utf8 "/announce", some query.write⟩, []⟩
    let joined := (start.process ⟨1000, {}⟩ mapped joining).1
    let both := (joined.respond ⟨1001, {}⟩ source r).1
    let swept := (both.sweepPeers 1002).1
    start.store = Store.empty ∧ swept.store.totalPeers = 2
      ∧ ∃ log, log.length = 2 ∧ Course start log swept ∧ WellFormed log swept := by
  intro mapped source start joining query r joined both swept
  have hcourse : Course start _ swept := .trim 1002 (.query ⟨1001, {}⟩ source r
    (.datagram ⟨1000, {}⟩ mapped joining .start))
  exact ⟨rfl, by decide +kernel, _, rfl, hcourse, hcourse.wellFormed rfl⟩

end TorrentTracker.Tracker
