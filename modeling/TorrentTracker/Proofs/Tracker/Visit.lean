import TorrentTracker.Proofs.Announce
import TorrentTracker.Proofs.Http.Replies
import TorrentTracker.Proofs.Query.Announce
import TorrentTracker.Proofs.Tracker.Reply
import TorrentTracker.Proofs.Tracker.Response
import TorrentTracker.Proofs.Wire.Format

/-
Visits: a request by either transport with its answer, and what can be told
from the bytes of the two.

Three things are. Whether an announce got through is told by the kind of
the reply to a datagram, and by the query itself over HTTP (`announce?`).
What the announce names stands in the bytes: at fixed places of a datagram,
under the keys of a query, where the last of several pairs counts
(`Spells`). And the packed peers of an answer are all that comes after the
words of a reply, or the strings under two keys of a dictionary (`Packs`);
no answer but that to an announce has such a key, and what is no dictionary
does not begin like one.

# Main statement

- `Answered.made`, `Responded.made`: a visit leaves the store to its
  announce (`after`), and whatever peers it was answered with are packed
  from the store it leaves.
-/

namespace TorrentTracker

-- ============================================================== visits

/-- A request by either transport, with what it was answered. -/
inductive Visit where
  | datagram (m : Moment) (source : SocketAddress) (data reply : Bytes)
  | query (m : Moment) (source : SocketAddress) (r : Http.Request) (answer : Http.Response)

namespace Visit

def now : Visit → Seconds
  | datagram m _ _ _ => m.now
  | query m _ _ _ => m.now

/-- The announce of a visit, if it got through: that of a datagram which got
the reply to one, or of a query on the path of announces that can be
read. -/
def announce? : Visit → Option Announce
  | datagram _ source data reply =>
    if reply.take 4 = [0, 0, 0, 1] then
      (Wire.AnnounceRequest.decode data).toOption.map (Tracker.announceOf source)
    else none
  | query _ source r _ =>
    if r.target.path = utf8 "/announce" ∧ (r.method = "GET" ∨ r.method = "HEAD") then
      (r.target.query.bind fun text => (AnnounceQuery.parse text).toOption).map
        fun q => q.announce source
    else none

/-- A datagram announces what it decodes to, if the reply to it says that it
was an announce. -/
theorem announce?_datagram (m : Moment) (source : SocketAddress) (data reply : Bytes) :
    (datagram m source data reply).announce? = if reply.take 4 = [0, 0, 0, 1] then
      (Wire.AnnounceRequest.decode data).toOption.map (Tracker.announceOf source) else none :=
  rfl

/-- A query announces what it is parsed to, if it is on the path for it and
comes by a method that is answered there. -/
theorem announce?_query (m : Moment) (source : SocketAddress) (r : Http.Request)
    (answer : Http.Response) : (query m source r answer).announce? =
      if r.target.path = utf8 "/announce" ∧ (r.method = "GET" ∨ r.method = "HEAD") then
        (r.target.query.bind fun text => (AnnounceQuery.parse text).toOption).map
          fun q => q.announce source
      else none :=
  rfl

/-- Whether the announce of a visit names a torrent and a client. -/
def names (v : Visit) (hash : InfoHash) (id : PeerId) : Bool :=
  v.announce?.any fun a => a.infoHash = hash && a.peerId = id

/-- The store after a visit. -/
def after (v : Visit) (s : Store) : Store :=
  match v.announce? with
  | some a => a.apply s v.now
  | none => s

/-- The bytes of a visit give an announce the hash, the id and the port, and
its source the address. Of the pairs of a query the last with a key
counts. -/
inductive Spells : Visit → Announce → Prop where
  | datagram {m : Moment} {source : SocketAddress} {data reply : Bytes} {a : Announce}
      (hhash : (data.drop 16).take 20 = a.infoHash.bytes)
      (hid : (data.drop 36).take 20 = a.peerId.bytes)
      (hport : (data.drop 96).take 2 = Word.write a.port)
      (hip : a.ip = source.ip.canonical) : Spells (.datagram m source data reply) a
  | query {m : Moment} {source : SocketAddress} {r : Http.Request} {answer : Http.Response}
      {text hash id port digits : Bytes} {a : Announce}
      (hquery : r.target.query = some text)
      (hhash : Query.last? (Query.pairs text) (utf8 "info_hash") = some hash
        ∧ Percent.decode hash = .ok a.infoHash.bytes)
      (hid : Query.last? (Query.pairs text) (utf8 "peer_id") = some id
        ∧ Percent.decode id = .ok a.peerId.bytes)
      (hport : Query.last? (Query.pairs text) (utf8 "port") = some port
        ∧ Percent.decode port = .ok digits ∧ Decimal.uint16? digits = some a.port)
      (hip : a.ip = source.ip.canonical) : Spells (.query m source r answer) a

end Visit

/-- The key under which an answer to a query packs the peers of a family. -/
def Family.key : Family → String
  | v4 => "peers"
  | v6 => "peers6"

theorem Family.eq_of_key {a b : Family} (h : utf8 a.key = utf8 b.key) : a = b := by
  revert h
  cases a <;> cases b <;> decide

/-- An answer to a query packs peers of a family. -/
def Http.Response.Packs (answer : Http.Response) (family : Family) (packed : Bytes) : Prop :=
  ∃ entries, Bencode.decode? answer.body.render = some (.dict entries)
    ∧ (utf8 family.key, .string packed) ∈ entries

/-- The packed peers that a visit was answered with. A datagram is answered
with those of the family of its source. -/
inductive Visit.Packs : Visit → Family → Bytes → Prop where
  | datagram {m : Moment} {source : SocketAddress} {data reply : Bytes}
      (hkind : reply.take 4 = [0, 0, 0, 1]) :
      Packs (.datagram m source data reply) source.ip.canonical.family (reply.drop 20)
  | query {m : Moment} {source : SocketAddress} {r : Http.Request} {answer : Http.Response}
      {family : Family} {packed : Bytes} (h : answer.Packs family packed) :
      Packs (.query m source r answer) family packed

/-- An announce with a port, and with an address that is not the IPv6
spelling of an IPv4 one. -/
structure Announce.Sound (a : Announce) : Prop where
  port : a.port ≠ 0
  ip : a.ip.canonical = a.ip

/-- What a visit is to the store before and after it. -/
structure Visit.Made (v : Visit) (s s' : Store) : Prop where
  after : s' = v.after s
  announced : ∀ a, v.announce? = some a → v.Spells a ∧ a.Sound
  packed : ∀ family packed, v.Packs family packed → packed = []
    ∨ ∃ a wanted picks, Announce.family a = family ∧ packed = a.compactPeers s' wanted picks

section Made

variable {v : Visit} {s : Store}

/-- A visit that announces nothing and is told of no peers leaves the store
alone. -/
theorem Visit.made_of_none (hnone : v.announce? = none)
    (hpacks : ∀ family packed, ¬v.Packs family packed) : v.Made s s where
  after := by rw [Visit.after, hnone]
  announced := by
    intro a ha
    rw [hnone] at ha
    cases ha
  packed := fun family packed h => absurd h (hpacks family packed)

/-- A visit that announces something changes the store by that announce, and is
told of peers of the store after it. The three facts are what either transport
has to show. -/
theorem Visit.made_of_some {a : Announce} {s' : Store} (hsome : v.announce? = some a)
    (hafter : s' = a.apply s v.now) (hspells : v.Spells a ∧ a.Sound)
    (hpacks : ∀ family packed, v.Packs family packed → packed = [] ∨ ∃ b wanted picks,
      Announce.family b = family ∧ packed = b.compactPeers s' wanted picks) : v.Made s s' where
  after := by rw [hafter, Visit.after, hsome]
  announced := by
    intro b hb
    cases hsome.symm.trans hb
    exact hspells
  packed := hpacks

end Made

namespace Tracker

variable {t : Tracker} {m : Moment} {source : SocketAddress}

-- ============================================================ datagrams

section Datagrams

variable {data : Bytes} {p : Tracker × Reply}

/-- A datagram whose reply is none to an announce leaves the store alone and is
told of no peers. -/
theorem made_of_ne {r : Reply} (h : action? r ≠ some .announce) (s : Store) :
    (Visit.datagram m source data r.encode).Made s s := by
  have htake : r.encode.take 4 ≠ [0, 0, 0, 1] := fun htake => h (action?_of_take htake)
  apply Visit.made_of_none
  · rw [Visit.announce?_datagram, if_neg htake]
  · intro family packed hpacks
    cases hpacks with
    | datagram hkind => exact htake hkind

/-- What a datagram announces is spelled by its fields. The address is that of
the sender, whatever the datagram says. -/
theorem spells_datagram {request : Wire.AnnounceRequest} {reply : Bytes}
    (h : Wire.AnnounceRequest.decode data = .ok request) :
    (Visit.datagram m source data reply).Spells (announceOf source request) := by
  obtain ⟨hlen, event, hevent, rfl⟩ := (Wire.AnnounceRequest.decode_eq_ok_iff data).mp h
  have hlong : 98 ≤ data.length := hlen
  have hport : Word.write (Word.front (data.drop 96) : UInt16) = (data.drop 96).take 2 :=
    Word.write_front_drop rfl hlong
  constructor
  case hhash => exact (Wire.bytes_frontOctets_drop (by omega)).symm
  case hid => exact (Wire.bytes_frontOctets_drop (by omega)).symm
  case hport => exact hport.symm
  case hip => rfl

/-- Every way a datagram is answered is a visit of one of the two kinds. Only
the announce that gets through touches the store; all other replies announce
nothing and pack nobody. -/
theorem Answered.made (h : Answered t m source data p) :
    (Visit.datagram m source data p.2.encode).Made t.store p.1.store := by
  cases h with
  | @announced header request t' hframed hregistered hdecode hport htracker =>
      have haction : action? (.announce (told t' m source request)) = some .announce := rfl
      have hkind : (Reply.announce (told t' m source request)).encode.take 4 = [0, 0, 0, 1] :=
        take_encode haction
      apply Visit.made_of_some (a := announceOf source request)
      · rw [Visit.announce?_datagram, if_pos hkind, hdecode]
        rfl
      · subst htracker
        rfl
      · exact ⟨spells_datagram hdecode, hport, Ip.canonical_canonical _⟩
      · intro family packed hpacks
        cases hpacks
        exact .inr ⟨announceOf source request, _, _, rfl, Wire.AnnounceResponse.drop_encode _⟩
  | _ =>
      -- no other reply has an announce's action in front
      apply made_of_ne
      exact nofun

end Datagrams

-- ============================================================= queries

section Queries

variable {answer : Http.Response} {family : Family} {packed : Bytes} {r : Http.Request}
  {p : Tracker × Http.Response}

theorem not_packs_of_head? (h : answer.body.render.head? ≠ some 100) :
    ¬answer.Packs family packed := by
  intro hpacks
  obtain ⟨entries, hread, -⟩ := hpacks
  exact h (Bencode.head?_of_decode?_dict hread)

/-- What a dictionary packs is among its entries. -/
theorem mem_of_packs {entries : List (Bytes × Bencode)} {status : Nat}
    (hcanonical : (Bencode.dict entries).Canonical)
    (h : (Http.Response.plain status (Bencode.dict entries).encode).Packs family packed) :
    (utf8 family.key, .string packed) ∈ entries := by
  obtain ⟨others, hread, hmem⟩ := h
  cases hcanonical.eq_of_decode? hread
  exact hmem

/-- A dictionary of one key packs nothing if the key is another. The body is
canonical, so there is no second way to read it. -/
theorem not_packs_of_key {key : Bytes} {v : Bencode} {status : Nat}
    (hkey : ∀ family : Family, utf8 family.key ≠ key)
    (hcanonical : (Bencode.dict [(key, v)]).Canonical) :
    ¬(Http.Response.plain status (Bencode.dict [(key, v)]).encode).Packs family packed := by
  intro hpacks
  have hentry := List.mem_singleton.mp (mem_of_packs hcanonical hpacks)
  exact hkey family (congrArg Prod.fst hentry)

/-- A failure packs no peers: its one key is not among theirs. -/
theorem not_packs_reason (status : Nat) (why : String) :
    ¬(Http.Response.plain status (Http.Failure.reason why).encode).Packs family packed := by
  apply not_packs_of_key
  · intro family
    cases family with
    | _ => decide
  · exact .dict (List.pairwise_singleton _ _) (List.forall_mem_singleton.mpr (.string _))

theorem not_packs_scrape (status : Nat) (reply : ScrapeReply) :
    ¬(Http.Response.plain status reply.body).Packs family packed := by
  refine not_packs_of_key ?_ reply.canonical_value
  intro family
  cases family with
  | _ => decide

/-- What is answered on a path that leads nowhere packs no peers, be it a page
or a failure. -/
theorem not_packs_stray (r : Http.Request) : ¬(strayResponse r).Packs family packed := by
  unfold strayResponse
  split
  · exact not_packs_of_head? (by decide)
  · exact not_packs_reason _ _

/-- Nor do the pages of figures, which are no dictionaries to a strict
reader. -/
theorem not_packs_json (fields : List (String × Http.Scalar)) :
    ¬(Http.Response.json fields).Packs family packed := by
  apply not_packs_of_head?
  unfold Http.Response.json Http.Body.render utf8
  simp only [String.toList_append, List.flatMap_append, List.append_assoc]
  exact fun hhead => absurd (Option.some.inj hhead) (by decide)

/-- A `HEAD` is told no more than a `GET` would be, so nothing new has to be
shown of it. -/
theorem packs_of_trimmed (h : (trimmed r answer).Packs family packed) :
    answer.Packs family packed := by
  obtain ⟨entries, hread, hmem⟩ := h
  rcases body_trimmed r answer with hfull | hempty
  · rw [hfull] at hread
    exact ⟨entries, hread, hmem⟩
  · rw [hempty] at hread
    cases Bencode.head?_of_decode?_dict hread

/-- The peers of a reply are packed under the key of their family; under
the other key there is nothing. -/
theorem eq_compact_of_mem {peers : PeerList}
    (h : (utf8 family.key, .string packed) ∈ peers.entries) :
    packed = [] ∨ peers = .compact family packed := by
  cases peers with
  | dicts withIds listed => cases (Prod.mk.inj (List.mem_singleton.mp h)).2
  | compact other bytes =>
      cases other with
      | v4 =>
          obtain ⟨hkey, hvalue⟩ := Prod.mk.inj (List.mem_singleton.mp h)
          cases Family.eq_of_key (b := .v4) hkey
          cases hvalue
          exact .inr rfl
      | v6 =>
          rcases List.mem_cons.mp h with hentry | hentry
          · exact .inl (Bencode.string.inj (Prod.mk.inj hentry).2)
          · obtain ⟨hkey, hvalue⟩ := Prod.mk.inj (List.mem_singleton.mp hentry)
            cases Family.eq_of_key (b := .v6) hkey
            cases hvalue
            exact .inr rfl

/-- Peers that are packed in the body of a reply are the ones the reply was
made with, in the family that their key stands for. -/
theorem eq_compact_of_packs {status : Nat} {reply : AnnounceReply}
    (h : (Http.Response.plain status reply.body).Packs family packed) :
    packed = [] ∨ reply.peers = .compact family packed := by
  rcases List.mem_append.mp (mem_of_packs reply.canonical_value h) with hcount | hpeers
  · -- the counts and the interval are numbers
    simp at hcount
  · exact eq_compact_of_mem hpeers

/-- So packed peers in the answer to an announce are those of its swarm, or
there are none at all. -/
theorem toldQuery_packs {q : AnnounceQuery} {status : Nat}
    (h : (Http.Response.plain status (toldQuery t m source q).body).Packs family packed) :
    packed = [] ∨ ∃ a wanted picks, Announce.family a = family
      ∧ packed = a.compactPeers t.store wanted picks := by
  refine (eq_compact_of_packs h).imp_right fun hpeers => ?_
  unfold toldQuery at hpeers
  dsimp only at hpeers
  split at hpeers
  · cases hpeers
    exact ⟨q.announce source, _, _, rfl, rfl⟩
  · cases hpeers

theorem announce?_of_not_asks (h : ¬Asks r .announce) :
    (Visit.query m source r answer).announce? = none := by
  rw [Visit.announce?_query, if_neg]
  exact fun hasks => h ⟨hasks.1, hasks.2⟩

theorem Asks.announce? (h : Asks r .announce) :
    (Visit.query m source r answer).announce?
      = (r.target.query.bind fun text => (AnnounceQuery.parse text).toOption).map
        fun q => q.announce source := by
  rw [Visit.announce?_query, if_pos ⟨h.path, h.method⟩]

theorem Asks.unique {route other : Route} (h : Asks r route) (h' : Asks r other) :
    route = other := by
  have hpath := h.path.symm.trans h'.path
  revert hpath
  cases route <;> cases other <;> decide

/-- What a query announces is spelled by its fields, and its port is not
nought. -/
theorem spells_query {text : Bytes} {q : AnnounceQuery} (hquery : r.target.query = some text)
    (hparse : AnnounceQuery.parse text = .ok q) :
    (Visit.query m source r answer).Spells (q.announce source)
      ∧ (q.announce source).Sound := by
  have hnames := AnnounceQuery.names_of_parse hparse
  obtain ⟨hash, hhash, hid⟩ := Option.bind_eq_some_iff.mp hnames.infoHash
  obtain ⟨peer, hpeer, hpeerId⟩ := Option.bind_eq_some_iff.mp hnames.peerId
  obtain ⟨port, hport, hnumber⟩ := Option.bind_eq_some_iff.mp hnames.port
  obtain ⟨hzero, digits, hdigits, hread⟩ := Query.port_of_port? hnumber
  refine ⟨.query hquery ⟨hhash, Query.decode_of_id? hid⟩ ⟨hpeer, Query.decode_of_id? hpeerId⟩
    ⟨hport, hdigits, hread⟩ rfl, hzero, Ip.canonical_canonical _⟩

theorem announce?_of_other {route : Route} (h : Asks r route) (hne : route ≠ .announce) :
    (Visit.query m source r answer).announce? = none :=
  announce?_of_not_asks fun hannounce => hne (h.unique hannounce)

/-- A path that leads nowhere is not the one for announces. -/
theorem not_asks_of_stray (h : Route.ofPath? r.target.path = none) : ¬Asks r .announce := by
  intro hasks
  rw [hasks.path] at h
  revert h
  decide

/-- A query that is no announce that gets through, and its answer: nothing is
announced, nobody is packed, the store stays. -/
theorem made_of_unread (hnone : (Visit.query m source r (trimmed r answer)).announce? = none)
    (hpacks : ∀ {family packed}, ¬answer.Packs family packed) (s : Store) :
    (Visit.query m source r (trimmed r answer)).Made s s := by
  apply Visit.made_of_none hnone
  intro family packed h
  cases h with
  | query h => exact hpacks (packs_of_trimmed h)

/-- Every way a request is answered is a visit of one of the two kinds. Only
the answer to an announce has peers in it. -/
theorem Responded.made (h : Responded t m source r p) :
    (Visit.query m source r p.2).Made t.store p.1.store := by
  cases h with
  | stray hroute =>
      exact made_of_unread (announce?_of_not_asks (not_asks_of_stray hroute))
        (not_packs_stray r) t.store
  | refused _ hmethod =>
      apply Visit.made_of_none (announce?_of_not_asks fun hasks => hmethod hasks.method)
      intro family packed hpacks
      cases hpacks with
      | query hpacks =>
          refine not_packs_of_head? ?_ hpacks
          exact nofun
  | noQuery hasks hquery =>
      refine made_of_unread ?_ (not_packs_reason _ _) t.store
      rw [hasks.announce?, hquery]
      rfl
  | badAnnounce hasks hquery hparse =>
      refine made_of_unread ?_ (not_packs_reason _ _) t.store
      rw [hasks.announce?, hquery, Option.bind_some, hparse]
      rfl
  | @announced text q t' hasks hquery hparse htracker =>
      apply Visit.made_of_some (a := q.announce source)
      · rw [hasks.announce?, hquery, Option.bind_some, hparse]
        rfl
      · subst htracker
        rfl
      · exact spells_query hquery hparse
      · intro family packed hpacks
        cases hpacks with
        | query hpacks => exact toldQuery_packs (packs_of_trimmed hpacks)
  | badScrape hasks _ =>
      exact made_of_unread (announce?_of_other hasks nofun) (not_packs_reason _ _) t.store
  | scraped hasks _ =>
      exact made_of_unread (announce?_of_other hasks nofun) (not_packs_scrape _ _) t.store
  | health hasks =>
      exact made_of_unread (announce?_of_other hasks nofun) (not_packs_json _) t.store
  | stats hasks =>
      exact made_of_unread (announce?_of_other hasks nofun) (not_packs_json _) t.store

end Queries

end Tracker

end TorrentTracker
