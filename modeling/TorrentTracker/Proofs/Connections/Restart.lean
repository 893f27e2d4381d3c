import Mathlib.Data.Finset.Card
import TorrentTracker.Proofs.Connections.History

/-
Connection ids survive a restart.

The tickets in force are written in whatever order the table lists them,
and merged into a table that may have tickets of its own. A client comes
twice in no listing, and every client of a table that came of operations is
in canonical form, so filing puts each ticket back where it was
(`tickets_merge`). From there on a client with a ticket restored is the
same machine as before, started from the same ticket.

# Main statement

- `restartable_run`: what is carried over by a snapshot.
-/

namespace TorrentTracker.Connections

variable {maxAge : Int64} {client : Endpoint} {s t : Connections}
  {listing : List (Endpoint × Ticket)}

/-- The clients with an id in force. -/
def clients (c : Connections) : Finset Endpoint := (c.tickets.toList.map Prod.fst).toFinset

theorem mem_clients_iff {c : Connections} :
    client ∈ c.clients ↔ (c.tickets.get? client).isSome = true := by
  unfold clients
  rw [List.mem_toFinset, List.mem_map, Option.isSome_iff_exists]
  constructor
  · rintro ⟨⟨_, ticket⟩, hmem, rfl⟩
    exact ⟨ticket, Table.mem_toList_iff.mp hmem⟩
  · rintro ⟨ticket, hticket⟩
    exact ⟨(client, ticket), Table.mem_toList_iff.mpr hticket, rfl⟩

theorem card_clients (c : Connections) : c.clients.card = c.size := by
  unfold clients
  rw [List.toFinset_card_of_nodup c.tickets.nodup_keys, List.length_map]
  exact c.tickets.length_toList

/-- Clients in canonical form are filed under their own name. -/
theorem tickets_merge (c : Connections) (h : ∀ entry ∈ listing, entry.1.canonical = entry.1) :
    (c.merge listing).tickets
      = listing.foldl (fun tickets entry => tickets.insert entry.1 entry.2) c.tickets := by
  unfold merge
  induction listing generalizing c with
  | nil => rfl
  | cons entry listing ih =>
      obtain ⟨hentry, hlisting⟩ := List.forall_mem_cons.mp h
      rw [List.foldl_cons, List.foldl_cons, ih _ hlisting]
      show listing.foldl _ (c.tickets.insert entry.1.canonical entry.2) = _
      rw [hentry]

/-- The tickets of one table over those of another: whose id is in force,
from now on and for how long. A sweep goes by the limit of the table that is
swept. -/
structure Resumed (s t resumed : Connections) : Prop where
  maxAge : resumed.maxAge = t.maxAge
  ticket : ∀ client ∈ s.clients, resumed.tickets.get? client = s.tickets.get? client
  valid : ∀ source id, resumed.valid source id
    = if source.client ∈ s.clients then s.valid source id else t.valid source id
  later : ∀ ops : List Operation, ∀ client ∈ s.clients,
    (ops.foldl perform resumed).tickets.get? client
      = (ops.foldl perform { s with maxAge := t.maxAge }).tickets.get? client
  size : resumed.size = (s.clients ∪ t.clients).card

/-- The ids in force can be carried over: in whatever order they are
listed, all of them are read, and go over those of any table. -/
structure Restartable (s : Connections) : Prop where
  saved : s.encode = encodeEntries s.tickets.toList
  restored : ∀ listing : List (Endpoint × Ticket), listing.Perm s.tickets.toList →
    ∀ t : Connections, ∃ resumed,
      t.restore? (encodeEntries listing) = some (resumed, s.size) ∧ Resumed s t resumed

/-- A table that has the tickets of one over those of another goes on from
there as claimed: who is valid, what later sweeps leave, and how many there
are. -/
theorem resumed_of_get? {resumed : Connections} (hmaxAge : resumed.maxAge = t.maxAge)
    (h : ∀ client, resumed.tickets.get? client
      = (s.tickets.get? client).or (t.tickets.get? client)) : Resumed s t resumed := by
  have hticket : ∀ client ∈ s.clients, resumed.tickets.get? client = s.tickets.get? client := by
    intro client hclient
    rw [h, Option.or_of_isSome (mem_clients_iff.mp hclient)]
  refine ⟨hmaxAge, hticket, fun source id => ?_, fun ops client hclient => ?_, ?_⟩
  · split
    · next hclient => exact valid_congr (hticket _ hclient) id
    · next hclient =>
      have hnone : s.tickets.get? source.client = none := by
        rw [← Option.not_isSome_iff_eq_none, ← mem_clients_iff]
        exact hclient
      refine valid_congr ?_ id
      rw [h, hnone, Option.none_or]
  · rw [get?_foldl_perform, get?_foldl_perform, hmaxAge, hticket client hclient]
  · rw [← card_clients]
    congr 1
    ext client
    rw [Finset.mem_union, mem_clients_iff, mem_clients_iff, mem_clients_iff, h, Option.isSome_or,
      Bool.or_eq_true]

/-- The law of restarts, from the one fact that merging a listing puts its
tickets over those that were there. -/
theorem restartable_run {ops : List Operation} (hsize : (run maxAge ops).size < UInt32.size) :
    (run maxAge ops).Restartable where
  saved := rfl
  restored := by
    intro listing hlisting t
    have hlength : listing.length = (run maxAge ops).size := by
      rw [hlisting.length_eq]
      exact Table.length_toList _
    have hcanonical : ∀ entry ∈ listing, entry.1.canonical = entry.1 := by
      intro entry hentry
      exact canonical_of_get?_run (Table.mem_toList_iff.mp (hlisting.mem_iff.mp hentry))
    have hdecode := decodeEntries?_encode (hlength ▸ hsize) []
    rw [List.append_nil] at hdecode
    refine ⟨t.merge listing, ?_, resumed_of_get? (maxAge_merge t listing) fun client => ?_⟩
    · unfold restore?
      rw [hdecode, Option.map_some, hlength]
    · rw [tickets_merge t hcanonical]
      exact Table.get?_foldl_insert_of_perm hlisting t.tickets client

/-- Clients of both families, listed back to front, go over a table in which
one of them has another id and a third one has its own. -/
theorem restartable_mixed :
    let s := run 60
      [.create (.v4 (.replicate 4 10) 6881) 1000 5,
        .create (.v6 (.replicate 16 32) 6882 3) 1010 6]
    let t := run 60
      [.create (.v6 (Ip.mapped (.replicate 4 10)) 6881 0) 1020 7,
        .create (.v4 (.replicate 4 11) 6881) 1020 8]
    let backwards := s.tickets.toList.reverse
    s.size < UInt32.size ∧ s.Restartable ∧ encodeEntries backwards ≠ s.encode
      ∧ ∃ resumed, t.restore? (encodeEntries backwards) = some (resumed, 2)
        ∧ Resumed s t resumed ∧ resumed.size = 3 := by
  intro s t backwards
  have hsize : s.size = 2 := by decide
  have hlt : s.size < UInt32.size := by decide
  have hs : s.Restartable := restartable_run hlt
  obtain ⟨resumed, hrestore, hresumed⟩ := hs.restored backwards (List.reverse_perm _) t
  refine ⟨hlt, hs, by decide, resumed, ?_, hresumed, ?_⟩
  · rw [hrestore, hsize]
  · rw [hresumed.size]
    decide

-- ======================================================== an empty table

/-- The tickets that come of operations are all there is to a table, so an
empty one takes them over as they are. -/
theorem merge_empty (maxAge : Int64) (ops : List Operation) :
    (empty maxAge).merge (run maxAge ops).tickets.toList = run maxAge ops := by
  have hcanonical : ∀ entry ∈ (run maxAge ops).tickets.toList, entry.1.canonical = entry.1 :=
    fun entry hentry => canonical_of_get?_run (Table.mem_toList_iff.mp hentry)
  have htickets : ((empty maxAge).merge (run maxAge ops).tickets.toList).tickets
      = (run maxAge ops).tickets :=
    (tickets_merge (empty maxAge) hcanonical).trans (Table.ofList_toList _)
  have hmaxAge : ((empty maxAge).merge (run maxAge ops).tickets.toList).maxAge
      = (run maxAge ops).maxAge :=
    (maxAge_merge _ _).trans (maxAge_run maxAge ops).symm
  cases hmerge : (empty maxAge).merge (run maxAge ops).tickets.toList
  cases hrun : run maxAge ops
  rw [hmerge, hrun] at hmaxAge htickets
  exact congr (congrArg _ htickets) hmaxAge

/-- Into an empty table, the tickets come back as they were. -/
theorem restore?_empty {ops : List Operation} (hsize : (run maxAge ops).size < UInt32.size) :
    (empty maxAge).restore? (run maxAge ops).encode
      = some (run maxAge ops, (run maxAge ops).size) := by
  have hlength : (run maxAge ops).tickets.toList.length = (run maxAge ops).size :=
    Table.length_toList _
  have hdecode := decodeEntries?_encode (hlength ▸ hsize) []
  rw [List.append_nil] at hdecode
  rw [restore?, encode, hdecode, Option.map_some, merge_empty, hlength]

end TorrentTracker.Connections
