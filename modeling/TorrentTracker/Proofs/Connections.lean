import TorrentTracker.Connections
import TorrentTracker.Proofs.Table

/-
What the operations on connection ids do to the tickets, client by client.

Filing replaces the ticket of one client, a sweep takes back those that
are too old, and an id is valid if it is the one on the ticket. All three
go by the canonical client, so two spellings of an address are one client
here.
-/

namespace TorrentTracker.Connections

/-- A client is good for the id on its ticket and for no other; without a
ticket it is good for none. -/
theorem valid_iff {c : Connections} {source : SocketAddress} {id : Int64} :
    c.valid source id = true ↔ ∃ ticket, c.tickets.get? source.client = some ticket
      ∧ ticket.id = id := by
  unfold valid
  cases c.tickets.get? source.client with
  | none =>
      refine iff_of_false Bool.false_ne_true ?_
      intro hexists
      obtain ⟨ticket, hticket, -⟩ := hexists
      cases hticket
  | some ticket =>
      rw [decide_eq_true_iff]
      constructor
      · intro hid
        exact ⟨ticket, rfl, hid⟩
      · intro hexists
        obtain ⟨ticket', hticket, hid⟩ := hexists
        rw [Option.some.inj hticket]
        exact hid

/-- Whether an id is valid depends on the ticket of its client alone. -/
theorem valid_congr {c c' : Connections} {source : SocketAddress}
    (h : c.tickets.get? source.client = c'.tickets.get? source.client) (id : Int64) :
    c.valid source id = c'.valid source id := by
  unfold valid
  rw [h]

/-- A fresh id shows under its own client and under no other. -/
theorem get?_create (c : Connections) (source : SocketAddress) (now : Seconds) (draw : Nat)
    (client : Endpoint) :
    (c.create source now draw).1.tickets.get? client
      = if source.client = client then some ⟨drawId draw, now⟩ else c.tickets.get? client :=
  Table.get?_insert _ _ _ _

theorem get?_collect (c : Connections) (now : Seconds) (client : Endpoint) :
    (c.collect now).1.tickets.get? client
      = (c.tickets.get? client).filter fun ticket => !ticket.issued.expired c.maxAge now :=
  Table.get?_filterMap_unless _ _ _

theorem collect_snd (c : Connections) (now : Seconds) :
    (c.collect now).2 = c.tickets.count fun ticket => ticket.issued.expired c.maxAge now := by
  have hsize := Table.size_filterMap_add c.tickets fun ticket => ticket.issued.expired c.maxAge now
  exact Nat.sub_eq_of_eq_add' hsize.symm

theorem collect_snd_add_size (c : Connections) (now : Seconds) :
    (c.collect now).2 + (c.collect now).1.size = c.size := by
  rw [collect_snd, Nat.add_comm]
  exact Table.size_filterMap_add c.tickets _

end TorrentTracker.Connections
