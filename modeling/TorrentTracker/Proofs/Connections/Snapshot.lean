import TorrentTracker.Connections.Snapshot
import TorrentTracker.Proofs.MessagePack

/-
Snapshots of the connection ids: what was written is what is read.

`decodeEntries?_encode` composes the laws of the format along the shape of
an entry. It holds of any list of tickets that a header has room to count,
in whatever order, with clients that come twice and in whatever spelling,
and it does not care what follows the list.
-/

namespace TorrentTracker.Connections

open Reader (Reads)
open MessagePack

/-- The octets and the port, in the variant of the family. The octets are a
list of numbers and not a string of bytes. -/
theorem reads_readEndpoint (e : Endpoint) : Reads readEndpoint (encodeEndpoint e) e := by
  obtain ⟨ip, port⟩ := e
  cases ip with
  | v4 o =>
      refine reads_v4Variant ?_
      rw [List.append_assoc]
      exact (reads_readPair (reads_readOctets (by decide) o) (reads_readUInt16 port)).map
        fun x => Endpoint.mk (.v4 x.1) x.2
  | v6 o =>
      refine reads_v6Variant ?_
      rw [List.append_assoc]
      exact (reads_readPair (reads_readOctets (by decide) o) (reads_readUInt16 port)).map
        fun x => Endpoint.mk (.v6 x.1) x.2

/-- The two fields of a ticket in order, its id and the moment it was
issued. -/
theorem reads_readTicket (t : Ticket) : Reads readTicket (encodeTicket t) t := by
  have hid : Reads (TicketForm.fill {} 0) (integer t.id.toInt) ⟨some t.id, none⟩ :=
    (reads_readInt64 t.id).map fun id => TicketForm.mk (some id) none
  have hissued : Reads (TicketForm.fill ⟨some t.id, none⟩ 1) (integer t.issued.toInt)
      ⟨some t.id, some t.issued⟩ :=
    (reads_readInt64 t.issued).map fun issued => TicketForm.mk (some t.id) (some issued)
  have hfields : Reads (readFields TicketForm.fill (List.range ticketFields.length) {}) _ _ :=
    reads_readFields_cons hid (reads_readFields_cons hissued (reads_readFields_nil _))
  have hrecord := reads_readRecord (maxDepth - 3) (by decide) hfields
  have hwhole : encodeTicket t
      = arrayHeader 2 ++ (integer t.id.toInt ++ (integer t.issued.toInt ++ [])) ++ [] := by
    unfold encodeTicket
    simp only [List.append_assoc, List.append_nil]
  unfold readTicket
  rw [hwhole]
  exact hrecord.bind (Reads.pure t)

/-- An endpoint and its ticket. -/
theorem reads_entry (entry : Endpoint × Ticket) :
    Reads (readPair readEndpoint readTicket) (encodeEntry entry) entry := by
  unfold encodeEntry
  rw [List.append_assoc]
  exact reads_readPair (reads_readEndpoint entry.1) (reads_readTicket entry.2)

/-- Written tickets are read back, whatever follows them, if there are no more
of them than a header can say. -/
theorem decodeEntries?_encode {entries : List (Endpoint × Ticket)}
    (hlength : entries.length < UInt32.size) (rest : Bytes) :
    decodeEntries? (encodeEntries entries ++ rest) = some entries := by
  have hreads : Reads readEntries (encodeEntries entries) entries :=
    reads_sequence_of_lt (fun entry _ => reads_entry entry) hlength
  unfold decodeEntries?
  rw [hreads.gives]
  rfl

/-- A listing that is cut off before the end of what it announces is none,
wherever the cut is. -/
theorem decodeEntries?_take_eq_none_iff (entries : List (Endpoint × Ticket)) (k : Nat) :
    decodeEntries? ((encodeEntries entries).take k) = none
      ↔ k < (announced encodeEntry entries).length := by
  obtain ⟨unread, hsplit⟩ := exists_sequence_eq_append encodeEntry entries
  have hreads : Reads readEntries (announced encodeEntry entries) _ :=
    reads_sequence fun entry _ => reads_entry entry
  unfold decodeEntries? encodeEntries
  rw [hsplit, Option.map_eq_none_iff]
  exact hreads.run_take_eq_none_iff unread k

end TorrentTracker.Connections
