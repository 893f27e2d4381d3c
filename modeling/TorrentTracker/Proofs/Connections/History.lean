import TorrentTracker.Proofs.Clock
import TorrentTracker.Proofs.Connections
import TorrentTracker.Proofs.Connections.Snapshot
import TorrentTracker.Proofs.History

/-
Which ids are in force, from the operations alone.

The table has one ticket for a client and no trace of how it came there.
Here the operations are the reference. Each comes down to events: a ticket
is filed for a client, or a sweep is made; a snapshot that is merged files
one ticket after the other. What must be in force is read off the events
(`InForce`): the last ticket filed for the client, unless a sweep since
found it too old.

# The argument

One client of the table is a machine of its own: `under` is its step, and
`get?_foldl_perform` says that the table runs one such machine for each
client. What it has after one event is `under_eq_some_iff`, and what it ends
with follows by induction on the events, from any ticket it may start with
(`foldl_under_iff`). Both take times since the epoch, where ages are exact.
Where a ticket came from needs no times (`file_of_get?_run`), and it is
always a client in canonical form that one is filed for.

# Main statement

- `traced_run`: what operations on an empty table leave in force.
-/

namespace TorrentTracker.Connections

-- ========================================================== operations

/-- What is done to the ids in force: one is given out, a snapshot is
merged, a sweep is made. -/
inductive Operation where
  | create (source : SocketAddress) (now : Seconds) (draw : Nat)
  | restore (data : Bytes)
  | collect (now : Seconds)

/-- Carry an operation out; a snapshot that cannot be read changes
nothing. -/
def perform (c : Connections) : Operation → Connections
  | .create source now draw => (c.create source now draw).1
  | .restore data => (c.restore? data).elim c Prod.fst
  | .collect now => (c.collect now).1

/-- The ids in force after operations on none. -/
def run (maxAge : Int64) (ops : List Operation) : Connections := ops.foldl perform (empty maxAge)

/-- What happens to tickets. -/
inductive Event where
  | file (client : Endpoint) (ticket : Ticket)
  | collect (now : Seconds)

/-- The events of filing entries one after the other. -/
def filings (entries : List (Endpoint × Ticket)) : List Event :=
  entries.map fun entry => .file entry.1.canonical entry.2

/-- The events of an operation. -/
def Operation.events : Operation → List Event
  | create source now draw => [.file source.client ⟨drawId draw, now⟩]
  | restore data => filings ((decodeEntries? data).getD [])
  | collect now => [.collect now]

/-- The clock of an event is not before the epoch. -/
def Event.Timely : Event → Prop
  | file _ ticket => 0 ≤ ticket.issued.toInt
  | collect now => 0 ≤ now.toInt

instance (event : Event) : Decidable event.Timely :=
  match event with
  | .file _ ticket => inferInstanceAs (Decidable (0 ≤ ticket.issued.toInt))
  | .collect now => inferInstanceAs (Decidable (0 ≤ now.toInt))

/-- All clocks of an operation, those in a snapshot with it. -/
def Operation.Timely (op : Operation) : Prop := ∀ event ∈ op.events, event.Timely

instance (op : Operation) : Decidable op.Timely :=
  inferInstanceAs (Decidable (∀ event ∈ op.events, event.Timely))

/-- Neither a sweep nor a ticket for the client. -/
def Event.Spares (client : Endpoint) : Event → Prop
  | file other _ => other ≠ client
  | collect _ => False

-- ============================================================= history

/-- The event leaves the client its ticket: it is about somebody else, or a
sweep that does not find the ticket too old. -/
def Event.Keeps (maxAge : Int64) (client : Endpoint) (ticket : Ticket) : Event → Prop
  | file other _ => other ≠ client
  | collect now => now.toInt - ticket.issued.toInt ≤ maxAge.toInt

/-- The ticket was filed for the client, and all that came after left it. -/
def InForce (maxAge : Int64) (client : Endpoint) (ticket : Ticket) (events : List Event) : Prop :=
  ∃ earlier since, events = earlier ++ .file client ticket :: since
    ∧ ∀ event ∈ since, event.Keeps maxAge client ticket

variable {maxAge : Int64} {client : Endpoint} {ticket : Ticket} {entry : Option Ticket}
  {event : Event} {events : List Event} {op : Operation} {ops : List Operation} {now : Seconds}

theorem not_inForce_nil : ¬InForce maxAge client ticket [] := History.not_exists_nil

/-- A ticket is in force if it is filed first and kept from then on, or comes
into force later. -/
theorem inForce_cons_iff :
    InForce maxAge client ticket (event :: events)
      ↔ (event = .file client ticket ∧ ∀ event ∈ events, event.Keeps maxAge client ticket)
        ∨ InForce maxAge client ticket events :=
  History.exists_cons_iff

-- ========================================================== one client

/-- What an event makes of the ticket of a client. -/
def under (maxAge : Int64) (client : Endpoint) (entry : Option Ticket) : Event → Option Ticket
  | .file other ticket => if other = client then some ticket else entry
  | .collect now => entry.filter fun ticket => !ticket.issued.expired maxAge now

theorem maxAge_merge (c : Connections) (entries : List (Endpoint × Ticket)) :
    (c.merge entries).maxAge = c.maxAge := by
  unfold merge
  induction entries generalizing c with
  | nil => rfl
  | cons entry entries ih => exact ih _

/-- A merge files one entry after the other, so the events it stands for are
filings. -/
theorem get?_merge (c : Connections) (entries : List (Endpoint × Ticket)) (client : Endpoint) :
    (c.merge entries).tickets.get? client
      = (filings entries).foldl (under c.maxAge client) (c.tickets.get? client) := by
  unfold merge
  induction entries generalizing c with
  | nil => rfl
  | cons entry entries ih =>
      have hfile : (c.file entry.1 entry.2).tickets.get? client
          = under c.maxAge client (c.tickets.get? client) (.file entry.1.canonical entry.2) :=
        Table.get?_insert _ _ _ _
      rw [List.foldl_cons, ih, hfile]
      rfl

/-- A snapshot is merged as far as it can be read: all of it, or nothing. -/
theorem perform_restore (c : Connections) (data : Bytes) :
    c.perform (.restore data) = c.merge ((decodeEntries? data).getD []) := by
  show ((decodeEntries? data).map fun entries => (c.merge entries, entries.length)).elim c _ = _
  cases decodeEntries? data with
  | none => rfl
  | some entries => rfl

theorem maxAge_perform (c : Connections) (op : Operation) : (c.perform op).maxAge = c.maxAge := by
  cases op with
  | create source now draw => rfl
  | restore data =>
      rw [perform_restore]
      exact maxAge_merge c _
  | collect now => rfl

/-- An operation on the table is its events on the ticket of every
client. -/
theorem get?_perform (c : Connections) (op : Operation) (client : Endpoint) :
    (c.perform op).tickets.get? client
      = op.events.foldl (under c.maxAge client) (c.tickets.get? client) := by
  cases op with
  | create source now draw => exact get?_create c source now draw client
  | restore data =>
      rw [perform_restore]
      exact get?_merge c _ client
  | collect now => exact get?_collect c now client

theorem maxAge_foldl_perform (c : Connections) (ops : List Operation) :
    (ops.foldl perform c).maxAge = c.maxAge := by
  induction ops generalizing c with
  | nil => rfl
  | cons op ops ih => rw [List.foldl_cons, ih, maxAge_perform]

/-- The ticket of a client changes by the events alone, one after the other,
wherever it starts. -/
theorem get?_foldl_perform (c : Connections) (ops : List Operation) (client : Endpoint) :
    (ops.foldl perform c).tickets.get? client
      = (ops.flatMap Operation.events).foldl (under c.maxAge client) (c.tickets.get? client) := by
  induction ops generalizing c with
  | nil => rfl
  | cons op ops ih =>
      rw [List.foldl_cons, ih, maxAge_perform, get?_perform, List.flatMap_cons, List.foldl_append]

theorem maxAge_run (maxAge : Int64) (ops : List Operation) : (run maxAge ops).maxAge = maxAge :=
  maxAge_foldl_perform _ ops

/-- The ticket of a client after a history is computed from the history alone,
event by event. -/
theorem get?_run (maxAge : Int64) (ops : List Operation) (client : Endpoint) :
    (run maxAge ops).tickets.get? client
      = (ops.flatMap Operation.events).foldl (under maxAge client) none := by
  have hempty : (empty maxAge).tickets.get? client = none := Table.get?_empty client
  have hrun := get?_foldl_perform (empty maxAge) ops client
  rw [hempty] at hrun
  exact hrun

-- ============================================================= origins

/-- A ticket that is there was there before or was filed. The operations since
then can only have kept it or replaced it. -/
theorem mem_of_foldl_under (h : events.foldl (under maxAge client) entry = some ticket) :
    entry = some ticket ∨ .file client ticket ∈ events := by
  induction events generalizing entry with
  | nil => exact .inl h
  | cons event events ih =>
      rcases ih h with hunder | hmem
      · cases event with
        | file other t =>
            by_cases hclient : other = client
            · subst hclient
              cases (if_pos rfl).symm.trans hunder
              exact .inr List.mem_cons_self
            · exact .inl ((if_neg hclient).symm.trans hunder)
        | collect now => exact .inl (Option.filter_eq_some_iff.mp hunder).1
      · exact .inr (List.mem_cons_of_mem _ hmem)

/-- Every ticket in force was filed by one of the operations. -/
theorem file_of_get?_run (h : (run maxAge ops).tickets.get? client = some ticket) :
    ∃ op ∈ ops, .file client ticket ∈ op.events := by
  rw [get?_run] at h
  have hmem := (mem_of_foldl_under h).resolve_left nofun
  exact List.mem_flatMap.mp hmem

/-- Tickets are filed for clients in canonical form, by a create as well as by
the merge of a listing. -/
theorem canonical_of_mem_events (h : .file client ticket ∈ op.events) :
    client.canonical = client := by
  cases op with
  | create source now draw =>
      cases List.mem_singleton.mp h
      exact Endpoint.canonical_canonical ⟨source.ip, source.port⟩
  | restore data =>
      obtain ⟨entry, -, heq⟩ := List.mem_map.mp h
      obtain ⟨rfl, -⟩ := Event.file.inj heq
      exact entry.1.canonical_canonical
  | collect now => cases List.mem_singleton.mp h

/-- Tickets are filed under canonical clients only, as every filing is. -/
theorem canonical_of_get?_run (h : (run maxAge ops).tickets.get? client = some ticket) :
    client.canonical = client := by
  obtain ⟨op, -, hfile⟩ := file_of_get?_run h
  exact canonical_of_mem_events hfile

theorem ip_ne_mapped (h : client.canonical = client) (o : Octets 4) :
    client.ip ≠ .v6 (Ip.mapped o) :=
  Ip.ne_mapped_of_canonical (congrArg Endpoint.ip h) o

-- =============================================================== spared

/-- An event that spares a client leaves its ticket alone. -/
theorem under_of_spares (h : event.Spares client) : under maxAge client entry event = entry := by
  cases event with
  | file other t => exact if_neg h
  | collect now => exact h.elim

theorem foldl_under_of_spares (h : ∀ event ∈ events, event.Spares client) :
    events.foldl (under maxAge client) entry = entry := by
  induction events generalizing entry with
  | nil => rfl
  | cons event events ih =>
      rw [List.foldl_cons, under_of_spares (h event List.mem_cons_self)]
      exact ih fun other hother => h other (List.mem_cons_of_mem _ hother)

/-- Operations leave the ticket of a client that none of them is about. -/
theorem get?_foldl_perform_of_spares
    (h : ∀ op ∈ ops, ∀ event ∈ op.events, event.Spares client) (c : Connections) :
    (ops.foldl perform c).tickets.get? client = c.tickets.get? client := by
  rw [get?_foldl_perform]
  exact foldl_under_of_spares (List.forall_mem_flatMap.mpr h)

-- ============================================================== the law

/-- After an event a client has the ticket that it had, if the event left
it, or the one that was filed. -/
theorem under_eq_some_iff (hevent : event.Timely)
    (hentry : ∀ t, entry = some t → 0 ≤ t.issued.toInt) :
    under maxAge client entry event = some ticket
      ↔ (entry = some ticket ∧ event.Keeps maxAge client ticket)
        ∨ event = .file client ticket := by
  cases event with
  | file other t =>
      show (if other = client then some t else entry) = some ticket
        ↔ (entry = some ticket ∧ other ≠ client) ∨ Event.file other t = .file client ticket
      rw [Event.file.injEq]
      by_cases hclient : other = client
      · have hreplaced : ¬(entry = some ticket ∧ other ≠ client) := fun h => h.2 hclient
        rw [if_pos hclient, or_iff_right hreplaced, and_iff_right hclient, Option.some_inj]
      · have hother : ¬(other = client ∧ t = ticket) := fun h => hclient h.1
        rw [if_neg hclient, or_iff_left hother, and_iff_left hclient]
  | collect now =>
      rw [or_iff_left nofun]
      refine Option.filter_eq_some_iff.trans (and_congr_right fun hticket => ?_)
      rw [Bool.not_eq_true', Seconds.expired_eq_false_iff (hentry ticket hticket) hevent]
      rfl

/-- After events a client has the ticket that it started with or that was
filed for it, whichever all later ones left. -/
theorem foldl_under_iff (htimely : ∀ event ∈ events, event.Timely)
    (hentry : ∀ t, entry = some t → 0 ≤ t.issued.toInt) :
    events.foldl (under maxAge client) entry = some ticket
      ↔ (entry = some ticket ∧ ∀ event ∈ events, event.Keeps maxAge client ticket)
        ∨ InForce maxAge client ticket events := by
  induction events generalizing entry with
  | nil =>
      rw [or_iff_left not_inForce_nil]
      exact (and_iff_left nofun).symm
  | cons event events ih =>
      obtain ⟨hevent, hevents⟩ := List.forall_mem_cons.mp htimely
      have hunder : ∀ t, under maxAge client entry event = some t → 0 ≤ t.issued.toInt := by
        intro t ht
        rcases (under_eq_some_iff hevent hentry).mp ht with ⟨hstill, -⟩ | rfl
        · exact hentry t hstill
        · exact hevent
      rw [List.foldl_cons, ih hevents hunder, under_eq_some_iff hevent hentry, inForce_cons_iff,
        List.forall_mem_cons, or_and_right, and_assoc, or_assoc]

/-- A ticket in a timely history bears a moment since the epoch, since it was
filed with one. -/
theorem issued_of_get?_run (htimely : ∀ op ∈ ops, op.Timely)
    (h : (run maxAge ops).tickets.get? client = some ticket) : 0 ≤ ticket.issued.toInt := by
  obtain ⟨op, hop, hfile⟩ := file_of_get?_run h
  exact htimely op hop _ hfile

/-- After operations a client has the ticket that is in force for it. -/
theorem get?_run_eq_some_iff (htimely : ∀ op ∈ ops, op.Timely) :
    (run maxAge ops).tickets.get? client = some ticket
      ↔ InForce maxAge client ticket (ops.flatMap Operation.events) := by
  have hevents : ∀ event ∈ ops.flatMap Operation.events, event.Timely :=
    List.forall_mem_flatMap.mpr htimely
  have hnone : ∀ t : Ticket, none = some t → 0 ≤ t.issued.toInt := by
    intro t ht
    cases ht
  rw [get?_run, foldl_under_iff hevents hnone]
  exact or_iff_right fun h => nomatch h.1

/-- A sweep takes back the tickets that are past the limit. -/
theorem collect_run_snd (htimely : ∀ op ∈ ops, op.Timely) (hnow : 0 ≤ now.toInt) :
    ((run maxAge ops).collect now).2
      = (run maxAge ops).tickets.count fun ticket =>
          maxAge.toInt < now.toInt - ticket.issued.toInt := by
  rw [collect_snd, maxAge_run]
  refine Table.count_congr fun client ticket hticket => ?_
  rw [Bool.eq_iff_iff, Seconds.expired_iff (issued_of_get?_run htimely hticket) hnow,
    decide_eq_true_iff]

/-- And it leaves those that are not. -/
theorem get?_collect_run_eq_some_iff (htimely : ∀ op ∈ ops, op.Timely) (hnow : 0 ≤ now.toInt) :
    ((run maxAge ops).collect now).1.tickets.get? client = some ticket
      ↔ (run maxAge ops).tickets.get? client = some ticket
        ∧ now.toInt - ticket.issued.toInt ≤ maxAge.toInt := by
  rw [get?_collect, Option.filter_eq_some_iff, maxAge_run]
  refine and_congr_right fun hticket => ?_
  rw [Bool.not_eq_true', Seconds.expired_eq_false_iff (issued_of_get?_run htimely hticket) hnow]

/-- What operations leave in force, told from the operations alone: for
which clients, which know no scope, and which ids, that time alone changes
nothing, and what a sweep does next. -/
structure Traced (maxAge : Int64) (ops : List Operation) : Prop where
  canonical : ∀ client ticket, (run maxAge ops).tickets.get? client = some ticket →
    client.canonical = client ∧ ∀ o, client.ip ≠ .v6 (Ip.mapped o)
  single : ((run maxAge ops).tickets.toList.map fun entry => entry.1.canonical).Nodup
  valid_iff : ∀ source id, (run maxAge ops).valid source id = true ↔
    ∃ ticket, InForce maxAge source.client ticket (ops.flatMap Operation.events) ∧ ticket.id = id
  ageless : ∀ source later, (∀ op ∈ later, ∀ event ∈ op.events, event.Spares source.client) →
    ∀ id, (run maxAge (ops ++ later)).valid source id = (run maxAge ops).valid source id
  collected : ∀ now : Seconds, 0 ≤ now.toInt →
    ((run maxAge ops).collect now).2
        = (run maxAge ops).tickets.count (fun ticket =>
            maxAge.toInt < now.toInt - ticket.issued.toInt)
      ∧ ((run maxAge ops).collect now).2 + ((run maxAge ops).collect now).1.size
        = (run maxAge ops).size
      ∧ ∀ client ticket, ((run maxAge ops).collect now).1.tickets.get? client = some ticket ↔
          (run maxAge ops).tickets.get? client = some ticket
            ∧ now.toInt - ticket.issued.toInt ≤ maxAge.toInt

/-- The table after a timely history, read off the history. That a ticket is in
force is a matter of the last create of its client and of the sweeps since. -/
theorem traced_run (htimely : ∀ op ∈ ops, op.Timely) : Traced maxAge ops where
  canonical := by
    intro client ticket hticket
    have hcanonical := canonical_of_get?_run hticket
    exact ⟨hcanonical, ip_ne_mapped hcanonical⟩
  single := by
    have hsame : ∀ entry ∈ (run maxAge ops).tickets.toList, entry.1.canonical = entry.1 :=
      fun entry hentry => canonical_of_get?_run (Table.mem_toList_iff.mp hentry)
    rw [List.map_congr_left hsame]
    exact Table.nodup_keys _
  valid_iff := by
    intro source id
    rw [valid_iff]
    exact exists_congr fun ticket => and_congr_left fun _ => get?_run_eq_some_iff htimely
  ageless := by
    intro source later hspares
    refine valid_congr ?_
    unfold run
    rw [List.foldl_append]
    exact get?_foldl_perform_of_spares hspares _
  collected := by
    intro now hnow
    refine ⟨collect_run_snd htimely hnow, collect_snd_add_size _ now, ?_⟩
    exact fun client ticket => get?_collect_run_eq_some_iff htimely hnow

/-- A client that comes again, from its other spelling; a snapshot with
both of them, and one that is none; a sweep that finds one ticket exactly as
old as it may be and another one too old. -/
theorem traced_reconnected :
    let host : Octets 4 := .replicate 4 10
    let ops : List Operation :=
      [.create (.v6 (Ip.mapped host) 6881 7) 1000 5,
        .create (.v4 host 6881) 1010 6,
        .restore (encodeEntries
          [(⟨.v4 host, 6881⟩, ⟨70, 990⟩), (⟨.v6 (Ip.mapped host), 6881⟩, ⟨80, 1040⟩)]),
        .restore [0xc1],
        .create (.v6 (.replicate 16 32) 6881 0) 1020 9,
        .collect 1100]
    (∀ op ∈ ops, op.Timely) ∧ Traced 60 ops
      ∧ (run 60 ops).tickets.toList = [(⟨.v4 host, 6881⟩, ⟨80, 1040⟩)] := by
  intro host ops
  have htimely : ∀ op ∈ ops, op.Timely := by decide
  exact ⟨htimely, traced_run htimely, by decide⟩

end TorrentTracker.Connections
