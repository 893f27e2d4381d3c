import TorrentTracker.Proofs.Announce
import TorrentTracker.Proofs.Connections
import TorrentTracker.Proofs.Tracker.Answer

/-
The handshake: who gets an announce or a scrape through had a connect
reply sent to its own address before.

# The history

The tracker keeps one ticket for each client and nothing about how it came
by it. `Run` keeps the rest: every datagram with its reply, and every
sweep, in order. `InForce` reads off this history which ticket a client
must have now, and mentions no table: the last connect reply sent to the
client carries the id, and no sweep since found the ticket too old.

# The invariant

Table and history agree (`Agrees`). What `InForce` says of a history that
is longer by one depends on what was added: a connect reply replaces the
ticket (`inForce_concat_of_connects`), anything else leaves it or, if it is
a sweep, takes it back (`inForce_concat`). The table does the same. That
only a connect reply looks like one in the history is
`Reply.eq_connect_of_encode`.

# Main statements

- `Run.agrees`: the tickets are those the history says;
- `Run.greeted`: the address of every peer was sent a connect reply;
- `valid_process`: nobody makes an id valid for somebody else.
-/

namespace TorrentTracker.Tracker

-- ============================================================== history

/-- What happens to a tracker: a datagram comes in and is replied to, or a
sweep is made. -/
inductive Occurrence where
  | exchange (m : Moment) (source : SocketAddress) (data reply : Bytes)
  | collect (now : Seconds)
  | trim (now : Seconds)

/-- What became of a tracker, and all that happened to it, the latest at
the end. -/
inductive Run (t₀ : Tracker) : List Occurrence → Tracker → Prop where
  | start : Run t₀ [] t₀
  | datagram {log : List Occurrence} {t : Tracker} (m : Moment) (source : SocketAddress)
      (data : Bytes) : Run t₀ log t →
      Run t₀ (log ++ [.exchange m source data (t.process m source data).2])
        (t.process m source data).1
  | collect {log : List Occurrence} {t : Tracker} (now : Seconds) : Run t₀ log t →
      Run t₀ (log ++ [.collect now]) (t.sweepConnections now).1
  | trim {log : List Occurrence} {t : Tracker} (now : Seconds) : Run t₀ log t →
      Run t₀ (log ++ [.trim now]) (t.sweepPeers now).1

/-- A connect reply to a client, with its ticket. -/
def Occurrence.Connects (o : Occurrence) (client : Endpoint) (ticket : Ticket) : Prop :=
  ∃ m source data tid,
    o = .exchange m source data (Wire.ConnectResponse.encode ⟨tid, ticket.id⟩)
      ∧ source.client = client ∧ m.now = ticket.issued

/-- The last connect reply to the client gave it the ticket, and no sweep
after it found the ticket too old. -/
def InForce (maxAge : Int64) (log : List Occurrence) (client : Endpoint)
    (ticket : Ticket) : Prop :=
  ∃ earlier o since, log = earlier ++ o :: since
    ∧ o.Connects client ticket
    ∧ (∀ o' ∈ since, ∀ ticket', ¬o'.Connects client ticket')
    ∧ ∀ now, .collect now ∈ since → ticket.issued.expired maxAge now = false

variable {maxAge : Int64} {log : List Occurrence} {o : Occurrence} {client : Endpoint}
  {ticket ticket' : Ticket}

theorem Occurrence.Connects.unique (h : o.Connects client ticket)
    (h' : o.Connects client ticket') : ticket' = ticket := by
  obtain ⟨m, source, data, tid, rfl, -, hnow⟩ := h
  obtain ⟨m', source', data', tid', heq, -, hnow'⟩ := h'
  obtain ⟨rfl, -, -, hreply⟩ := Occurrence.exchange.inj heq
  obtain ⟨-, -, hid⟩ := Wire.responseHead_inj hreply
  cases ticket
  cases ticket'
  exact congr (congrArg Ticket.mk (Word.write_injective hid).symm) (hnow'.symm.trans hnow)

/-- An occurrence of a longer history is its last or one of the history
before. -/
theorem concat_eq_append_cons {earlier since : List Occurrence} {o' : Occurrence}
    (h : log ++ [o] = earlier ++ o' :: since) :
    (o' = o ∧ since = []) ∨ ∃ since', since = since' ++ [o] ∧ log = earlier ++ o' :: since' := by
  rcases List.eq_nil_or_concat' since with rfl | ⟨since', last, rfl⟩
  · exact .inl ⟨(List.cons.inj (List.append_inj' h rfl).2).1.symm, rfl⟩
  · rw [← List.cons_append, ← List.append_assoc] at h
    obtain ⟨hlog, hlast⟩ := List.append_inj' h rfl
    exact .inr ⟨since', by rw [(List.cons.inj hlast).1], hlog⟩

theorem not_connects_collect (now : Seconds) :
    ¬(Occurrence.collect now).Connects client ticket := by
  intro hexists
  obtain ⟨m, source, data, tid, heq, -⟩ := hexists
  cases heq

theorem not_connects_trim (now : Seconds) :
    ¬(Occurrence.trim now).Connects client ticket := by
  intro hexists
  obtain ⟨m, source, data, tid, heq, -⟩ := hexists
  cases heq

theorem not_inForce_nil : ¬InForce maxAge [] client ticket := by
  intro hexists
  obtain ⟨earlier, o, since, hlog, -⟩ := hexists
  exact List.append_ne_nil_of_right_ne_nil _ (List.cons_ne_nil _ _) hlog.symm

/-- A connect reply puts its ticket in force in place of any other, so a client
has one at most. -/
theorem inForce_concat_of_connects (h : o.Connects client ticket) :
    InForce maxAge (log ++ [o]) client ticket' ↔ ticket' = ticket := by
  constructor
  · intro hexists
    obtain ⟨earlier, o', since, hlog, hconnects, hlast, -⟩ := hexists
    rcases concat_eq_append_cons hlog with ⟨rfl, -⟩ | ⟨since', rfl, -⟩
    · exact h.unique hconnects
    · -- the last connect reply would not be the last
      exact absurd h (hlast o (List.mem_append_right _ List.mem_cons_self) ticket)
  · rintro rfl
    exact ⟨log, o, [], rfl, h, nofun, nofun⟩

/-- Anything but a connect reply leaves the ticket as it is, or takes it
back for its age. -/
theorem inForce_concat (h : ∀ ticket, ¬o.Connects client ticket) :
    InForce maxAge (log ++ [o]) client ticket
      ↔ InForce maxAge log client ticket
        ∧ ∀ now, o = .collect now → ticket.issued.expired maxAge now = false := by
  constructor
  · intro hexists
    obtain ⟨earlier, o', since, hlog, hconnects, hlast, hkept⟩ := hexists
    -- the connect is not what was put at the end, so it came before
    rcases concat_eq_append_cons hlog with ⟨rfl, -⟩ | ⟨since', rfl, rfl⟩
    · exact absurd hconnects (h ticket)
    · refine ⟨⟨earlier, o', since', rfl, hconnects, ?_, ?_⟩, ?_⟩
      · intro o'' ho''
        exact hlast o'' (List.mem_append_left _ ho'')
      · intro now hnow
        exact hkept now (List.mem_append_left _ hnow)
      · rintro now rfl
        exact hkept now (List.mem_append_right _ List.mem_cons_self)
  · intro hexists
    obtain ⟨⟨earlier, o', since, rfl, hconnects, hlast, hkept⟩, hnow⟩ := hexists
    refine ⟨earlier, o', since ++ [o], by simp, hconnects, ?_, ?_⟩
    · intro o'' ho''
      rcases List.mem_append.mp ho'' with hin | hin
      · exact hlast o'' hin
      · rw [List.mem_singleton.mp hin]
        exact h
    · intro now hin
      rcases List.mem_append.mp hin with hin | hin
      · exact hkept now hin
      · exact hnow now (List.mem_singleton.mp hin).symm

/-- What is no connect reply to the client and no sweep leaves the client's
ticket. -/
theorem inForce_concat_of_ne (h : ∀ ticket, ¬o.Connects client ticket)
    (hcollect : ∀ now, o ≠ .collect now) :
    InForce maxAge (log ++ [o]) client ticket ↔ InForce maxAge log client ticket := by
  rw [inForce_concat h]
  exact and_iff_left fun now hnow => absurd hnow (hcollect now)

-- ============================================================ invariant

/-- The tickets are those the history says are in force. -/
structure Agrees (maxAge : Int64) (log : List Occurrence) (c : Connections) : Prop where
  maxAge_eq : c.maxAge = maxAge
  get?_iff : ∀ {client ticket},
    c.tickets.get? client = some ticket ↔ InForce maxAge log client ticket

/-- At the start no ticket is in force and none is in the table. -/
theorem agrees_empty (maxAge : Int64) : Agrees maxAge [] (Connections.empty maxAge) where
  maxAge_eq := rfl
  get?_iff := by
    intro client ticket
    refine iff_of_false ?_ not_inForce_nil
    rw [show (Connections.empty maxAge).tickets.get? client = none from Table.get?_empty client]
    exact nofun

/-- What happens to no ticket leaves the two agreeing, as it changes neither
the table nor what the history says of it. -/
theorem Agrees.concat {c : Connections} (h : Agrees maxAge log c)
    (hconnects : ∀ client ticket, ¬o.Connects client ticket)
    (hcollect : ∀ now, o ≠ .collect now) : Agrees maxAge (log ++ [o]) c where
  maxAge_eq := h.maxAge_eq
  get?_iff := by
    intro client ticket
    rw [h.get?_iff, inForce_concat_of_ne (hconnects client) hcollect]

/-- An exchange that gives a ticket puts just that one in force. -/
theorem Agrees.create {c : Connections} (h : Agrees maxAge log c) (m : Moment)
    (source : SocketAddress) (data : Bytes) (tid : Int32) :
    Agrees maxAge
      (log ++ [.exchange m source data
        (Wire.ConnectResponse.encode ⟨tid, Connections.drawId m.draws.connection⟩)])
      (c.create source m.now m.draws.connection).1 where
  maxAge_eq := h.maxAge_eq
  get?_iff := by
    intro client ticket
    rw [Connections.get?_create]
    by_cases hclient : source.client = client
    · -- the client's ticket is replaced
      have hconnects : (Occurrence.exchange m source data (Wire.ConnectResponse.encode
          ⟨tid, Connections.drawId m.draws.connection⟩)).Connects client
            ⟨Connections.drawId m.draws.connection, m.now⟩ :=
        ⟨m, source, data, tid, rfl, hclient, rfl⟩
      rw [if_pos hclient, inForce_concat_of_connects hconnects, Option.some_inj, eq_comm]
    · have hother : ∀ ticket', ¬(Occurrence.exchange m source data (Wire.ConnectResponse.encode
          ⟨tid, Connections.drawId m.draws.connection⟩)).Connects client ticket' := by
        intro ticket' hconnects
        obtain ⟨m', source', data', tid', heq, hclient', -⟩ := hconnects
        obtain ⟨-, rfl, -, -⟩ := Occurrence.exchange.inj heq
        exact hclient hclient'
      rw [if_neg hclient, h.get?_iff, inForce_concat_of_ne hother nofun]

/-- A sweep takes out of the table just those that are not in force any
more. -/
theorem Agrees.collect {c : Connections} (h : Agrees maxAge log c) (now : Seconds) :
    Agrees maxAge (log ++ [.collect now]) (c.collect now).1 where
  maxAge_eq := h.maxAge_eq
  get?_iff := by
    intro client ticket
    rw [Connections.get?_collect, Option.filter_eq_some_iff, h.get?_iff, h.maxAge_eq,
      inForce_concat fun _ => not_connects_collect now, Bool.not_eq_true']
    refine and_congr_right fun _ => ⟨?_, fun hkept => hkept now rfl⟩
    intro hkept now' hnow'
    rw [← Occurrence.collect.inj hnow']
    exact hkept

/-- A reply that is no connect reply does not look like one either. The history
has only bytes to go by, so this is needed of every reply. -/
theorem not_connects {m : Moment} {source : SocketAddress} {data : Bytes} {r : Reply}
    (h : ∀ c, r ≠ .connect c) (client : Endpoint) (ticket : Ticket) :
    ¬(Occurrence.exchange m source data r.encode).Connects client ticket := by
  intro hexists
  obtain ⟨m', source', data', tid, heq, -⟩ := hexists
  obtain ⟨-, -, -, hreply⟩ := Occurrence.exchange.inj heq
  exact h _ (Reply.eq_connect_of_encode hreply)

/-- The tickets and the history agree along every run. By induction on the run:
only a connect makes a ticket and only a sweep takes one away, and both are in
the log. -/
theorem Run.agrees {t₀ t : Tracker} (hconnections : t₀.connections = Connections.empty maxAge)
    (h : Run t₀ log t) : Agrees maxAge log t.connections := by
  induction h with
  | start =>
      rw [hconnections]
      exact agrees_empty maxAge
  | @datagram log t m source data _ ih =>
      have heffect := (answered_reply t m source data).effect
      rw [process_eq]
      cases heffect with
      | none hsame _ hconnect _ =>
          rw [hsame]
          exact ih.concat (not_connects hconnect) nofun
      | connected hcreate _ hreply =>
          rw [hcreate, hreply]
          exact ih.create m source data _
      | announced _ hsame _ hreply =>
          rw [hsame]
          refine ih.concat (not_connects fun c => ?_) nofun
          rw [hreply]
          exact nofun
  | collect now _ ih => exact ih.collect now
  | trim now _ ih => exact ih.concat (fun _ _ => not_connects_trim now) nofun

-- ============================================================== peers

/-- A connect reply was sent to the address. -/
def Greeted (log : List Occurrence) (ip : Ip) : Prop :=
  ∃ o ∈ log, ∃ client ticket, o.Connects client ticket ∧ client.ip = ip

theorem Greeted.concat {ip : Ip} (h : Greeted log ip) (o : Occurrence) :
    Greeted (log ++ [o]) ip := by
  obtain ⟨o', ho', hconnects⟩ := h
  exact ⟨o', List.mem_append_left _ ho', hconnects⟩

/-- A ticket in force was given in an exchange with its client. -/
theorem InForce.greeted (h : InForce maxAge log client ticket) : Greeted log client.ip := by
  obtain ⟨earlier, o, since, rfl, hconnects, -, -⟩ := h
  exact ⟨o, List.mem_append_right _ List.mem_cons_self, client, ticket, hconnects, rfl⟩

/-- A peer after an announce was there before or has the address the
announce came from. -/
theorem ip_of_peer?_apply {s : Store} {source : SocketAddress} {request : Wire.AnnounceRequest}
    {now : Seconds} {hash : InfoHash} {id : PeerId} {p : Peer}
    (h : ((announceOf source request).apply s now).peer? hash id = some p) :
    s.peer? hash id = some p ∨ source.client.ip = p.ip := by
  rw [Announce.peer?_apply] at h
  split at h
  · split at h
    · cases h
    · right
      rw [← Option.some.inj h]
      rfl
  · exact .inl h

theorem Run.config {t₀ t : Tracker} (h : Run t₀ log t) : t.config = t₀.config := by
  induction h with
  | start => rfl
  | datagram m source data _ ih => exact (answered_reply _ m source data).config.trans ih
  | collect now _ ih => exact ih
  | trim now _ ih => exact ih

/-- Where ids are checked, registered is who has the id of a ticket in
force. -/
theorem Run.registered_iff {t₀ t : Tracker} {source : SocketAddress} {id : Int64}
    (hvalidate : t₀.config.udp.validateConnectionId = true)
    (hconnections : t₀.connections = Connections.empty maxAge) (h : Run t₀ log t) :
    t.registered source id = true
      ↔ ∃ ticket, InForce maxAge log source.client ticket ∧ ticket.id = id := by
  unfold registered
  rw [h.config, hvalidate, Bool.not_true, Bool.false_or, Connections.valid_iff]
  exact exists_congr fun ticket => and_congr_left fun _ => (h.agrees hconnections).get?_iff

/-- The address of every peer was sent a connect reply. -/
theorem Run.greeted {t₀ t : Tracker} (hvalidate : t₀.config.udp.validateConnectionId = true)
    (hconnections : t₀.connections = Connections.empty maxAge)
    (hstore : t₀.store = Store.empty) (h : Run t₀ log t) :
    ∀ hash id p, t.store.peer? hash id = some p → Greeted log p.ip := by
  induction h with
  | start =>
      intro hash id p hp
      rw [hstore, Store.peer?_empty] at hp
      cases hp
  | @datagram log t m source data hrun ih =>
      intro hash id p hp
      rw [process_eq] at hp ⊢
      cases (answered_reply t m source data).effect with
      | none _ hsame _ _ =>
          rw [hsame] at hp
          exact (ih hash id p hp).concat _
      | connected _ hsame _ =>
          rw [hsame] at hp
          exact (ih hash id p hp).concat _
      | announced hregistered _ happly _ =>
          rw [happly] at hp
          rcases ip_of_peer?_apply hp with hold | hip
          · exact (ih hash id p hold).concat _
          · -- the peer is new, and its source had a ticket
            obtain ⟨ticket, hticket, -⟩ :=
              (hrun.registered_iff hvalidate hconnections).mp hregistered
            rw [← hip]
            exact hticket.greeted.concat _
  | collect now _ ih => exact fun hash id p hp => (ih hash id p hp).concat _
  | @trim log t now _ ih =>
      intro hash id p hp
      have htrim : ((t.store.trim now t.config.peers.ttl).1).peer? hash id = some p := hp
      rw [Store.peer?_trim, Option.filter_eq_some_iff] at htrim
      exact (ih hash id p htrim.1).concat _

-- =============================================================== guard

/-- A datagram of a source leaves the ids of all other clients as they
are. -/
theorem valid_process (t : Tracker) (m : Moment) (source : SocketAddress) (data : Bytes)
    {other : SocketAddress} (h : other.client ≠ source.client) (id : Int64) :
    (t.process m source data).1.connections.valid other id = t.connections.valid other id := by
  rw [process_eq]
  cases (answered_reply t m source data).effect with
  | none hsame _ _ _ => rw [hsame]
  | connected hcreate _ _ =>
      rw [hcreate]
      refine Connections.valid_congr ?_ id
      rw [Connections.get?_create, if_neg h.symm]
  | announced _ hsame _ _ => rw [hsame]

/-- Announces and scrapes get through exactly with the id of the ticket in
force, peers have addresses that were sent a connect reply, and no source
makes an id valid for another. -/
structure Guarded (maxAge : Int64) (log : List Occurrence) (t : Tracker) : Prop where
  answered : ∀ m source data action, 16 ≤ data.length → data.length ≤ 1496 →
    action = Wire.Action.announce ∨ action = Wire.Action.scrape →
    (data.drop 8).take 4 = Word.write action.number →
    ((∀ tid, (t.process m source data).2
        ≠ Wire.ErrorResponse.encode ⟨tid, utf8 "unregistered connection id"⟩)
      ↔ ∃ ticket, InForce maxAge log source.client ticket
        ∧ data.take 8 = Word.write ticket.id)
  stored : ∀ hash id p, t.store.peer? hash id = some p → Greeted log p.ip
  separate : ∀ m source data other id, other.client ≠ source.client →
    (t.process m source data).1.connections.valid other id = t.connections.valid other id

/-- Along every run of a tracker that checks ids, from no tickets and no peers
on, the gate opens for the id that was last sent to a client and not taken back
since, and for no other. -/
theorem Run.guarded {t₀ t : Tracker} (hvalidate : t₀.config.udp.validateConnectionId = true)
    (hconnections : t₀.connections = Connections.empty maxAge)
    (hstore : t₀.store = Store.empty) (h : Run t₀ log t) : Guarded maxAge log t where
  answered := by
    intro m source data action hlong hshort haction hbytes
    obtain ⟨header, hframed, hid⟩ := exists_framed hlong hshort hbytes
    rw [process_eq, hid]
    constructor
    · intro hreply
      cases hregistered : t.registered source header.connectionId with
      | false =>
          rw [reply_of_unregistered hframed haction hregistered] at hreply
          exact absurd rfl (hreply header.transactionId)
      | true =>
          obtain ⟨ticket, hticket, hsame⟩ :=
            (h.registered_iff hvalidate hconnections).mp hregistered
          exact ⟨ticket, hticket, by rw [hsame]⟩
    · intro hexists tid hreply
      obtain ⟨ticket, hticket, hsame⟩ := hexists
      have hregistered : t.registered source header.connectionId = true :=
        (h.registered_iff hvalidate hconnections).mpr
          ⟨ticket, hticket, (Word.write_injective hsame).symm⟩
      -- a reply with these bytes is that refusal, and it has a reason
      have hrefused : (t.reply m source data).2 = .refused tid .unregistered :=
        Reply.eq_refused_of_encode hreply
      obtain ⟨header', action', hframed', hunregistered⟩ :=
        (answered_reply t m source data).exists_unregistered hrefused
      have hheader : header' = header := Except.ok.inj (hframed'.peek.symm.trans hframed.peek)
      rw [hheader, hregistered] at hunregistered
      cases hunregistered
  stored := h.greeted hvalidate hconnections hstore
  separate := fun m source data _ id hother => valid_process t m source data hother id

/-- A client gets an id and announces with it, and a sweep takes the id
back. -/
theorem guarded_announced :
    let source := SocketAddress.v4 (.replicate 4 10) 5000
    let start : Tracker := ⟨{}, Store.empty, Connections.empty 120, { startTime := 0 },
      { medium := .memory none, opened := true }⟩
    let hello := Wire.ConnectRequest.encode ⟨7⟩
    let announce := Wire.AnnounceRequest.encode
      ⟨99, 8, .replicate 20 1, .replicate 20 2, 0, 0, 0, .started, 0, 0, 50, 6881⟩
    let greeted := (start.process ⟨1000, { connection := 99 }⟩ source hello).1
    let joined := (greeted.process ⟨1060, {}⟩ source announce).1
    let swept := (joined.sweepConnections 1121).1
    joined.store.totalPeers = 1 ∧ swept.connections.size = 0
      ∧ ∃ log, Run start log swept ∧ Guarded 120 log swept := by
  intro source start hello announce greeted joined swept
  have hrun := Run.collect 1121 (.datagram ⟨1060, {}⟩ source announce
    (.datagram ⟨1000, { connection := 99 }⟩ source hello (Run.start : Run start [] start)))
  exact ⟨by decide, by decide, _, hrun, hrun.guarded rfl rfl rfl⟩

end TorrentTracker.Tracker
