import TorrentTracker.Proofs.Tracker.Handshake
import TorrentTracker.Proofs.Tracker.Transports

/-
An IPv4 client is the same client whichever way its address is spelled.

On a dual-stack socket a host `a.b.c.d` shows up as `::ffff:a.b.c.d`, and
an IPv6 source comes with a scope. `Alike` says which source addresses are
spellings of one another. They are those with one client
(`alike_iff_client_eq`), so nothing else is taken for the same.

# The argument

The source of a request is used in four places: a connection id is given
out to it, one is looked up for it, and an announce by either transport is
made from it. All four go by its client. A request is therefore answered
alike under both spellings, with one tracker and one answer (`answer_congr`),
and a run of requests, each spelled either way, is one run
(`answerEach_congr`).

# Main statement

- `indistinguishable`: two runs that differ in spelling are equal, an id is
  good under any spelling, and a client is listed once, as IPv4.
-/

namespace TorrentTracker

-- ============================================================ spellings

namespace Ip

/-- An address is mapped from one other and no more, which stands in its last
four octets. -/
theorem unmapped?_eq_some_iff {o : Octets 16} {o' : Octets 4} :
    unmapped? o = some o' ↔ o = mapped o' := by
  constructor
  · intro h
    unfold unmapped? at h
    split at h
    · next hlead =>
      cases h
      apply Octets.bytes_injective
      show o.bytes = mappedLead.bytes ++ o.bytes.drop 12
      rw [← hlead, List.take_append_drop]
    · cases h
  · rintro rfl
    exact unmapped?_mapped o'

/-- A longer address stands for a short one just if it is its mapped form, so
each short one has two spellings. -/
theorem canonical_eq_v4_iff {o : Octets 16} {o' : Octets 4} :
    (v6 o).canonical = .v4 o' ↔ o = mapped o' := by
  rw [← unmapped?_eq_some_iff, canonical]
  cases unmapped? o with
  | none => simp
  | some o'' => simp

/-- Two IPv6 addresses never have one canonical form. -/
theorem eq_of_canonical_v6 {o o' : Octets 16} (h : (v6 o).canonical = (v6 o').canonical) :
    o = o' := by
  cases hmapped : unmapped? o with
  | some host =>
      have hfirst := unmapped?_eq_some_iff.mp hmapped
      have hcanonical : (v6 o).canonical = .v4 host := canonical_eq_v4_iff.mpr hfirst
      rw [hfirst, canonical_eq_v4_iff.mp (h.symm.trans hcanonical)]
  | none =>
      have hcanonical : (v6 o).canonical = .v6 o := by simp only [canonical, hmapped]
      rw [hcanonical] at h
      cases hother : unmapped? o' with
      | none => simpa [canonical, hother] using h
      | some host => simp [canonical, hother] at h

end Ip

/-- Source addresses that differ in their spelling only: an IPv4 address
and its IPv6 spelling, in any scope, and IPv6 addresses in two scopes. -/
inductive SocketAddress.Alike : SocketAddress → SocketAddress → Prop where
  | v4 (o : Octets 4) (port : UInt16) : Alike (.v4 o port) (.v4 o port)
  | mapped (o : Octets 4) (port : UInt16) (scope : UInt32) :
      Alike (.v4 o port) (.v6 (Ip.mapped o) port scope)
  | unmapped (o : Octets 4) (port : UInt16) (scope : UInt32) :
      Alike (.v6 (Ip.mapped o) port scope) (.v4 o port)
  | v6 (o : Octets 16) (port : UInt16) (scope scope' : UInt32) :
      Alike (.v6 o port scope) (.v6 o port scope')

namespace SocketAddress

variable {a b : SocketAddress}

/-- Spellings of one source are one client, by which tickets and peers are
filed. -/
theorem Alike.client_eq (h : Alike a b) : a.client = b.client := by
  cases h with
  | v4 o port => rfl
  | mapped o port scope =>
      unfold client ip
      rw [Ip.canonical_mapped]
      rfl
  | unmapped o port scope =>
      unfold client ip
      rw [Ip.canonical_mapped]
      rfl
  | v6 o port scope scope' => rfl

/-- Addresses are alike if they have one client, and only then. The scope of an
IPv6 address and the mapping of an IPv4 one are all that the client forgets. -/
theorem alike_iff_client_eq : Alike a b ↔ a.client = b.client := by
  refine ⟨Alike.client_eq, fun h => ?_⟩
  obtain ⟨hip, hport⟩ := Endpoint.mk.inj h
  cases a with
  | v4 o port =>
      cases b with
      | v4 o' port' =>
          cases hip
          cases hport
          exact .v4 o port
      | v6 o' port' scope =>
          obtain rfl := Ip.canonical_eq_v4_iff.mp hip.symm
          cases hport
          exact .mapped o port scope
  | v6 o port scope =>
      cases b with
      | v4 o' port' =>
          obtain rfl := Ip.canonical_eq_v4_iff.mp hip
          cases hport
          exact .unmapped o' port scope
      | v6 o' port' scope' =>
          obtain rfl := Ip.eq_of_canonical_v6 hip
          cases hport
          exact .v6 o port scope scope'

end SocketAddress

-- ================================================================= runs

/-- A request by either transport, at a moment and from a source. -/
inductive Incoming where
  | datagram (m : Moment) (source : SocketAddress) (data : Bytes)
  | query (m : Moment) (source : SocketAddress) (r : Http.Request)

/-- What goes back to the source of a request. -/
inductive Outgoing where
  | datagram (reply : Bytes)
  | query (answer : Http.Response)

/-- One request with its source spelled in two ways. -/
inductive Incoming.Respelled : Incoming → Incoming → Prop where
  | datagram {a b : SocketAddress} (m : Moment) (data : Bytes) (h : a.Alike b) :
      Respelled (.datagram m a data) (.datagram m b data)
  | query {a b : SocketAddress} (m : Moment) (r : Http.Request) (h : a.Alike b) :
      Respelled (.query m a r) (.query m b r)

/-- A request that leaves a client the connection id it has: any but a
datagram with which the client asks for one. -/
def Incoming.Spares (client : Endpoint) : Incoming → Prop
  | datagram _ source data =>
    source.client ≠ client ∨ (data.drop 8).take 4 ≠ Word.write Wire.Action.connect.number
  | query _ _ _ => True

namespace Tracker

open Wire (Header)

variable {t : Tracker} {a b : SocketAddress}

/-- Answer a request. -/
def answer (t : Tracker) : Incoming → Tracker × Outgoing
  | .datagram m source data =>
    let (t, reply) := t.process m source data
    (t, .datagram reply)
  | .query m source r =>
    let (t, answer) := t.respond m source r
    (t, .query answer)

/-- Answer one request after the other. -/
def answerEach (t : Tracker) : List Incoming → Tracker × List Outgoing
  | [] => (t, [])
  | request :: rest =>
    let (t, first) := t.answer request
    let (t, others) := t.answerEach rest
    (t, first :: others)

/-- The gate asks for the client alone. -/
theorem registered_congr (h : a.client = b.client) (t : Tracker) (id : Int64) :
    t.registered a id = t.registered b id := by
  unfold registered Connections.valid
  rw [h]

/-- So does the announce that is taken off a datagram. -/
theorem announceOf_congr (h : a.client = b.client) : announceOf a = announceOf b := by
  unfold announceOf
  rw [h]

theorem create_congr (h : a.client = b.client) (c : Connections) (now : Seconds) (draw : Nat) :
    c.create a now draw = c.create b now draw := by
  have hfile : ∀ source : SocketAddress, c.create source now draw
      = ({ c with tickets := c.tickets.insert source.client ⟨Connections.drawId draw, now⟩ },
        Connections.drawId draw) := fun _ => rfl
  rw [hfile, hfile, h]

/-- A datagram is answered alike from two spellings of one source: the source
is looked at for its client only. -/
theorem process_congr (h : a.client = b.client) (t : Tracker) (m : Moment) (data : Bytes) :
    t.process m a data = t.process m b data := by
  have hreply : t.reply m a data = t.reply m b data := by
    unfold reply connect announce
    simp only [registered_congr h, create_congr h, announceOf_congr h]
  rw [process_eq, process_eq, hreply]

theorem respond_congr (h : a.client = b.client) (t : Tracker) (m : Moment) (r : Http.Request) :
    t.respond m a r = t.respond m b r := by
  have hannounce : ∀ q : AnnounceQuery, q.announce a = q.announce b := by
    intro q
    unfold AnnounceQuery.announce
    rw [h]
  have hfollow : ∀ query route, t.follow m a query route = t.follow m b query route := by
    intro query route
    cases route with
    | announce =>
        unfold follow announceQuery announceReply
        simp only [hannounce]
    | _ => rfl
  unfold respond
  simp only [hfollow]

/-- A request is answered alike under both spellings of its source, since all
that is asked of the source is its client. -/
theorem answer_congr {r r' : Incoming} (h : r.Respelled r') (t : Tracker) :
    t.answer r = t.answer r' := by
  cases h with
  | datagram m data h => simp only [answer, process_congr h.client_eq]
  | query m r h => simp only [answer, respond_congr h.client_eq]

/-- So is a run of requests. -/
theorem answerEach_congr {rs rs' : List Incoming} (h : List.Forall₂ Incoming.Respelled rs rs')
    (t : Tracker) : t.answerEach rs = t.answerEach rs' := by
  induction h generalizing t with
  | nil => rfl
  | cons hfirst _ ih =>
      unfold answerEach
      rw [answer_congr hfirst]
      simp only [ih]

-- ======================================================= connection ids

/-- The reply to who asked for an id says which one is now in force for it, in
place of any it had. -/
theorem valid_of_connected {m : Moment} {data : Bytes} {tid : Int32} {id : Int64}
    (h : (t.process m a data).2 = Wire.ConnectResponse.encode ⟨tid, id⟩) :
    (t.process m a data).1.connections.valid a id = true := by
  have hreply : (t.reply m a data).2 = .connect ⟨tid, id⟩ := Reply.eq_connect_of_encode h
  rw [process_eq]
  cases (answered_reply t m a data).effect with
  | none _ _ hconnect _ => exact absurd hreply (hconnect _)
  | connected hcreate _ hconnected =>
      have hid := congrArg Wire.ConnectResponse.connectionId
        (Reply.connect.inj (hconnected.symm.trans hreply))
      rw [hcreate, Connections.valid_iff, Connections.get?_create, if_pos rfl]
      exact ⟨_, rfl, hid⟩
  | announced _ _ _ hannounced =>
      rw [hannounced] at hreply
      cases hreply

/-- The action stands in four bytes of a framed datagram, as its number is
written. -/
theorem Framed.take_drop_eq {data : Bytes} {header : Header} {action : Wire.Action}
    (h : Framed data header action) : (data.drop 8).take 4 = Word.write action.number := by
  obtain ⟨rest, rfl⟩ := Header.peek_eq_ok_iff.mp h.peek
  rw [Header.take_drop_encode, Word.toNat_inj.mp (Wire.Action.ofNumber_eq_ok_iff.mp h.known)]

/-- Only a datagram that asks for an id changes the ids in force, and its
action can be told from the bytes. -/
theorem Answered.connections_eq {m : Moment} {source : SocketAddress} {data : Bytes}
    {p : Tracker × Reply} (h : Answered t m source data p)
    (hdata : (data.drop 8).take 4 ≠ Word.write Wire.Action.connect.number) :
    p.1.connections = t.connections := by
  cases h with
  | connected hframed _ => exact absurd hframed.take_drop_eq hdata
  | announced _ _ _ _ htracker =>
      subst htracker
      rfl
  | _ => rfl

/-- A request that spares a client leaves the id that is in force for it, by
either transport. -/
theorem valid_answer {r : Incoming} (h : r.Spares a.client) (t : Tracker) (id : Int64) :
    (t.answer r).1.connections.valid a id = t.connections.valid a id := by
  cases r with
  | datagram m source data =>
      rcases h with hother | hspares
      · exact valid_process t m source data hother.symm id
      · show (t.process m source data).1.connections.valid a id = _
        rw [process_eq, (answered_reply t m source data).connections_eq hspares]
  | query m source r =>
      show (t.respond m source r).1.connections.valid a id = _
      rw [(responded_respond t m source r).connections]

theorem valid_answerEach {rs : List Incoming} (h : ∀ r ∈ rs, r.Spares a.client) (t : Tracker)
    (id : Int64) : (t.answerEach rs).1.connections.valid a id = t.connections.valid a id := by
  induction rs generalizing t with
  | nil => rfl
  | cons r rs ih =>
      obtain ⟨hfirst, hrest⟩ := List.forall_mem_cons.mp h
      exact (ih hrest _).trans (valid_answer hfirst t id)

/-- A datagram with an id that is in force is not turned away for it, whatever
else may be wrong with the datagram. -/
theorem process_ne_unregistered {m : Moment} {data : Bytes} {id : Int64}
    (hvalid : t.connections.valid a id = true) (hid : data.take 8 = Word.write id)
    (tid : Int32) : (t.process m a data).2
      ≠ Wire.ErrorResponse.encode ⟨tid, utf8 "unregistered connection id"⟩ := by
  intro hreply
  have hrefused : (t.reply m a data).2 = .refused tid .unregistered :=
    Reply.eq_refused_of_encode hreply
  obtain ⟨header, action, hframed, hunregistered⟩ :=
    (answered_reply t m a data).exists_unregistered hrefused
  obtain ⟨rest, rfl⟩ := Header.peek_eq_ok_iff.mp hframed.peek
  rw [Header.take_encode] at hid
  rw [Word.write_injective hid, registered_of_gate fun _ => hvalid] at hunregistered
  cases hunregistered

-- ================================================================ peers

/-- A client is listed once in a swarm, as IPv4. -/
def ListedOnce (s : Store) (hash : InfoHash) (id : PeerId) (o : Octets 4) (port : UInt16) :
    Prop :=
  ∃ complete now, (s.entries.filter fun e => e.1 = hash ∧ e.2.1 = id)
    = [(hash, id, ⟨.v4 o, port, complete, now⟩)]

/-- After an announce its client is listed once, and under the short form of
its address. -/
theorem listedOnce_apply {announce : Announce} {o : Octets 4} (hevent : announce.event ≠ .stopped)
    (hip : announce.ip = .v4 o) (store : Store) (now : Seconds) :
    ListedOnce (announce.apply store now) announce.infoHash announce.peerId o announce.port := by
  refine ⟨announce.completes store, now, ?_⟩
  rw [Store.filter_entries, Announce.peer?_apply_self hevent]
  unfold Announce.peer
  rw [hip]
  rfl

-- ======================================================= no difference

/-- A tracker makes no difference between the spellings of an address. Runs
that differ in them are equal, with all that is left and all that was
answered; an id that was given out under one spelling is good under every
other, until the client asks for another one; and an IPv4 client that
announced itself under any spelling is listed once, as IPv4. -/
structure Indistinguishable (t : Tracker) : Prop where
  runs : ∀ rs rs', List.Forall₂ Incoming.Respelled rs rs' → t.answerEach rs = t.answerEach rs'
  honoured : ∀ m (a b : SocketAddress) data tid id, a.Alike b →
    (t.process m a data).2 = Wire.ConnectResponse.encode ⟨tid, id⟩ →
    ∀ later, (∀ r ∈ later, Incoming.Spares a.client r) →
    ∀ m' data' tid', data'.take 8 = Word.write id →
      (((t.process m a data).1.answerEach later).1.process m' b data').2
        ≠ Wire.ErrorResponse.encode ⟨tid', utf8 "unregistered connection id"⟩
  datagram_listed : ∀ m o port source data request, SocketAddress.Alike (.v4 o port) source →
    Admitted t source data request → request.event ≠ .stopped →
    ListedOnce (t.process m source data).1.store request.infoHash request.peerId o request.port
  query_listed : ∀ m o port source text q headers, SocketAddress.Alike (.v4 o port) source →
    AnnounceQuery.parse text = .ok q → q.event ≠ .stopped →
    ListedOnce (t.respond m source ⟨"GET", ⟨utf8 "/announce", some text⟩, headers⟩).1.store
      q.infoHash q.peerId o q.port

/-- Runs that differ in spellings only are one run. That is shown request by
request, and what else is claimed of a run follows from what each request
spares. -/
theorem indistinguishable (t : Tracker) : Indistinguishable t where
  runs := fun _ _ h => answerEach_congr h t
  honoured := by
    intro m a b data tid id halike hreply later hlater m' data' tid' hid
    have hvalid : ((t.process m a data).1.answerEach later).1.connections.valid a id = true := by
      rw [valid_answerEach hlater]
      exact valid_of_connected hreply
    rw [← process_congr halike.client_eq]
    exact process_ne_unregistered hvalid hid tid'
  datagram_listed := by
    intro m o port source data request halike hadmitted hevent
    have hip : (announceOf source request).ip = .v4 o := by
      show source.client.ip = _
      rw [← halike.client_eq]
      rfl
    rw [process_eq, hadmitted.reply_eq]
    exact listedOnce_apply hevent hip t.store m.now
  query_listed := by
    intro m o port source text q headers halike hparse hevent
    have hip : (q.announce source).ip = .v4 o := by
      show source.client.ip = _
      rw [← halike.client_eq]
      rfl
    rw [respond_announce hparse]
    exact listedOnce_apply hevent hip t.store m.now

/-- A client asks for an id under one spelling of its address, announces
with it under the other, and once more by a query. -/
theorem indistinguishable_mixed :
    let plain := SocketAddress.v4 (.replicate 4 10) 5000
    let mapped := SocketAddress.v6 (Ip.mapped (.replicate 4 10)) 5000 0
    let start : Tracker := ⟨{}, Store.empty, Connections.empty 120, { startTime := 0 },
      { medium := .memory none, opened := true }⟩
    let hello := Wire.ConnectRequest.encode ⟨7⟩
    let announce := Wire.AnnounceRequest.encode
      ⟨99, 8, .replicate 20 1, .replicate 20 2, 0, 0, 0, .started, 0, 0, 50, 6881⟩
    let query : AnnounceQuery :=
      ⟨.replicate 20 1, .replicate 20 2, 6881, 0, 0, 0, .started, none, true, false⟩
    let r : Http.Request := ⟨"GET", ⟨utf8 "/announce", some query.write⟩, []⟩
    let run (first second third : SocketAddress) : List Incoming :=
      [.datagram ⟨1000, { connection := 99 }⟩ first hello, .datagram ⟨1001, {}⟩ second announce,
        .query ⟨1002, {}⟩ third r]
    (start.answerEach (run plain mapped plain)).1.store.totalPeers = 1
      ∧ start.answerEach (run plain mapped plain) = start.answerEach (run mapped plain mapped) := by
  intro plain mapped start hello announce query r run
  have hmapped : plain.Alike mapped := .mapped _ _ _
  have hplain : mapped.Alike plain := .unmapped _ _ _
  refine ⟨by decide +kernel, (indistinguishable start).runs _ _ ?_⟩
  exact .cons (.datagram _ _ hmapped) (.cons (.datagram _ _ hplain)
    (.cons (.query _ _ hmapped) .nil))

end Tracker

end TorrentTracker
