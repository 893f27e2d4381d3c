import Mathlib.Data.List.Count
import TorrentTracker.Proofs.Http.Replies
import TorrentTracker.Proofs.Tracker.Reply
import TorrentTracker.Tracker.Web

/-
The books of a tracker: what its counters say of the requests it handled.

The counters go up in many places, some of them before it is known how a
request ends. The reference is a ledger that is written afterwards, from
each request and its answer alone (`Handled.entries`): a datagram is one
hit, it is one entry of the kind that its answer is of, and if it got past
the gate and could not be read it is one more entry of the kind it asked
for. A request over HTTP is one entry, by whether its answer gives a reason
for a failure.

# The argument

No counter is looked at on its own before the end. One request leaves the
counters with its entries added, in order (`Handles.metrics`, by the
fourteen ways out of `reply`), so a run leaves them with its ledger added
(`Handling.metrics`), and the value of a counter is how often it stands in
the ledger. Each answer is of one kind only (`answers_encode`), which makes
the sums come out.

# Main statement

- `Handling.accounts`: from fresh counters, what each of them is in the
  end, and that the parts make up the whole.
-/

namespace TorrentTracker

open Wire (Header Action)

-- ============================================================== metrics

/-- A counter goes up by how often it is booked. The counter wraps and so does
the number that is added, so no bound is needed here. -/
theorem Metrics.get_foldl_bump (m : Metrics) (entries : List Counter) (c : Counter) :
    (entries.foldl bump m).get c = m.get c + UInt64.ofNat (entries.count c) := by
  induction entries generalizing m with
  | nil => exact (UInt64.add_zero _).symm
  | cons d entries ih =>
      rw [List.foldl_cons, ih, get_bump, List.count_cons]
      by_cases hd : d = c
      · rw [if_pos hd, if_pos (beq_iff_eq.mpr hd), Nat.add_comm, UInt64.ofNat_add,
          UInt64.add_assoc]
        rfl
      · rw [if_neg hd, if_neg fun h => hd (beq_iff_eq.mp h)]
        rfl

namespace Tracker

variable {t u v : Tracker} {m : Moment} {source : SocketAddress} {data : Bytes}
  {header : Header} {action : Action} {p : Tracker × Reply}

-- ================================================================ kinds

/-- The counter of a kind of request. -/
def counterOf : Action → Counter
  | .connect => .udpConnects
  | .announce => .udpAnnounces
  | .scrape => .udpScrapes
  | .error => .clientErrors
  | .heartbeat => .udpHeartbeats

/-- All kinds of request. -/
def kinds : List Action := [.connect, .announce, .scrape, .error, .heartbeat]

/-- Whether a reply is of a kind, by its bytes. What is too short for a
request is in error. -/
def answers (reply : Bytes) : Action → Bool
  | .connect => reply.take 4 = [0, 0, 0, 0]
  | .announce => reply.take 4 = [0, 0, 0, 1]
  | .scrape => reply.take 4 = [0, 0, 0, 2]
  | .error => reply = utf8 "nope" || reply.take 4 = [0, 0, 0, 3]
  | .heartbeat => reply = utf8 "ok"

/-- Whether a datagram cannot be read as a request of a kind, or is an
announce without a port. -/
def unreadable (data : Bytes) : Action → Bool
  | .connect => (Wire.ConnectRequest.decode data).toOption.isNone
  | .announce => (Wire.AnnounceRequest.decode data).toOption.all fun r => r.port = 0
  | .scrape => (Wire.ScrapeRequest.decode data).toOption.isNone
  | .error => false
  | .heartbeat => false

/-- Whether a datagram of the right size is a request of a kind, got past
the gate, if there is one for its kind, and cannot be read. -/
def spoils (t : Tracker) (source : SocketAddress) (data : Bytes) (action : Action) : Bool :=
  (16 ≤ data.length && data.length ≤ 1496) && field data 8 4 = Word.toNat action.number
    && (action = .connect || !unvouched t source data) && unreadable data action

/-- The kind of a reply. -/
def kind : Reply → Action
  | .tooShort => .error
  | .alive => .heartbeat
  | .connect _ => .connect
  | .announce _ => .announce
  | .scrape _ => .scrape
  | .refused _ _ => .error

/-- A written reply is an answer to the one action it is a reply of, told by
its first four bytes. The two bare texts start with none of these numbers. -/
theorem answers_of_action {r : Reply} (h : action? r = some action) (other : Action) :
    answers r.encode other = decide (other = action) := by
  have htake := take_encode h
  have hnope : r.encode ≠ utf8 "nope" := by
    intro hreply
    rw [hreply] at htake
    revert htake
    cases action <;> decide
  have hok : r.encode ≠ utf8 "ok" := by
    intro hreply
    rw [hreply] at htake
    revert htake
    cases action <;> decide
  have hheartbeat : action ≠ .heartbeat := by
    rintro rfl
    cases r <;> cases h
  cases action with
  | heartbeat => exact absurd rfl hheartbeat
  | _ => cases other <;> simp only [answers, htake, hnope, hok] <;> decide

/-- A reply is of one kind. -/
theorem answers_encode (r : Reply) (other : Action) :
    answers r.encode other = decide (other = kind r) := by
  cases r with
  | tooShort => cases other <;> decide
  | alive => cases other <;> decide
  | connect r => exact answers_of_action rfl other
  | announce r => exact answers_of_action rfl other
  | scrape r => exact answers_of_action rfl other
  | refused tid why => exact answers_of_action rfl other

-- ============================================================== spoiled

/-- Of a framed datagram, only a request of its own action can be counted and
then turned down, and only past the gate. -/
theorem Framed.spoils_eq (h : Framed data header action) (other : Action) :
    spoils t source data other = (decide (other = action)
      && (action = .connect || t.registered source header.connectionId)
      && unreadable data action) := by
  obtain ⟨hlen, -⟩ := peek_eq_ok h.peek
  have hsize : data.length ≤ 1496 := h.fits
  have hnumber : decide (field data 8 4 = Word.toNat other.number) = decide (other = action) := by
    rw [h.field_eq]
    cases action <;> cases other <;> decide
  unfold spoils
  rw [hnumber, h.unvouched_eq, Bool.not_not, decide_eq_true hlen, decide_eq_true hsize]
  by_cases hother : other = action
  · rw [hother]
    rfl
  · rw [decide_eq_false hother]
    rfl

/-- What has no header is turned down before any request is counted, and enters
the ledger as an error alone. -/
theorem spoils_of_short (hshort : data.length < 16) (action : Action) :
    spoils t source data action = false := by
  unfold spoils
  rw [decide_eq_false (Nat.not_le.mpr hshort)]
  rfl

/-- What is too long is turned down before its request is counted, although its
action can be told. -/
theorem spoils_of_oversized (hsize : Wire.maxRequestSize < data.length) (action : Action) :
    spoils t source data action = false := by
  have hlong : ¬data.length ≤ 1496 := Nat.not_le.mpr hsize
  unfold spoils
  rw [decide_eq_false hlong, Bool.and_false]
  rfl

/-- What has no known action is no request to count. -/
theorem spoils_of_unknown {e : Wire.Error} (hpeek : Header.peek data = .ok header)
    (hunknown : Action.ofNumber header.action = .error e) (action : Action) :
    spoils t source data action = false := by
  have hnumber : field data 8 4 ≠ Word.toNat action.number := by
    rw [field_eq hpeek]
    intro heq
    rw [Action.ofNumber_eq_ok_iff.mpr heq] at hunknown
    cases hunknown
  unfold spoils
  rw [decide_eq_false hnumber, Bool.and_false]
  rfl

/-- What gets past the gate and cannot be read is spoiled as what it is: it was
counted before it was read. -/
theorem Framed.spoils_of_unreadable (h : Framed data header action)
    (hgate : action = .connect ∨ t.registered source header.connectionId = true)
    (hbad : unreadable data action = true) (other : Action) :
    spoils t source data other = decide (some other = some action) := by
  have hpassed : (decide (action = .connect) || t.registered source header.connectionId)
      = true := by
    rw [Bool.or_eq_true, decide_eq_true_eq]
    exact hgate
  rw [h.spoils_eq, hpassed, hbad, Bool.and_true, Bool.and_true]
  exact decide_eq_decide.mpr (Option.some_inj.symm)

/-- A request that can be read is counted for its answer and not beside it. -/
theorem Framed.spoils_of_readable (h : Framed data header action)
    (hgood : unreadable data action = false) (other : Action) :
    spoils t source data other = false := by
  rw [h.spoils_eq, hgood, Bool.and_false]

/-- A request without an id in force is turned down at the gate, before it is
counted. -/
theorem Framed.spoils_of_unregistered (h : Framed data header action)
    (haction : action = .announce ∨ action = .scrape)
    (hregistered : t.registered source header.connectionId = false) (other : Action) :
    spoils t source data other = false := by
  rw [h.spoils_eq, hregistered]
  rcases haction with rfl | rfl <;> simp

/-- What an answer adds to the counters: a hit, the kind that was spoiled if
one was, and the kind of the reply. -/
structure Booked (t : Tracker) (source : SocketAddress) (data : Bytes) (p : Tracker × Reply)
    (spoiled : Option Action) : Prop where
  spoils : ∀ other, spoils t source data other = decide (some other = spoiled)
  refused : ∀ action, spoiled = some action → kind p.2 = .error ∧ action ≠ .error
  metrics : p.1.metrics = (.udpHits :: spoiled.toList.map counterOf
    ++ [counterOf (kind p.2)]).foldl Metrics.bump t.metrics

/-- Where no request is counted beside its answer, what is entered is the hit
and the kind of the answer. -/
theorem booked_of_whole (hwhole : ∀ other, spoils t source data other = false)
    (hmetrics : p.1.metrics = [.udpHits, counterOf (kind p.2)].foldl Metrics.bump t.metrics) :
    Booked t source data p none :=
  ⟨hwhole, nofun, hmetrics⟩

/-- Where one is, there is one more entry, for the request that could not be
read. -/
theorem Framed.booked_of_unreadable (h : Framed data header action)
    (hgate : action = .connect ∨ t.registered source header.connectionId = true)
    (hbad : unreadable data action = true) (hkind : kind p.2 = .error)
    (hmetrics : p.1.metrics
      = [.udpHits, counterOf action, .clientErrors].foldl Metrics.bump t.metrics) :
    Booked t source data p (some action) where
  spoils := h.spoils_of_unreadable hgate hbad
  refused := by
    intro other hsame
    refine ⟨hkind, ?_⟩
    rintro rfl
    cases hsame
    cases hbad
  metrics := by
    rw [hkind]
    exact hmetrics

/-- Every way out adds so much and no more. -/
theorem Answered.booked (h : Answered t m source data p) :
    ∃ spoiled, Booked t source data p spoiled := by
  cases h with
  | tooShort hpeek =>
      exact ⟨_, booked_of_whole (spoils_of_short (length_of_peek_eq_error hpeek)) rfl⟩
  | unknown hpeek hunknown => exact ⟨_, booked_of_whole (spoils_of_unknown hpeek hunknown) rfl⟩
  | oversized _ _ hsize => exact ⟨_, booked_of_whole (spoils_of_oversized hsize) rfl⟩
  | heartbeat h => exact ⟨_, booked_of_whole (h.spoils_of_readable rfl) rfl⟩
  | errorAction h => exact ⟨_, booked_of_whole (h.spoils_of_readable rfl) rfl⟩
  | badConnect h hdecode =>
      have hbad : unreadable data .connect = true := by
        simp [unreadable, hdecode, Except.toOption]
      exact ⟨_, h.booked_of_unreadable (.inl rfl) hbad rfl rfl⟩
  | connected h hdecode =>
      have hgood : unreadable data .connect = false := by
        simp [unreadable, hdecode, Except.toOption]
      exact ⟨_, booked_of_whole (h.spoils_of_readable hgood) rfl⟩
  | unregistered h haction hregistered =>
      exact ⟨_, booked_of_whole (h.spoils_of_unregistered haction hregistered) rfl⟩
  | badAnnounce h hregistered hdecode =>
      have hbad : unreadable data .announce = true := by
        simp [unreadable, hdecode, Except.toOption]
      exact ⟨_, h.booked_of_unreadable (.inr hregistered) hbad rfl rfl⟩
  | zeroPort h hregistered hdecode hport =>
      have hbad : unreadable data .announce = true := by
        simp [unreadable, hdecode, Except.toOption, hport]
      exact ⟨_, h.booked_of_unreadable (.inr hregistered) hbad rfl rfl⟩
  | announced h hregistered hdecode hport htracker =>
      subst htracker
      have hgood : unreadable data .announce = false := by
        simp [unreadable, hdecode, Except.toOption, hport]
      exact ⟨_, booked_of_whole (h.spoils_of_readable hgood) rfl⟩
  | badScrape h hregistered hdecode =>
      have hbad : unreadable data .scrape = true := by
        simp [unreadable, hdecode, Except.toOption]
      exact ⟨_, h.booked_of_unreadable (.inr hregistered) hbad rfl rfl⟩
  | tooManyHashes h hregistered hdecode hmany =>
      -- the bytes of so many hashes do not fit
      exact absurd (length_infoHashes_le h.fits hdecode) (Nat.not_le.mpr hmany)
  | scraped h hregistered hdecode =>
      have hgood : unreadable data .scrape = false := by
        simp [unreadable, hdecode, Except.toOption]
      exact ⟨_, booked_of_whole (h.spoils_of_readable hgood) rfl⟩

end Tracker

-- ============================================================= failures

/-- Whether an answer gives a reason for a failure, to a client that reads
it strictly. -/
def Http.Response.fails (answer : Response) : Bool :=
  match Bencode.decode? answer.body.render with
  | some (.dict entries) => utf8 "failure reason" ∈ entries.map Prod.fst
  | _ => false

/-- Whether a body reports a failure can be asked of the dictionary it was
written from, since the strict reader finds that again. -/
theorem Http.Response.fails_of_canonical {status : Nat} {entries : List (Bytes × Bencode)}
    (h : (Bencode.dict entries).Canonical) :
    (plain status (Bencode.dict entries).encode).fails
      = decide (utf8 "failure reason" ∈ entries.map Prod.fst) := by
  have hread : Bencode.decode? (plain status (Bencode.dict entries).encode).body.render
      = some (.dict entries) := h.decode?_encode
  unfold fails
  rw [hread]

/-- A failure is recognised by its body, whichever it is. -/
theorem Http.Failure.fails_response (f : Failure) : f.response.fails = true := by
  have hcanonical : (reason f.message).Canonical :=
    .dict (List.pairwise_singleton _ _) (List.forall_mem_singleton.mpr (.string _))
  exact (Response.fails_of_canonical hcanonical).trans (decide_eq_true List.mem_cons_self)

/-- The reply to an announce has no such key among its own. -/
theorem AnnounceReply.fails_body (r : AnnounceReply) (status : Nat) :
    (Http.Response.plain status r.body).fails = false := by
  refine (Http.Response.fails_of_canonical r.canonical_value).trans (decide_eq_false ?_)
  obtain ⟨seeders, leechers, interval, peers⟩ := r
  have hkeys : utf8 "failure reason" ∉ [utf8 "complete", utf8 "incomplete", utf8 "interval",
      utf8 "peers", utf8 "peers6"] := by decide
  cases peers with
  | compact family packed =>
      cases family with
      | v4 => exact fun hmem => hkeys (List.mem_append_left [utf8 "peers6"] hmem)
      | v6 => exact hkeys
  | dicts withIds peers => exact fun hmem => hkeys (List.mem_append_left [utf8 "peers6"] hmem)

theorem ScrapeReply.fails_body (r : ScrapeReply) (status : Nat) :
    (Http.Response.plain status r.body).fails = false := by
  refine (Http.Response.fails_of_canonical r.canonical_value).trans (decide_eq_false ?_)
  show utf8 "failure reason" ∉ [utf8 "files"]
  decide

-- =============================================================== ledger

/-- A request that was handled: a datagram with the tracker it came to and
what was sent back, or a query with its answer. -/
inductive Handled where
  | datagram (t : Tracker) (source : SocketAddress) (data reply : Bytes)
  | announce (answer : Http.Response)
  | scrape (answer : Http.Response)

namespace Handled

def isDatagram : Handled → Bool
  | datagram _ _ _ _ => true
  | announce _ => false
  | scrape _ => false

/-- Whether a request is a datagram that was answered in a kind. -/
def answered (action : Action) : Handled → Bool
  | datagram _ _ _ reply => Tracker.answers reply action
  | announce _ => false
  | scrape _ => false

/-- Whether a request is a datagram of a kind that got past the gate and
could not be read. -/
def spoiled (action : Action) : Handled → Bool
  | datagram t source data _ => Tracker.spoils t source data action
  | announce _ => false
  | scrape _ => false

/-- Whether a request is a query. -/
def isQuery (e : Handled) : Bool := !e.isDatagram

/-- Whether a request is a query that was answered with a failure. -/
def failed : Handled → Bool
  | datagram _ _ _ _ => false
  | announce answer => answer.fails
  | scrape answer => answer.fails

/-- The counter that a query comes under, one of its own if it does not
fail. -/
def counterOf (answer : Http.Response) (c : Counter) : Counter :=
  if answer.fails then .httpFailures else c

/-- The counters that a request comes under. -/
def entries : Handled → List Counter
  | datagram t source data reply =>
    .udpHits :: (Tracker.kinds.filter (Tracker.spoils t source data)).map Tracker.counterOf
      ++ (Tracker.kinds.filter (Tracker.answers reply)).map Tracker.counterOf
  | announce answer => [counterOf answer .httpAnnounces]
  | scrape answer => [counterOf answer .httpScrapes]

/-- What a datagram and its reply enter in the ledger: the hit, the requests
that were counted and turned down, and the answer. -/
theorem entries_datagram (t : Tracker) (source : SocketAddress) (data reply : Bytes) :
    (datagram t source data reply).entries
      = .udpHits :: (Tracker.kinds.filter (Tracker.spoils t source data)).map Tracker.counterOf
        ++ (Tracker.kinds.filter (Tracker.answers reply)).map Tracker.counterOf :=
  rfl

theorem entries_announce (answer : Http.Response) :
    (announce answer).entries = [counterOf answer .httpAnnounces] :=
  rfl

theorem entries_scrape (answer : Http.Response) :
    (scrape answer).entries = [counterOf answer .httpScrapes] :=
  rfl

/-- A failed request is entered as that and not as what it asked for. -/
theorem counterOf_failure (f : Http.Failure) (c : Counter) :
    counterOf f.response c = .httpFailures :=
  if_pos f.fails_response

/-- An announce that is answered is entered as one. -/
theorem counterOf_announce (status : Nat) (r : AnnounceReply) (c : Counter) :
    counterOf (.plain status r.body) c = c := by
  unfold counterOf
  rw [r.fails_body]
  rfl

theorem counterOf_scrape (status : Nat) (r : ScrapeReply) (c : Counter) :
    counterOf (.plain status r.body) c = c := by
  unfold counterOf
  rw [r.fails_body]
  rfl

/-- A request enters nothing but what it asked for or that it failed, so all
other counters are of datagrams. -/
theorem count_counterOf_of_ne {answer : Http.Response} {c d : Counter} (hc : c ≠ d)
    (hd : .httpFailures ≠ d) : [counterOf answer c].count d = 0 := by
  unfold counterOf
  split
  · rw [List.count_cons_of_ne hd, List.count_nil]
  · rw [List.count_cons_of_ne hc, List.count_nil]

/-- Of a request, a failure is entered just if its answer is one. -/
theorem count_counterOf_failures {answer : Http.Response} {c : Counter}
    (hc : c ≠ .httpFailures) : [counterOf answer c].count .httpFailures = answer.fails.toNat := by
  unfold counterOf
  cases answer.fails with
  | true => rfl
  | false =>
      rw [if_neg Bool.false_ne_true, List.count_cons_of_ne hc]
      rfl

end Handled

namespace Tracker

variable {e : Handled} {log : List Handled} {c : Counter}

/-- One request handled, a datagram with any buffer for the reply. -/
inductive Handles (t : Tracker) : Handled → Tracker → Prop where
  | datagram (m : Moment) (source : SocketAddress) (data : Bytes) (out : Buffer) :
      Handles t (.datagram t source data (t.answerInto m source data out).2.content)
        (t.answerInto m source data out).1
  | announce (m : Moment) (source : SocketAddress) (query : Option Bytes) :
      Handles t (.announce (t.follow m source query .announce).2)
        (t.follow m source query .announce).1
  | scrape (m : Moment) (source : SocketAddress) (query : Option Bytes) :
      Handles t (.scrape (t.follow m source query .scrape).2)
        (t.follow m source query .scrape).1

/-- Requests handled one after the other, first to last. Between them
anything may happen that leaves the counters alone. -/
inductive Handling (t : Tracker) : List Handled → Tracker → Prop where
  | start : Handling t [] t
  | handle {log : List Handled} {e : Handled} {u v : Tracker} :
      Handling t log u → Handles u e v → Handling t (log ++ [e]) v
  | beside {log : List Handled} {u v : Tracker} :
      Handling t log u → v.metrics = u.metrics → Handling t log v

/-- Each action is one of the kinds, and none is there twice. -/
theorem filter_kinds (k : Option Action) :
    kinds.filter (fun action => decide (some action = k)) = k.toList := by
  cases k with
  | none => rfl
  | some k => cases k <;> rfl

/-- An announce over HTTP fails, or is counted and answered. A failure is found
before the store is touched. -/
theorem follow_announce (u : Tracker) (m : Moment) (source : SocketAddress)
    (query : Option Bytes) :
    (∃ f : Http.Failure, u.follow m source query .announce = (u.count .httpFailures, f.response))
      ∨ ∃ (v : Tracker) (reply : AnnounceReply), v.metrics = u.metrics.bump .httpAnnounces
        ∧ u.follow m source query .announce = (v, .plain 200 reply.body) := by
  unfold follow announceQuery
  cases query with
  | none => exact .inl ⟨.browserAccess, rfl⟩
  | some text =>
      dsimp only
      cases AnnounceQuery.parse text with
      | error cause => exact .inl ⟨.invalid cause, rfl⟩
      | ok q => exact .inr ⟨_, _, rfl, rfl⟩

/-- The two ends of a scrape, as a counter and a response. Only the counters of
the tracker are changed by either. -/
theorem follow_scrape (u : Tracker) (m : Moment) (source : SocketAddress)
    (query : Option Bytes) :
    (∃ f : Http.Failure, u.follow m source query .scrape = (u.count .httpFailures, f.response))
      ∨ ∃ reply : ScrapeReply,
        u.follow m source query .scrape = (u.count .httpScrapes, .plain 200 reply.body) := by
  unfold follow scrapeQuery
  dsimp only
  cases ScrapeQuery.parse (query.getD []) with
  | error cause => exact .inl ⟨.invalid cause, rfl⟩
  | ok hashes => exact .inr ⟨⟨hashes.map _⟩, rfl⟩

/-- A request leaves the counters with its entries added. The entries are told
from the request and the answer alone, so each of the three kinds is matched
with what its handler counts. -/
theorem Handles.metrics (h : Handles u e v) :
    v.metrics = e.entries.foldl Metrics.bump u.metrics := by
  cases h with
  | datagram m source data out =>
      obtain ⟨spoiled, hbooked⟩ := (answered_reply u m source data).booked
      -- both tests are for one action, so each filters out one counter
      have hspoils : spoils u source data = fun action => decide (some action = spoiled) :=
        funext hbooked.spoils
      have hanswers : answers (u.reply m source data).2.encode
          = fun action => decide (some action = some (kind (u.reply m source data).2)) := by
        funext action
        rw [answers_encode]
        exact decide_eq_decide.mpr Option.some_inj.symm
      rw [content_answerInto, answerInto_eq, Handled.entries_datagram, hspoils, hanswers,
        filter_kinds, filter_kinds]
      exact hbooked.metrics
  | announce m source query =>
      rcases u.follow_announce m source query with ⟨f, hfollow⟩ | ⟨v, reply, hmetrics, hfollow⟩
      · rw [hfollow, Handled.entries_announce, Handled.counterOf_failure]
        rfl
      · rw [hfollow, Handled.entries_announce, Handled.counterOf_announce]
        exact hmetrics
  | scrape m source query =>
      rcases u.follow_scrape m source query with ⟨f, hfollow⟩ | ⟨reply, hfollow⟩
      · rw [hfollow, Handled.entries_scrape, Handled.counterOf_failure]
        rfl
      · rw [hfollow, Handled.entries_scrape, Handled.counterOf_scrape]
        rfl

/-- A run leaves the counters with its ledger added. By induction on the run,
request by request. -/
theorem Handling.metrics (h : Handling t log u) :
    u.metrics = (log.flatMap Handled.entries).foldl Metrics.bump t.metrics := by
  induction h with
  | start => rfl
  | handle _ hstep ih =>
      rw [List.flatMap_append, List.foldl_append, ← ih, List.flatMap_singleton]
      exact hstep.metrics
  | beside _ hsame ih => rw [hsame, ih]

-- =============================================================== counts

theorem counterOf_injective {a b : Action} (h : counterOf a = counterOf b) : a = b := by
  cases a <;> cases b <;> first | rfl | cases h

/-- The counters that no kind of request has. -/
def otherCounters : List Counter :=
  [.udpHits, .httpAnnounces, .httpScrapes, .httpFailures, .internalErrors]

theorem counterOf_ne {c : Counter} (hc : c ∈ otherCounters) (action : Action) :
    counterOf action ≠ c := by
  have hall : ∀ c ∈ otherCounters, counterOf action ≠ c := by cases action <;> decide
  exact hall c hc

/-- Of the kinds that pass a test each stands once in the ledger. -/
theorem count_filter_kinds (test : Action → Bool) (action : Action) :
    ((kinds.filter test).map counterOf).count (counterOf action) = (test action).toNat := by
  rw [List.count_map_of_injective _ counterOf fun _ _ => counterOf_injective]
  have hall : kinds.count action = 1 := by cases action <;> rfl
  cases htest : test action with
  | true => exact (List.count_filter htest).trans hall
  | false =>
      refine List.count_eq_zero.mpr fun hmem => ?_
      rw [(List.mem_filter.mp hmem).2] at htest
      cases htest

/-- A datagram comes under the counter of a kind once if it was spoiled and
once if it was answered in that kind. -/
theorem count_kind (e : Handled) (action : Action) :
    e.entries.count (counterOf action) = (e.spoiled action).toNat + (e.answered action).toNat := by
  have hne : ∀ c ∈ otherCounters, c ≠ counterOf action := fun c hc => (counterOf_ne hc action).symm
  cases e with
  | datagram t source data reply =>
      rw [Handled.entries_datagram, List.cons_append, List.count_cons_of_ne (hne _ (by decide)),
        List.count_append, count_filter_kinds, count_filter_kinds]
      rfl
  | announce answer => exact Handled.count_counterOf_of_ne (hne _ (by decide)) (hne _ (by decide))
  | scrape answer => exact Handled.count_counterOf_of_ne (hne _ (by decide)) (hne _ (by decide))

/-- Beside its kinds a datagram is a hit and nothing else. The hit is entered
first, before anything is looked at. -/
theorem count_datagram (hc : c ∈ otherCounters) (reply : Bytes) :
    (Handled.datagram t source data reply).entries.count c = [Counter.udpHits].count c := by
  have hnone : ∀ test, ((kinds.filter test).map counterOf).count c = 0 := by
    intro test
    refine List.count_eq_zero.mpr fun hmem => ?_
    obtain ⟨action, -, haction⟩ := List.mem_map.mp hmem
    exact counterOf_ne hc action haction
  rw [Handled.entries_datagram, List.cons_append, List.count_cons, List.count_append, hnone,
    hnone, List.count_cons, List.count_nil]

theorem count_hits (e : Handled) : e.entries.count .udpHits = e.isDatagram.toNat := by
  cases e with
  | datagram t source data reply => exact count_datagram (by decide) reply
  | announce answer => exact Handled.count_counterOf_of_ne nofun nofun
  | scrape answer => exact Handled.count_counterOf_of_ne nofun nofun

/-- Nothing handled is an internal error: no reply fails to be written, as
every one of them fits the buffer. -/
theorem count_internalErrors (e : Handled) : e.entries.count .internalErrors = 0 := by
  cases e with
  | datagram t source data reply => exact count_datagram (by decide) reply
  | announce answer => exact Handled.count_counterOf_of_ne nofun nofun
  | scrape answer => exact Handled.count_counterOf_of_ne nofun nofun

/-- A failed query is one failure; a datagram is none. -/
theorem count_failures (e : Handled) : e.entries.count .httpFailures = e.failed.toNat := by
  cases e with
  | datagram t source data reply => exact count_datagram (by decide) reply
  | announce answer => exact Handled.count_counterOf_failures nofun
  | scrape answer => exact Handled.count_counterOf_failures nofun

/-- Every query is entered once, as an announce, a scrape or a failure. Which
one it is stands in the body of the answer. -/
theorem count_queries (e : Handled) :
    e.entries.count .httpAnnounces + e.entries.count .httpScrapes
      + e.entries.count .httpFailures = e.isQuery.toNat := by
  cases e with
  | datagram t source data reply =>
      rw [count_datagram (by decide) reply,
        count_datagram (by decide) reply,
        count_datagram (by decide) reply]
      rfl
  | announce answer =>
      rw [Handled.entries_announce, Handled.counterOf]
      cases answer.fails <;> rfl
  | scrape answer =>
      rw [Handled.entries_scrape, Handled.counterOf]
      cases answer.fails <;> rfl

-- ================================================================= runs

/-- A datagram that is answered, and what was spoiled is refused. -/
structure Sorted (e : Handled) : Prop where
  once : e.isDatagram.toNat = (e.answered .error).toNat + (e.answered .heartbeat).toNat
    + (e.answered .connect).toNat + (e.answered .announce).toNat + (e.answered .scrape).toNat
  refused : ∀ action, e.spoiled action = true → e.answered .error = true ∧ action ≠ .error

/-- What is handled is a datagram or a query and not both, and a reply to a
datagram is an answer of one kind. -/
theorem Handles.sorted (h : Handles u e v) : Sorted e := by
  cases h with
  | datagram m source data out =>
      obtain ⟨spoiled, hbooked⟩ := (answered_reply u m source data).booked
      rw [content_answerInto]
      constructor
      case once =>
        unfold Handled.answered
        simp only [answers_encode]
        cases kind (u.reply m source data).2 <;> rfl
      case refused =>
        intro action hspoiled
        have hsame : some action = spoiled :=
          of_decide_eq_true ((hbooked.spoils action).symm.trans hspoiled)
        obtain ⟨hkind, hne⟩ := hbooked.refused action hsame.symm
        refine ⟨?_, hne⟩
        show answers _ .error = true
        rw [answers_encode, hkind]
        rfl
  | announce m source query => exact ⟨rfl, nofun⟩
  | scrape m source query => exact ⟨rfl, nofun⟩

/-- A datagram is counted at most once under a kind, as a request that was
spoiled or as one that was answered. -/
theorem Sorted.le (h : Sorted e) (action : Action) :
    (e.spoiled action).toNat + (e.answered action).toNat ≤ e.isDatagram.toNat := by
  have honce := h.once
  have hle : e.isDatagram.toNat ≤ 1 := Bool.toNat_le _
  cases hspoiled : e.spoiled action with
  | false =>
      rw [Bool.toNat_false]
      cases action <;> omega
  | true =>
      obtain ⟨herror, hne⟩ := h.refused action hspoiled
      rw [herror, Bool.toNat_true] at honce
      rw [Bool.toNat_true]
      cases action with
      | error => exact absurd rfl hne
      | _ => omega

theorem Handling.sorted (h : Handling t log u) : ∀ e ∈ log, Sorted e := by
  induction h with
  | start => exact List.forall_mem_nil _
  | handle _ hstep ih =>
      intro e he
      rcases List.mem_append.mp he with he | he
      · exact ih e he
      · rw [List.mem_singleton.mp he]
        exact hstep.sorted
  | beside _ _ ih => exact ih

theorem countP_cons_toNat (test : Handled → Bool) (e : Handled) (log : List Handled) :
    (e :: log).countP test = (test e).toNat + log.countP test := by
  rw [List.countP_cons, Nat.add_comm]
  cases test e <;> rfl

/-- The ledger of a list of requests. -/
def ledger (log : List Handled) : List Counter := log.flatMap Handled.entries

/-- The counter of an action has the answers of its kind, and besides them the
requests that were counted and then turned down. -/
theorem count_ledger_kind (log : List Handled) (action : Action) :
    (ledger log).count (counterOf action)
      = log.countP (Handled.spoiled action) + log.countP (Handled.answered action) := by
  induction log with
  | nil => rfl
  | cons e log ih =>
      rw [ledger, List.flatMap_cons, List.count_append, count_kind, countP_cons_toNat,
        countP_cons_toNat, ← ledger, ih]
      omega

/-- A counter that each entry of the log bumps at most once is a count over the
log. -/
theorem count_ledger {test : Handled → Bool}
    (h : ∀ e : Handled, e.entries.count c = (test e).toNat) (log : List Handled) :
    (ledger log).count c = log.countP test := by
  induction log with
  | nil => rfl
  | cons e log ih =>
      rw [ledger, List.flatMap_cons, List.count_append, h, countP_cons_toNat, ← ledger, ih]

/-- The three counters of queries together count the queries. -/
theorem count_ledger_queries (log : List Handled) :
    (ledger log).count .httpAnnounces + (ledger log).count .httpScrapes
      + (ledger log).count .httpFailures = log.countP Handled.isQuery := by
  induction log with
  | nil => rfl
  | cons e log ih =>
      have hfirst := count_queries e
      rw [countP_cons_toNat, ← ih, ← hfirst, ledger, List.flatMap_cons, List.count_append,
        List.count_append, List.count_append, ← ledger]
      omega

/-- Each datagram is answered in one kind, so the five kinds of answers
together are as many as the datagrams. -/
theorem countP_isDatagram (h : ∀ e ∈ log, Sorted e) :
    log.countP Handled.isDatagram = log.countP (Handled.answered .error)
      + log.countP (Handled.answered .heartbeat) + log.countP (Handled.answered .connect)
      + log.countP (Handled.answered .announce) + log.countP (Handled.answered .scrape) := by
  induction log with
  | nil => rfl
  | cons e log ih =>
      have hfirst := (h e List.mem_cons_self).once
      have hrest := ih fun e' he' => h e' (List.mem_cons_of_mem e he')
      simp only [countP_cons_toNat]
      omega

/-- No more datagrams are counted under a kind than there are. -/
theorem countP_kind_le (h : ∀ e ∈ log, Sorted e) (action : Action) :
    log.countP (Handled.spoiled action) + log.countP (Handled.answered action)
      ≤ log.countP Handled.isDatagram := by
  induction log with
  | nil => exact Nat.le_refl _
  | cons e log ih =>
      have hfirst := (h e List.mem_cons_self).le action
      have hrest := ih fun e' he' => h e' (List.mem_cons_of_mem e he')
      simp only [countP_cons_toNat]
      omega

/-- Where a request can always be read, none is counted and turned down, so the
ledger has only answers under that action. -/
theorem countP_spoiled_eq_zero {action : Action} (hnever : ∀ data, unreadable data action = false)
    (log : List Handled) : log.countP (Handled.spoiled action) = 0 := by
  refine List.countP_eq_zero.mpr fun e _ => ?_
  cases e with
  | datagram t source data reply =>
      show ¬spoils t source data action = true
      unfold spoils
      rw [hnever, Bool.and_false]
      exact Bool.false_ne_true
  | announce answer => exact Bool.false_ne_true
  | scrape answer => exact Bool.false_ne_true

/-- From fresh counters, a counter is what stands in the ledger. -/
theorem Handling.get (hfresh : ∀ c, t.metrics.get c = 0) (h : Handling t log u) (c : Counter) :
    u.metrics.get c = UInt64.ofNat ((ledger log).count c) := by
  rw [h.metrics, Metrics.get_foldl_bump, hfresh, UInt64.zero_add]
  rfl

-- ============================================================= accounts

/-- What the counters say of the datagrams that were handled. -/
structure Accounts (log : List Handled) (m : Metrics) : Prop where
  hits : m.udpHits.toNat = log.countP Handled.isDatagram
  clientErrors : m.clientErrors.toNat = log.countP (Handled.answered .error)
  heartbeats : m.udpHeartbeats.toNat = log.countP (Handled.answered .heartbeat)
  replies : log.countP Handled.isDatagram = m.clientErrors.toNat + m.udpHeartbeats.toNat
    + log.countP (Handled.answered .connect) + log.countP (Handled.answered .announce)
    + log.countP (Handled.answered .scrape)
  connects : m.udpConnects.toNat
    = log.countP (Handled.answered .connect) + log.countP (Handled.spoiled .connect)
  announces : m.udpAnnounces.toNat
    = log.countP (Handled.answered .announce) + log.countP (Handled.spoiled .announce)
  scrapes : m.udpScrapes.toNat
    = log.countP (Handled.answered .scrape) + log.countP (Handled.spoiled .scrape)

/-- What the counters say of the queries that were handled. As words this
has no bound. -/
structure QueryAccounts (log : List Handled) (m : Metrics) : Prop where
  handled : m.httpAnnounces + m.httpScrapes + m.httpFailures
    = UInt64.ofNat (log.countP Handled.isQuery)
  failures : m.httpFailures = UInt64.ofNat (log.countP Handled.failed)
  numbers : log.countP Handled.isQuery < UInt64.size →
    m.httpAnnounces.toNat + m.httpScrapes.toNat + m.httpFailures.toNat
        = log.countP Handled.isQuery
      ∧ m.httpFailures.toNat = log.countP Handled.failed

/-- With fewer datagrams than a word can say, the counter of an action is the
number that the log has. A datagram is entered more than once, but at most once
under each action. -/
theorem Handling.toNat_kind (hfresh : ∀ c, t.metrics.get c = 0) (h : Handling t log u)
    (hfew : log.countP Handled.isDatagram < UInt64.size) (action : Action) :
    (u.metrics.get (counterOf action)).toNat
      = log.countP (Handled.answered action) + log.countP (Handled.spoiled action) := by
  have hle := countP_kind_le h.sorted action
  rw [h.get hfresh, count_ledger_kind, UInt64.toNat_ofNat_of_lt' (by omega), Nat.add_comm]

/-- The accounts of the datagrams, one field after the other from the counts
over the log. -/
theorem Handling.accountsOf (hfresh : ∀ c, t.metrics.get c = 0) (h : Handling t log u)
    (hfew : log.countP Handled.isDatagram < UInt64.size) : Accounts log u.metrics := by
  have hkind := h.toNat_kind hfresh hfew
  have herrors : u.metrics.clientErrors.toNat = log.countP (Handled.answered .error) :=
    (hkind .error).trans (by rw [countP_spoiled_eq_zero fun _ => rfl]; rfl)
  have hheartbeats : u.metrics.udpHeartbeats.toNat = log.countP (Handled.answered .heartbeat) :=
    (hkind .heartbeat).trans (by rw [countP_spoiled_eq_zero fun _ => rfl]; rfl)
  constructor
  case hits =>
    have hhits : u.metrics.udpHits = _ := h.get hfresh .udpHits
    rw [hhits, count_ledger count_hits, UInt64.toNat_ofNat_of_lt' hfew]
  case clientErrors => exact herrors
  case heartbeats => exact hheartbeats
  case replies =>
    rw [herrors, hheartbeats]
    exact countP_isDatagram h.sorted
  case connects => exact hkind .connect
  case announces => exact hkind .announce
  case scrapes => exact hkind .scrape

/-- The accounts of the queries. They have a bound of their own, since queries
are no hits and the three counters share it. -/
theorem Handling.queryAccounts (hfresh : ∀ c, t.metrics.get c = 0) (h : Handling t log u) :
    QueryAccounts log u.metrics := by
  have hannounces : u.metrics.httpAnnounces = _ := h.get hfresh .httpAnnounces
  have hscrapes : u.metrics.httpScrapes = _ := h.get hfresh .httpScrapes
  have hfailures : u.metrics.httpFailures = _ := h.get hfresh .httpFailures
  have hfailed : (ledger log).count .httpFailures = log.countP Handled.failed :=
    count_ledger count_failures log
  have hsum := count_ledger_queries log
  constructor
  case handled =>
    rw [hannounces, hscrapes, hfailures, ← hsum, UInt64.ofNat_add, UInt64.ofNat_add]
  case failures => rw [hfailures, hfailed]
  case numbers =>
    intro hfew
    rw [hannounces, hscrapes, hfailures, UInt64.toNat_ofNat_of_lt' (by omega),
      UInt64.toNat_ofNat_of_lt' (by omega), UInt64.toNat_ofNat_of_lt' (by omega)]
    exact ⟨hsum, hfailed⟩

/-- The books of a tracker that started with fresh counters add up, after
any requests by either transport and whatever happened beside them. -/
theorem Handling.accounts (hfresh : ∀ c, t.metrics.get c = 0) (h : Handling t log u) :
    (log.countP Handled.isDatagram < UInt64.size → Accounts log u.metrics)
      ∧ u.metrics.internalErrors = 0 ∧ QueryAccounts log u.metrics := by
  refine ⟨h.accountsOf hfresh, ?_, h.queryAccounts hfresh⟩
  have hinternal : u.metrics.internalErrors = _ := h.get hfresh .internalErrors
  have hnone : (ledger log).count .internalErrors = log.countP fun _ => false :=
    count_ledger count_internalErrors log
  rw [hinternal, hnone, List.countP_false]
  rfl

/-- A datagram of each kind, one of them too short and one without a port,
and a query that fails. -/
theorem accounts_mixed :
    let source := SocketAddress.v4 (.replicate 4 10) 5000
    let start : Tracker := ⟨{}, Store.empty, Connections.empty 120, { startTime := 0 },
      { medium := .memory none, opened := true }⟩
    let connect := Wire.ConnectRequest.encode ⟨7⟩
    let announce (port : UInt16) := Wire.AnnounceRequest.encode
      ⟨99, 8, .replicate 20 1, .replicate 20 2, 0, 0, 0, .started, 0, 0, 50, port⟩
    let scrape := Wire.ScrapeRequest.encode ⟨99, 9, [.replicate 20 1]⟩
    let now : Moment := ⟨1000, { connection := 99 }⟩
    let after (t : Tracker) (data : Bytes) : Tracker := (t.answerInto now source data ⟨0, [], 0⟩).1
    let silent := after start [0]
    let greeted := after silent connect
    let refused := after greeted (announce 0)
    let joined := after refused (announce 6881)
    let asked := after joined scrape
    let ended := (asked.follow now source none .announce).1
    ended.metrics.udpHits = 5 ∧ ended.metrics.clientErrors = 2 ∧ ended.metrics.udpAnnounces = 2
      ∧ ended.metrics.udpScrapes = 1 ∧ ended.metrics.httpFailures = 1
      ∧ ∃ log, log.length = 6 ∧ Accounts log ended.metrics ∧ QueryAccounts log ended.metrics := by
  intro source start connect announce scrape now after silent greeted refused joined asked ended
  have hfresh : ∀ c, start.metrics.get c = 0 := by
    intro c
    cases c <;> rfl
  have hsilent : Handling start _ silent :=
    Handling.start.handle (.datagram now source [0] ⟨0, [], 0⟩)
  have hgreeted : Handling start _ greeted :=
    hsilent.handle (.datagram now source connect ⟨0, [], 0⟩)
  have hrefused : Handling start _ refused :=
    hgreeted.handle (.datagram now source (announce 0) ⟨0, [], 0⟩)
  have hjoined : Handling start _ joined :=
    hrefused.handle (.datagram now source (announce 6881) ⟨0, [], 0⟩)
  have hasked : Handling start _ asked :=
    hjoined.handle (.datagram now source scrape ⟨0, [], 0⟩)
  have hended : Handling start _ ended := hasked.handle (.announce now source none)
  have hbooks := Handling.accounts hfresh hended
  exact ⟨by decide +kernel, by decide +kernel, by decide +kernel, by decide +kernel,
    by decide +kernel, _, rfl, hbooks.1 (by decide), hbooks.2.2⟩

end Tracker

end TorrentTracker
