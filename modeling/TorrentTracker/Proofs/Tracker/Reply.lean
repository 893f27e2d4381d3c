import TorrentTracker.Proofs.Tracker.Answer
import TorrentTracker.Proofs.Wire.Request
import TorrentTracker.Proofs.Wire.Response

/-
Every datagram gets one reply, and the reply belongs to it.

# The checks

What a request is held against is told twice. `reply` decodes and branches,
in one function for each kind of request. `checks` is one list over the
bytes of the datagram: what fails a check, and what the request is refused
for then. The first check that fails decides (`refusal?`). That the two
agree is shown exit by exit: a decoder that fails says which bytes were
wrong (`ConnectRequest.decode_eq` and its like), and these are the bytes
the list looks at.

Two guards are in the program and not in the list, because they never
fire. A scrape that is not too long has no more hashes than it may have
(`length_infoHashes_le`), and a write to a buffer does not fail
(`answerInto_eq`).

# Main statement

- `proper_answerInto`: whatever was in the buffer, it holds a proper reply
  after.
-/

namespace TorrentTracker.Tracker

open Wire (Header Action)

variable {t : Tracker} {m : Moment} {source : SocketAddress} {data : Bytes}
  {header : Header} {action : Action}

-- ============================================================== checks

/-- The number that some bytes of a datagram spell. -/
def field (data : Bytes) (offset width : Nat) : Nat :=
  ofBigEndian ((data.drop offset).take width)

/-- Whether a request needs a connection id and does not begin with the one
its source has. -/
def unvouched (t : Tracker) (source : SocketAddress) (data : Bytes) : Bool :=
  t.config.udp.validateConnectionId
    && (t.connections.tickets.get? source.client).all fun ticket =>
      decide (Word.write ticket.id ≠ data.take 8)

/-- What a connect request begins with. -/
def magic : Bytes := [0x00, 0x00, 0x04, 0x17, 0x27, 0x10, 0x19, 0x80]

/-- The checks on a datagram that has a header, in order: whether it fails
one, and what it is refused for then. -/
def checks (t : Tracker) (source : SocketAddress) (data : Bytes) : List (Bool × Refusal) :=
  let action := field data 8 4
  [ (4 < action, .invalidAction)
  , (1496 < data.length, if action = 2 then .tooManyHashes else .tooLarge)
  , (action = 3, .invalidAction)
  , ((action = 1 || action = 2) && unvouched t source data, .unregistered)
  , (action = 0 && data.take 8 ≠ magic, .badConnect)
  , (action = 1 && (data.length < 98 || 3 < field data 80 4), .badAnnounce)
  , (action = 2 && (data.length - 16) % 20 ≠ 0, .badScrape)
  , (action = 1 && field data 96 2 = 0, .invalidPort) ]

/-- What a datagram is refused for: the first check it fails. -/
def refusal? (t : Tracker) (source : SocketAddress) (data : Bytes) : Option Refusal :=
  ((checks t source data).find? Prod.fst).map Prod.snd

-- =============================================================== proper

/-- A request that is not refused is answered in its kind. -/
inductive Granted (data reply : Bytes) : Prop where
  | connect {r : Wire.ConnectResponse} (haction : field data 8 4 = 0)
      (hread : Wire.ConnectResponse.decode reply = .ok r)
  | announce {r : Wire.AnnounceResponse} (haction : field data 8 4 = 1)
      (hread : Wire.AnnounceResponse.decode reply = .ok r)
  | scrape {r : Wire.ScrapeResponse} (haction : field data 8 4 = 2)
      (hread : Wire.ScrapeResponse.decode reply = .ok r)
      (hrecords : r.records.length = (data.length - 16) / 20)

/-- A reply that belongs to a datagram. -/
structure Proper (t : Tracker) (source : SocketAddress) (data reply : Bytes) : Prop where
  nonempty : reply ≠ []
  tooShort : data.length < 16 → reply = utf8 "nope"
  alive : 16 ≤ data.length → data.length ≤ 1496 → field data 8 4 = 4 → reply = utf8 "ok"
  /-- The transaction is that of the request. -/
  echoes : 16 ≤ data.length → (data.length ≤ 1496 → field data 8 4 ≠ 4) →
    (reply.drop 4).take 4 = (data.drop 12).take 4
  refused : ∀ why, 16 ≤ data.length → refusal? t source data = some why →
    reply = [0, 0, 0, 3] ++ (data.drop 12).take 4 ++ utf8 why.text
  granted : 16 ≤ data.length → (data.length ≤ 1496 → field data 8 4 ≠ 4) →
    refusal? t source data = none → reply.take 4 = (data.drop 8).take 4 ∧ Granted data reply

-- ============================================================ positions

/-- Where a header is peeked at there are sixteen bytes, and they are its
fields. -/
theorem peek_eq_ok (hpeek : Header.peek data = .ok header) :
    16 ≤ data.length
      ∧ header = ⟨Word.front data, Word.front (data.drop 8), Word.front (data.drop 12)⟩ := by
  rw [Header.peek_eq] at hpeek
  by_cases hlen : Wire.headerSize ≤ data.length
  · rw [if_pos hlen] at hpeek
    exact ⟨hlen, (Except.ok.inj hpeek).symm⟩
  · rw [if_neg hlen] at hpeek
    cases hpeek

/-- A header cannot be read just where there are too few bytes for one. There
is nothing else about it that could be wrong. -/
theorem length_of_peek_eq_error {e : Wire.Error} (hpeek : Header.peek data = .error e) :
    data.length < 16 := by
  rw [Header.peek_eq] at hpeek
  by_cases hlen : Wire.headerSize ≤ data.length
  · rw [if_pos hlen] at hpeek
    cases hpeek
  · exact Nat.lt_of_not_le hlen

/-- The field that a check looks at is the one that the header was read
from. -/
theorem field_eq (hpeek : Header.peek data = .ok header) :
    field data 8 4 = Word.toNat header.action := by
  obtain ⟨-, rfl⟩ := peek_eq_ok hpeek
  exact (Word.toNat_front (α := Int32) (data.drop 8)).symm

/-- In a framed datagram it is the number of a known action. -/
theorem Framed.field_eq (h : Framed data header action) :
    field data 8 4 = Word.toNat action.number := by
  rw [Tracker.field_eq h.peek]
  exact Wire.Action.ofNumber_eq_ok_iff.mp h.known

theorem Framed.not_oversized (h : Framed data header action) : ¬1496 < data.length :=
  Nat.not_lt.mpr h.fits

/-- The check of the connection id asks what the gate asks, and asks it of the
first eight bytes. -/
theorem unvouched_eq (hlen : 16 ≤ data.length) :
    unvouched t source data = !t.registered source (Word.front data) := by
  have hwrite : ∀ id : Int64, Word.write id = data.take 8 ↔ id = Word.front data := by
    intro id
    have hwidth : Word.width Int64 ≤ data.length := Nat.le_trans (by decide) hlen
    rw [eq_comm, eq_comm (b := Word.front data)]
    exact (Word.front_eq_iff hwidth).symm
  unfold unvouched registered Connections.valid
  cases t.config.udp.validateConnectionId with
  | false => rfl
  | true =>
      cases t.connections.tickets.get? source.client with
      | none => rfl
      | some ticket => simp [hwrite]

/-- In a framed datagram these are the id in its header. -/
theorem Framed.unvouched_eq (h : Framed data header action) :
    unvouched t source data = !t.registered source header.connectionId := by
  obtain ⟨hlen, rfl⟩ := peek_eq_ok h.peek
  exact Tracker.unvouched_eq hlen

-- ============================================== refusals of each action

/-- An unknown action fails the second check, so nothing else about the
datagram matters. -/
theorem refusal?_unknown {e : Wire.Error} (hpeek : Header.peek data = .ok header)
    (hunknown : Action.ofNumber header.action = .error e) :
    refusal? t source data = some .invalidAction := by
  have hlarge : ¬Word.toNat header.action ≤ 4 := by
    rw [← Wire.Action.exists_ofNumber_iff]
    rintro ⟨action, haction⟩
    rw [hunknown] at haction
    cases haction
  have hnumber : 4 < field data 8 4 := by
    rw [field_eq hpeek]
    exact Nat.lt_of_not_le hlarge
  simp [refusal?, checks, hnumber]

/-- A datagram of a known action that is too long fails the third check, with a
text that depends on the action. -/
theorem refusal?_oversized (hpeek : Header.peek data = .ok header)
    (hknown : Action.ofNumber header.action = .ok action)
    (hsize : Wire.maxRequestSize < data.length) :
    refusal? t source data = some (if action = .scrape then .tooManyHashes else .tooLarge) := by
  have hnumber := field_eq hpeek
  rw [Wire.Action.ofNumber_eq_ok_iff.mp hknown] at hnumber
  have hsmall : ¬4 < field data 8 4 := by
    rw [hnumber]
    cases action <;> decide
  have hscrape : field data 8 4 = 2 ↔ action = .scrape := by
    rw [hnumber]
    cases action <;> decide
  have hlong : 1496 < data.length := hsize
  simp [refusal?, checks, hsmall, hlong, hscrape]

/-- An announce or a scrape with an id that is not in force fails the fourth
check. -/
theorem Framed.refusal?_unregistered (h : Framed data header action)
    (haction : action = .announce ∨ action = .scrape)
    (hregistered : t.registered source header.connectionId = false) :
    refusal? t source data = some .unregistered := by
  have hunvouched : unvouched t source data = true := by
    rw [h.unvouched_eq, hregistered]
    rfl
  rcases haction with rfl | rfl
  · have hnumber : field data 8 4 = 1 := h.field_eq
    simp [refusal?, checks, hnumber, h.not_oversized, hunvouched]
  · have hnumber : field data 8 4 = 2 := h.field_eq
    simp [refusal?, checks, hnumber, h.not_oversized, hunvouched]

/-- The action of an error reply is known but is no request. -/
theorem Framed.refusal?_error (h : Framed data header .error) :
    refusal? t source data = some .invalidAction := by
  have hnumber : field data 8 4 = 3 := h.field_eq
  simp [refusal?, checks, hnumber, h.not_oversized]

/-- A connect has one check left, of the magic number. What comes after its
header is not looked at. -/
theorem Framed.refusal?_connect (h : Framed data header .connect) :
    refusal? t source data = if data.take 8 = magic then none else some .badConnect := by
  have hnumber : field data 8 4 = 0 := h.field_eq
  by_cases hmagic : data.take 8 = magic
  · simp [refusal?, checks, hnumber, h.not_oversized, hmagic]
  · simp [refusal?, checks, hnumber, h.not_oversized, hmagic]

/-- An announce past the gate is checked for its length and its event, and then
for its port. -/
theorem Framed.refusal?_announce (h : Framed data header .announce)
    (hregistered : t.registered source header.connectionId = true) :
    refusal? t source data = if data.length < 98 ∨ 3 < field data 80 4 then some .badAnnounce
      else if field data 96 2 = 0 then some .invalidPort else none := by
  have hnumber : field data 8 4 = 1 := h.field_eq
  have hvouched : unvouched t source data = false := by
    rw [h.unvouched_eq, hregistered]
    rfl
  by_cases hbad : data.length < 98 ∨ 3 < field data 80 4
  · simp [refusal?, checks, hnumber, h.not_oversized, hvouched, hbad]
  · by_cases hport : field data 96 2 = 0
    · simp [refusal?, checks, hnumber, h.not_oversized, hvouched, hbad, hport]
    · simp [refusal?, checks, hnumber, h.not_oversized, hvouched, hbad, hport]

/-- A scrape past the gate is checked for whole hashes. That there are not too
many of them follows from its length, which was checked before. -/
theorem Framed.refusal?_scrape (h : Framed data header .scrape)
    (hregistered : t.registered source header.connectionId = true) :
    refusal? t source data = if (data.length - 16) % 20 = 0 then none else some .badScrape := by
  have hnumber : field data 8 4 = 2 := h.field_eq
  have hvouched : unvouched t source data = false := by
    rw [h.unvouched_eq, hregistered]
    rfl
  by_cases hwhole : (data.length - 16) % 20 = 0
  · simp [refusal?, checks, hnumber, h.not_oversized, hvouched, hwhole]
  · simp [refusal?, checks, hnumber, h.not_oversized, hvouched, hwhole]

-- ==================================================== what decoders say

/-- The check of the first eight bytes is one of the word that they are. -/
theorem take_eq_magic_iff (hlen : 16 ≤ data.length) :
    data.take 8 = magic ↔ (Word.front data : Int64) = Wire.protocolMagic := by
  have hmagic : Word.write Wire.protocolMagic = magic := by decide
  rw [← hmagic]
  have hwidth : Word.width Int64 ≤ data.length := Nat.le_trans (by decide) hlen
  exact (Word.front_eq_iff hwidth).symm

/-- What cannot be decoded as a connect does not start with the magic number;
it is long enough, so nothing else can be wrong. -/
theorem take_ne_magic_of_decode {e : Wire.Error} (hlen : Wire.headerSize ≤ data.length)
    (h : Wire.ConnectRequest.decode data = .error e) : data.take 8 ≠ magic := by
  intro hmagic
  rw [Wire.ConnectRequest.decode_eq, if_pos hlen, if_pos ((take_eq_magic_iff hlen).mp hmagic)] at h
  cases h

/-- What can be read starts with the number of the protocol, and its
transaction id stands in the header. -/
theorem take_eq_magic_of_decode {request : Wire.ConnectRequest}
    (hlen : Wire.headerSize ≤ data.length)
    (h : Wire.ConnectRequest.decode data = .ok request) :
    data.take 8 = magic ∧ request.transactionId = Word.front (data.drop 12) := by
  rw [Wire.ConnectRequest.decode_eq, if_pos hlen] at h
  by_cases hmagic : (Word.front data : Int64) = Wire.protocolMagic
  · rw [if_pos hmagic] at h
    cases h
    exact ⟨(take_eq_magic_iff hlen).mpr hmagic, rfl⟩
  · rw [if_neg hmagic] at h
    cases h

theorem exists_event_iff :
    (∃ event, Event.ofNumber? (Word.front (data.drop 80)) = some event) ↔ field data 80 4 ≤ 3 := by
  rw [Event.exists_ofNumber?_iff, Word.toNat_front]
  rfl

/-- What cannot be decoded as an announce is too short or has no known
event. -/
theorem bad_of_announce_decode {e : Wire.Error}
    (h : Wire.AnnounceRequest.decode data = .error e) :
    data.length < 98 ∨ 3 < field data 80 4 := by
  by_cases hlen : Wire.announceSize ≤ data.length
  · refine .inr (Nat.lt_of_not_le fun hknown => ?_)
    obtain ⟨event, hevent⟩ := exists_event_iff.mpr hknown
    rw [(Wire.AnnounceRequest.decode_eq_ok_iff data).mpr ⟨hlen, event, hevent, rfl⟩] at h
    cases h
  · exact .inl (Nat.lt_of_not_le hlen)

/-- What can be decoded as an announce is long enough and has a known event;
its port and its transaction id are fields of the bytes. -/
theorem good_of_announce_decode {request : Wire.AnnounceRequest}
    (h : Wire.AnnounceRequest.decode data = .ok request) :
    ¬(data.length < 98 ∨ 3 < field data 80 4)
      ∧ (request.port = 0 ↔ field data 96 2 = 0)
      ∧ request.transactionId = Word.front (data.drop 12) := by
  obtain ⟨hlen, event, hevent, rfl⟩ := (Wire.AnnounceRequest.decode_eq_ok_iff data).mp h
  have hknown : field data 80 4 ≤ 3 := exists_event_iff.mp ⟨event, hevent⟩
  refine ⟨?_, ?_, rfl⟩
  · rintro (hshort | hunknown)
    · exact absurd hlen (Nat.not_le.mpr hshort)
    · exact absurd hknown (Nat.not_le.mpr hunknown)
  · show (Word.front (data.drop 96) : UInt16) = 0 ↔ _
    rw [← Word.toNat_inj, Word.toNat_front]
    rfl

/-- What cannot be decoded as a scrape ends in a piece of a hash. -/
theorem bad_of_scrape_decode {e : Wire.Error} (hlen : Wire.headerSize ≤ data.length)
    (h : Wire.ScrapeRequest.decode data = .error e) :
    (data.length - Wire.headerSize) % 20 ≠ 0 := by
  intro hwhole
  rw [Wire.ScrapeRequest.decode_eq, if_pos hlen, if_pos hwhole] at h
  cases h

/-- What can be does not, and has a hash for every twenty bytes. -/
theorem good_of_scrape_decode {request : Wire.ScrapeRequest}
    (h : Wire.ScrapeRequest.decode data = .ok request) :
    (data.length - 16) % 20 = 0
      ∧ request.infoHashes.length = (data.length - 16) / 20
      ∧ request.transactionId = Word.front (data.drop 12) := by
  rw [Wire.ScrapeRequest.decode_eq] at h
  by_cases hlen : Wire.headerSize ≤ data.length
  · rw [if_pos hlen] at h
    by_cases hwhole : (data.length - Wire.headerSize) % 20 = 0
    · rw [if_pos hwhole] at h
      cases h
      exact ⟨hwhole, Wire.ScrapeRequest.length_infoHashes_standingIn data, rfl⟩
    · rw [if_neg hwhole] at h
      cases h
  · rw [if_neg hlen] at h
    cases h

/-- A scrape that is not too long has no more hashes than it may have, so the
check for that never fires. -/
theorem length_infoHashes_le {request : Wire.ScrapeRequest} (hsize : data.length ≤ 1496)
    (h : Wire.ScrapeRequest.decode data = .ok request) :
    request.infoHashes.length ≤ maxScrapeHashes := by
  obtain ⟨-, hcount, -⟩ := good_of_scrape_decode h
  rw [hcount]
  unfold maxScrapeHashes
  omega

-- ================================================================ kinds

/-- What begins with the head of a response has an action and a
transaction. -/
theorem take_responseHead (action : Action) (transactionId : Int32) (rest : Bytes) :
    (Wire.responseHead action transactionId ++ rest).take 4 = Word.write action.number
      ∧ ((Wire.responseHead action transactionId ++ rest).drop 4).take 4
        = Word.write transactionId := by
  unfold Wire.responseHead
  rw [List.append_assoc]
  refine ⟨List.take_left' (Word.length_write _), ?_⟩
  have hdrop : (Word.write action.number ++ (Word.write transactionId ++ rest)).drop 4
      = Word.write transactionId ++ rest := List.drop_left' (Word.length_write _)
  rw [hdrop]
  exact List.take_left' (Word.length_write _)

/-- The action in the head of a reply; two replies have no head. -/
def action? : Reply → Option Action
  | .tooShort => none
  | .alive => none
  | .connect _ => some .connect
  | .announce _ => some .announce
  | .scrape _ => some .scrape
  | .refused _ _ => some .error

/-- All replies but the two fixed ones start with an action and a transaction
id, which is how a client finds out what it got. -/
theorem exists_responseHead {r : Reply} (h : action? r = some action) :
    ∃ transactionId rest, r.encode = Wire.responseHead action transactionId ++ rest := by
  cases r with
  | tooShort => cases h
  | alive => cases h
  | connect r =>
      cases h
      exact ⟨_, _, rfl⟩
  | announce r =>
      cases h
      exact ⟨_, _, r.encode_eq⟩
  | scrape r =>
      cases h
      exact ⟨_, _, rfl⟩
  | refused transactionId why =>
      cases h
      exact ⟨_, _, rfl⟩

/-- So their first four bytes are the number of their action. -/
theorem take_encode {r : Reply} (h : action? r = some action) :
    r.encode.take 4 = Word.write action.number := by
  obtain ⟨transactionId, rest, hencode⟩ := exists_responseHead h
  rw [hencode]
  exact (take_responseHead action transactionId rest).1

/-- The first bytes of a reply tell its action. The two bare texts are replies
too, but none of the numbers begins like them. -/
theorem action?_of_take {r : Reply} (h : r.encode.take 4 = Word.write action.number) :
    action? r = some action := by
  cases hr : action? r with
  | some other =>
      rw [take_encode hr] at h
      have hnumber : other.number = action.number := Word.write_injective h
      have hother := other.ofNumber_number
      rw [hnumber, action.ofNumber_number] at hother
      cases hother
      rfl
  | none =>
      cases r with
      | tooShort =>
          revert h
          cases action <;> decide
      | alive =>
          revert h
          cases action <;> decide
      | _ => cases hr

/-- And not that of any other: a client can tell what it got. -/
theorem take_encode_ne {r : Reply} (other : Action) (h : action? r = some action)
    (hne : action ≠ other) : r.encode.take 4 ≠ Word.write other.number := by
  intro htake
  rw [action?_of_take htake] at h
  exact hne (Option.some.inj h).symm

-- ====================================================== proper by kinds

/-- The transaction id that is read from a header is written back as the same
four bytes. -/
theorem write_transaction (hlen : 16 ≤ data.length) :
    Word.write (Word.front (data.drop 12) : Int32) = (data.drop 12).take 4 :=
  Word.write_front_drop rfl hlen

theorem write_action (hlen : 16 ≤ data.length) :
    Word.write (Word.front (data.drop 8) : Int32) = (data.drop 8).take 4 :=
  Word.write_front_drop rfl (Nat.le_trans (by decide) hlen)

theorem responseHead_append_ne_nil (action : Action) (transactionId : Int32) (rest : Bytes) :
    Wire.responseHead action transactionId ++ rest ≠ [] := by
  intro hnil
  have hlen := congrArg List.length hnil
  rw [List.length_append, Wire.length_responseHead, List.length_nil] at hlen
  omega

/-- A refusal that repeats the transaction is proper where it is due. -/
theorem proper_refused {why : Refusal} {transactionId : Int32} (hlen : 16 ≤ data.length)
    (htransaction : transactionId = Word.front (data.drop 12))
    (hwhy : refusal? t source data = some why) :
    Proper t source data (Reply.refused transactionId why).encode := by
  subst htransaction
  have hencode : (Reply.refused (Word.front (data.drop 12)) why).encode
      = Wire.responseHead .error (Word.front (data.drop 12)) ++ utf8 why.text := rfl
  obtain ⟨hhead, hecho⟩ := take_responseHead .error (Word.front (data.drop 12)) (utf8 why.text)
  constructor
  case nonempty => exact responseHead_append_ne_nil _ _ _
  case tooShort =>
    intro hshort
    omega
  case alive =>
    -- an in-size heartbeat fails no check
    intro _ hsize hnumber
    have hnone : refusal? t source data = none := by
      simp [refusal?, checks, hnumber, Nat.not_lt.mpr hsize]
    rw [hnone] at hwhy
    cases hwhy
  case echoes =>
    intro _ _
    rw [hencode, hecho, write_transaction hlen]
  case refused =>
    intro why' _ hwhy'
    rw [hwhy] at hwhy'
    cases hwhy'
    rw [hencode, ← write_transaction hlen]
    rfl
  case granted =>
    intro _ _ hnone
    rw [hwhy] at hnone
    cases hnone

/-- An answer in kind that repeats the transaction is proper where nothing
is refused. -/
theorem proper_granted {reply rest : Bytes} {transactionId : Int32}
    (h : Framed data header action) (hkind : action ≠ .heartbeat)
    (htransaction : transactionId = Word.front (data.drop 12))
    (hnone : refusal? t source data = none)
    (hreply : reply = Wire.responseHead action transactionId ++ rest)
    (hgranted : Granted data reply) : Proper t source data reply := by
  obtain ⟨hlen, hheader⟩ := peek_eq_ok h.peek
  obtain ⟨hhead, hecho⟩ := take_responseHead action transactionId rest
  rw [← hreply] at hhead hecho
  -- a check that refuses has no reason to give here, so `refused` is vacuous
  constructor
  case nonempty =>
    rw [hreply]
    exact responseHead_append_ne_nil _ _ _
  case tooShort =>
    intro hshort
    omega
  case alive =>
    intro _ _ hnumber
    rw [h.field_eq] at hnumber
    cases action with
    | heartbeat => exact absurd rfl hkind
    | _ => cases hnumber
  case echoes =>
    intro _ _
    rw [hecho, htransaction, write_transaction hlen]
  case refused =>
    intro why _ hwhy
    rw [hnone] at hwhy
    cases hwhy
  case granted =>
    intro _ _ _
    refine ⟨?_, hgranted⟩
    rw [hhead, Wire.Action.number_of_ofNumber h.known, hheader, write_action hlen]

/-- The reply to what is too short for a request: a fixed text, and nothing to
echo. -/
theorem proper_tooShort (hshort : data.length < 16) :
    Proper t source data Reply.tooShort.encode where
  nonempty := by decide
  tooShort := fun _ => rfl
  alive := fun hlen => absurd hlen (Nat.not_le.mpr hshort)
  echoes := fun hlen => absurd hlen (Nat.not_le.mpr hshort)
  refused := fun _ hlen => absurd hlen (Nat.not_le.mpr hshort)
  granted := fun hlen => absurd hlen (Nat.not_le.mpr hshort)

/-- A heartbeat is answered in two bytes, with no check made but those of the
header. -/
theorem proper_alive (h : Framed data header .heartbeat) :
    Proper t source data Reply.alive.encode := by
  have hnumber : field data 8 4 = 4 := h.field_eq
  obtain ⟨hlen, -⟩ := peek_eq_ok h.peek
  have hnone : refusal? t source data = none := by
    simp [refusal?, checks, hnumber, h.not_oversized]
  constructor
  case nonempty => decide
  case tooShort =>
    intro hshort
    omega
  case alive => exact fun _ _ _ => rfl
  case echoes => exact fun _ hother => absurd hnumber (hother h.fits)
  case refused =>
    intro why _ hwhy
    rw [hnone] at hwhy
    cases hwhy
  case granted => exact fun _ hother => absurd hnumber (hother h.fits)

-- ================================================================ exits

/-- Each way out leads to a proper reply, but for the one that is never
taken. -/
theorem Answered.proper {p : Tracker × Reply} (h : Answered t m source data p) :
    Proper t source data p.2.encode := by
  cases h with
  | tooShort hpeek => exact proper_tooShort (length_of_peek_eq_error hpeek)
  | unknown hpeek hunknown =>
      obtain ⟨hlen, hheader⟩ := peek_eq_ok hpeek
      exact proper_refused hlen (by rw [hheader]) (refusal?_unknown hpeek hunknown)
  | oversized hpeek hknown hsize =>
      obtain ⟨hlen, hheader⟩ := peek_eq_ok hpeek
      exact proper_refused hlen (by rw [hheader]) (refusal?_oversized hpeek hknown hsize)
  | heartbeat h => exact proper_alive h
  | errorAction h =>
      obtain ⟨hlen, hheader⟩ := peek_eq_ok h.peek
      exact proper_refused hlen (by rw [hheader]) h.refusal?_error
  | badConnect h hdecode =>
      obtain ⟨hlen, hheader⟩ := peek_eq_ok h.peek
      refine proper_refused hlen (by rw [hheader]) ?_
      rw [h.refusal?_connect, if_neg (take_ne_magic_of_decode hlen hdecode)]
  | connected h hdecode =>
      obtain ⟨hlen, -⟩ := peek_eq_ok h.peek
      obtain ⟨hmagic, htransaction⟩ := take_eq_magic_of_decode hlen hdecode
      refine proper_granted h nofun htransaction ?_ rfl
        (.connect h.field_eq (Wire.ConnectResponse.decode_encode _))
      rw [h.refusal?_connect, if_pos hmagic]
  | unregistered h haction hregistered =>
      obtain ⟨hlen, hheader⟩ := peek_eq_ok h.peek
      exact proper_refused hlen (by rw [hheader]) (h.refusal?_unregistered haction hregistered)
  | badAnnounce h hregistered hdecode =>
      obtain ⟨hlen, hheader⟩ := peek_eq_ok h.peek
      refine proper_refused hlen (by rw [hheader]) ?_
      rw [h.refusal?_announce hregistered, if_pos (bad_of_announce_decode hdecode)]
  | zeroPort h hregistered hdecode hport =>
      obtain ⟨hlen, -⟩ := peek_eq_ok h.peek
      obtain ⟨hgood, hzero, htransaction⟩ := good_of_announce_decode hdecode
      refine proper_refused hlen htransaction ?_
      rw [h.refusal?_announce hregistered, if_neg hgood, if_pos (hzero.mp hport)]
  | @announced header request t' h hregistered hdecode hport =>
      obtain ⟨hgood, hzero, htransaction⟩ := good_of_announce_decode hdecode
      refine proper_granted h nofun htransaction ?_ (told t' m source request).encode_eq
        (.announce h.field_eq (Wire.AnnounceResponse.decode_encode _))
      rw [h.refusal?_announce hregistered, if_neg hgood, if_neg (mt hzero.mpr hport)]
  | badScrape h hregistered hdecode =>
      obtain ⟨hlen, hheader⟩ := peek_eq_ok h.peek
      refine proper_refused hlen (by rw [hheader]) ?_
      have hbad : (data.length - 16) % 20 ≠ 0 := bad_of_scrape_decode hlen hdecode
      rw [h.refusal?_scrape hregistered, if_neg hbad]
  | tooManyHashes h hregistered hdecode hmany =>
      -- the bytes of so many hashes do not fit
      exact absurd (length_infoHashes_le h.fits hdecode) (Nat.not_le.mpr hmany)
  | scraped h hregistered hdecode =>
      obtain ⟨hwhole, hcount, htransaction⟩ := good_of_scrape_decode hdecode
      refine proper_granted h nofun htransaction ?_ rfl
        (.scrape h.field_eq (Wire.ScrapeResponse.decode_encode _) ?_)
      · rw [h.refusal?_scrape hregistered, if_pos hwhole]
      · rw [List.length_map, hcount]

/-- No way out of `reply` counts an internal error; what could is the writing
of the reply, and that does not fail. -/
theorem Answered.internalErrors {p : Tracker × Reply} (h : Answered t m source data p) :
    p.1.metrics.internalErrors = t.metrics.internalErrors := by
  cases h with
  | announced _ _ _ _ htracker =>
      subst htracker
      rfl
  | _ => rfl

/-- What is in the buffer in the end is the reply, and nothing that was
there before. -/
theorem answerInto_eq (t : Tracker) (m : Moment) (source : SocketAddress) (data : Bytes)
    (out : Buffer) :
    t.answerInto m source data out
      = ((t.reply m source data).1, out.clear.append (t.reply m source data).2.encode) := by
  unfold answerInto
  rcases t.reply m source data with ⟨t', r⟩
  cases r with
  | _ => rfl

/-- What is in the buffer afterwards is the reply, whatever was in it before
and whichever way the reply was put there. -/
theorem content_answerInto (t : Tracker) (m : Moment) (source : SocketAddress) (data : Bytes)
    (out : Buffer) :
    (t.answerInto m source data out).2.content = (t.reply m source data).2.encode := by
  rw [answerInto_eq]
  exact List.nil_append _

/-- Every datagram gets a proper reply. Whatever was in the buffer, the
reply is all that is there after; no write failed, and no scrape that fits
asked for too many hashes. -/
theorem proper_answerInto (t : Tracker) (m : Moment) (source : SocketAddress) (data : Bytes) :
    Proper t source data (t.process m source data).2
      ∧ (∀ out, (t.answerInto m source data out).1 = (t.process m source data).1
        ∧ (t.answerInto m source data out).2.content = (t.process m source data).2)
      ∧ (t.process m source data).1.metrics.internalErrors = t.metrics.internalErrors
      ∧ ∀ request, data.length ≤ 1496 → Wire.ScrapeRequest.decode data = .ok request →
        request.infoHashes.length ≤ maxScrapeHashes := by
  have hanswered := answered_reply t m source data
  refine ⟨hanswered.proper, ?_, hanswered.internalErrors, ?_⟩
  · intro out
    rw [answerInto_eq]
    exact ⟨rfl, List.nil_append _⟩
  · intro request hsize hdecode
    exact length_infoHashes_le hsize hdecode

end TorrentTracker.Tracker
