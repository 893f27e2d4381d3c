import TorrentTracker.Proofs.Wire

/-
Requests by position: which datagrams a request is read from, and which of
their bytes its fields are.

Each `decode_eq` opens one decoder once and for all. It asks for a number
of bytes and for one thing more (the magic number, a known event, whole
hashes), and its answer is a list of fronts. Nothing else of the datagram
is looked at.

# Main statements

- `ConnectRequest.decode_eq`, `AnnounceRequest.decode_eq`,
  `ScrapeRequest.decode_eq`: the decoders in closed form;
- `Action.ofNumber_eq_ok_iff`, `Event.ofNumber?_eq_some_iff`: actions and
  events by the number their bytes spell.
-/

namespace TorrentTracker

open Reader (Reads Takes frontOctets takes_octets)

-- ============================================================== numbers

/-- An action is known by its number, and numbers are told apart as they stand
in the bytes. -/
theorem Wire.Action.ofNumber_eq_ok_iff {n : Int32} {a : Action} :
    Action.ofNumber n = .ok a ↔ Word.toNat n = Word.toNat a.number := by
  rw [Word.toNat_inj]
  constructor
  · intro h
    exact (Action.number_of_ofNumber h).symm
  · intro h
    rw [h]
    exact a.ofNumber_number

/-- The actions are the numbers up to four, so a word is an action's if it
reads as one of them without a sign. -/
theorem Wire.Action.exists_ofNumber_iff {n : Int32} :
    (∃ a, Action.ofNumber n = .ok a) ↔ Word.toNat n ≤ 4 := by
  constructor
  · intro hexists
    obtain ⟨a, ha⟩ := hexists
    rw [ofNumber_eq_ok_iff.mp ha]
    cases a <;> decide
  · intro hle
    have hcases : Word.toNat n = 0 ∨ Word.toNat n = 1 ∨ Word.toNat n = 2 ∨ Word.toNat n = 3
        ∨ Word.toNat n = 4 := by omega
    rcases hcases with h | h | h | h | h
    · exact ⟨.connect, ofNumber_eq_ok_iff.mpr h⟩
    · exact ⟨.announce, ofNumber_eq_ok_iff.mpr h⟩
    · exact ⟨.scrape, ofNumber_eq_ok_iff.mpr h⟩
    · exact ⟨.error, ofNumber_eq_ok_iff.mpr h⟩
    · exact ⟨.heartbeat, ofNumber_eq_ok_iff.mpr h⟩

theorem Event.ofNumber?_eq_some_iff {n : Int32} {e : Event} :
    Event.ofNumber? n = some e ↔ Word.toNat n = Word.toNat e.number := by
  rw [Word.toNat_inj]
  constructor
  · intro h
    exact (Event.number_of_ofNumber? h).symm
  · intro h
    rw [h]
    exact e.ofNumber?_number

/-- The events are the numbers up to three. A word beyond them is no event, and
the announce it is in cannot be read. -/
theorem Event.exists_ofNumber?_iff {n : Int32} :
    (∃ e, Event.ofNumber? n = some e) ↔ Word.toNat n ≤ 3 := by
  constructor
  · intro hexists
    obtain ⟨e, he⟩ := hexists
    rw [ofNumber?_eq_some_iff.mp he]
    cases e <;> decide
  · intro hle
    have hcases : Word.toNat n = 0 ∨ Word.toNat n = 1 ∨ Word.toNat n = 2 ∨ Word.toNat n = 3 := by
      omega
    rcases hcases with h | h | h | h
    · exact ⟨.none, ofNumber?_eq_some_iff.mpr h⟩
    · exact ⟨.completed, ofNumber?_eq_some_iff.mpr h⟩
    · exact ⟨.started, ofNumber?_eq_some_iff.mpr h⟩
    · exact ⟨.stopped, ofNumber?_eq_some_iff.mpr h⟩

namespace Wire

variable (data : Bytes)

-- ============================================================== connect

/-- The decoder of connects as a condition on the bytes, and the error where it
does not hold. -/
theorem ConnectRequest.decode_eq :
    decode data = if headerSize ≤ data.length then
        if (Word.front data : Int64) = protocolMagic then .ok ⟨Word.front (data.drop 12)⟩
        else .error (.invalidMagic (Word.front data))
      else .error (.truncated .request headerSize data.length) := by
  unfold decode
  rw [Header.peek_eq]
  by_cases hlen : headerSize ≤ data.length
  · rw [if_pos hlen, if_pos hlen]
    rfl
  · rw [if_neg hlen, if_neg hlen]
    rfl

theorem ConnectRequest.decode_encode (r : ConnectRequest) : decode r.encode = .ok r := by
  have hpeek := Header.peek_encode ⟨protocolMagic, Action.connect.number, r.transactionId⟩ []
  rw [List.append_nil] at hpeek
  unfold decode encode
  rw [hpeek]
  dsimp only [bind, Except.bind]
  rw [if_pos rfl]

-- ============================================================= announce

/-- The announce whose fields stand in a datagram, but for its event. -/
def AnnounceRequest.standingIn (event : Event) : AnnounceRequest where
  connectionId := Word.front data
  transactionId := Word.front (data.drop 12)
  infoHash := frontOctets 20 (data.drop 16)
  peerId := frontOctets 20 (data.drop 36)
  downloaded := Word.front (data.drop 56)
  left := Word.front (data.drop 64)
  uploaded := Word.front (data.drop 72)
  event := event
  ip := Word.front (data.drop 84)
  key := Word.front (data.drop 88)
  numWant := Word.front (data.drop 92)
  port := Word.front (data.drop 96)

/-- The fields of an announce are at fixed places, so the layout takes them off
the front of any bytes that are long enough. -/
theorem AnnounceRequest.takes_layout :
    Takes layout announceSize fun data => (Word.front (data.drop 80), standingIn data) := by
  -- the widths as numerals, so that the places add up
  have h64 : Takes Word.read 8 (Word.front : Bytes → Int64) := Word.takes_read
  have h32 : Takes Word.read 4 (Word.front : Bytes → Int32) := Word.takes_read
  have hu32 : Takes Word.read 4 (Word.front : Bytes → UInt32) := Word.takes_read
  have hu16 : Takes Word.read 2 (Word.front : Bytes → UInt16) := Word.takes_read
  have hlayout := Header.takes_layout.bind fun header => (takes_octets 20).bind fun infoHash =>
    (takes_octets 20).bind fun peerId => h64.bind fun downloaded => h64.bind fun left =>
    h64.bind fun uploaded => h32.bind fun number => hu32.bind fun ip => hu32.bind fun key =>
    h32.bind fun numWant => hu16.bind fun port => Takes.pure (number, fun event =>
      AnnounceRequest.mk header.connectionId header.transactionId infoHash peerId downloaded
        left uploaded event ip key numWant port)
  refine hlayout.of_eq rfl ?_
  intro data
  unfold standingIn headerSize
  simp only [List.drop_drop, Nat.reduceAdd]

/-- The decoder of announces as a condition on the bytes. The event is read
last, so a short datagram is refused for its length. -/
theorem AnnounceRequest.decode_eq :
    decode data = if announceSize ≤ data.length then
        match Event.ofNumber? (Word.front (data.drop 80)) with
        | some event => .ok (standingIn data event)
        | none => .error (.invalidEvent (Word.front (data.drop 80)))
      else .error (.truncated .announce announceSize data.length) := by
  unfold decode
  rw [decodeWith_eq _ takes_layout]
  by_cases hlen : announceSize ≤ data.length
  · rw [if_pos hlen, if_pos hlen]
    rfl
  · rw [if_neg hlen, if_neg hlen]
    rfl

/-- A written announce, field by field in the order that the decoder takes
them. -/
theorem AnnounceRequest.encode_eq (r : AnnounceRequest) :
    r.encode = Header.encode ⟨r.connectionId, Action.announce.number, r.transactionId⟩
      ++ (r.infoHash.bytes ++ (r.peerId.bytes ++ (Word.write r.downloaded ++ (Word.write r.left
      ++ (Word.write r.uploaded ++ (Word.write r.event.number ++ (Word.write r.ip
      ++ (Word.write r.key ++ (Word.write r.numWant ++ Word.write r.port))))))))) := by
  unfold encode
  simp only [List.append_assoc]

theorem AnnounceRequest.length_encode (r : AnnounceRequest) : r.encode.length = announceSize := by
  rw [encode_eq]
  simp only [List.length_append, Header.length_encode, Octets.length_bytes, Word.length_write]
  rfl

/-- The layout reads back all fields of a written announce, with the event
still as a number. -/
theorem AnnounceRequest.reads_layout (r : AnnounceRequest) :
    Reads layout r.encode (r.event.number, fun event => { r with event }) := by
  rw [encode_eq]
  unfold layout
  refine (Header.reads_layout _).bind ((Reader.reads_octets _).bind
    ((Reader.reads_octets _).bind ((Word.reads _).bind ((Word.reads _).bind
    ((Word.reads _).bind ((Word.reads _).bind ((Word.reads _).bind ((Word.reads _).bind
    ((Word.reads _).bind ?_)))))))))
  exact (Word.reads r.port).map fun port => (r.event.number, fun event => { r with event, port })

theorem AnnounceRequest.decode_encode (r : AnnounceRequest) : decode r.encode = .ok r := by
  unfold decode
  rw [← List.append_nil r.encode, decodeWith_append _ r.reads_layout]
  dsimp only [bind, Except.bind]
  rw [Event.ofNumber?_number]

theorem AnnounceRequest.decode_eq_ok_iff {request : AnnounceRequest} :
    decode data = .ok request ↔ announceSize ≤ data.length
      ∧ ∃ event, Event.ofNumber? (Word.front (data.drop 80)) = some event
        ∧ request = standingIn data event := by
  rw [decode_eq]
  by_cases hlen : announceSize ≤ data.length
  · rw [if_pos hlen]
    cases hevent : Event.ofNumber? (Word.front (data.drop 80)) with
    | none => simp
    | some event => simp [hlen, eq_comm]
  · rw [if_neg hlen]
    simp [hlen]

-- =============================================================== scrape

/-- The scrape whose hashes fill a datagram. -/
def ScrapeRequest.standingIn : ScrapeRequest where
  connectionId := Word.front data
  transactionId := Word.front (data.drop 12)
  infoHashes := (List.range ((data.length - headerSize) / 20)).map fun i =>
    frontOctets 20 ((data.drop headerSize).drop (i * 20))

/-- The decoder of scrapes as a condition on the bytes: a header, and then a
whole number of hashes, of which there may be none. -/
theorem ScrapeRequest.decode_eq :
    decode data = if headerSize ≤ data.length then
        if (data.length - headerSize) % 20 = 0 then .ok (standingIn data)
        else .error (.misalignedHashes (data.length - headerSize))
      else .error (.truncated .request headerSize data.length) := by
  unfold decode
  rw [decodeWith_eq _ Header.takes_layout]
  by_cases hlen : headerSize ≤ data.length
  · rw [if_pos hlen, if_pos hlen]
    show (if (data.drop headerSize).length % 20 = 0 then _ else _) = _
    rw [((takes_octets 20).times _).run, List.length_drop]
    by_cases hwhole : (data.length - headerSize) % 20 = 0
    · rw [if_pos hwhole, if_pos hwhole, if_pos (by omega)]
      rfl
    · rw [if_neg hwhole, if_neg hwhole]
  · rw [if_neg hlen, if_neg hlen]
    rfl

/-- A written scrape is read back, hash by hash to the end. The header is of a
fixed width, so the first hash begins where it ends. -/
theorem ScrapeRequest.decode_encode (r : ScrapeRequest) : decode r.encode = .ok r := by
  have hreads : Reads (Reader.times r.infoHashes.length (Reader.octets 20))
      (r.infoHashes.flatMap Octets.bytes) r.infoHashes :=
    Reads.times fun hash _ => Reader.reads_octets hash
  have hregion := hreads.gives []
  rw [List.append_nil] at hregion
  have hlen : (r.infoHashes.flatMap Octets.bytes).length = r.infoHashes.length * 20 :=
    Reader.length_flatMap fun hash _ => hash.length_bytes
  have hcount : r.infoHashes.length * 20 / 20 = r.infoHashes.length :=
    Nat.mul_div_cancel _ (by decide)
  unfold decode encode
  rw [decodeWith_append _ (Header.reads_layout _)]
  dsimp only [bind, Except.bind]
  rw [hlen, hcount, if_pos (Nat.mul_mod_left _ _), hregion]

theorem ScrapeRequest.length_infoHashes_standingIn :
    (standingIn data).infoHashes.length = (data.length - headerSize) / 20 := by
  unfold standingIn
  rw [List.length_map, List.length_range]

end Wire

end TorrentTracker
