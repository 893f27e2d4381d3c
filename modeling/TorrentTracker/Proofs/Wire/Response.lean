import TorrentTracker.Proofs.Wire

/-
Responses read back: each decoder gives back what its encoder wrote, for
every value of every field and tails of any length.

The announce and the error response end in bytes that are taken as they
are; a scrape response ends in records, and how many there are is told from
the length of the region. The rest is words at fixed places, so `Reads`
passes through the layouts piece by piece.

The `decode_eq` of each response is about any bytes: the fronts that its
fields are, and how many bytes it asks for.
-/

namespace TorrentTracker.Wire

open Reader (Reads Takes)

theorem reads_responseHead (action : Action) (transactionId : Int32) :
    Reads responseHeadLayout (responseHead action transactionId) transactionId :=
  (Word.reads action.number).bind (Word.reads transactionId)

/-- A head is eight bytes, and the transaction id is the second half of them.
What the first half says is not looked at. -/
theorem takes_responseHeadLayout :
    Takes responseHeadLayout 8 fun data => Word.front (data.drop 4) :=
  (Word.takes_read (α := Int32)).bind fun _ => Word.takes_read

/-- A written head is as long as one that is read. -/
theorem length_responseHead (action : Action) (transactionId : Int32) :
    (responseHead action transactionId).length = 8 := by
  unfold responseHead
  simp only [List.length_append, Word.length_write]
  rfl

-- ============================================================= connect

theorem ConnectResponse.length_encode (r : ConnectResponse) : r.encode.length = 16 := by
  unfold encode
  rw [List.length_append, length_responseHead, Word.length_write]
  rfl

theorem ConnectResponse.decode_encode (r : ConnectResponse) : decode r.encode = .ok r := by
  have hreads : Reads layout r.encode r :=
    (reads_responseHead .connect r.transactionId).bind
      ((Word.reads r.connectionId).map fun id => ConnectResponse.mk r.transactionId id)
  unfold decode
  rw [← List.append_nil r.encode, decodeWith_append _ hreads]
  rfl

/-- The decoder of such replies as a condition on the bytes, and the fields by
their places. -/
theorem ConnectResponse.decode_eq (data : Bytes) :
    decode data = if 16 ≤ data.length then
        .ok ⟨Word.front (data.drop 4), Word.front (data.drop 8)⟩
      else .error (.truncated .connectResponse 16 data.length) := by
  have htakes : Takes layout 16 fun data => ⟨Word.front (data.drop 4), Word.front (data.drop 8)⟩ :=
    (takes_responseHeadLayout.bind fun transactionId => Word.takes_read.bind fun connectionId =>
      Takes.pure (ConnectResponse.mk transactionId connectionId)).of_eq rfl fun _ => rfl
  unfold decode
  rw [decodeWith_eq _ htakes]
  by_cases hlen : 16 ≤ data.length
  · rw [if_pos hlen, if_pos hlen]
    rfl
  · rw [if_neg hlen, if_neg hlen]
    rfl

-- ============================================================ announce

/-- The reply to an announce as head, three words and packed peers, which is
how the decoder takes it. -/
theorem AnnounceResponse.encode_eq (r : AnnounceResponse) :
    r.encode = responseHead .announce r.transactionId
      ++ ((Word.write r.interval ++ (Word.write r.leechers ++ Word.write r.seeders))
        ++ r.peers) := by
  unfold encode
  simp only [List.append_assoc]

/-- Its size is that of its fixed part and of the peers. -/
theorem AnnounceResponse.length_encode (r : AnnounceResponse) :
    r.encode.length = 20 + r.peers.length := by
  rw [encode_eq]
  simp only [List.length_append, length_responseHead, Word.length_write, ← Nat.add_assoc]
  rfl

/-- The peers are all that comes after the words. -/
theorem AnnounceResponse.drop_encode (r : AnnounceResponse) : r.encode.drop 20 = r.peers := by
  rw [encode_eq, ← List.append_assoc]
  apply List.drop_left'
  simp only [List.length_append, length_responseHead, Word.length_write]
  rfl

/-- An announce response is read back as it was written, with the peers as one
piece: nothing says what family they are of. -/
theorem AnnounceResponse.decode_encode (r : AnnounceResponse) : decode r.encode = .ok r := by
  have hreads : Reads layout (responseHead .announce r.transactionId
      ++ (Word.write r.interval ++ (Word.write r.leechers ++ Word.write r.seeders)))
      fun peers => { r with peers } :=
    (reads_responseHead .announce r.transactionId).bind
      ((Word.reads r.interval).bind ((Word.reads r.leechers).bind
        ((Word.reads r.seeders).map fun seeders => fun peers =>
          AnnounceResponse.mk r.transactionId r.interval r.leechers seeders peers)))
  unfold decode
  rw [encode_eq, ← List.append_assoc, decodeWith_append _ hreads]
  rfl

/-- The decoder of such replies as a condition on the bytes. All that is past
the fixed part is taken for peers. -/
theorem AnnounceResponse.decode_eq (data : Bytes) :
    decode data = if 20 ≤ data.length then
        .ok ⟨Word.front (data.drop 4), Word.front (data.drop 8), Word.front (data.drop 12),
          Word.front (data.drop 16), data.drop 20⟩
      else .error (.truncated .announceResponse 20 data.length) := by
  have h32 : Takes Word.read 4 (Word.front : Bytes → Int32) := Word.takes_read
  have htakes : Takes layout 20 fun data peers => ⟨Word.front (data.drop 4),
      Word.front (data.drop 8), Word.front (data.drop 12), Word.front (data.drop 16), peers⟩ := by
    refine (takes_responseHeadLayout.bind fun transactionId => h32.bind fun interval =>
      h32.bind fun leechers => h32.bind fun seeders => Takes.pure fun peers =>
        AnnounceResponse.mk transactionId interval leechers seeders peers).of_eq rfl ?_
    intro data
    simp only [List.drop_drop, Nat.reduceAdd]
  unfold decode
  rw [decodeWith_eq _ htakes]
  by_cases hlen : 20 ≤ data.length
  · rw [if_pos hlen, if_pos hlen]
    rfl
  · rw [if_neg hlen, if_neg hlen]
    rfl

-- ============================================================== scrape

theorem ScrapeRecord.reads (r : ScrapeRecord) : Reads layout r.encode r := by
  unfold encode
  rw [List.append_assoc]
  exact (Word.reads r.complete).bind ((Word.reads r.incomplete).bind
    ((Word.reads r.downloaded).map fun downloaded =>
      ScrapeRecord.mk r.complete r.incomplete downloaded))

theorem ScrapeRecord.length_encode (r : ScrapeRecord) : r.encode.length = scrapeRecordSize := by
  unfold encode
  simp only [List.length_append, Word.length_write]
  rfl

/-- A reply to a scrape has a record's bytes for each record. -/
theorem ScrapeResponse.length_encode (r : ScrapeResponse) :
    r.encode.length = 8 + r.records.length * 12 := by
  unfold encode
  rw [List.length_append, length_responseHead,
    Reader.length_flatMap fun record _ => record.length_encode]
  rfl

/-- A written scrape response is read back, record by record to the end. Each
record is twelve bytes, so none runs into the next. -/
theorem ScrapeResponse.decode_encode (r : ScrapeResponse) : decode r.encode = .ok r := by
  have hreads : Reads (Reader.times r.records.length ScrapeRecord.layout)
      (r.records.flatMap ScrapeRecord.encode) r.records :=
    Reads.times fun record _ => record.reads
  have hregion := hreads.gives []
  rw [List.append_nil] at hregion
  have hlen : (r.records.flatMap ScrapeRecord.encode).length
      = r.records.length * scrapeRecordSize :=
    Reader.length_flatMap fun record _ => record.length_encode
  have hcount : r.records.length * scrapeRecordSize / scrapeRecordSize = r.records.length :=
    Nat.mul_div_cancel _ (by decide)
  unfold decode encode
  rw [decodeWith_append _ (reads_responseHead .scrape r.transactionId)]
  dsimp only [bind, Except.bind]
  rw [hlen, hcount, if_pos (Nat.mul_mod_left _ _), hregion]

/-- The record whose fields stand in front. -/
def ScrapeRecord.standingIn (data : Bytes) : ScrapeRecord :=
  ⟨Word.front data, Word.front (data.drop 4), Word.front (data.drop 8)⟩

/-- A record is three words, taken off the front of any bytes that are long
enough. -/
theorem ScrapeRecord.takes_layout : Takes layout scrapeRecordSize standingIn := by
  have h32 : Takes Word.read 4 (Word.front : Bytes → Int32) := Word.takes_read
  refine (h32.bind fun complete => h32.bind fun incomplete => h32.bind fun downloaded =>
    Takes.pure (ScrapeRecord.mk complete incomplete downloaded)).of_eq rfl ?_
  intro data
  simp only [List.drop_drop, Nat.reduceAdd]
  rfl

/-- The response whose records fill a datagram. -/
def ScrapeResponse.standingIn (data : Bytes) : ScrapeResponse where
  transactionId := Word.front (data.drop 4)
  records := (List.range ((data.length - 8) / 12)).map fun i =>
    ScrapeRecord.standingIn ((data.drop 8).drop (i * 12))

/-- The decoder of such replies as a condition on the bytes. A piece of a
record at the end is refused, with the length that would have been whole. -/
theorem ScrapeResponse.decode_eq (data : Bytes) :
    decode data = if 8 ≤ data.length then
        if (data.length - 8) % 12 = 0 then .ok (standingIn data)
        else .error (.truncated .scrapeResponse (8 + ((data.length - 8) / 12 + 1) * 12) data.length)
      else .error (.truncated .scrapeResponse 8 data.length) := by
  unfold decode
  rw [decodeWith_eq _ takes_responseHeadLayout]
  by_cases hlen : 8 ≤ data.length
  · rw [if_pos hlen, if_pos hlen]
    show (if (data.drop 8).length % 12 = 0 then _ else _) = _
    rw [(ScrapeRecord.takes_layout.times _).run, List.length_drop]
    by_cases hwhole : (data.length - 8) % 12 = 0
    · have hfull : (data.length - 8) / scrapeRecordSize * scrapeRecordSize ≤ data.length - 8 :=
        Nat.div_mul_le_self _ _
      rw [if_pos hwhole, if_pos hwhole, if_pos hfull]
      rfl
    · rw [if_neg hwhole, if_neg hwhole]
      rfl
  · rw [if_neg hlen, if_neg hlen]
    rfl

-- =============================================================== error

/-- The decoder of error replies as a condition on the bytes. All that is past
the head is the text. -/
theorem ErrorResponse.decode_eq (data : Bytes) :
    decode data = if 8 ≤ data.length then .ok ⟨Word.front (data.drop 4), data.drop 8⟩
      else .error (.truncated .errorResponse 8 data.length) := by
  unfold decode
  rw [decodeWith_eq _ takes_responseHeadLayout]
  by_cases hlen : 8 ≤ data.length
  · rw [if_pos hlen, if_pos hlen]
    rfl
  · rw [if_neg hlen, if_neg hlen]
    rfl

theorem ErrorResponse.length_encode (r : ErrorResponse) :
    r.encode.length = 8 + r.text.length := by
  unfold encode
  rw [List.length_append, length_responseHead]

theorem ErrorResponse.decode_encode (r : ErrorResponse) : decode r.encode = .ok r := by
  unfold decode encode
  rw [decodeWith_append _ (reads_responseHead .error r.transactionId)]
  rfl

end TorrentTracker.Wire
