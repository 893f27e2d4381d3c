import TorrentTracker.Proofs.Tracker.Reply

/-
Datagrams that are cut when they are received.

A receive takes as many bytes as it has room for and drops the others, and
nothing tells the tracker that it did. There is room for more bytes than
any request has, so a datagram that was cut is still too long. That is
found out before anything after the header is looked at, and what such a
datagram is refused for stands in the header (`reply_of_oversized`). The
header is not cut off (`peek_take`), so the part that was received is
answered like the whole.

The argument asks of a receive only that it takes more than the largest
request. If it took just as much, what is left of a larger one could be a
request.

# Main statement

- `seamless_receive`: what is received of a datagram is answered as all of
  it would be, and no oversized one is anything but refused.
-/

namespace TorrentTracker.Tracker

open Wire (Header Action)

variable {t : Tracker} {m : Moment} {source : SocketAddress} {data : Bytes} {header : Header}
  {n : Nat}

/-- A cut behind the header leaves the header as it is, and all that is left to
tell of it is the length. -/
theorem peek_take (hn : Wire.headerSize ≤ n) : Header.peek (data.take n) = Header.peek data := by
  by_cases hlong : Wire.headerSize ≤ data.length
  · obtain ⟨header, rest, rfl⟩ := Header.exists_encode hlong
    rw [List.take_append, header.length_encode, List.take_of_length_le, header.peek_encode,
      header.peek_encode]
    rw [header.length_encode]
    exact hn
  · rw [List.take_of_length_le (by omega)]

/-- What a datagram is refused for that is longer than a request can be, by
its header. -/
def overlong (header : Header) : Refusal :=
  match Action.ofNumber header.action with
  | .error _ => .invalidAction
  | .ok action => if action = .scrape then .tooManyHashes else .tooLarge

/-- No byte after the header has a say in how an oversized datagram is
answered. -/
theorem reply_of_oversized (hpeek : Header.peek data = .ok header)
    (hsize : Wire.maxRequestSize < data.length) :
    t.reply m source data = (t.count .udpHits).refuse header.transactionId (overlong header) := by
  unfold reply overlong
  rw [hpeek]
  dsimp only
  cases Action.ofNumber header.action with
  | error e => rfl
  | ok action => exact if_pos hsize

theorem headerSize_le : Wire.headerSize ≤ Wire.maxRequestSize := by decide

/-- An oversized datagram has a header. -/
theorem exists_peek (hsize : Wire.maxRequestSize < data.length) :
    ∃ header, Header.peek data = .ok header := by
  obtain ⟨header, rest, rfl⟩ :=
    Header.exists_encode (Nat.le_trans headerSize_le (Nat.le_of_lt hsize))
  exact ⟨header, header.peek_encode rest⟩

/-- A cut behind the last byte that a request can have is invisible: whole or
cut, the datagram is too long for a request. -/
theorem reply_take (hn : Wire.maxRequestSize < n) :
    t.reply m source (data.take n) = t.reply m source data := by
  by_cases hfits : data.length ≤ n
  · rw [List.take_of_length_le hfits]
  · have hsize : Wire.maxRequestSize < data.length := by omega
    have hlength : (data.take n).length = n := List.length_take_of_le (by omega)
    obtain ⟨header, hpeek⟩ := exists_peek hsize
    have hcut : Header.peek (data.take n) = .ok header :=
      (peek_take (Nat.le_trans headerSize_le (Nat.le_of_lt hn))).trans hpeek
    rw [reply_of_oversized hpeek hsize, reply_of_oversized hcut (by omega)]

/-- Also into a buffer, a long datagram is answered by its first bytes. -/
theorem answerInto_take (hn : Wire.maxRequestSize < n) (out : Buffer) :
    t.answerInto m source (data.take n) out = t.answerInto m source data out := by
  rw [answerInto_eq, answerInto_eq, reply_take hn]

/-- So it makes no difference that a receive cuts it off. -/
theorem serve_eq (t : Tracker) (m : Moment) (source : SocketAddress) (data : Bytes)
    (out : Buffer) : t.serve m source data out = t.answerInto m source data out :=
  answerInto_take (by decide) out

-- ============================================================ oversized

/-- What an oversized datagram is refused for. An unknown action comes first;
of the known ones a scrape has a text of its own. -/
theorem refusal?_of_oversized (hsize : 1496 < data.length) :
    refusal? t source data = some (if 4 < field data 8 4 then .invalidAction
      else if field data 8 4 = 2 then .tooManyHashes else .tooLarge) := by
  by_cases hunknown : 4 < field data 8 4
  · simp [refusal?, checks, hunknown]
  · simp [refusal?, checks, hunknown, hsize]

/-- It is counted as an error of the client, and that is all it does. -/
theorem fst_reply_of_oversized (hsize : 1496 < data.length) :
    (t.reply m source data).1 = (t.count .udpHits).count .clientErrors := by
  obtain ⟨header, hpeek⟩ := exists_peek hsize
  rw [reply_of_oversized hpeek hsize]
  rfl

-- ================================================================ the law

/-- A datagram of which what was received is answered as all of it would
be: the tracker is the same after it and so is the buffer with the reply,
and that would be so with any room for more than the largest request. If
there is more of it than a request can have, it is refused; then the store
and the connection ids are as they were, and nothing but the two counters
is not. -/
structure Seamless (t : Tracker) (m : Moment) (source : SocketAddress) (data : Bytes) : Prop where
  received : (received data).length = min 2048 data.length
  alike : ∀ out, t.serve m source data out = t.answerInto m source data out
  room : ∀ n, 1496 < n → ∀ out,
    t.answerInto m source (data.take n) out = t.answerInto m source data out
  oversized : 1496 < data.length → ∀ out,
    (t.serve m source data out).1 = (t.count .udpHits).count .clientErrors
      ∧ (t.serve m source data out).2.content
        = [0, 0, 0, 3] ++ (data.drop 12).take 4
          ++ utf8 (if 4 < field data 8 4 then "invalid action"
            else if field data 8 4 = 2 then "exceeded 74 hashes" else "request too large")

/-- The law of receives, for datagrams of every length. What is cut off is
beyond the largest request, so both the whole and the part are too long, or
nothing is cut at all. -/
theorem seamless_receive (t : Tracker) (m : Moment) (source : SocketAddress) (data : Bytes) :
    Seamless t m source data where
  received := List.length_take
  alike := t.serve_eq m source data
  room := fun _ hn out => answerInto_take hn out
  oversized := by
    intro hsize out
    rw [serve_eq]
    constructor
    · rw [answerInto_eq]
      exact fst_reply_of_oversized hsize
    · have hproper := (answered_reply t m source data).proper
      rw [content_answerInto, hproper.refused _ (by omega) (refusal?_of_oversized hsize)]
      split
      · rfl
      · split
        · rfl
        · rfl

end TorrentTracker.Tracker
