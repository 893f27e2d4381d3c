import TorrentTracker.Proofs.Wire.Request
import TorrentTracker.Proofs.Wire.Response

/-
The seven messages as formats: what is written is read back, and what is
read was all there.

# Exactness

A `Format` puts beside a decoder the byte strings it should take, the
problem it should name with any other, and the bytes it should keep. Of
these a message has every byte in some field but four: the action, which
is written as the message's own whatever it was (`relabel`). `Exact` says
that the decoder does as its format says.

Its last law is the third read backwards. If two byte strings decode to
one value, writing that value gives both of them, but for the action.

# How a message is put together again

A field is the front of what follows its place, so writing it back gives a
slice of the datagram (`Word.write_front_drop`), and slices that adjoin
are one slice (`slice_append`). The hashes of a scrape and the records of
a scrape response are slices of one width, any number of them
(`flatMap_slices`, by induction on how many).

# Main statements

- `messages_decode_encode`: decoding undoes encoding, and a request's header can
  be peeked at;
- `messages_exact`: every decoder is exact.
-/

namespace TorrentTracker.Wire

variable {α : Type} {data : Bytes}

-- ============================================================== formats

/-- What there is to say of a message and its decoder. -/
structure Format (α : Type) where
  decode : Bytes → Except Error α
  encode : α → Bytes
  /-- The byte strings that are such a message. -/
  accepts : Bytes → Prop
  /-- What is wrong with one that is not. -/
  problem : Bytes → Error
  action : Action
  /-- Where the action stands. -/
  place : Nat
  /-- The bytes that matter. -/
  kept : Bytes → Bytes

/-- The bytes with the number of an action put at a place. -/
def relabel (place : Nat) (action : Action) (data : Bytes) : Bytes :=
  data.take place ++ (Word.write action.number ++ data.drop (place + 4))

/-- The decoder takes what it should and names the problem of the rest, and
the value it makes is written as the bytes that matter. -/
structure Format.Exact (f : Format α) : Prop where
  accepts_iff : ∀ data, (∃ a, f.decode data = .ok a) ↔ f.accepts data
  rejects : ∀ data, ¬f.accepts data → f.decode data = .error (f.problem data)
  restores : ∀ data a, f.decode data = .ok a →
    f.encode a = relabel f.place f.action (f.kept data)
  agrees : ∀ data data' a, f.decode data = .ok a → f.decode data' = .ok a →
    (f.kept data).take f.place = (f.kept data').take f.place
      ∧ (f.kept data).drop (f.place + 4) = (f.kept data').drop (f.place + 4)

/-- The action word is replaced in the front alone, if the front reaches that
far. -/
theorem relabel_append {place : Nat} {v : Bytes} (h : place + 4 ≤ v.length) (action : Action)
    (w : Bytes) : relabel place action v ++ w = relabel place action (v ++ w) := by
  unfold relabel
  rw [List.take_append_of_le_length (by omega), List.drop_append_of_le_length h]
  simp only [List.append_assoc]

/-- Two inputs that differ in the action word at most are the same before and
after it. -/
theorem relabel_inj {place : Nat} {action : Action} {v w : Bytes} (hv : place ≤ v.length)
    (hw : place ≤ w.length) (h : relabel place action v = relabel place action w) :
    v.take place = w.take place ∧ v.drop (place + 4) = w.drop (place + 4) := by
  have hlen : (v.take place).length = (w.take place).length := by
    rw [List.length_take, List.length_take]
    omega
  obtain ⟨hfront, hrest⟩ := List.append_inj h hlen
  exact ⟨hfront, (Word.append_inj hrest).2⟩

/-- A decoder is exact if what it should take it makes a value of that is
written as it should be, and of the rest it names the problem. -/
theorem Format.Exact.of {f : Format α}
    (hok : ∀ data, f.accepts data → ∃ a, f.decode data = .ok a
      ∧ f.encode a = relabel f.place f.action (f.kept data))
    (herror : ∀ data, ¬f.accepts data → f.decode data = .error (f.problem data))
    (hlong : ∀ data, f.accepts data → f.place ≤ (f.kept data).length) : f.Exact := by
  have haccepts : ∀ data a, f.decode data = .ok a → f.accepts data := by
    intro data a ha
    -- what is not to be taken has an error for its answer
    apply Classical.byContradiction
    intro hnot
    rw [herror data hnot] at ha
    cases ha
  have hrestores : ∀ data a, f.decode data = .ok a →
      f.encode a = relabel f.place f.action (f.kept data) := by
    intro data a ha
    obtain ⟨b, hb, hencode⟩ := hok data (haccepts data a ha)
    rw [ha] at hb
    cases hb
    exact hencode
  constructor
  case accepts_iff =>
    intro data
    constructor
    · rintro ⟨a, ha⟩
      exact haccepts data a ha
    · intro h
      obtain ⟨a, ha, -⟩ := hok data h
      exact ⟨a, ha⟩
  case rejects => exact herror
  case restores => exact hrestores
  case agrees =>
    intro data data' a ha ha'
    have hsame : relabel f.place f.action (f.kept data)
        = relabel f.place f.action (f.kept data') := by
      rw [← hrestores data a ha, hrestores data' a ha']
    exact relabel_inj (hlong data (haccepts data a ha)) (hlong data' (haccepts data' a ha')) hsame

/-- A decoder that looks at the length first names the problem so too. This
brings the two checks into the one that formats have. -/
theorem short_or_long {n size : Nat} {r : Except Error α} {short long : Error}
    (hlong : size ≤ n → r = .error long) :
    (if size ≤ n then r else .error short) = .error (if n < size then short else long) := by
  by_cases hlen : size ≤ n
  · rw [if_pos hlen, if_neg (Nat.not_lt.mpr hlen), hlong hlen]
  · rw [if_neg hlen, if_pos (Nat.lt_of_not_le hlen)]

-- =============================================================== slices

theorem slice_append {i j m n : Nat} (h : i + m = j) :
    (data.drop i).take m ++ (data.drop j).take n = (data.drop i).take (m + n) := by
  rw [List.take_add, List.drop_drop, h]

/-- Items made of slices of one width, each written as its slice. -/
theorem flatMap_slices {value : Bytes → α} {write : α → Bytes} {n : Nat}
    (h : ∀ data : Bytes, n ≤ data.length → write (value data) = data.take n) {count : Nat}
    (hlen : count * n ≤ data.length) :
    ((List.range count).map fun i => value (data.drop (i * n))).flatMap write
      = data.take (count * n) := by
  induction count with
  | zero => simp
  | succ count ih =>
      rw [Nat.succ_mul] at hlen ⊢
      have hlast : write (value (data.drop (count * n))) = (data.drop (count * n)).take n := by
        apply h
        rw [List.length_drop]
        omega
      rw [List.range_succ, List.map_append, List.flatMap_append, ih (by omega), List.take_add]
      simp [hlast]

/-- The octets at the front are the bytes there, where there are enough. -/
theorem bytes_frontOctets {n : Nat} (h : n ≤ data.length) :
    (Reader.frontOctets n data).bytes = data.take n := by
  have hlen : (data.take n).length = n := by
    rw [List.length_take]
    omega
  unfold Reader.frontOctets Octets.ofBytes?
  rw [dif_pos hlen]
  rfl

theorem bytes_frontOctets_drop {k n : Nat} (h : k + n ≤ data.length) :
    (Reader.frontOctets n (data.drop k)).bytes = (data.drop k).take n := by
  apply bytes_frontOctets
  rw [List.length_drop]
  omega

-- ============================================================= requests

/-- A header is written back but for its action. -/
theorem Header.encode_fronts (h : 16 ≤ data.length) (action : Action) :
    encode ⟨Word.front data, action.number, Word.front (data.drop 12)⟩
      = relabel 8 action (data.take 16) := by
  have hid : Word.write (Word.front data : Int64) = data.take 8 :=
    Word.write_front (show 8 ≤ _ by omega)
  have htransaction : Word.write (Word.front (data.drop 12) : Int32) = (data.drop 12).take 4 :=
    Word.write_front_drop rfl (by omega)
  unfold encode relabel
  rw [hid, htransaction, List.take_take, List.drop_take, List.append_assoc]
  rfl

def ConnectRequest.format : Format ConnectRequest where
  decode := decode
  encode := encode
  accepts data := 16 ≤ data.length ∧ data.take 8 = [0x00, 0x00, 0x04, 0x17, 0x27, 0x10, 0x19, 0x80]
  problem data :=
    if data.length < 16 then .truncated .request 16 data.length
    else .invalidMagic (Word.front data)
  action := .connect
  place := 8
  kept data := data.take 16

/-- A connect request: sixteen bytes are read, and one word of them has to be
the magic number. -/
theorem ConnectRequest.exact_format : format.Exact := by
  have hmagic : ∀ {data : Bytes}, 16 ≤ data.length →
      ((Word.front data : Int64) = protocolMagic
        ↔ data.take 8 = [0x00, 0x00, 0x04, 0x17, 0x27, 0x10, 0x19, 0x80]) := by
    intro data hlen
    have hwrite : Word.write protocolMagic = [0x00, 0x00, 0x04, 0x17, 0x27, 0x10, 0x19, 0x80] := by
      decide
    rw [← hwrite]
    exact Word.front_eq_iff (show 8 ≤ _ by omega)
  apply Format.Exact.of
  · rintro data ⟨hlen, hbytes⟩
    have hfront := (hmagic hlen).mpr hbytes
    refine ⟨⟨Word.front (data.drop 12)⟩, ?_, ?_⟩
    · exact (decode_eq data).trans (by rw [if_pos (show headerSize ≤ _ from hlen), if_pos hfront])
    · have hencode := Header.encode_fronts hlen .connect
      rw [hfront] at hencode
      exact hencode
  · intro data hnot
    refine (decode_eq data).trans (short_or_long fun hlen => ?_)
    have hfront : (Word.front data : Int64) ≠ protocolMagic :=
      fun hfront => hnot ⟨hlen, (hmagic hlen).mp hfront⟩
    exact if_neg hfront
  · rintro data ⟨hlen, -⟩
    show 8 ≤ (data.take 16).length
    rw [List.length_take]
    omega

def AnnounceRequest.format : Format AnnounceRequest where
  decode := decode
  encode := encode
  accepts data := 98 ≤ data.length ∧ ofBigEndian ((data.drop 80).take 4) ≤ 3
  problem data :=
    if data.length < 98 then .truncated .announce 98 data.length
    else .invalidEvent (Word.front (data.drop 80))
  action := .announce
  place := 8
  kept data := data.take 98

/-- An announce is written back but for its action. -/
theorem AnnounceRequest.encode_standingIn {event : Event} (h : 98 ≤ data.length)
    (hevent : Event.ofNumber? (Word.front (data.drop 80)) = some event) :
    (standingIn data event).encode = relabel 8 .announce (data.take 98) := by
  have hnumber : event.number = Word.front (data.drop 80) := Event.number_of_ofNumber? hevent
  have h64 : ∀ k, k + 8 ≤ data.length →
      Word.write (Word.front (data.drop k) : Int64) = (data.drop k).take 8 :=
    fun _ => Word.write_front_drop rfl
  have h32 : ∀ k, k + 4 ≤ data.length →
      Word.write (Word.front (data.drop k) : Int32) = (data.drop k).take 4 :=
    fun _ => Word.write_front_drop rfl
  have hu32 : ∀ k, k + 4 ≤ data.length →
      Word.write (Word.front (data.drop k) : UInt32) = (data.drop k).take 4 :=
    fun _ => Word.write_front_drop rfl
  have hu16 : ∀ k, k + 2 ≤ data.length →
      Word.write (Word.front (data.drop k) : UInt16) = (data.drop k).take 2 :=
    fun _ => Word.write_front_drop rfl
  rw [encode_eq]
  unfold standingIn
  dsimp only
  rw [hnumber, Header.encode_fronts (by omega), bytes_frontOctets_drop (by omega),
    bytes_frontOctets_drop (by omega), h64 56 (by omega), h64 64 (by omega), h64 72 (by omega),
    h32 80 (by omega), hu32 84 (by omega), hu32 88 (by omega), h32 92 (by omega),
    hu16 96 (by omega)]
  -- the slices close up from the last field to the first
  simp only [slice_append, Nat.reduceAdd]
  rw [relabel_append (by rw [List.length_take]; omega), ← List.take_add]

/-- An announce request: its length, and then its event. The rest comes back as
it was. -/
theorem AnnounceRequest.exact_format : format.Exact := by
  have hknown : ∀ data : Bytes, (∃ event, Event.ofNumber? (Word.front (data.drop 80)) = some event)
      ↔ ofBigEndian ((data.drop 80).take 4) ≤ 3 := by
    intro data
    rw [Event.exists_ofNumber?_iff, Word.toNat_front]
    rfl
  apply Format.Exact.of
  · rintro data ⟨hlen, hnumber⟩
    obtain ⟨event, hevent⟩ := (hknown data).mpr hnumber
    refine ⟨standingIn data event, ?_, encode_standingIn hlen hevent⟩
    exact (decode_eq_ok_iff data).mpr ⟨hlen, event, hevent, rfl⟩
  · intro data hnot
    refine (decode_eq data).trans (short_or_long fun hlen => ?_)
    have hnone : Event.ofNumber? (Word.front (data.drop 80)) = none :=
      Option.eq_none_iff_forall_ne_some.mpr fun event hevent =>
        hnot ⟨hlen, (hknown data).mp ⟨event, hevent⟩⟩
    rw [hnone]
  · rintro data ⟨hlen, -⟩
    show 8 ≤ (data.take 98).length
    rw [List.length_take]
    omega

def ScrapeRequest.format : Format ScrapeRequest where
  decode := decode
  encode := encode
  accepts data := 16 ≤ data.length ∧ (data.length - 16) % 20 = 0
  problem data :=
    if data.length < 16 then .truncated .request 16 data.length
    else .misalignedHashes (data.length - 16)
  action := .scrape
  place := 8
  kept data := data

/-- The hashes that are read off whole slices are written back as these
slices. -/
theorem ScrapeRequest.encode_standingIn (h : 16 ≤ data.length)
    (hwhole : (data.length - 16) % 20 = 0) :
    (standingIn data).encode = relabel 8 .scrape data := by
  have hcount : (data.length - 16) / 20 * 20 = (data.drop 16).length := by
    rw [List.length_drop]
    omega
  have hregion := flatMap_slices
    (fun _ => bytes_frontOctets) (Nat.le_of_eq hcount)
  rw [hcount, List.take_length] at hregion
  unfold standingIn encode
  dsimp only
  rw [Header.encode_fronts h, show headerSize = 16 from rfl, hregion,
    relabel_append (by rw [List.length_take]; omega), List.take_append_drop]

/-- A scrape request: a header, and then hashes to the end, none of them in
part. -/
theorem ScrapeRequest.exact_format : format.Exact := by
  apply Format.Exact.of
  · rintro data ⟨hlen, hwhole⟩
    refine ⟨standingIn data, ?_, encode_standingIn hlen hwhole⟩
    refine (decode_eq data).trans ?_
    rw [if_pos (show headerSize ≤ _ from hlen),
      if_pos (show (data.length - headerSize) % 20 = 0 from hwhole)]
  · intro data hnot
    refine (decode_eq data).trans (short_or_long fun hlen => ?_)
    have hpart : ¬(data.length - headerSize) % 20 = 0 := fun hwhole => hnot ⟨hlen, hwhole⟩
    exact if_neg hpart
  · rintro data ⟨hlen, -⟩
    exact Nat.le_trans (by decide) hlen

-- ============================================================ responses

/-- The head of a response is written back but for its action. -/
theorem responseHead_front (h : 8 ≤ data.length) (action : Action) :
    responseHead action (Word.front (data.drop 4)) = relabel 0 action (data.take 8) := by
  have htransaction : Word.write (Word.front (data.drop 4) : Int32) = (data.drop 4).take 4 :=
    Word.write_front_drop rfl (by omega)
  unfold responseHead relabel
  rw [htransaction, List.drop_take]
  rfl

theorem responseHead_front_append (h : 8 ≤ data.length) (action : Action) :
    responseHead action (Word.front (data.drop 4)) ++ data.drop 8 = relabel 0 action data := by
  rw [responseHead_front h, relabel_append (by rw [List.length_take]; omega),
    List.take_append_drop]

def ConnectResponse.format : Format ConnectResponse where
  decode := decode
  encode := encode
  accepts data := 16 ≤ data.length
  problem data := .truncated .connectResponse 16 data.length
  action := .connect
  place := 0
  kept data := data.take 16

/-- A reply to a connect: nothing but its length can be wrong, as every word of
it may be any number. -/
theorem ConnectResponse.exact_format : format.Exact := by
  apply Format.Exact.of
  · intro data (hlen : 16 ≤ data.length)
    refine ⟨_, (decode_eq data).trans (if_pos hlen), ?_⟩
    have hid : Word.write (Word.front (data.drop 8) : Int64) = (data.drop 8).take 8 :=
      Word.write_front_drop rfl (by omega)
    show responseHead .connect _ ++ _ = relabel 0 .connect (data.take 16)
    rw [responseHead_front (by omega), hid, relabel_append (by rw [List.length_take]; omega),
      ← List.take_add]
  · exact fun data hshort => (decode_eq data).trans (if_neg hshort)
  · exact fun _ _ => Nat.zero_le _

def AnnounceResponse.format : Format AnnounceResponse where
  decode := decode
  encode := encode
  accepts data := 20 ≤ data.length
  problem data := .truncated .announceResponse 20 data.length
  action := .announce
  place := 0
  kept data := data

/-- A reply to an announce: nothing but its length can be wrong, and peers are
taken as they come. -/
theorem AnnounceResponse.exact_format : format.Exact := by
  apply Format.Exact.of
  · intro data (hlen : 20 ≤ data.length)
    refine ⟨_, (decode_eq data).trans (if_pos hlen), ?_⟩
    have h32 : ∀ k, k + 4 ≤ data.length →
        Word.write (Word.front (data.drop k) : Int32) = (data.drop k).take 4 :=
      fun _ => Word.write_front_drop rfl
    have htail : (data.drop 8).take 12 ++ data.drop 20 = data.drop 8 := by
      have happend := List.take_append_drop 12 (data.drop 8)
      rwa [List.drop_drop] at happend
    refine (encode_eq _).trans ?_
    dsimp only
    rw [h32 8 (by omega), h32 12 (by omega), h32 16 (by omega)]
    simp only [slice_append, Nat.reduceAdd]
    rw [htail]
    exact responseHead_front_append (by omega) .announce
  · exact fun data hshort => (decode_eq data).trans (if_neg hshort)
  · exact fun _ _ => Nat.zero_le _

def ScrapeResponse.format : Format ScrapeResponse where
  decode := decode
  encode := encode
  accepts data := 8 ≤ data.length ∧ (data.length - 8) % 12 = 0
  problem data :=
    if data.length < 8 then .truncated .scrapeResponse 8 data.length
    else .truncated .scrapeResponse (8 + ((data.length - 8) / 12 + 1) * 12) data.length
  action := .scrape
  place := 0
  kept data := data

/-- A record that is read off twelve bytes is written back as these. -/
theorem ScrapeRecord.encode_standingIn (h : 12 ≤ data.length) :
    (standingIn data).encode = data.take 12 := by
  have hcomplete : Word.write (Word.front data : Int32) = data.take 4 :=
    Word.write_front (show 4 ≤ _ by omega)
  have h32 : ∀ k, k + 4 ≤ data.length →
      Word.write (Word.front (data.drop k) : Int32) = (data.drop k).take 4 :=
    fun _ => Word.write_front_drop rfl
  unfold standingIn encode
  dsimp only
  rw [hcomplete, h32 4 (by omega), h32 8 (by omega), List.append_assoc]
  simp only [slice_append, Nat.reduceAdd]
  rw [← List.take_add]

/-- So are records that are read off whole slices. -/
theorem ScrapeResponse.encode_standingIn (h : 8 ≤ data.length)
    (hwhole : (data.length - 8) % 12 = 0) :
    (standingIn data).encode = relabel 0 .scrape data := by
  have hcount : (data.length - 8) / 12 * 12 = (data.drop 8).length := by
    rw [List.length_drop]
    omega
  have hregion := flatMap_slices
    (fun _ => ScrapeRecord.encode_standingIn) (Nat.le_of_eq hcount)
  rw [hcount, List.take_length] at hregion
  unfold standingIn encode
  dsimp only
  rw [hregion]
  exact responseHead_front_append h .scrape

/-- A reply to a scrape: a head, and then records to the end, none of them in
part. -/
theorem ScrapeResponse.exact_format : format.Exact := by
  apply Format.Exact.of
  · rintro data ⟨hlen, hwhole⟩
    refine ⟨standingIn data, ?_, encode_standingIn hlen hwhole⟩
    exact (decode_eq data).trans (by rw [if_pos hlen, if_pos hwhole])
  · intro data hnot
    refine (decode_eq data).trans (short_or_long fun hlen => ?_)
    have hpart : ¬(data.length - 8) % 12 = 0 := fun hwhole => hnot ⟨hlen, hwhole⟩
    exact if_neg hpart
  · exact fun _ _ => Nat.zero_le _

def ErrorResponse.format : Format ErrorResponse where
  decode := decode
  encode := encode
  accepts data := 8 ≤ data.length
  problem data := .truncated .errorResponse 8 data.length
  action := .error
  place := 0
  kept data := data

/-- An error reply: a head, and then text to the end. No bytes are wrong as a
text, so only the head can be short. -/
theorem ErrorResponse.exact_format : format.Exact := by
  apply Format.Exact.of
  · intro data (hlen : 8 ≤ data.length)
    exact ⟨_, (decode_eq data).trans (if_pos hlen), responseHead_front_append hlen .error⟩
  · exact fun data hshort => (decode_eq data).trans (if_neg hshort)
  · exact fun _ _ => Nat.zero_le _

-- ============================================================= messages

/-- Every message is read back as it was, and the header of a request has
its connection id (the magic number in a connect request), its action and
its transaction id. -/
theorem messages_decode_encode :
    (∀ r : ConnectRequest, ConnectRequest.decode r.encode = .ok r
        ∧ Header.peek r.encode = .ok ⟨0x41727101980, 0, r.transactionId⟩)
      ∧ (∀ r : AnnounceRequest, AnnounceRequest.decode r.encode = .ok r
        ∧ Header.peek r.encode = .ok ⟨r.connectionId, 1, r.transactionId⟩)
      ∧ (∀ r : ScrapeRequest, ScrapeRequest.decode r.encode = .ok r
        ∧ Header.peek r.encode = .ok ⟨r.connectionId, 2, r.transactionId⟩)
      ∧ (∀ r : ConnectResponse, ConnectResponse.decode r.encode = .ok r)
      ∧ (∀ r : AnnounceResponse, AnnounceResponse.decode r.encode = .ok r)
      ∧ (∀ r : ScrapeResponse, ScrapeResponse.decode r.encode = .ok r)
      ∧ ∀ r : ErrorResponse, ErrorResponse.decode r.encode = .ok r := by
  refine ⟨?_, ?_, ?_, ConnectResponse.decode_encode, AnnounceResponse.decode_encode,
    ScrapeResponse.decode_encode, ErrorResponse.decode_encode⟩
  · intro r
    refine ⟨r.decode_encode, ?_⟩
    rw [← List.append_nil r.encode]
    exact Header.peek_encode _ []
  · intro r
    refine ⟨r.decode_encode, ?_⟩
    rw [r.encode_eq]
    exact Header.peek_encode _ _
  · intro r
    exact ⟨r.decode_encode, Header.peek_encode _ _⟩

/-- Every decoder takes exactly its layout and loses nothing of it, save for
the word that says which action it is and for the part that no field holds. -/
theorem messages_exact :
    ConnectRequest.format.Exact ∧ AnnounceRequest.format.Exact ∧ ScrapeRequest.format.Exact
      ∧ ConnectResponse.format.Exact ∧ AnnounceResponse.format.Exact
      ∧ ScrapeResponse.format.Exact ∧ ErrorResponse.format.Exact :=
  ⟨ConnectRequest.exact_format, AnnounceRequest.exact_format, ScrapeRequest.exact_format,
    ConnectResponse.exact_format, AnnounceResponse.exact_format, ScrapeResponse.exact_format,
    ErrorResponse.exact_format⟩

end TorrentTracker.Wire
