import TorrentTracker.Percent

/-
Values and what they decode to.

A value is a run of tokens (`Token`). A run of tokens decodes to the bytes
they stand for, and nothing else decodes (`renders_iff`). Which token is
chosen for a byte makes no difference. `encode` chooses a percent sign and
two hex digits for every byte, so it can spell any bytes at all.
-/

namespace TorrentTracker.Percent

/-- A token, and the byte it stands for. -/
inductive Token : Bytes → UInt8 → Prop where
  | literal {b : UInt8} (hpercent : b ≠ 37) (hplus : b ≠ 43) : Token [b] b
  | space : Token [43] 32
  | hex {hi lo h l : UInt8} (hhi : hexValue? hi = some h) (hlo : hexValue? lo = some l) :
      Token [37, hi, lo] (16 * h + l)

/-- A run of tokens, and the bytes they stand for. -/
inductive Renders : Bytes → Bytes → Prop where
  | nil : Renders [] []
  | cons {token value bytes : Bytes} {b : UInt8} :
      Token token b → Renders value bytes → Renders (token ++ value) (b :: bytes)

/-- A byte that starts no escape stands for itself, or for a space if it is a
plus. -/
theorem decodeFrom_cons {b : UInt8} (h : b ≠ 37) (offset : Nat) (rest : Bytes) :
    decodeFrom offset (b :: rest)
      = (decodeFrom (offset + 1) rest).map ((if b = 43 then 32 else b) :: ·) := by
  rw [decodeFrom.eq_def]
  split
  · next heq => cases heq
  · next heq => exact absurd (List.cons.inj heq).1 h
  · next heq =>
    obtain ⟨rfl, rfl⟩ := List.cons.inj heq
    rw [if_neg h]

/-- Decoding goes on after a token as it would anywhere, with the byte it
stands for put in front. -/
theorem decodeFrom_token {token : Bytes} {b : UInt8} (h : Token token b) (offset : Nat)
    (rest : Bytes) :
    decodeFrom offset (token ++ rest)
      = (decodeFrom (offset + token.length) rest).map (b :: ·) := by
  cases h with
  | literal hpercent hplus =>
      rw [List.singleton_append, decodeFrom_cons hpercent, if_neg hplus]
      rfl
  | space => exact decodeFrom_cons (by decide) offset rest
  | @hex hi lo h l hhi hlo =>
      show decodeFrom offset (37 :: hi :: lo :: rest) = _
      rw [decodeFrom, hhi, hlo]
      rfl

/-- So a whole rendering is decoded to what it stands for. -/
theorem decodeFrom_of_renders {value bytes : Bytes} (h : Renders value bytes) (offset : Nat) :
    decodeFrom offset value = .ok bytes := by
  induction h generalizing offset with
  | nil => rfl
  | cons htoken _ ih =>
      rw [decodeFrom_token htoken, ih]
      rfl

theorem decode_of_renders {value bytes : Bytes} (h : Renders value bytes) :
    decode value = .ok bytes :=
  decodeFrom_of_renders h 0

/-- A result that was made of another one had that to be made of. -/
theorem exists_of_map_eq_ok {α β : Type} {x : Except Error α} {f : α → β} {b : β}
    (h : x.map f = .ok b) : ∃ a, x = .ok a ∧ f a = b := by
  cases x with
  | error e => cases h
  | ok a => exact ⟨a, rfl, Except.ok.inj h⟩

/-- What is decoded was a rendering. The cases are those of the decoder, each
of which takes one token off. -/
theorem renders_of_decodeFrom {value bytes : Bytes} {offset : Nat}
    (h : decodeFrom offset value = .ok bytes) : Renders value bytes := by
  fun_induction decodeFrom offset value generalizing bytes with
  | case1 offset =>
      cases h
      exact .nil
  | case2 offset hi lo rest high low hlo hhi ih =>
      obtain ⟨more, hmore, rfl⟩ := exists_of_map_eq_ok h
      exact .cons (.hex hhi hlo) (ih hmore)
  | case3 => cases h
  | case4 => cases h
  | case5 offset b rest hnot hpercent ih =>
      obtain ⟨more, hmore, rfl⟩ := exists_of_map_eq_ok h
      by_cases hplus : b = 43
      · rw [if_pos hplus, hplus]
        exact .cons .space (ih hmore)
      · rw [if_neg hplus]
        exact .cons (.literal hpercent hplus) (ih hmore)

/-- The runs of tokens are all that decodes. -/
theorem renders_iff {value bytes : Bytes} : Renders value bytes ↔ decode value = .ok bytes :=
  ⟨decode_of_renders, renders_of_decodeFrom⟩

/-- Bytes that mean nothing else stand for themselves, and those that mean
something else are the sign and the plus. -/
theorem renders_self {value : Bytes} (h : ∀ b ∈ value, b ≠ 37 ∧ b ≠ 43) :
    Renders value value := by
  induction value with
  | nil => exact .nil
  | cons b rest ih =>
      obtain ⟨⟨hpercent, hplus⟩, hrest⟩ := List.forall_mem_cons.mp h
      exact .cons (.literal hpercent hplus) (ih hrest)

-- ============================================================= encoding

def hexDigit (n : Nat) : UInt8 := UInt8.ofNat (if n < 10 then 48 + n else 55 + n)

/-- A percent sign and the two hex digits of a byte. -/
def escape (b : UInt8) : Bytes := [37, hexDigit (b.toNat / 16), hexDigit (b.toNat % 16)]

/-- A value with every byte escaped. -/
def encode (bytes : Bytes) : Bytes := bytes.flatMap escape

theorem hexValue?_hexDigit {n : Nat} (h : n < 16) :
    hexValue? (hexDigit n) = some (UInt8.ofNat n) := by
  have hall : ∀ n < 16, hexValue? (hexDigit n) = some (UInt8.ofNat n) := by decide
  exact hall n h

/-- A byte may be written as its escape, whichever it is. -/
theorem token_escape (b : UInt8) : Token (escape b) b := by
  have hlt := b.toNat_lt
  have htoken := Token.hex (hexValue?_hexDigit (show b.toNat / 16 < 16 by omega))
    (hexValue?_hexDigit (show b.toNat % 16 < 16 by omega))
  -- the two digits together are the byte, without a carry
  have hsame : 16 * UInt8.ofNat (b.toNat / 16) + UInt8.ofNat (b.toNat % 16) = b := by
    apply UInt8.toNat_inj.mp
    rw [UInt8.toNat_add, UInt8.toNat_mul, UInt8.toNat_ofNat', UInt8.toNat_ofNat']
    show ((16 * (b.toNat / 16 % 256)) % 256 + b.toNat % 16 % 256) % 256 = b.toNat
    omega
  rwa [hsame] at htoken

/-- So all bytes can be written with escapes throughout. -/
theorem renders_encode (bytes : Bytes) : Renders (encode bytes) bytes := by
  induction bytes with
  | nil => exact .nil
  | cons b bytes ih => exact .cons (token_escape b) ih

/-- An escaped value has no byte that a query is cut at, since it has nothing
but signs and digits. -/
theorem not_mem_encode (bytes : Bytes) : 38 ∉ encode bytes := by
  have hdigit : ∀ n < 16, hexDigit n ≠ 38 := by decide
  intro hmem
  obtain ⟨b, -, hb⟩ := List.mem_flatMap.mp hmem
  have hlt := b.toNat_lt
  simp only [escape, List.mem_cons, List.not_mem_nil, or_false] at hb
  rcases hb with hb | hb | hb
  · cases hb
  · exact hdigit _ (by omega) hb.symm
  · exact hdigit _ (by omega) hb.symm

end TorrentTracker.Percent
