import Mathlib.Data.List.Forall2
import TorrentTracker.Proofs.Percent

/-
Which values decode, and where the others go wrong.

The decoder looks two bytes ahead and never back. Seen from outside a value
is cut into tokens, and there is only one way to cut it
(`tokens_unique`): a token says by its first byte how long it is. What
decoding does to a run of tokens does not depend on what follows
(`decodeFrom_append`), so a value that does not decode is a run of tokens
and then a percent sign that starts none, and the offset is the length of
that run (`decode_eq_error_iff`).

What the tokens are is told by the sixteen digits as they are written, in
either case (`HexDigit`), and by the number that two of them spell. The
decoder computes with bytes; that the two are the same is `token_iff`.

# Main statement

- `exact_decoding`: which values decode to what, and why and where the
  others do not.
-/

namespace TorrentTracker.Percent

variable {value bytes token rest : Bytes} {tokens : List Bytes} {b d : UInt8} {offset : Nat}

-- =============================================================== digits

/-- A digit of base sixteen, in either case, and its value. -/
def HexDigit (d : UInt8) (n : Nat) : Prop :=
  (utf8 "0123456789abcdef")[n]? = some d ∨ (utf8 "0123456789ABCDEF")[n]? = some d

instance (d : UInt8) (n : Nat) : Decidable (HexDigit d n) :=
  inferInstanceAs (Decidable (_ ∨ _))

theorem HexDigit.lt {n : Nat} (h : HexDigit d n) : n < 16 := by
  rcases h with h | h
  · exact (List.getElem?_eq_some_iff.mp h).1
  · exact (List.getElem?_eq_some_iff.mp h).1

/-- What has a value is a digit of that value. There are 256 bytes to look
at. -/
theorem hexDigit_of_hexValue? {n : UInt8} (h : hexValue? d = some n) : HexDigit d n.toNat := by
  have hall : ∀ i < 256, ∀ n ∈ hexValue? (UInt8.ofNat i), HexDigit (UInt8.ofNat i) n.toNat := by
    decide +kernel
  have hd := hall d.toNat d.toNat_lt
  rw [UInt8.ofNat_toNat] at hd
  exact hd n h

theorem hexValue?_of_hexDigit {n : Nat} (h : HexDigit d n) :
    hexValue? d = some (UInt8.ofNat n) := by
  have hall : ∀ n < 16, (∀ d ∈ (utf8 "0123456789abcdef")[n]?, hexValue? d = some (UInt8.ofNat n))
      ∧ ∀ d ∈ (utf8 "0123456789ABCDEF")[n]?, hexValue? d = some (UInt8.ofNat n) := by
    decide +kernel
  obtain ⟨hlower, hupper⟩ := hall n h.lt
  rcases h with h | h
  · exact hlower d h
  · exact hupper d h

/-- The digits are those that the decoder takes. -/
theorem hexValue?_eq_some_iff {n : UInt8} : hexValue? d = some n ↔ HexDigit d n.toNat := by
  refine ⟨hexDigit_of_hexValue?, fun h => ?_⟩
  rw [hexValue?_of_hexDigit h, UInt8.ofNat_toNat]

/-- Two digits spell a byte, without a carry. -/
theorem toNat_hex {h l : UInt8} (hh : h.toNat < 16) (hl : l.toNat < 16) :
    (16 * h + l).toNat = 16 * h.toNat + l.toNat := by
  rw [UInt8.toNat_add, UInt8.toNat_mul]
  show (16 * h.toNat % 256 + l.toNat) % 256 = _
  omega

/-- What a token can be, with the byte it stands for: a byte of its own, a plus
for a blank, or a sign with two digits of either case. -/
theorem token_iff :
    Token token b ↔ (token = [b] ∧ b ≠ 37 ∧ b ≠ 43) ∨ (token = [43] ∧ b = 32)
      ∨ ∃ hi lo h l, token = [37, hi, lo] ∧ HexDigit hi h ∧ HexDigit lo l
        ∧ b.toNat = 16 * h + l := by
  constructor
  · intro htoken
    cases htoken with
    | literal hpercent hplus => exact .inl ⟨rfl, hpercent, hplus⟩
    | space => exact .inr (.inl ⟨rfl, rfl⟩)
    | hex hhi hlo =>
        rw [hexValue?_eq_some_iff] at hhi hlo
        exact .inr (.inr ⟨_, _, _, _, rfl, hhi, hlo, toNat_hex hhi.lt hlo.lt⟩)
  · rintro (⟨rfl, hpercent, hplus⟩ | ⟨rfl, rfl⟩ | ⟨hi, lo, h, l, rfl, hhi, hlo, hb⟩)
    · exact .literal hpercent hplus
    · exact .space
    · have htoken := Token.hex (hexValue?_of_hexDigit hhi) (hexValue?_of_hexDigit hlo)
      have hh : (UInt8.ofNat h).toNat = h :=
        UInt8.toNat_ofNat_of_lt' (Nat.lt_trans hhi.lt (by decide))
      have hl : (UInt8.ofNat l).toNat = l :=
        UInt8.toNat_ofNat_of_lt' (Nat.lt_trans hlo.lt (by decide))
      -- both digits are below sixteen, so their byte is no smaller number
      have hsame : 16 * UInt8.ofNat h + UInt8.ofNat l = b := by
        apply UInt8.toNat_inj.mp
        rw [toNat_hex (hh.symm ▸ hhi.lt) (hl.symm ▸ hlo.lt), hh, hl, hb]
      rwa [hsame] at htoken

-- ================================================================= runs

/-- A rendering is a row of tokens, one for each byte that it stands for, so
what is proved of tokens holds of renderings. -/
theorem renders_iff_tokens :
    Renders value bytes ↔ ∃ tokens, List.Forall₂ Token tokens bytes ∧ tokens.flatten = value := by
  constructor
  · intro h
    induction h with
    | nil => exact ⟨[], .nil, rfl⟩
    | cons htoken _ ih =>
        obtain ⟨tokens, htokens, rfl⟩ := ih
        exact ⟨_ :: tokens, .cons htoken htokens, rfl⟩
  · rintro ⟨tokens, htokens, rfl⟩
    induction htokens with
    | nil => exact .nil
    | cons htoken _ ih => exact .cons htoken ih

/-- A run of tokens decodes alike whatever follows, and what follows is decoded
from where the run ends. -/
theorem decodeFrom_append (h : Renders value bytes) (offset : Nat) (rest : Bytes) :
    decodeFrom offset (value ++ rest)
      = (decodeFrom (offset + value.length) rest).map (bytes ++ ·) := by
  induction h generalizing offset with
  | nil =>
      show decodeFrom offset rest = (decodeFrom offset rest).map id
      cases decodeFrom offset rest with
      | _ => rfl
  | @cons token value bytes b htoken _ ih =>
      rw [List.append_assoc, decodeFrom_token htoken, ih, List.length_append, Nat.add_assoc]
      cases decodeFrom (offset + (token.length + value.length)) rest with
      | _ => rfl

/-- Two tokens at the front of the same bytes are one. The first byte tells
which of the three kinds it is, since neither sign is a literal. -/
theorem Token.unique {token' more more' : Bytes} {b' : UInt8} (h : Token token b)
    (h' : Token token' b') (heq : token ++ more = token' ++ more') : token = token' := by
  cases h with
  | literal hpercent hplus =>
      cases h' with
      | literal => exact congrArg (· :: []) (List.cons.inj heq).1
      | space => exact absurd (List.cons.inj heq).1 hplus
      | hex => exact absurd (List.cons.inj heq).1 hpercent
  | space =>
      cases h' with
      | literal _ hplus => exact absurd (List.cons.inj heq).1.symm hplus
      | space => rfl
      | hex => cases (List.cons.inj heq).1
  | hex =>
      cases h' with
      | literal hpercent => exact absurd (List.cons.inj heq).1.symm hpercent
      | space => cases (List.cons.inj heq).1
      | hex =>
          obtain ⟨-, hdigits⟩ := List.cons.inj heq
          obtain ⟨hhi, hrest⟩ := List.cons.inj hdigits
          rw [hhi, (List.cons.inj hrest).1]

/-- Every token has a byte at least, so a row of them comes to an end. -/
theorem Token.ne_nil (h : Token token b) : token ≠ [] := by
  cases h with
  | _ => exact List.cons_ne_nil _ _

/-- A value is cut into tokens in one way at most. By induction on the tokens,
the first of which is told by the first byte. -/
theorem tokens_unique {tokens' : List Bytes} {bytes' : Bytes}
    (h : List.Forall₂ Token tokens bytes) (h' : List.Forall₂ Token tokens' bytes')
    (heq : tokens.flatten = tokens'.flatten) : tokens = tokens' := by
  induction h generalizing tokens' bytes' with
  | nil =>
      cases h' with
      | nil => rfl
      | cons htoken' => exact absurd (List.append_eq_nil_iff.mp heq.symm).1 htoken'.ne_nil
  | @cons token b tokens bytes htoken _ ih =>
      cases h' with
      | nil => exact absurd (List.append_eq_nil_iff.mp heq).1 htoken.ne_nil
      | @cons token' b' tokens' bytes' htoken' htokens' =>
          obtain rfl := htoken.unique htoken' heq
          rw [ih htokens' (List.append_cancel_left heq)]

-- =============================================================== faults

/-- Two hex digits stand at the front. -/
def Escaped (rest : Bytes) : Prop :=
  ∃ hi lo h l more, rest = hi :: lo :: more ∧ HexDigit hi h ∧ HexDigit lo l

/-- What is wrong with a percent sign at an offset that no two digits
follow. -/
def fault (offset : Nat) (rest : Bytes) : Error :=
  if rest.length < 2 then .incomplete offset else .invalidHex offset

/-- A run of tokens from an offset on, then a percent sign that starts none,
and what is wrong with it. -/
inductive Faulty (offset : Nat) : Bytes → Error → Prop where
  | sign {read bytes rest : Bytes} (hread : Renders read bytes) (hbad : ¬Escaped rest) :
      Faulty offset (read ++ 37 :: rest) (fault (offset + read.length) rest)

/-- A token in front only moves the sign that is at fault, by as many bytes as
the token has. -/
theorem Faulty.after {e : Error} (htoken : Token token b)
    (h : Faulty (offset + token.length) value e) : Faulty offset (token ++ value) e := by
  cases h with
  | @sign read _ rest hread hbad =>
      rw [← List.append_assoc, Nat.add_assoc, ← List.length_append]
      exact .sign (.cons htoken hread) hbad

theorem not_escaped_of_lt (h : rest.length < 2) : ¬Escaped rest := by
  rintro ⟨hi, lo, _, _, more, rfl, -⟩
  exact absurd h (Nat.not_lt.mpr (Nat.le_add_left 2 more.length))

/-- An escape has two digits, and each has a value. -/
theorem exists_of_escaped {hi lo : UInt8} (h : Escaped (hi :: lo :: rest)) :
    ∃ high low, hexValue? hi = some high ∧ hexValue? lo = some low := by
  obtain ⟨hi, lo, n, m, more, heq, hhi, hlo⟩ := h
  cases heq
  exact ⟨_, _, hexValue?_of_hexDigit hhi, hexValue?_of_hexDigit hlo⟩

/-- A percent sign without two digits after it is where decoding stops, and the
fault says what is there instead. -/
theorem decodeFrom_of_not_escaped (h : ¬Escaped rest) (offset : Nat) :
    decodeFrom offset (37 :: rest) = .error (fault offset rest) := by
  match rest with
  | [] => rfl
  | [_] => rfl
  | hi :: lo :: more =>
      rw [decodeFrom]
      cases hhi : hexValue? hi with
      | none => rfl
      | some high =>
          cases hlo : hexValue? lo with
          | none => rfl
          | some low =>
              rw [hexValue?_eq_some_iff] at hhi hlo
              exact absurd ⟨hi, lo, _, _, more, rfl, hhi, hlo⟩ h

/-- What is done with a result does not change an error. -/
theorem eq_error_of_map {α β : Type} {x : Except Error α} {f : α → β} {e : Error}
    (h : x.map f = .error e) : x = .error e := by
  cases x with
  | error _ => exact congrArg _ (Except.error.inj h)
  | ok _ => cases h

/-- A failure of the decoder is at the first percent sign without two digits:
what comes before it are tokens. The cases are those of the decoder. -/
theorem faulty_of_decodeFrom {e : Error} (h : decodeFrom offset value = .error e) :
    Faulty offset value e := by
  fun_induction decodeFrom offset value with
  | case1 => cases h
  | case2 offset hi lo rest high low hlo hhi ih =>
      exact .after (.hex hhi hlo) (ih (eq_error_of_map h))
  | case3 offset hi lo rest hnone =>
      cases h
      refine .sign .nil fun hescaped => ?_
      obtain ⟨high, low, hhi, hlo⟩ := exists_of_escaped hescaped
      exact hnone high low hhi hlo
  | case4 offset rest hshort =>
      cases h
      rcases rest with _ | ⟨hi, _ | ⟨lo, more⟩⟩
      · exact .sign .nil (not_escaped_of_lt (Nat.zero_lt_succ 1))
      · exact .sign .nil (not_escaped_of_lt (Nat.lt_succ_self 1))
      · exact (hshort hi lo more rfl rfl).elim
  | case5 offset b rest hnot hpercent ih =>
      have hrest := ih (eq_error_of_map h)
      by_cases hplus : b = 43
      · rw [hplus]
        exact .after .space hrest
      · exact .after (.literal hpercent hplus) hrest

/-- And at such a sign the decoder fails, since it reads through the tokens
before it. -/
theorem decodeFrom_of_faulty {e : Error} (h : Faulty offset value e) :
    decodeFrom offset value = .error e := by
  cases h with
  | sign hread hbad =>
      rw [decodeFrom_append hread, decodeFrom_of_not_escaped hbad]
      rfl

/-- Errors of the whole are those counted from its start. -/
theorem decode_eq_error_iff {e : Error} : decode value = .error e ↔ Faulty 0 value e :=
  ⟨faulty_of_decodeFrom, decodeFrom_of_faulty⟩

-- ================================================================ the law

/-- Decoding takes what is made of tokens, and nothing else. A token is a
byte that is neither a percent nor a plus sign and stands for itself, a plus
sign for a space, or a percent sign and two hex digits for the byte they
spell. So bytes come back however each of them is spelled, and there is one
way to cut a value. What does not decode is a run of tokens and then a
percent sign that starts none; the error has the offset of that sign, and
is that something is missing if fewer than two bytes follow it. -/
structure Exact : Prop where
  tokens : ∀ token b, Token token b
    ↔ (token = [b] ∧ b ≠ 37 ∧ b ≠ 43) ∨ (token = [43] ∧ b = 32)
      ∨ ∃ hi lo h l, token = [37, hi, lo] ∧ HexDigit hi h ∧ HexDigit lo l
        ∧ b.toNat = 16 * h + l
  accepted : ∀ value bytes, decode value = .ok bytes
    ↔ ∃ tokens, List.Forall₂ Token tokens bytes ∧ tokens.flatten = value
  unambiguous : ∀ tokens tokens' bytes bytes', List.Forall₂ Token tokens bytes →
    List.Forall₂ Token tokens' bytes' → tokens.flatten = tokens'.flatten → tokens = tokens'
  rejected : ∀ value e, decode value = .error e
    ↔ ∃ tokens bytes rest, List.Forall₂ Token tokens bytes
      ∧ value = tokens.flatten ++ 37 :: rest ∧ ¬Escaped rest
      ∧ e = if rest.length < 2 then .incomplete tokens.flatten.length
        else .invalidHex tokens.flatten.length
  spelled : ∀ tokens bytes, List.Forall₂ Token tokens bytes → decode tokens.flatten = .ok bytes

/-- What is decoded, to what, and where and why the rest is not. A value is a
run of tokens, or a run of tokens with a bad sign after it. -/
theorem exact_decoding : Exact where
  tokens := fun _ _ => token_iff
  accepted := fun _ _ => renders_iff.symm.trans renders_iff_tokens
  unambiguous := fun _ _ _ _ => tokens_unique
  rejected := by
    intro value e
    rw [decode_eq_error_iff]
    constructor
    · rintro ⟨hread, hbad⟩
      obtain ⟨tokens, htokens, rfl⟩ := renders_iff_tokens.mp hread
      refine ⟨tokens, _, _, htokens, rfl, hbad, ?_⟩
      rw [fault, Nat.zero_add]
    · rintro ⟨tokens, bytes, rest, htokens, rfl, hbad, rfl⟩
      have hread : Renders tokens.flatten bytes := renders_iff_tokens.mpr ⟨tokens, htokens, rfl⟩
      have hfaulty : Faulty 0 (tokens.flatten ++ 37 :: rest) _ := .sign hread hbad
      rwa [fault, Nat.zero_add] at hfaulty
  spelled := by
    intro tokens bytes htokens
    exact decode_of_renders (renders_iff_tokens.mpr ⟨tokens, htokens, rfl⟩)

/-- What is decoded is not looked at again. -/
example : decode (utf8 "%2525%+") = .error (.incomplete 5)
    ∧ decode (utf8 "%2525+%2B") = .ok (utf8 "%25 +") := by decide

end TorrentTracker.Percent
