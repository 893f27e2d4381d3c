import TorrentTracker.Ip.Text
import TorrentTracker.Proofs.TextReader

/-
The text of an address is read as that address.

Writing and reading are not mirror images. A writer picks one spelling: it
leaves out the longest run of zero groups, and it ends an IPv4-mapped
address in dotted decimal. A reader has to find out which of the spellings
it has before it, and tries dotted decimal first wherever two groups still
fit.

# The argument

A number is read up to where its digits end (`Ends`), so all that is asked
of what follows is that no digit stands in front. Dotted decimal needs its
first dot, and the groups of an address have none, so among groups the
reader never leaves the path of the groups (`groupSeries_of_not_mem`). A
series of groups ends at the end of the text or at two colons
(`EndsGroups`), and up to there it is read as it is spelled
(`groupSeries_spelled`). What the two colons stand for is counted from the
groups on either side, and the run that was left out has just that length
(`take_append_zeros_append_drop`): for this it has to be a run of zeros, but
not the longest.

# Main statements

- `run_readV4`, `run_readV6_compressed`, `run_readV6_mapped`: the three
  forms that are written;
- `parse?_text`, `parse?_text_bytes`: every address, as text and as the
  bytes of the text.
-/

namespace TorrentTracker

namespace Ip

open TextReader

variable {text rest : List Char}

-- ================================================================ dotted

/-- An octet is read as it is written, up to a dot or the end. -/
theorem run_octet (b : UInt8) (hrest : Ends 10 rest) :
    octet.run (Nat.toDigits 10 b.toNat ++ rest) = some (b, rest) := by
  have hlt := b.toNat_lt
  have hlength : (Nat.toDigits 10 b.toNat).length ≤ 3 :=
    (Nat.length_toDigits_le_iff (by decide) (by decide)).mpr (by omega)
  unfold octet
  rw [StateT.run_bind, run_number_toDigits (by decide) hlt hlength hrest]
  show some (UInt8.ofNat b.toNat, rest) = _
  rw [UInt8.ofNat_toNat]

theorem ends_dot : Ends 10 ('.' :: rest) := ends_cons (by decide)

theorem toList_numeral (base n : Nat) : (numeral base n).toList = Nat.toDigits base n :=
  String.toList_ofList

/-- Dotted decimal is read as the four octets it was written from. No octet has
a zero in front, which the reader would refuse. -/
theorem run_readV4 (o : Octets 4) (hrest : Ends 10 rest) :
    readV4.run ((dotted o.bytes).toList ++ rest) = some (o, rest) := by
  obtain ⟨bytes, hbytes⟩ := o
  obtain ⟨a, b, c, d, rfl⟩ : ∃ a b c d, bytes = [a, b, c, d] := by
    match bytes, hbytes with
    | [a, b, c, d], _ => exact ⟨a, b, c, d, rfl⟩
  have hspelled : (dotted [a, b, c, d]).toList ++ rest
      = Nat.toDigits 10 a.toNat ++ ('.' :: (Nat.toDigits 10 b.toNat ++ ('.' ::
          (Nat.toDigits 10 c.toNat ++ ('.' :: (Nat.toDigits 10 d.toNat ++ rest)))))) := by
    simp [dotted, toList_numeral]
  rw [hspelled]
  simp only [readV4, StateT.run_bind, run_octet _ ends_dot, run_octet _ hrest, run_char_cons,
    Option.bind_eq_bind, Option.bind_some]
  rfl

theorem run_readV4_dotted (o : Octets 4) : readV4.run (dotted o.bytes).toList = some (o, []) := by
  have hread := run_readV4 o ends_nil
  rwa [List.append_nil] at hread

theorem run_readV4_of_ends (h : Ends 10 rest) : readV4.run rest = none := by
  unfold readV4 octet
  rw [StateT.run_bind, StateT.run_bind, run_number_of_ends h]
  rfl

/-- Without a dot there is no dotted form, since three of its four numbers have
one after them. -/
theorem run_readV4_of_not_mem (h : '.' ∉ text) : readV4.run text = none := by
  have hoctet : ∀ b rest, octet.run text = some (b, rest) → '.' ∉ rest := by
    intro b rest hread
    unfold octet at hread
    rw [StateT.run_bind] at hread
    obtain ⟨⟨n, left⟩, hn, hleft⟩ := Option.bind_eq_some_iff.mp hread
    cases hleft
    exact fun hdot => h ((suffix_of_run_number hn).mem hdot)
  unfold readV4
  rw [StateT.run_bind]
  cases hread : octet.run text with
  | none => rfl
  | some p =>
      show Option.bind ((char '.').run p.2) _ = none
      rw [run_char_of_not_mem (hoctet p.1 p.2 hread)]
      rfl

-- ================================================================ groups

/-- There is a group for every two bytes. -/
theorem length_groups (bytes : Bytes) : (groups bytes).length = bytes.length / 2 := by
  fun_induction groups bytes with
  | case1 hi lo rest ih =>
      rw [List.length_cons, ih, List.length_cons, List.length_cons]
      omega
  | case2 bytes hshort =>
      match bytes, hshort with
      | [], _ => rfl
      | [_], _ => simp
      | hi :: lo :: rest, hshort => exact absurd rfl (hshort hi lo rest)

/-- A group is a number of 16 bits, so four hexadecimal digits hold it. -/
theorem groups_lt (bytes : Bytes) : ∀ g ∈ groups bytes, g < 65536 := by
  fun_induction groups bytes with
  | case1 hi lo rest ih =>
      have hhi := hi.toNat_lt
      have hlo := lo.toNat_lt
      exact List.forall_mem_cons.mpr ⟨by omega, ih⟩
  | case2 => exact nofun

/-- Groups keep the bytes they are made of, two each. An odd byte at the end
would be lost, hence the condition. -/
theorem groupBytes_groups {bytes : Bytes} (h : bytes.length % 2 = 0) :
    groupBytes (groups bytes) = bytes := by
  fun_induction groups bytes with
  | case1 hi lo rest ih =>
      have hlo := lo.toNat_lt
      have hdiv : (256 * hi.toNat + lo.toNat) / 256 = hi.toNat := by omega
      -- the low byte is below 256, so the division gives both back
      have hmod : UInt8.ofNat (256 * hi.toNat + lo.toNat) = lo := by
        apply UInt8.toNat_inj.mp
        rw [UInt8.toNat_ofNat']
        omega
      have hrest : rest.length % 2 = 0 := by
        rw [List.length_cons, List.length_cons] at h
        omega
      show UInt8.ofNat _ :: UInt8.ofNat _ :: groupBytes (groups rest) = _
      rw [hdiv, hmod, UInt8.ofNat_toNat, ih hrest]
  | case2 bytes hshort =>
      match bytes, hshort with
      | [], _ => rfl
      | [_], _ => cases h
      | hi :: lo :: rest, hshort => exact absurd rfl (hshort hi lo rest)

/-- Groups as they are spelled, the first of them with a colon in front if
others stand before it. -/
def spelled : Bool → List Nat → List Char
  | _, [] => []
  | true, g :: gs => Nat.toDigits 16 g ++ spelled false gs
  | false, g :: gs => ':' :: (Nat.toDigits 16 g ++ spelled false gs)

/-- What is written for groups, as the reader meets it: group by group, with a
colon in front of all but the first. -/
theorem toList_colonHex (gs : List Nat) : (colonHex gs).toList = spelled true gs := by
  have hmore : ∀ g gs, [':'].intercalate ((g :: gs).map fun g => Nat.toDigits 16 g)
      = Nat.toDigits 16 g ++ spelled false gs := by
    intro g gs
    induction gs generalizing g with
    | nil => simp [spelled, List.intercalate]
    | cons next gs ih =>
        rw [List.map_cons, List.map_cons, List.intercalate_cons_cons, ← List.map_cons, ih]
        simp [spelled]
  unfold colonHex
  rw [String.toList_intercalate, List.map_map]
  cases gs with
  | nil => rfl
  | cons g gs =>
      have hdigits : String.toList ∘ numeral 16 = fun g => Nat.toDigits 16 g :=
        funext fun g => toList_numeral 16 g
      rw [hdigits]
      exact hmore g gs

/-- What ends a series of groups: the end of the text, or two colons. -/
def EndsGroups (rest : List Char) : Prop := rest = [] ∨ ∃ after, rest = ':' :: ':' :: after

/-- The digits of a group end at the colon of the next, or where the series
ends. -/
theorem EndsGroups.ends_spelled (h : EndsGroups rest) (gs : List Nat) :
    Ends 16 (spelled false gs ++ rest) := by
  have hcolon : ∀ after, Ends 16 (':' :: after) := fun _ => ends_cons (by decide)
  cases gs with
  | nil =>
      rcases h with rfl | ⟨after, rfl⟩
      · exact ends_nil
      · exact hcolon _
  | cons g gs => exact hcolon _

/-- What can begin neither nothing nor with a colon is not read there. -/
theorem EndsGroups.run_eq_none {α : Type} {r : TextReader α} (h : EndsGroups rest)
    (hnil : r.run [] = none) (hcolon : ∀ after, r.run (':' :: after) = none) (first : Bool) :
    (colonUnlessFirst first *> r).run rest = none := by
  rcases h with rfl | ⟨after, rfl⟩
  · cases first with
    | true => exact hnil
    | false => rfl
  · cases first with
    | true => exact hcolon _
    | false => exact hcolon after

/-- There a series of groups ends. Neither the dotted form nor a number begins
with a colon, or with nothing. -/
theorem groupSeries_of_endsGroups (h : EndsGroups rest) (room : Nat) (first : Bool) :
    groupSeries room first rest = (([], false), rest) := by
  have hcolon : ∀ base ∈ [10, 16], ∀ after, Ends base (':' :: after) := by
    intro base hbase after
    exact ends_cons ((show ∀ b ∈ [10, 16], (digitValue? b ':').isSome = false by decide) base hbase)
  cases room with
  | zero => rfl
  | succ room =>
      have hdotted := h.run_eq_none (run_readV4_of_ends ends_nil)
        (fun after => run_readV4_of_ends (hcolon 10 (by decide) after)) first
      have hgroup := h.run_eq_none (r := number 16 4 65536 true) (run_number_of_ends ends_nil)
        (fun after => run_number_of_ends (hcolon 16 (by decide) after)) first
      rw [groupSeries, hdotted, hgroup, ite_self]

/-- Groups are spelled in hexadecimal digits and colons, so there is no dot
among them. -/
theorem dot_not_mem_spelled (first : Bool) (gs : List Nat) : '.' ∉ spelled first gs := by
  have hdigits : ∀ n, '.' ∉ Nat.toDigits 16 n := by
    intro n hmem
    exact absurd (isSome_of_mem_toDigits (by decide) n '.' hmem) (by decide)
  induction gs generalizing first with
  | nil => cases first <;> exact List.not_mem_nil
  | cons g gs ih =>
      have hrest : '.' ∉ Nat.toDigits 16 g ++ spelled false gs :=
        List.not_mem_append (hdigits g) (ih false)
      cases first with
      | true => exact hrest
      | false => exact List.not_mem_cons_of_ne_of_not_mem (by decide) hrest

/-- Without a dot in the text the dotted form fails wherever it is tried, and a
group is read as such. -/
theorem groupSeries_of_not_mem {room : Nat} (first : Bool) (h : '.' ∉ text) :
    groupSeries (room + 1) first text
      = match (colonUnlessFirst first *> number 16 4 65536 true).run text with
        | none => (([], false), text)
        | some (g, rest) =>
          let ((gs, dotted), rest) := groupSeries room false rest
          ((g :: gs, dotted), rest) := by
  have htail : (colonUnlessFirst first *> readV4).run text = none := by
    cases first with
    | true => exact run_readV4_of_not_mem h
    | false =>
        cases text with
        | nil => rfl
        | cons c rest =>
            by_cases hc : c = ':'
            · subst hc
              exact run_readV4_of_not_mem (List.not_mem_of_not_mem_cons h)
            · show Option.bind ((char ':').run (c :: rest)) _ = none
              rw [run_char_of_ne hc]
              rfl
  have hnone : (if room = 0 then none else (colonUnlessFirst first *> readV4).run text)
      = none := by
    rw [htail, ite_self]
  rw [groupSeries]
  generalize (if room = 0 then none else (colonUnlessFirst first *> readV4).run text) = tail
    at hnone ⊢
  subst hnone
  rfl

/-- A series of groups is read as it is spelled, up to where it ends. By
induction on the groups, with the room that is left for them and whether a
colon has to come first. -/
theorem groupSeries_spelled {gs : List Nat} (hgs : ∀ g ∈ gs, g < 65536)
    (hrest : EndsGroups rest) (hdot : '.' ∉ rest) (room : Nat) (hroom : gs.length ≤ room)
    (first : Bool) :
    groupSeries room first (spelled first gs ++ rest) = ((gs, false), rest) := by
  induction gs generalizing room first with
  | nil =>
      have hspelled : spelled first [] = [] := by cases first <;> rfl
      rw [hspelled, List.nil_append]
      exact groupSeries_of_endsGroups hrest room first
  | cons g gs ih =>
      obtain ⟨hg, hgs⟩ := List.forall_mem_cons.mp hgs
      obtain ⟨room, rfl⟩ : ∃ n, room = n + 1 := ⟨room - 1, by rw [List.length_cons] at hroom; omega⟩
      -- a group has as many digits as the reader takes, or fewer
      have hlength : (Nat.toDigits 16 g).length ≤ 4 :=
        (Nat.length_toDigits_le_iff (by decide) (by decide)).mpr hg
      have hnumber : (number 16 4 65536 true).run (Nat.toDigits 16 g ++ (spelled false gs ++ rest))
          = some (g, spelled false gs ++ rest) :=
        run_number_toDigits (by decide) hg hlength (hrest.ends_spelled gs)
      have hread : (colonUnlessFirst first *> number 16 4 65536 true).run
          (spelled first (g :: gs) ++ rest) = some (g, spelled false gs ++ rest) := by
        cases first with
        | true =>
            show (number 16 4 65536 true).run _ = _
            rw [spelled, List.append_assoc, hnumber]
        | false =>
            show (number 16 4 65536 true).run (_ ++ _) = _
            rw [List.append_assoc, hnumber]
      rw [groupSeries_of_not_mem first (List.not_mem_append (dot_not_mem_spelled _ _) hdot), hread]
      simp only [ih hgs room (Nat.le_of_succ_le_succ hroom) false]

-- ============================================================ zero groups

/-- A run of zeros consists of zeros. -/
theorem take_zeroRun (gs : List Nat) : gs.take (zeroRun gs) = List.replicate (zeroRun gs) 0 := by
  unfold zeroRun
  rw [← List.prefix_iff_eq_take.mp (List.takeWhile_prefix _)]
  refine List.eq_replicate_iff.mpr ⟨rfl, fun g hg => ?_⟩
  simpa using List.mem_takeWhile_imp hg

/-- The run of zeros that is found is there. -/
theorem longestZeroRun_le (gs : List Nat) :
    (longestZeroRun gs).2 ≤ zeroRun (gs.drop (longestZeroRun gs).1) := by
  unfold longestZeroRun
  refine List.foldlRecOn (motive := fun best : Nat × Nat => best.2 ≤ zeroRun (gs.drop best.1))
    _ _ ?_ ?_
  · exact Nat.zero_le _
  · intro best hbest i _
    split
    · exact Nat.le_refl _
    · exact hbest

/-- The groups before the run, as many zeros as it has, and the groups
after it are all the groups: nothing but zeros is left out. -/
theorem take_append_zeros_append_drop (gs : List Nat) :
    gs.take (longestZeroRun gs).1 ++ List.replicate (longestZeroRun gs).2 0
      ++ gs.drop ((longestZeroRun gs).1 + (longestZeroRun gs).2) = gs := by
  rcases hrun : longestZeroRun gs with ⟨start, len⟩
  have hle := longestZeroRun_le gs
  rw [hrun] at hle
  have hmin : min len (zeroRun (gs.drop start)) = len := Nat.min_eq_left hle
  have hzeros : (gs.drop start).take len = List.replicate len 0 := by
    rw [← hmin, ← List.take_take, take_zeroRun, List.take_replicate, hmin]
  show gs.take start ++ List.replicate len 0 ++ gs.drop (start + len) = gs
  rw [← hzeros, List.append_assoc, ← List.drop_drop, List.take_append_drop, List.take_append_drop]

/-- The run ends where the groups end at the latest. -/
theorem longestZeroRun_add_le (gs : List Nat) :
    (longestZeroRun gs).1 + (longestZeroRun gs).2 ≤ gs.length ∨ (longestZeroRun gs).2 = 0 := by
  have hle := longestZeroRun_le gs
  have hrun : zeroRun (gs.drop (longestZeroRun gs).1) ≤ gs.length - (longestZeroRun gs).1 := by
    rw [← List.length_drop]
    exact (List.takeWhile_prefix _).length_le
  omega

-- ================================================================== whole

/-- Eight groups are all there is. -/
theorem run_readV6_of_length {gs : List Nat} {tail : Bool} {o : Octets 16}
    (hseries : groupSeries 8 true text = ((gs, tail), rest)) (hlength : gs.length = 8)
    (hbytes : groupBytes gs = o.bytes) : readV6.run text = some (o, rest) := by
  simp only [StateT.run, readV6, hseries, hlength, hbytes, Octets.ofBytes?_bytes, if_true]
  rfl

/-- Fewer than eight groups stand around two colons, which make up for the rest
with zeros. -/
theorem run_readV6_of_colons {front back : List Nat} {tail : Bool} {after : List Char}
    {o : Octets 16} (hfront : groupSeries 8 true text = ((front, false), ':' :: ':' :: after))
    (hlength : front.length < 8)
    (hback : groupSeries (7 - front.length) true after = ((back, tail), rest))
    (hbytes : groupBytes (front ++ List.replicate (8 - front.length - back.length) 0 ++ back)
      = o.bytes) :
    readV6.run text = some (o, rest) := by
  have hne : front.length ≠ 8 := Nat.ne_of_lt hlength
  have hcolons : (char ':' *> char ':').run (':' :: ':' :: after) = some ((), after) := rfl
  simp only [StateT.run, readV6, hfront, hne, if_false, Bool.false_eq_true]
  show Option.bind ((char ':' *> char ':').run (':' :: ':' :: after)) _ = _
  rw [hcolons]
  simp only [Option.bind_some, hback, hbytes, Octets.ofBytes?_bytes]
  rfl

/-- The two ways in which eight groups are written: all of them, or those
around the longest run of zeros with two colons in its place. -/
theorem toList_compressed (gs : List Nat) {start len : Nat} (h : longestZeroRun gs = (start, len)) :
    (compressed gs).toList
      = if 2 ≤ len then
          spelled true (gs.take start) ++ ':' :: ':' :: spelled true (gs.drop (start + len))
        else spelled true gs := by
  unfold compressed
  rw [h]
  dsimp only
  split
  · rw [String.toList_append, String.toList_append, toList_colonHex, toList_colonHex,
      List.append_assoc]
    rfl
  · exact toList_colonHex gs

/-- Neither way has a dot. -/
theorem dot_not_mem_compressed (gs : List Nat) : '.' ∉ (compressed gs).toList := by
  rw [toList_compressed gs rfl]
  split
  · refine List.not_mem_append (dot_not_mem_spelled _ _) ?_
    refine List.not_mem_cons_of_ne_of_not_mem (by decide) ?_
    exact List.not_mem_cons_of_ne_of_not_mem (by decide) (dot_not_mem_spelled _ _)
  · exact dot_not_mem_spelled _ _

/-- Eight groups are read as they are spelled, with or without two colons
in place of zeros. -/
theorem run_readV6_compressed (o : Octets 16) :
    readV6.run (compressed (groups o.bytes)).toList = some (o, []) := by
  have hlength : (groups o.bytes).length = 8 := by rw [length_groups, o.length_bytes]
  have hbytes : groupBytes (groups o.bytes) = o.bytes :=
    groupBytes_groups (by rw [o.length_bytes])
  have hgroups := groups_lt o.bytes
  generalize groups o.bytes = gs at hlength hbytes hgroups
  have hwhole := take_append_zeros_append_drop gs
  have hfits := longestZeroRun_add_le gs
  rcases hrun : longestZeroRun gs with ⟨start, len⟩
  rw [hrun] at hwhole hfits
  dsimp only at hwhole hfits
  rw [toList_compressed gs hrun]
  by_cases hlen : 2 ≤ len
  · -- the zeros are those that the two colons make up for
    have hstart : start + len ≤ 8 := by omega
    have hfront : (gs.take start).length = start := by
      rw [List.length_take]
      omega
    have hback : (gs.drop (start + len)).length = 8 - start - len := by
      rw [List.length_drop]
      omega
    have hbefore := groupSeries_spelled (fun g hg => hgroups g (List.mem_of_mem_take hg))
      (.inr ⟨spelled true (gs.drop (start + len)), rfl⟩)
      (List.not_mem_cons_of_ne_of_not_mem (by decide) (List.not_mem_cons_of_ne_of_not_mem
        (by decide) (dot_not_mem_spelled _ _)))
      8 (show (gs.take start).length ≤ 8 by omega) true
    have hafter := groupSeries_spelled (fun g hg => hgroups g (List.mem_of_mem_drop hg))
      (.inl rfl) List.not_mem_nil (7 - (gs.take start).length)
      (show (gs.drop (start + len)).length ≤ _ by omega) true
    rw [List.append_nil] at hafter
    rw [if_pos hlen]
    refine run_readV6_of_colons hbefore (by omega) hafter ?_
    have hzeros : 8 - (gs.take start).length - (gs.drop (start + len)).length = len := by omega
    rw [hzeros, hwhole, hbytes]
  · have hseries := groupSeries_spelled hgroups (.inl rfl) List.not_mem_nil 8
      (Nat.le_of_eq hlength) true
    rw [List.append_nil] at hseries
    rw [if_neg hlen]
    exact run_readV6_of_length hseries hlength hbytes

/-- The IPv6 spelling of an IPv4 address is read with its dotted tail. The
dotted form is tried in front of every group, and is there once the first one
has been taken. -/
theorem run_readV6_mapped (o : Octets 4) :
    readV6.run ("::ffff:" ++ dotted o.bytes).toList = some (mapped o, []) := by
  have htail : groupSeries 6 false (':' :: (dotted o.bytes).toList)
      = ((groups o.bytes, true), []) := by
    have hread : (colonUnlessFirst false *> readV4).run (':' :: (dotted o.bytes).toList)
        = some (o, []) := run_readV4_dotted o
    rw [groupSeries, if_neg (by decide), hread]
  -- `ffff` is no dotted form, and after it there is one
  have hafter : groupSeries 7 true ("ffff".toList ++ ':' :: (dotted o.bytes).toList)
      = ((65535 :: groups o.bytes, true), []) := by
    have hgroup : (number 16 4 65536 true).run ("ffff".toList ++ ':' :: (dotted o.bytes).toList)
        = some (65535, ':' :: (dotted o.bytes).toList) :=
      run_number_toDigits (n := 65535) (by decide) (by decide) (by decide) (ends_cons (by decide))
    have hnone : readV4.run ("ffff".toList ++ ':' :: (dotted o.bytes).toList) = none :=
      run_readV4_of_ends (ends_cons (c := 'f') (by decide))
    have hnone' : (colonUnlessFirst true *> readV4).run
        ("ffff".toList ++ ':' :: (dotted o.bytes).toList) = none := hnone
    have hgroup' : (colonUnlessFirst true *> number 16 4 65536 true).run
        ("ffff".toList ++ ':' :: (dotted o.bytes).toList) = _ := hgroup
    rw [groupSeries, if_neg (by decide), hnone', hgroup']
    simp only [htail]
  have hspelled : ("::ffff:" ++ dotted o.bytes).toList
      = ':' :: ':' :: ("ffff".toList ++ ':' :: (dotted o.bytes).toList) := by
    rw [String.toList_append]
    rfl
  have hbytes : groupBytes (groups o.bytes) = o.bytes :=
    groupBytes_groups (by rw [o.length_bytes])
  rw [hspelled]
  refine run_readV6_of_colons (groupSeries_of_endsGroups (.inr ⟨_, rfl⟩) 8 true)
    (show ([] : List Nat).length < 8 by decide) hafter ?_
  have hlength : (groups o.bytes).length = 2 := by rw [length_groups, o.length_bytes]
  show groupBytes ([] ++ List.replicate (8 - 0 - (65535 :: groups o.bytes).length) 0
    ++ 65535 :: groups o.bytes) = _
  rw [List.length_cons, hlength, List.nil_append]
  unfold groupBytes at hbytes ⊢
  rw [List.flatMap_append, List.flatMap_cons, hbytes]
  rfl

/-- An address that spells an IPv4 one is the spelling of it. -/
theorem eq_mapped_of_unmapped? {o : Octets 16} {o' : Octets 4} (h : unmapped? o = some o') :
    o = mapped o' := by
  unfold unmapped? at h
  split at h
  · next hlead =>
      cases h
      refine Octets.bytes_injective ?_
      show o.bytes = mappedLead.bytes ++ o.bytes.drop 12
      rw [← hlead, List.take_append_drop]
  · cases h

/-- A text that is no dotted decimal is read as groups. -/
theorem parse?_v6 {s : String} {o : Octets 16} (hdotted : readV4.run s.toList = none)
    (hgroups : readV6.run s.toList = some (o, [])) : parse? s = some (.v6 o) := by
  unfold parse? whole?
  rw [hdotted, hgroups]
  rfl

/-- The text of an address is read as that address, whatever the address
and whichever of the three forms its text has. -/
theorem parse?_text (a : Ip) : parse? a.text = some a := by
  cases a with
  | v4 o =>
      unfold parse? whole? text
      rw [run_readV4_dotted]
  | v6 o =>
      cases hunmapped : unmapped? o with
      | some o' =>
          have htext : (v6 o).text = "::ffff:" ++ dotted o'.bytes := by
            simp only [text, hunmapped]
          rw [htext, eq_mapped_of_unmapped? hunmapped]
          refine parse?_v6 (run_readV4_of_ends ?_) (run_readV6_mapped o')
          rw [String.toList_append]
          exact ends_cons (c := ':') (by decide)
      | none =>
          have htext : (v6 o).text = compressed (groups o.bytes) := by
            simp only [text, hunmapped]
          rw [htext]
          exact parse?_v6 (run_readV4_of_not_mem (dot_not_mem_compressed _))
            (run_readV6_compressed o)

end Ip

/-- The bytes of a text spell that text. -/
theorem text?_utf8 (s : String) : text? (utf8 s) = some s := by
  have hbytes : ByteArray.mk (utf8 s).toArray = s.toByteArray := by
    rw [← String.utf8Encode_toList]
    exact ByteArray.ext List.data_toByteArray.symm
  unfold text? String.fromUTF8?
  rw [hbytes, dif_pos s.isValidUTF8]
  rfl

/-- What goes out for an address can be read as that address and no
other. -/
theorem Ip.parse?_text_bytes (a : Ip) : (text? (utf8 a.text)).bind Ip.parse? = some a := by
  rw [text?_utf8, Option.bind_some, parse?_text]

end TorrentTracker
