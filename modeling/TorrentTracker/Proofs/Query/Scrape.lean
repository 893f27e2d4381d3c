import Mathlib.Data.List.Forall2
import TorrentTracker.Proofs.Query
import TorrentTracker.Query.Scrape

/-
The queries that ask for a list of info hashes.

Of a query a scrape looks at the values under one key and at nothing else.
If they decode to the bytes of some hashes (`Spells`), as many as one may
ask for, the query is read as these hashes in their order and with their
repetitions, and no other query is read as them (`parse_eq_ok_iff`). There
is one for every list of hashes (`spells_write`).

A query that is turned down for its values has a bad one as long as there
is room, or good ones as long as there is room and then another
(`turned_down_of_hashes`, by induction on the values, with the room that is
left). These exclude each other and what is accepted, so each error is
given under its condition exactly.

# Main statement

- `exact_acceptance`: which queries are accepted, and which are turned down
  for what.
-/

namespace TorrentTracker.ScrapeQuery

variable {query : Bytes} {listed : List Bytes} {found : List InfoHash} {seen : Nat}

/-- Values that decode to the bytes of hashes, one by one. -/
def Name (listed : List Bytes) (found : List InfoHash) : Prop :=
  List.Forall₂ (fun value hash => Percent.decode value = .ok hash.bytes) listed found

/-- A query whose values for info hashes decode to these, in order. -/
def Spells (query : Bytes) (found : List InfoHash) : Prop := Name (values query) found

-- ============================================================== reading

/-- A value is read as a hash just if its escapes decode to the bytes of
one. -/
theorem id?_eq_some_iff {value : Bytes} {hash : InfoHash} :
    Query.id? value = some hash ↔ Percent.decode value = .ok hash.bytes := by
  refine ⟨Query.decode_of_id?, fun hdecode => ?_⟩
  unfold Query.id?
  rw [hdecode]
  exact Octets.ofBytes?_bytes hash

theorem name_nil_iff : Name [] found ↔ found = [] := List.forall₂_nil_left_iff

/-- Values name hashes one by one, in their order, so a hash that is named
twice is in the list twice. -/
theorem name_cons_iff {value : Bytes} :
    Name (value :: listed) found
      ↔ ∃ hash others, Query.id? value = some hash ∧ Name listed others
        ∧ found = hash :: others := by
  simp only [id?_eq_some_iff]
  exact List.forall₂_cons_left_iff

/-- As long as there is room for them, values are read as what they
name. -/
theorem hashes_eq_ok_iff (hseen : seen ≤ maxScrapeHashes) :
    hashes seen listed = .ok found
      ↔ Name listed found ∧ seen + listed.length ≤ maxScrapeHashes := by
  induction listed generalizing seen found with
  | nil =>
      rw [name_nil_iff, and_iff_left (by simpa using hseen)]
      exact (Except.ok.injEq _ _).to_iff.trans eq_comm
  | cons value rest ih =>
      unfold hashes
      rw [name_cons_iff, List.length_cons]
      by_cases hfull : seen = maxScrapeHashes
      · rw [if_pos hfull]
        -- one value more than there may be, whatever it is
        exact iff_of_false nofun (by omega)
      rw [if_neg hfull]
      constructor
      · intro hread
        cases hvalue : Query.id? value with
        | none =>
            rw [hvalue] at hread
            cases hread
        | some hash =>
            cases hrest : hashes (seen + 1) rest with
            | error e =>
                rw [hvalue, hrest] at hread
                cases hread
            | ok others =>
                rw [hvalue, hrest] at hread
                cases hread
                obtain ⟨hnames, hroom⟩ := (ih (by omega)).mp hrest
                exact ⟨⟨hash, others, rfl, hnames, rfl⟩, by omega⟩
      · rintro ⟨⟨hash, others, hvalue, hnames, rfl⟩, hroom⟩
        have hrest := (@ih others (seen + 1) (by omega)).mpr ⟨hnames, by omega⟩
        rw [hvalue, hrest]
        rfl

/-- A query is accepted if its values are, and there is one. Pairs under other
keys have to decode, but say nothing. -/
theorem parse_eq_ok_iff_hashes :
    parse query = .ok found ↔ hashes 0 (values query) = .ok found ∧ found ≠ [] := by
  unfold parse
  cases hashes 0 (values query) with
  | error e => exact iff_of_false nofun nofun
  | ok others =>
      cases others with
      | nil =>
          refine iff_of_false nofun ?_
          rintro ⟨⟨⟩, hsome⟩
          exact hsome rfl
      | cons hash rest =>
          refine (and_iff_left_of_imp ?_).symm
          rintro ⟨⟩
          exact List.cons_ne_nil hash rest

/-- A query is read as the hashes that it spells, one at least and no more
than the limit. -/
theorem parse_eq_ok_iff :
    parse query = .ok found
      ↔ Spells query found ∧ found ≠ [] ∧ found.length ≤ maxScrapeHashes := by
  rw [parse_eq_ok_iff_hashes, hashes_eq_ok_iff (Nat.zero_le _), Nat.zero_add, and_assoc,
    and_comm (b := found ≠ [])]
  refine and_congr_right fun hnames => ?_
  rw [List.Forall₂.length_eq hnames]

-- =============================================================== errors

/-- A value that decodes to as many bytes as a hash has. -/
def Fits (value : Bytes) : Prop := ∃ bytes, Percent.decode value = .ok bytes ∧ bytes.length = 20

theorem fits_iff {value : Bytes} : Fits value ↔ ∃ hash, Query.id? value = some hash := by
  simp only [id?_eq_some_iff]
  constructor
  · rintro ⟨bytes, hdecode, hlength⟩
    exact ⟨⟨bytes, hlength⟩, hdecode⟩
  · rintro ⟨hash, hdecode⟩
    exact ⟨hash.bytes, hdecode, hash.length_bytes⟩

theorem Name.fits (h : Name listed found) : ∀ value ∈ listed, Fits value := by
  induction h with
  | nil => exact nofun
  | @cons value hash rest others hdecode _ ih =>
      exact List.forall_mem_cons.mpr ⟨⟨hash.bytes, hdecode, hash.length_bytes⟩, ih⟩

theorem exists_name (h : ∀ value ∈ listed, Fits value) : ∃ found, Name listed found := by
  induction listed with
  | nil => exact ⟨[], .nil⟩
  | cons value rest ih =>
      obtain ⟨hvalue, hrest⟩ := List.forall_mem_cons.mp h
      obtain ⟨hash, hhash⟩ := fits_iff.mp hvalue
      obtain ⟨others, hothers⟩ := ih hrest
      exact ⟨hash :: others, name_cons_iff.mpr ⟨hash, others, hhash, hothers, rfl⟩⟩

/-- What is wrong with values of which so many may be read. -/
inductive TurnedDown (listed : List Bytes) (room : Nat) : Query.Error → Prop where
  | invalid {value : Bytes} (hvalue : value ∈ listed.take room) (hbad : ¬Fits value) :
      TurnedDown listed room .invalidInfoHash
  | exceeded (hfit : ∀ value ∈ listed.take room, Fits value) (hmore : room < listed.length) :
      TurnedDown listed room (.tooManyHashes maxScrapeHashes)

/-- The values are gone through from the first one, so the first that is too
many or does not fit decides. By induction on the values, with one less to go
at each. -/
theorem turned_down_of_hashes {e : Query.Error} (hseen : seen ≤ maxScrapeHashes)
    (h : hashes seen listed = .error e) : TurnedDown listed (maxScrapeHashes - seen) e := by
  induction listed generalizing seen with
  | nil => cases h
  | cons value rest ih =>
      unfold hashes at h
      by_cases hfull : seen = maxScrapeHashes
      · rw [if_pos hfull] at h
        cases h
        -- the limit is met before the value is looked at
        refine .exceeded (fun other hother => ?_) ?_
        · rw [hfull, Nat.sub_self, List.take_zero] at hother
          cases hother
        · rw [List.length_cons]
          omega
      rw [if_neg hfull] at h
      have hroom : maxScrapeHashes - seen = maxScrapeHashes - (seen + 1) + 1 := by omega
      rw [hroom]
      cases hvalue : Query.id? value with
      | none =>
          rw [hvalue] at h
          cases h
          refine .invalid (List.mem_cons_self (a := value)) ?_
          rw [fits_iff, hvalue]
          exact nofun
      | some hash =>
          cases hrest : hashes (seen + 1) rest with
          | ok others =>
              rw [hvalue, hrest] at h
              cases h
          | error e' =>
              rw [hvalue, hrest] at h
              cases h
              cases ih (by omega) hrest with
              | invalid hmem hbad => exact .invalid (List.mem_cons_of_mem value hmem) hbad
              | exceeded hfit hmore =>
                  refine .exceeded (List.forall_mem_cons.mpr ⟨?_, hfit⟩) ?_
                  · exact fits_iff.mpr ⟨hash, hvalue⟩
                  · rw [List.length_cons]
                    omega

/-- What a query that is turned down does not have, or what is wrong with
the values it has. -/
theorem turned_down_of_parse {e : Query.Error} (h : parse query = .error e) :
    (values query = [] ∧ e = .missing key) ∨ TurnedDown (values query) maxScrapeHashes e := by
  unfold parse at h
  cases hread : hashes 0 (values query) with
  | error e' =>
      rw [hread] at h
      cases h
      exact .inr (turned_down_of_hashes (Nat.zero_le _) hread)
  | ok found =>
      rw [hread] at h
      cases found with
      | cons hash rest => cases h
      | nil =>
          cases h
          have hnames := ((hashes_eq_ok_iff (Nat.zero_le _)).mp hread).1
          exact .inl ⟨List.forall₂_nil_right_iff.mp hnames, rfl⟩

/-- What is accepted has values, not too many, and all of them fit. -/
theorem fits_of_parse (h : parse query = .ok found) :
    (1 ≤ (values query).length ∧ (values query).length ≤ maxScrapeHashes)
      ∧ ∀ value ∈ values query, Fits value := by
  obtain ⟨hspells, hsome, hlimit⟩ := parse_eq_ok_iff.mp h
  have hlength : (values query).length = found.length := List.Forall₂.length_eq hspells
  rw [hlength]
  exact ⟨⟨List.length_pos_iff.mpr hsome, hlimit⟩, Name.fits hspells⟩

theorem exists_parse_eq_ok_iff :
    (∃ found, parse query = .ok found)
      ↔ (1 ≤ (values query).length ∧ (values query).length ≤ maxScrapeHashes)
        ∧ ∀ value ∈ values query, Fits value := by
  constructor
  · rintro ⟨found, hparse⟩
    exact fits_of_parse hparse
  · rintro ⟨⟨hsome, hlimit⟩, hfit⟩
    obtain ⟨found, hnames⟩ := exists_name hfit
    have hlength : (values query).length = found.length := List.Forall₂.length_eq hnames
    rw [hlength] at hsome hlimit
    exact ⟨found, parse_eq_ok_iff.mpr ⟨hnames, List.length_pos_iff.mp hsome, hlimit⟩⟩

/-- A query is turned down for a missing hash just if no value is listed, be
there other pairs in it or none. -/
theorem parse_eq_missing_iff : parse query = .error (.missing key) ↔ values query = [] := by
  constructor
  · intro hparse
    rcases turned_down_of_parse hparse with ⟨hnone, -⟩ | hbad
    · exact hnone
    · cases hbad
  · intro hnone
    unfold parse
    rw [hnone]
    rfl

/-- It is turned down for a bad hash just if one of those up to the limit does
not fit. -/
theorem parse_eq_invalid_iff :
    parse query = .error .invalidInfoHash
      ↔ ∃ value ∈ (values query).take maxScrapeHashes, ¬Fits value := by
  constructor
  · intro hparse
    rcases turned_down_of_parse hparse with ⟨-, hmissing⟩ | hbad
    · cases hmissing
    · cases hbad with
      | invalid hvalue hbad => exact ⟨_, hvalue, hbad⟩
  · rintro ⟨value, hvalue, hbad⟩
    have hmem := List.mem_of_mem_take hvalue
    cases hparse : parse query with
    | ok found => exact absurd ((fits_of_parse hparse).2 value hmem) hbad
    | error e =>
        rcases turned_down_of_parse hparse with ⟨hnone, -⟩ | hdown
        · rw [hnone] at hmem
          cases hmem
        · cases hdown with
          | invalid => rfl
          | exceeded hfit => exact absurd (hfit value hvalue) hbad

/-- It is turned down for too many just if all of those fit and there are
more. -/
theorem parse_eq_exceeded_iff :
    parse query = .error (.tooManyHashes maxScrapeHashes)
      ↔ (∀ value ∈ (values query).take maxScrapeHashes, Fits value)
        ∧ maxScrapeHashes < (values query).length := by
  constructor
  · intro hparse
    rcases turned_down_of_parse hparse with ⟨-, hmissing⟩ | hbad
    · cases hmissing
    · cases hbad with
      | exceeded hfit hmore => exact ⟨hfit, hmore⟩
  · rintro ⟨hfit, hmore⟩
    cases hparse : parse query with
    | ok found => exact absurd (fits_of_parse hparse).1.2 (Nat.not_le.mpr hmore)
    | error e =>
        rcases turned_down_of_parse hparse with ⟨hnone, -⟩ | hdown
        · rw [hnone] at hmore
          exact absurd hmore (Nat.not_lt_zero _)
        · cases hdown with
          | invalid hvalue hbad => exact absurd (hfit _ hvalue) hbad
          | exceeded => rfl

/-- Which queries are accepted, and which are turned down for what. Accepted
are those with values for info hashes that all fit, one at least and at most
as many as one may ask for, and they are read as what these decode to, in
order. Of those that are turned down some have no such value, others a bad
one among the first, and the rest have good ones first and then one more,
good or bad. -/
structure Exact (query : Bytes) : Prop where
  accepted : (∃ found, parse query = .ok found)
    ↔ (1 ≤ (values query).length ∧ (values query).length ≤ 74) ∧ ∀ value ∈ values query, Fits value
  listed : ∀ found, parse query = .ok found → Spells query found
  missing : parse query = .error (.missing "info_hash") ↔ values query = []
  invalid : parse query = .error .invalidInfoHash
    ↔ ∃ value ∈ (values query).take 74, ¬Fits value
  exceeded : parse query = .error (.tooManyHashes 74)
    ↔ (∀ value ∈ (values query).take 74, Fits value) ∧ 74 < (values query).length
  wording : [Query.Error.missing "info_hash", .invalidInfoHash, .tooManyHashes 74].map
      Query.Error.message
    = ["missing info_hash", "invalid info hash", "exceeded 74 hashes"]

/-- The four outcomes, each with its condition. The values are taken in order,
so of two things that are wrong the first one is told. -/
theorem exact_acceptance (query : Bytes) : Exact query where
  accepted := exists_parse_eq_ok_iff
  listed := fun _ hparse => (parse_eq_ok_iff.mp hparse).1
  missing := parse_eq_missing_iff
  invalid := parse_eq_invalid_iff
  exceeded := parse_eq_exceeded_iff
  wording := by decide

-- =============================================================== writing

/-- A hash as the pair that asks for it, every byte escaped. -/
def pairOf (hash : InfoHash) : Bytes × Bytes := (utf8 key, Percent.encode hash.bytes)

/-- A query that asks for hashes. -/
def write (found : List InfoHash) : Bytes := Query.join (found.map pairOf)

/-- A written pair has no mark in it that could be taken for its end. -/
theorem plain_pairOf (hash : InfoHash) : Query.Plain (pairOf hash) where
  key := by
    show 38 ∉ utf8 key ∧ 61 ∉ utf8 key
    decide
  value := Percent.not_mem_encode hash.bytes

/-- A written query lists the hashes it was written for. -/
theorem values_write (found : List InfoHash) :
    values (write found) = found.map fun hash => Percent.encode hash.bytes := by
  have hplain : ∀ pair ∈ found.map pairOf, Query.Plain pair :=
    List.forall_mem_map.mpr fun hash _ => plain_pairOf hash
  have hkey : ∀ pair ∈ found.map pairOf, decide (pair.1 = utf8 key) = true :=
    List.forall_mem_map.mpr fun hash _ => decide_eq_true rfl
  unfold values write
  rw [Query.pairs_join hplain, List.filter_eq_self.mpr hkey, List.map_map]
  rfl

/-- So every list of hashes is spelled by some query. -/
theorem spells_write (found : List InfoHash) : Spells (write found) found := by
  unfold Spells Name
  rw [values_write, List.forall₂_map_left_iff, List.forall₂_same]
  exact fun hash _ => Percent.decode_of_renders (Percent.renders_encode hash.bytes)

end TorrentTracker.ScrapeQuery
