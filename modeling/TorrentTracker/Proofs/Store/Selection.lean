import Mathlib.Data.List.GetD
import Mathlib.Data.List.Perm.Subperm
import TorrentTracker.Proofs.Store

/-
Lists of peers: everybody there is, or a sample.

Two lists of peers are drawn from a swarm, one with the ids and without the
peer that asks, one packed and of a single family. Whether to sample is
decided on the whole swarm, while what is sampled are the candidates, of
which there may be fewer. That makes no difference: a swarm that is no
larger than what is wanted has no more candidates than that, and a sample
takes all candidates if they are few. So either list is as long as is
wanted or as there are candidates (`length_select`), and nobody is in it
twice (`subperm_select`).

# Outcomes

A sample is drawn by raw numbers, and a statement about all numbers is one
about all outcomes only if every outcome has its numbers. It has:
`exists_choose_eq` finds them for every selection, in every order.

# Main statement

- `sampled`: what is in the two lists, how much of it, and that a large
  swarm can be sampled in every way there is.
-/

namespace TorrentTracker

variable {α : Type}

-- ================================================================ draws

theorem subperm_eraseIdx {xs ys : List α} {i : Nat} (hi : i < xs.length)
    (h : (xs[i] :: ys).Subperm xs) : ys.Subperm (xs.eraseIdx i) :=
  List.subperm_cons _ |>.mp (h.trans (List.getElem_cons_eraseIdx_perm hi).symm.subperm)

/-- Every selection of the right size can be drawn, in the order it is
given in. -/
theorem exists_choose_eq {k : Nat} {xs ys : List α} (h : ys.Subperm xs)
    (hlength : ys.length = min k xs.length) : ∃ picks, choose picks k xs = ys := by
  induction ys generalizing k xs with
  | nil =>
      refine ⟨[], List.length_eq_zero_iff.mp ?_⟩
      rw [length_choose, ← hlength]
      rfl
  | cons y ys ih =>
      obtain ⟨i, hi, rfl⟩ := List.mem_iff_getElem.mp (h.subset List.mem_cons_self)
      have herase := List.length_eraseIdx_of_lt hi
      rw [List.length_cons] at hlength
      obtain ⟨k, rfl⟩ := Nat.exists_eq_succ_of_ne_zero (show k ≠ 0 by omega)
      obtain ⟨picks, hpicks⟩ := ih (k := k) (subperm_eraseIdx hi h) (by omega)
      refine ⟨i :: picks, ?_⟩
      cases xs with
      | nil => cases hi
      | cons x xs =>
          -- the first pick is a position there is, so it is not reduced
          have hfirst : (i :: picks).headD 0 % (x :: xs).length = i := Nat.mod_eq_of_lt hi
          show (x :: xs).getD _ x :: choose picks k ((x :: xs).eraseIdx _) = _
          rw [hfirst, hpicks, List.getD_eq_getElem _ _ hi]

/-- The peers of a swarm but one, if one is named. -/
def Swarm.without (w : Swarm) (exclude : Option PeerId) : Table PeerId Peer :=
  exclude.elim w.peers w.peers.erase

/-- Leaving one id out leaves the others as they are. -/
theorem Swarm.get?_without (w : Swarm) (exclude : Option PeerId) (id : PeerId) :
    (w.without exclude).get? id = if exclude = some id then none else w.peers.get? id := by
  cases exclude with
  | none => rfl
  | some other => exact (Table.get?_erase _ _ _).trans (by simp only [Option.some_inj])

namespace Store

variable {s : Store} {hash : InfoHash} {wanted : Nat} {picks picks' : List Nat}
  {exclude : Option PeerId} {family : Family}

-- =========================================================== candidates

/-- The candidates are the peers of the swarm but the one that asks. -/
theorem mem_others_iff {entry : PeerId × Peer} :
    entry ∈ s.others hash exclude
      ↔ exclude ≠ some entry.1 ∧ s.peer? hash entry.1 = some entry.2 := by
  unfold others peer?
  rw [List.mem_filter, Table.mem_toList_iff, decide_eq_true_iff, and_comm]

theorem nodup_others (s : Store) (hash : InfoHash) (exclude : Option PeerId) :
    ((s.others hash exclude).map Prod.fst).Nodup :=
  (s.swarm hash).peers.nodup_keys.sublist (List.filter_sublist.map _)

/-- The candidates with ids are the peers of the swarm but one. -/
theorem others_perm (s : Store) (hash : InfoHash) (exclude : Option PeerId) :
    (s.others hash exclude).Perm ((s.swarm hash).without exclude).toList := by
  refine (Table.toList_perm (s.nodup_others hash exclude) fun id p => ?_).symm
  rw [Swarm.get?_without, mem_others_iff]
  by_cases hid : exclude = some id
  · rw [if_pos hid]
    exact iff_of_false nofun fun h => h.1 hid
  · rw [if_neg hid]
    exact (and_iff_right hid).symm

theorem length_others (s : Store) (hash : InfoHash) (exclude : Option PeerId) :
    (s.others hash exclude).length = ((s.swarm hash).without exclude).size := by
  rw [(s.others_perm hash exclude).length_eq, Table.length_toList]

theorem length_others_le (s : Store) (hash : InfoHash) (exclude : Option PeerId) :
    (s.others hash exclude).length ≤ (s.swarm hash).peers.size := by
  rw [← Table.length_toList]
  exact List.length_filter_le _ _

theorem length_inFamily (s : Store) (hash : InfoHash) (family : Family) :
    (s.inFamily hash family).length
      = (s.swarm hash).peers.count fun p => p.family = family :=
  List.countP_eq_length_filter.symm

theorem length_inFamily_le (s : Store) (hash : InfoHash) (family : Family) :
    (s.inFamily hash family).length ≤ (s.swarm hash).peers.size := by
  rw [length_inFamily]
  exact Table.count_le_size _ _

-- =========================================================== selections

/-- A selection takes as many as are wanted, or all there are. Which of the two
it is depends on the whole swarm. -/
theorem length_select {candidates : List α}
    (h : candidates.length ≤ (s.swarm hash).peers.size) (picks : List Nat) (wanted : Nat) :
    (s.select hash picks wanted candidates).length = min wanted candidates.length := by
  unfold select
  by_cases hsmall : (s.swarm hash).peers.size ≤ wanted
  · rw [if_pos hsmall]
    omega
  · rw [if_neg hsmall]
    exact length_choose picks wanted candidates

/-- What is selected is some of what there is, nothing more often than it
is there. -/
theorem subperm_select (s : Store) (hash : InfoHash) (picks : List Nat) (wanted : Nat)
    (candidates : List α) : (s.select hash picks wanted candidates).Subperm candidates := by
  unfold select
  by_cases hsmall : (s.swarm hash).peers.size ≤ wanted
  · rw [if_pos hsmall]
  · rw [if_neg hsmall]
    obtain ⟨left, hperm⟩ := exists_perm_choose picks wanted candidates
    exact (List.sublist_append_left _ left).subperm.trans hperm.subperm

/-- All candidates are selected if all are wanted. -/
theorem select_perm {candidates : List α}
    (h : candidates.length ≤ (s.swarm hash).peers.size) (hall : candidates.length ≤ wanted)
    (picks : List Nat) : (s.select hash picks wanted candidates).Perm candidates := by
  refine (s.subperm_select hash picks wanted candidates).perm_of_length_le ?_
  rw [length_select h]
  omega

/-- The picks matter only where there are more peers than are wanted; else all
candidates are taken as they are. -/
theorem select_congr (h : wanted < (s.swarm hash).peers.size → picks = picks')
    (candidates : List α) :
    s.select hash picks wanted candidates = s.select hash picks' wanted candidates := by
  unfold select
  by_cases hsmall : (s.swarm hash).peers.size ≤ wanted
  · rw [if_pos hsmall, if_pos hsmall]
  · rw [if_neg hsmall, if_neg hsmall, h (Nat.lt_of_not_le hsmall)]

/-- From a swarm that is too large to list every selection can come, in every
order, by some picks. -/
theorem exists_select_eq {candidates found : List α}
    (hlarge : wanted < (s.swarm hash).peers.size) (h : found.Subperm candidates)
    (hlength : found.length = min wanted candidates.length) :
    ∃ picks, s.select hash picks wanted candidates = found := by
  unfold select
  simp only [if_neg (Nat.not_le.mpr hlarge)]
  exact exists_choose_eq h hlength

-- ================================================================ lists

/-- A list of peers with their ids, from a swarm without the one that asks:
as many as are wanted or as there are, no id twice, and each peer as it is
filed. -/
structure Listed (s : Store) (hash : InfoHash) (wanted : Nat) (exclude : Option PeerId)
    (found : List (PeerId × Peer)) : Prop where
  length_eq : found.length = min wanted ((s.swarm hash).without exclude).size
  nodup_ids : (found.map Prod.fst).Nodup
  filed : ∀ entry ∈ found, exclude ≠ some entry.1 ∧ s.peer? hash entry.1 = some entry.2

/-- A list of peers is a selection from the candidates, as they are stored. A
client that asks is no candidate for its own list. -/
theorem listed_peerList (s : Store) (hash : InfoHash) (wanted : Nat) (exclude : Option PeerId)
    (picks : List Nat) : s.Listed hash wanted exclude (s.peerList hash wanted exclude picks) := by
  have hsubperm := s.subperm_select hash picks wanted (s.others hash exclude)
  constructor
  case length_eq =>
    rw [← length_others]
    exact length_select (s.length_others_le hash exclude) picks wanted
  case nodup_ids =>
    obtain ⟨listed, hperm, hsublist⟩ := hsubperm
    have hlisted := (s.nodup_others hash exclude).sublist (hsublist.map Prod.fst)
    exact (hperm.map Prod.fst).nodup_iff.mp hlisted
  case filed => exact fun entry hentry => mem_others_iff.mp (hsubperm.subset hentry)

theorem Listed.subperm {found : List (PeerId × Peer)} (h : s.Listed hash wanted exclude found) :
    found.Subperm (s.others hash exclude) :=
  List.subperm_of_subset (List.Nodup.of_map _ h.nodup_ids)
    fun entry hentry => mem_others_iff.mpr (h.filed entry hentry)

/-- Packed peers of a swarm in one family: whole entries, as many as are
wanted or as there are, and no more entries for a peer than it has. -/
structure Packed (s : Store) (hash : InfoHash) (wanted : Nat) (family : Family)
    (data : Bytes) : Prop where
  entries : ∃ entries : List Bytes, data = entries.flatten
    ∧ (∀ entry ∈ entries, entry.length = family.compactWidth)
    ∧ entries.length = min wanted ((s.swarm hash).peers.count fun p => p.family = family)
    ∧ entries.Subperm ((s.inFamily hash family).map Peer.compact)
    ∧ ((s.inFamily hash family).length ≤ wanted →
        entries.Perm ((s.inFamily hash family).map Peer.compact))

/-- Packed peers are whole entries, of a selection from one family. The others
are left out before the selection is made, not after. -/
theorem packed_compactPeers (s : Store) (hash : InfoHash) (wanted : Nat) (family : Family)
    (picks : List Nat) :
    s.Packed hash wanted family (s.compactPeers hash wanted family picks) := by
  have hle := s.length_inFamily_le hash family
  have hsubperm := s.subperm_select hash picks wanted (s.inFamily hash family)
  refine ⟨(s.select hash picks wanted (s.inFamily hash family)).map Peer.compact, ?_, ?_, ?_, ?_,
    fun hall => (select_perm hle hall picks).map _⟩
  · unfold compactPeers
    exact List.flatMap_def
  · intro entry hentry
    obtain ⟨p, hp, rfl⟩ := List.mem_map.mp hentry
    have hfamily := (List.mem_filter.mp (hsubperm.subset hp)).2
    rw [p.length_compact, of_decide_eq_true hfamily]
  · rw [List.length_map, length_select hle, length_inFamily]
  · obtain ⟨listed, hperm, hsublist⟩ := hsubperm
    exact ⟨_, hperm.map _, hsublist.map _⟩

/-- There is nothing to select under a hash without a swarm. -/
theorem select_of_unknown (h : s.swarms.get? hash = none) {candidates : List α}
    (hle : candidates.length ≤ (s.swarm hash).peers.size) :
    s.select hash picks wanted candidates = [] := by
  rw [swarm_of_get?_none h] at hle
  have hnone := List.length_eq_zero_iff.mp (Nat.le_zero.mp hle)
  rw [hnone]
  exact List.subperm_nil.mp (s.subperm_select hash picks wanted [])

/-- Whatever is drawn, both lists are exact: as long as is wanted or as
there are candidates, and made of candidates, none of them twice. Nobody is
left out if all are wanted, there is nothing under an unknown hash, and
from a swarm that is too large to list every selection can come. -/
structure Sampled (s : Store) (hash : InfoHash) (wanted : Nat) : Prop where
  listed : ∀ exclude picks, s.Listed hash wanted exclude (s.peerList hash wanted exclude picks)
  packed : ∀ family picks, s.Packed hash wanted family (s.compactPeers hash wanted family picks)
  everybody : ∀ exclude picks, ((s.swarm hash).without exclude).size ≤ wanted →
    (s.peerList hash wanted exclude picks).Perm ((s.swarm hash).without exclude).toList
  nobody : s.swarms.get? hash = none → ∀ exclude family picks,
    s.peerList hash wanted exclude picks = [] ∧ s.compactPeers hash wanted family picks = []
  outcomes : wanted < (s.swarm hash).peers.size →
    (∀ exclude found, s.Listed hash wanted exclude found →
        ∃ picks, s.peerList hash wanted exclude picks = found)
      ∧ ∀ family (found : List Peer), found.Subperm (s.inFamily hash family) →
        found.length = min wanted (s.inFamily hash family).length →
        ∃ picks, s.compactPeers hash wanted family picks = found.flatMap Peer.compact

/-- The law of both lists, by that of the selection they are made with. Which
peers are picked depends on the draws; how many, and of whom, does not. -/
theorem sampled (s : Store) (hash : InfoHash) (wanted : Nat) : s.Sampled hash wanted where
  listed := s.listed_peerList hash wanted
  packed := s.packed_compactPeers hash wanted
  everybody := by
    intro exclude picks hall
    rw [← length_others] at hall
    exact (select_perm (s.length_others_le hash exclude) hall picks).trans
      (s.others_perm hash exclude)
  nobody := by
    intro h exclude family picks
    unfold peerList compactPeers
    rw [select_of_unknown h (s.length_others_le hash exclude),
      select_of_unknown h (s.length_inFamily_le hash family)]
    exact ⟨rfl, rfl⟩
  outcomes := by
    intro hlarge
    constructor
    · intro exclude found hfound
      have hlength := hfound.length_eq
      rw [← length_others] at hlength
      exact exists_select_eq hlarge hfound.subperm hlength
    · intro family found hsubperm hlength
      obtain ⟨picks, hpicks⟩ := exists_select_eq hlarge hsubperm hlength
      exact ⟨picks, congrArg (List.flatMap Peer.compact) hpicks⟩

end Store

end TorrentTracker
