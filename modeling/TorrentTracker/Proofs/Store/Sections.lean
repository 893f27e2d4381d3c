import Mathlib.Logic.Function.Basic
import TorrentTracker.Proofs.Store.Reached
import TorrentTracker.Store.Sections

/-
Callers side by side: what becomes of the store when the sections of any
number of operations come in any order.

A caller that has begun an operation holds a list of sections it has yet
to enter, and a step is one caller entering its next one (`Step`). Nothing
is said of the order: a run is any sequence of steps. The reference are
the sections alone, in the order they came. To the peers each of them is a
change of its own (`Section.act`), except the second step of a drop, which
is none.

# The invariant

A drop leaves its swarm empty and lets go of the lock, so an empty swarm
may be seen by anyone, saved into again, trimmed away or emptied a second
time before the drop comes back. What holds at every moment (`Sound`):

1. the peers are those that the sections so far make;
2. every running count is a recount, also in an empty swarm;
3. under the hash of every empty swarm some caller has yet to prune.

Of the three only the last is about callers. A section makes no swarm
empty without giving its caller the prune (`vacant_enter`), and the caller
that loses a prune has just removed the swarm it was for. When nobody has
anything left to do there is therefore no empty swarm, and by
`Consistent.ext` the store is the one that the operations leave when each
is done as a whole, where its first section came.

# Main statements

- `trim_eq_sweep`, `Run.alone`: an operation that nobody comes between is
  the whole operation;
- `Run.interleaved`: what holds at every moment of every run, and when all
  that was begun is finished.
-/

namespace TorrentTracker.Store

variable {s t : Store} {now : Seconds} {ttl : Int64} {sec : Section}

-- ========================================================= one section

/-- A trim of one swarm does there what the whole trim does, and nothing
elsewhere. -/
theorem get?_trimSwarm (s : Store) (hash hash' : InfoHash) (now : Seconds) (ttl : Int64) :
    (s.trimSwarm hash now ttl).1.swarms.get? hash'
      = if hash = hash' then (s.trim now ttl).1.swarms.get? hash'
        else s.swarms.get? hash' := by
  unfold trimSwarm
  cases hw : s.swarms.get? hash with
  | none =>
      show s.swarms.get? hash' = _
      split
      · next hh =>
        rw [get?_trim, ← hh, hw]
        rfl
      · rfl
  | some w =>
      show Table.get? (if (w.trim now ttl).peers.isEmpty then s.swarms.erase hash
        else s.swarms.insert hash (w.trim now ttl)) hash' = _
      by_cases hh : hash = hash'
      · rw [if_pos hh, get?_trim, ← hh, hw, Option.map_some, Option.filter_some]
        by_cases hempty : (w.trim now ttl).peers.isEmpty <;> simp [hempty, Table.get?_insert]
      · rw [if_neg hh]
        split
        · rw [Table.get?_erase, if_neg hh]
        · rw [Table.get?_insert, if_neg hh]

/-- The trim of one swarm keeps, of its peers, who is not stale, and the peers
of the others. -/
theorem peer?_trimSwarm (s : Store) (hash hash' : InfoHash) (now : Seconds) (ttl : Int64)
    (id : PeerId) :
    (s.trimSwarm hash now ttl).1.peer? hash' id
      = if hash = hash' then (s.peer? hash' id).filter fun p => !Swarm.stale now ttl p
        else s.peer? hash' id := by
  unfold peer? swarm
  rw [get?_trimSwarm]
  split
  · exact s.peer?_trim now ttl hash' id
  · rfl

/-- What a section is to the peers alone, found by hash and id. -/
def Section.act (peers : InfoHash → PeerId → Option Peer) :
    Section → InfoHash → PeerId → Option Peer
  | .save hash id p, hash', id' =>
    if hash = hash' ∧ id = id' then some (p.over (peers hash id)) else peers hash' id'
  | .remove hash id, hash', id' =>
    if hash = hash' ∧ id = id' then none else peers hash' id'
  | .prune _, hash', id' => peers hash' id'
  | .trim hash now ttl, hash', id' =>
    if hash = hash' then (peers hash' id').filter fun p => !Swarm.stale now ttl p
    else peers hash' id'

/-- What a section does to the peers depends on the peers alone, so sections
may be told as changes of a lookup (`Section.act`) and the swarms forgotten. -/
theorem peer?_enter (s : Store) (sec : Section) : (s.enter sec).peer? = sec.act s.peer? := by
  funext hash' id'
  cases sec with
  | save hash id p => exact s.peer?_save hash hash' id id' p
  | remove hash id => exact s.peer?_removePeer hash hash' id id'
  | prune hash => exact s.peer?_prune hash hash' id'
  | trim hash now ttl => exact s.peer?_trimSwarm hash hash' now ttl id'

/-- Every section keeps the counts right, whoever comes in between: what it
reads and what it writes is under one lock. -/
theorem Counted.enter (h : s.Counted) (sec : Section) : (s.enter sec).Counted := by
  cases sec with
  | save hash id p => exact h.save hash id p
  | remove hash id => exact h.removePeer hash id
  | prune hash => exact h.prune hash
  | trim hash now ttl =>
      refine counted_iff.mpr fun hash' w hw => ?_
      have hw' : (s.trimSwarm hash now ttl).1.swarms.get? hash' = some w := hw
      rw [get?_trimSwarm] at hw'
      split at hw'
      · exact counted_iff.mp (h.trim now ttl) hash' w hw'
      · exact counted_iff.mp h hash' w hw'

-- ======================================================== empty swarms

/-- A store is populated if no hash has a swarm without peers. In this form it
can be said of one hash at a time, as the sections need it. -/
theorem populated_iff_vacant : s.Populated ↔ ∀ hash, s.vacant hash = false := by
  unfold Populated vacant
  refine forall_congr' fun hash => ?_
  cases s.swarms.get? hash with
  | none => simp
  | some w => simp

theorem vacant_congr {hash : InfoHash} (h : s.swarms.get? hash = t.swarms.get? hash) :
    s.vacant hash = t.vacant hash := by
  unfold vacant
  rw [h]

theorem vacant_save_self (s : Store) (hash : InfoHash) (id : PeerId) (p : Peer) :
    (s.save hash id p).vacant hash = false := by
  have hswarm : (s.save hash id p).swarms.get? hash = some ((s.swarm hash).save id p) :=
    (Table.get?_insert _ _ _ _).trans (if_pos rfl)
  unfold vacant
  rw [hswarm]
  exact Swarm.isEmpty_save _ id p

theorem vacant_prune_self (s : Store) (hash : InfoHash) : (s.prune hash).vacant hash = false := by
  unfold vacant
  rw [get?_prune, if_pos rfl]
  cases s.swarms.get? hash with
  | none => rfl
  | some w =>
      rw [Option.filter_some]
      by_cases hempty : w.peers.isEmpty <;> simp [hempty]

/-- The trim of a swarm leaves nothing vacant either, since it takes peers out
and looks for an empty swarm under one lock. -/
theorem vacant_trimSwarm_self (s : Store) (hash : InfoHash) (now : Seconds) (ttl : Int64) :
    (s.trimSwarm hash now ttl).1.vacant hash = false := by
  have hswarm := s.get?_trimSwarm hash hash now ttl
  rw [if_pos rfl] at hswarm
  rw [vacant_congr hswarm]
  exact populated_iff_vacant.mp (s.populated_trim now ttl) hash

/-- The hash of the one swarm that a section is about. -/
def Section.hash : Section → InfoHash
  | save hash _ _ => hash
  | remove hash _ => hash
  | prune hash => hash
  | trim hash _ _ => hash

theorem get?_enter_of_ne {hash : InfoHash} (hne : sec.hash ≠ hash) :
    (s.enter sec).swarms.get? hash = s.swarms.get? hash := by
  cases sec with
  | save hash' id p => exact (Table.get?_insert _ _ _ _).trans (if_neg hne)
  | remove hash' id => exact s.get?_removePeer_of_ne id hne
  | prune hash' => exact (s.get?_prune hash' hash).trans (if_neg hne)
  | trim hash' now ttl => exact (s.get?_trimSwarm hash' hash now ttl).trans (if_neg hne)

/-- All that a section can owe is the second step of a drop, under its own
hash. So what is owed by many callers is a set of hashes to look at. -/
theorem owed_cases (s : Store) (sec : Section) :
    s.owed sec = [] ∨ s.owed sec = [.prune sec.hash] := by
  cases sec with
  | remove hash id =>
      by_cases h : (s.removePeer hash id).1.vacant hash
      · exact .inr (if_pos h)
      · exact .inl (if_neg h)
  | save hash id p => exact .inl rfl
  | prune hash => exact .inl rfl
  | trim hash now ttl => exact .inl rfl

/-- A section that leaves its swarm empty is the first step of a drop, and
owes the second. -/
theorem owed_of_vacant_enter (h : (s.enter sec).vacant sec.hash = true) :
    s.owed sec = [.prune sec.hash] ∧ sec ≠ .prune sec.hash := by
  cases sec with
  | save hash id p => cases (s.vacant_save_self hash id p).symm.trans h
  | remove hash id => exact ⟨if_pos h, nofun⟩
  | prune hash => cases (s.vacant_prune_self hash).symm.trans h
  | trim hash now ttl => cases (s.vacant_trimSwarm_self hash now ttl).symm.trans h

/-- A swarm that is empty after a section was not pruned by it, and was
empty before unless its prune is now owed. -/
theorem vacant_enter {hash : InfoHash} (h : (s.enter sec).vacant hash = true) :
    sec ≠ .prune hash ∧ (s.vacant hash = true ∨ .prune hash ∈ s.owed sec) := by
  by_cases hhash : sec.hash = hash
  · subst hhash
    obtain ⟨howed, hne⟩ := owed_of_vacant_enter h
    exact ⟨hne, .inr (howed ▸ List.mem_singleton_self _)⟩
  · refine ⟨fun heq => hhash (congrArg Section.hash heq), .inl ?_⟩
    rw [← vacant_congr (get?_enter_of_ne hhash)]
    exact h

-- ==================================================== whole operations

/-- The store after a section and whatever it owes, with nothing between. -/
def complete (s : Store) (sec : Section) : Store := (s.owed sec).foldl enter (s.enter sec)

/-- A drop is its two steps, the second if the first calls for it. Between them
another caller may save to the swarm, which then stays. -/
theorem complete_remove (s : Store) (hash : InfoHash) (id : PeerId) :
    s.complete (.remove hash id) = (s.drop hash id).1 := by
  show (if (s.removePeer hash id).1.vacant hash then [.prune hash] else []).foldl enter
      (s.removePeer hash id).1 = (s.removePeer hash id).1.prune hash
  split
  · rfl
  · next hoccupied =>
    generalize (s.removePeer hash id).1 = t at hoccupied ⊢
    unfold prune
    unfold vacant at hoccupied
    cases hw : t.swarms.get? hash with
    | none => rfl
    | some w =>
        rw [hw, Option.any_some] at hoccupied
        exact (if_neg hoccupied).symm

/-- Trimming one swarm first makes no difference to what a trim leaves, since a
swarm that was trimmed is trimmed. -/
theorem trim_trimSwarm_fst (s : Store) (hash : InfoHash) (now : Seconds) (ttl : Int64) :
    ((s.trimSwarm hash now ttl).1.trim now ttl).1 = (s.trim now ttl).1 := by
  refine ext_get? fun hash' => ?_
  rw [get?_trim, get?_trimSwarm, get?_trim]
  split
  · cases s.swarms.get? hash' with
    | none => rfl
    | some w =>
        rw [Option.map_some, Option.filter_some]
        by_cases hempty : (w.trim now ttl).peers.isEmpty <;> simp [hempty, Swarm.trim_trim]
  · rfl

/-- The peers that go with one swarm are those that the trim finds no
more. -/
theorem trim_trimSwarm_snd (s : Store) (hash : InfoHash) (now : Seconds) (ttl : Int64) :
    (s.trimSwarm hash now ttl).2 + ((s.trimSwarm hash now ttl).1.trim now ttl).2
      = (s.trim now ttl).2 := by
  unfold trimSwarm
  cases hw : s.swarms.get? hash with
  | none => exact Nat.zero_add _
  | some w =>
      have hagain :
          (w.trim now ttl).peers.size - ((w.trim now ttl).trim now ttl).peers.size = 0 := by
        rw [Swarm.trim_trim, Nat.sub_self]
      unfold trim
      rw [Table.total_erase hw]
      congr 1
      dsimp only
      split
      · rfl
      · rw [Table.total_insert, hagain, Nat.zero_add]

/-- A sweep takes one hash after the other, and adds up what it removed. -/
theorem sweep_cons (s : Store) (now : Seconds) (ttl : Int64) (hash : InfoHash)
    (hashes : List InfoHash) : s.sweep now ttl (hash :: hashes)
      = (((s.trimSwarm hash now ttl).1.sweep now ttl hashes).1, (s.trimSwarm hash now ttl).2
          + ((s.trimSwarm hash now ttl).1.sweep now ttl hashes).2) :=
  rfl

/-- A trim of swarms one by one is the whole trim, if the whole trim would
change no other. -/
theorem sweep_eq_trim {hashes : List InfoHash}
    (h : ∀ hash, hash ∉ hashes → (s.trim now ttl).1.swarms.get? hash = s.swarms.get? hash) :
    s.sweep now ttl hashes = s.trim now ttl := by
  induction hashes generalizing s with
  | nil =>
      -- with nothing left to go through, no swarm has anything stale
      have hsame : ∀ hash w, s.swarms.get? hash = some w → w.trim now ttl = w := by
        intro hash w hw
        have hfilter := h hash List.not_mem_nil
        rw [get?_trim, hw] at hfilter
        exact Option.some.inj (Option.filter_eq_some_iff.mp hfilter).1
      have hgone : (s.trim now ttl).2 = 0 := by
        refine Table.total_eq_zero fun hash w hw => ?_
        rw [hsame hash w hw, Nat.sub_self]
      exact Prod.ext (ext_get? fun hash => (h hash List.not_mem_nil).symm) hgone.symm
  | cons hash hashes ih =>
      have hrest : (s.trimSwarm hash now ttl).1.sweep now ttl hashes
          = (s.trimSwarm hash now ttl).1.trim now ttl := by
        refine ih fun hash' hnot => ?_
        rw [trim_trimSwarm_fst, get?_trimSwarm]
        split
        · rfl
        · next hne => exact h hash' (List.not_mem_cons_of_ne_of_not_mem (Ne.symm hne) hnot)
      rw [sweep_cons, hrest]
      exact Prod.ext (s.trim_trimSwarm_fst hash now ttl) (s.trim_trimSwarm_snd hash now ttl)

/-- The trim of every swarm there is, in any order, is the whole trim. -/
theorem trim_eq_sweep {hashes : List InfoHash}
    (hcover : ∀ x ∈ s.swarms.toList, x.1 ∈ hashes) (now : Seconds) (ttl : Int64) :
    s.trim now ttl = s.sweep now ttl hashes := by
  refine (sweep_eq_trim fun hash hnot => ?_).symm
  have hnone : s.swarms.get? hash = none :=
    Option.eq_none_iff_forall_ne_some.mpr fun w hw =>
      hnot (hcover (hash, w) (Table.mem_toList_iff.mpr hw))
  rw [get?_trim, hnone]
  rfl

/-- What a sweep leaves is what the sections for its hashes leave, in their
order. -/
theorem sweep_fst (s : Store) (now : Seconds) (ttl : Int64) (hashes : List InfoHash) :
    (s.sweep now ttl hashes).1
      = (hashes.map fun hash => .trim hash now ttl).foldl complete s := by
  induction hashes generalizing s with
  | nil => rfl
  | cons hash hashes ih => exact ih _

-- ======================================================== many callers

/-- A store that callers share, with the sections each of them has yet to
enter. -/
structure Shared (ι : Type) where
  store : Store
  todo : ι → List Section

variable {ι : Type} [DecidableEq ι] {u u' : Shared ι} {log : List Section} {c : ι}

omit [DecidableEq ι] in
/-- No caller is in the middle of an operation. -/
def Shared.Idle (u : Shared ι) : Prop := ∀ c, u.todo c = []

/-- The sections that an operation begins with. A trim takes the swarms in
any order, each once; whether it comes past one that was not there when it
began is open. -/
inductive Begins (s : Store) : Operation → List Section → Prop where
  | save (hash : InfoHash) (id : PeerId) (p : Peer) :
      Begins s (.save hash id p) [.save hash id p]
  | drop (hash : InfoHash) (id : PeerId) : Begins s (.drop hash id) [.remove hash id]
  | trim (now : Seconds) (ttl : Int64) (hashes : List InfoHash)
      (hcover : ∀ x ∈ s.swarms.toList, x.1 ∈ hashes) (honce : hashes.Nodup) :
      Begins s (.trim now ttl) (hashes.map fun hash => .trim hash now ttl)

/-- A caller that has nothing left to do begins an operation, or one that
has enters its next section. -/
inductive Step : Shared ι → Option Section → Shared ι → Prop where
  | start {u : Shared ι} {c : ι} {op : Operation} {sections : List Section}
      (hdone : u.todo c = []) (hop : Begins u.store op sections) :
      Step u none ⟨u.store, Function.update u.todo c sections⟩
  | enter {u : Shared ι} {c : ι} {sec : Section} {later : List Section}
      (hnext : u.todo c = sec :: later) :
      Step u (some sec) ⟨u.store.enter sec,
        Function.update u.todo c (u.store.owed sec ++ later)⟩

/-- What can come of a store when callers share it, with the sections they
entered, first to last. -/
inductive Run (s : Store) : List Section → Shared ι → Prop where
  | start : Run s [] ⟨s, fun _ => []⟩
  | step {log : List Section} {u u' : Shared ι} {entered : Option Section} :
      Run s log u → Step u entered u' → Run s (log ++ entered.toList) u'

/-- A caller that is alone does with its sections what the operation does at
once. -/
theorem Begins.foldl_complete {op : Operation} {sections : List Section}
    (h : Begins s op sections) : sections.foldl complete s = s.perform op := by
  cases h with
  | save hash id p => rfl
  | drop hash id => exact s.complete_remove hash id
  | trim now ttl hashes hcover _ =>
      rw [← sweep_fst, ← trim_eq_sweep hcover]
      rfl

/-- A caller that nobody disturbs enters a section and does what it owes for
it, so whole calls are runs too. -/
theorem Run.complete {later : List Section} (h : Run s log u) (hnext : u.todo c = sec :: later) :
    ∃ entered, Run s (log ++ entered)
      ⟨u.store.complete sec, Function.update u.todo c later⟩ := by
  have hentered := h.step (.enter hnext)
  unfold Store.complete
  rcases u.store.owed_cases sec with howed | howed
  · rw [howed] at hentered ⊢
    exact ⟨[sec], hentered⟩
  · rw [howed] at hentered ⊢
    have hpruned := hentered.step (.enter (Function.update_self c _ _))
    rw [Function.update_idem, List.append_assoc] at hpruned
    exact ⟨[sec, .prune sec.hash], hpruned⟩

/-- A caller that nobody disturbs finishes what it has begun. By induction on
what it has left to do. -/
theorem Run.finish {sections : List Section} (h : Run s log u) (hnext : u.todo c = sections) :
    ∃ entered, Run s (log ++ entered)
      ⟨sections.foldl Store.complete u.store, Function.update u.todo c []⟩ := by
  induction sections generalizing u log with
  | nil =>
      refine ⟨[], ?_⟩
      rw [List.append_nil, ← hnext, Function.update_eq_self, hnext]
      exact h
  | cons sec sections ih =>
      obtain ⟨first, hfirst⟩ := h.complete hnext
      obtain ⟨rest, hrest⟩ := ih hfirst (Function.update_self c _ _)
      rw [Function.update_idem, List.append_assoc] at hrest
      exact ⟨first ++ rest, hrest⟩

/-- An operation that nobody comes between is the whole operation, so a single
caller sees the store it would have by itself. -/
theorem Run.alone {op : Operation} {sections : List Section} (h : Run s log u)
    (hdone : u.todo c = []) (hop : Begins u.store op sections) :
    ∃ entered, Run s (log ++ entered) ⟨u.store.perform op, u.todo⟩ := by
  have hbegun := h.step (.start hdone hop)
  rw [Option.toList_none, List.append_nil] at hbegun
  obtain ⟨entered, hfinish⟩ := hbegun.finish (Function.update_self c _ _)
  rw [hop.foldl_complete, Function.update_idem, ← hdone, Function.update_eq_self] at hfinish
  exact ⟨entered, hfinish⟩

-- ======================================================== the invariant

/-- What holds of the store and its callers after sections: the peers are
those that the sections make, the counts are recounts, and every empty
swarm is one that some caller comes back for. -/
structure Sound (s : Store) (log : List Section) (u : Shared ι) : Prop where
  present : u.store.peer? = log.foldl Section.act s.peer?
  counted : u.store.Counted
  awaited : ∀ hash, u.store.vacant hash = true → ∃ c, Section.prune hash ∈ u.todo c

/-- A caller that begins an operation had nothing to do, so no prune is
lost. -/
theorem Sound.start {sections : List Section} (h : Sound s log u) (hdone : u.todo c = []) :
    Sound s log ⟨u.store, Function.update u.todo c sections⟩ where
  present := h.present
  counted := h.counted
  awaited := by
    intro hash hvacant
    obtain ⟨c', hc'⟩ := h.awaited hash hvacant
    have hne : c' ≠ c := by
      rintro rfl
      rw [hdone] at hc'
      cases hc'
    refine ⟨c', ?_⟩
    show _ ∈ Function.update u.todo c sections c'
    rw [Function.update_of_ne hne]
    exact hc'

/-- One caller enters its next section. What the section owes is put before
what the caller still has to do, and the log grows by the section. -/
theorem Sound.enter {later : List Section} (h : Sound s log u) (hnext : u.todo c = sec :: later) :
    Sound s (log ++ [sec]) ⟨u.store.enter sec,
      Function.update u.todo c (u.store.owed sec ++ later)⟩ where
  present := by
    rw [List.foldl_append, ← h.present]
    exact peer?_enter u.store sec
  counted := h.counted.enter sec
  awaited := by
    intro hash hvacant
    obtain ⟨hne, hbefore | howed⟩ := vacant_enter hvacant
    · obtain ⟨c', hc'⟩ := h.awaited hash hbefore
      refine ⟨c', ?_⟩
      show _ ∈ Function.update u.todo c _ c'
      by_cases hc : c' = c
      · -- The caller's own prune is not the section it has just entered.
        subst hc
        rw [hnext, List.mem_cons] at hc'
        rw [Function.update_self]
        exact List.mem_append_right _ (hc'.resolve_left (Ne.symm hne))
      · rw [Function.update_of_ne hc]
        exact hc'
    · refine ⟨c, ?_⟩
      show _ ∈ Function.update u.todo c _ c
      rw [Function.update_self]
      exact List.mem_append_left _ howed

/-- One step of the system, by the way it was made: an operation that begins,
or a section that is entered. -/
theorem Sound.step {entered : Option Section} (h : Sound s log u) (hstep : Step u entered u') :
    Sound s (log ++ entered.toList) u' := by
  cases hstep with
  | start hdone hop =>
      rw [Option.toList_none, List.append_nil]
      exact h.start hdone
  | enter hnext => exact h.enter hnext

/-- The invariant holds along a run whatever the order in which callers go. By
induction on the run, one step by one caller at a time. -/
theorem Run.sound (hs : s.Consistent) (h : Run s log u) : Sound s log u := by
  induction h with
  | start =>
      refine ⟨rfl, hs.counted_swarm, fun hash hvacant => ?_⟩
      rw [populated_iff_vacant.mp hs.populated hash] at hvacant
      cases hvacant
  | step _ hstep ih => exact ih.step hstep

-- ============================================================== the law

/-- Whether a section can change what peers there are. -/
def Section.changes : Section → Bool
  | prune _ => false
  | _ => true

/-- The second step of a drop is nothing to the peers: it takes away a swarm
that has none. -/
theorem foldl_act_filter (log : List Section) (peers : InfoHash → PeerId → Option Peer) :
    (log.filter Section.changes).foldl Section.act peers = log.foldl Section.act peers := by
  induction log generalizing peers with
  | nil => rfl
  | cons sec log ih =>
      cases sec with
      | prune hash => exact ih peers
      | save hash id p => exact ih _
      | remove hash id => exact ih _
      | trim hash now ttl => exact ih _

/-- Completing a section changes the peers as the section does; a second step
of a drop shows nowhere. -/
theorem peer?_complete (s : Store) (sec : Section) :
    (s.complete sec).peer? = sec.act s.peer? := by
  unfold complete
  rcases s.owed_cases sec with howed | howed
  · rw [howed]
    exact s.peer?_enter sec
  · rw [howed]
    exact ((s.enter sec).peer?_enter (.prune sec.hash)).trans (s.peer?_enter sec)

/-- Completed sections leave no swarm without peers, since whoever empties a
swarm prunes it. -/
theorem Populated.complete (h : s.Populated) (sec : Section) : (s.complete sec).Populated := by
  refine populated_iff_vacant.mpr fun hash => Bool.eq_false_iff.mpr fun hvacant => ?_
  have hbefore := populated_iff_vacant.mp h hash
  unfold Store.complete at hvacant
  rcases s.owed_cases sec with howed | howed
  · rw [howed] at hvacant
    obtain ⟨-, hor⟩ := vacant_enter hvacant
    simp [hbefore, howed] at hor
  · rw [howed] at hvacant
    have hpruned : ((s.enter sec).enter (.prune sec.hash)).vacant hash = true := hvacant
    obtain ⟨hne, hor⟩ := vacant_enter hpruned
    have hentered : (s.enter sec).vacant hash = true := hor.resolve_right (List.not_mem_nil)
    obtain ⟨-, hor⟩ := vacant_enter hentered
    rw [hbefore, howed, List.mem_singleton] at hor
    exact hne (hor.resolve_left Bool.false_ne_true).symm

/-- And they keep the counts right. -/
theorem Counted.complete (h : s.Counted) (sec : Section) : (s.complete sec).Counted := by
  unfold Store.complete
  rcases s.owed_cases sec with howed | howed
  · rw [howed]
    exact h.enter sec
  · rw [howed]
    exact (h.enter sec).enter (.prune sec.hash)

/-- So they keep the invariant of a store, any number of them. -/
theorem Consistent.foldl_complete (h : s.Consistent) (log : List Section) :
    (log.foldl Store.complete s).Consistent := by
  induction log generalizing s with
  | nil => exact h
  | cons sec log ih =>
      exact ih (consistent_iff.mpr ⟨h.populated.complete sec, h.counted_swarm.complete sec⟩)

/-- Told of the peers alone, completed sections are the sections in their
order. -/
theorem peer?_foldl_complete (s : Store) (log : List Section) :
    (log.foldl complete s).peer? = log.foldl Section.act s.peer? := by
  induction log generalizing s with
  | nil => rfl
  | cons sec log ih =>
      rw [List.foldl_cons, List.foldl_cons, ih, peer?_complete]

/-- What callers that share a store can rely on. At every moment the peers
are those of the saves, removals and trims so far, in the order they came,
the running count of every swarm is the number of its complete peers, and
an empty swarm is one that some caller comes back for. When nobody has
anything left to do there is none, and the store is the one that the same
operations leave when nobody comes between their sections. -/
structure Interleaved (s : Store) (log : List Section) (u : Shared ι) : Prop where
  present : u.store.peer? = (log.filter Section.changes).foldl Section.act s.peer?
  seeders : ∀ hash w, u.store.swarms.get? hash = some w →
    w.seeders = UInt32.ofNat w.completeCount
      ∧ (w.completeCount < UInt32.size → w.seeders.toNat = w.completeCount)
  awaited : ∀ hash w, u.store.swarms.get? hash = some w → w.peers.isEmpty = true →
    ∃ c, Section.prune hash ∈ u.todo c
  inhabited : u.Idle → ∀ hash w, u.store.swarms.get? hash = some w → w.peers.isEmpty = false
  settled : u.Idle → u.store = (log.filter Section.changes).foldl complete s

omit [DecidableEq ι] in
/-- When nobody has anything left to do, no swarm is without peers: what was
owed on the way has been done by then. -/
theorem Sound.populated (h : Sound s log u) (hidle : u.Idle) : u.store.Populated := by
  refine populated_iff_vacant.mpr fun hash => Bool.eq_false_iff.mpr fun hvacant => ?_
  obtain ⟨c, hc⟩ := h.awaited hash hvacant
  rw [hidle c] at hc
  cases hc

/-- No update is lost between callers, whatever the order of their steps. A
swarm that is empty is one that some caller has yet to prune; with no caller
under way there is none. -/
theorem Run.interleaved (hs : s.Consistent) (h : Run s log u) : Interleaved s log u where
  present := by rw [(h.sound hs).present, foldl_act_filter]
  seeders := by
    intro hash w hw
    have hcounted : w.Counted := counted_iff.mp (h.sound hs).counted hash w hw
    refine ⟨hcounted, fun hroom => ?_⟩
    rw [hcounted]
    exact UInt32.toNat_ofNat_of_lt' hroom
  awaited := by
    intro hash w hw hempty
    refine (h.sound hs).awaited hash ?_
    unfold vacant
    rw [hw]
    exact hempty
  inhabited := fun hidle => (h.sound hs).populated hidle
  settled := by
    intro hidle
    have hsound := h.sound hs
    have hconsistent := consistent_iff.mpr ⟨hsound.populated hidle, hsound.counted⟩
    refine hconsistent.ext (hs.foldl_complete _) fun hash id => ?_
    rw [hsound.present, peer?_foldl_complete, foldl_act_filter]

/-- A drop leaves its swarm empty, a trim takes the empty swarm away, a save
of another peer makes it again, and only then the drop comes back. -/
theorem interleaved_recreated :
    let hash : InfoHash := .replicate 20 1
    let gone : Peer := ⟨.v4 (.replicate 4 10), 6881, true, 1000⟩
    let new : Peer := ⟨.v4 (.replicate 4 11), 6882, true, 1500⟩
    let log : List Section := [.save hash (.replicate 20 2) gone,
      .remove hash (.replicate 20 2), .trim hash 1500 450,
      .save hash (.replicate 20 3) new, .prune hash]
    ∃ u : Shared (Fin 3), Run empty log u ∧ u.Idle ∧ Interleaved empty log u
      ∧ u.store.peer? hash (.replicate 20 3) = some new ∧ u.store.counts hash = ⟨1, 0⟩ := by
  intro hash gone new log
  have hstart : Run empty [] (⟨empty, fun _ => []⟩ : Shared (Fin 3)) := .start
  have hsaved := (hstart.step (.start (c := 0) rfl
    (.save hash (.replicate 20 2) gone))).step (.enter (c := 0) rfl)
  have hremoved := (hsaved.step (.start (c := 0) rfl
    (.drop hash (.replicate 20 2)))).step (.enter (c := 0) rfl)
  have htrimmed := (hremoved.step (.start (c := 1) rfl
    (.trim 1500 450 [hash] (by decide) (by decide)))).step (.enter (c := 1) rfl)
  have hrecreated := (htrimmed.step (.start (c := 2) rfl
    (.save hash (.replicate 20 3) new))).step (.enter (c := 2) rfl)
  have hpruned := hrecreated.step (.enter (c := 0) (show _ = [.prune hash] by decide))
  refine ⟨_, hpruned, ?_, Run.interleaved consistent_empty hpruned, by decide, by decide⟩
  unfold Shared.Idle
  decide

end TorrentTracker.Store
