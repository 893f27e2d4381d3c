import TorrentTracker.Proofs.Store.History
import TorrentTracker.Proofs.Store.Unbounded

/-
Sweeps: which peers a trim removes, and that the schedule of trims does not
matter.

A trim walks all swarms and keeps three accounts on the way, of the peers,
of the complete ones among those that go, and of the swarms that are left
empty. Told of the peers alone it is a filter: `entries_trim_perm` says so
of the whole listing, and what the trim answers is the number of entries
that the filter drops (`trim_snd_add`). Ages are exact where nobody was
seen before the epoch, so the filter is one by age there.

# Composition

Who is past the limit at one moment is past it at every later one. So an
earlier trim takes nobody out whom the later one would keep, and what both
leave is what the later one leaves (`Consistent.trim_trim`); the numbers add
up since each is a difference of totals.

# Refreshed peers

A peer that is saved again and again is in nobody's way if every trim comes
soon enough after some save of it (`Refreshed`). Which save that is does
not matter: the clock does not run back, so the latest is no earlier, and
the peer survives the trim (`survives_of_refreshed`).

# Main statement

- `Arises.swept`: all of this of every store that operations and loads lead
  to.
-/

namespace TorrentTracker.Store

variable {s : Store} {hash : InfoHash} {id : PeerId} {p : Peer} {now : Seconds} {ttl : Int64}
  {op : Operation} {ops : List Operation}

-- ============================================================ the listing

/-- A trim drops the stale peers from the listing. -/
theorem entries_trim_perm (s : Store) (now : Seconds) (ttl : Int64) :
    (s.trim now ttl).1.entries.Perm (s.entries.filter fun e => !Swarm.stale now ttl e.2.2) := by
  refine (List.perm_ext_iff_of_nodup (nodup_entries _) (s.nodup_entries.filter _)).mpr ?_
  rintro ⟨hash, id, p⟩
  rw [List.mem_filter, mem_entries_iff, mem_entries_iff, peer?_trim, Option.filter_eq_some_iff]

theorem trim_snd (s : Store) (now : Seconds) (ttl : Int64) :
    (s.trim now ttl).2 = s.entries.countP fun e => Swarm.stale now ttl e.2.2 :=
  total_eq_countP fun _ w _ => Nat.sub_eq_of_eq_add' (w.size_trim_add now ttl).symm

/-- What a trim answers is by how many the total goes down, so nobody is
counted who did not go. -/
theorem trim_snd_add (s : Store) (now : Seconds) (ttl : Int64) :
    (s.trim now ttl).2 + (s.trim now ttl).1.totalPeers = s.totalPeers := by
  have hkept := (s.entries_trim_perm now ttl).length_eq
  rw [← List.countP_eq_length_filter] at hkept
  have hall := s.entries.length_eq_countP_add_countP fun e => Swarm.stale now ttl e.2.2
  simp only [Bool.not_eq_true, Bool.decide_eq_false] at hall
  rw [trim_snd, totalPeers_eq_length, totalPeers_eq_length, hkept, hall]

-- ================================================================== ages

/-- Nobody was last seen before the epoch. -/
def SinceEpoch (s : Store) : Prop := ∀ e ∈ s.entries, 0 ≤ e.2.2.lastSeen.toInt

instance (s : Store) : Decidable s.SinceEpoch :=
  inferInstanceAs (Decidable (∀ e ∈ s.entries, _))

theorem SinceEpoch.seen (h : s.SinceEpoch) (hp : s.peer? hash id = some p) :
    0 ≤ p.lastSeen.toInt :=
  h (hash, id, p) (mem_entries_iff.mpr hp)

/-- A trim leaves who is not past the limit, as they are. -/
theorem SinceEpoch.peer?_trim_eq_some_iff (h : s.SinceEpoch) (hnow : 0 ≤ now.toInt) :
    (s.trim now ttl).1.peer? hash id = some p
      ↔ s.peer? hash id = some p ∧ now.toInt - p.lastSeen.toInt ≤ ttl.toInt := by
  rw [peer?_trim, Option.filter_eq_some_iff]
  refine and_congr_right fun hp => ?_
  rw [Bool.not_eq_true', stale_eq_false_iff (h.seen hp) hnow]

theorem SinceEpoch.trim (h : s.SinceEpoch) (now : Seconds) (ttl : Int64) :
    (s.trim now ttl).1.SinceEpoch := by
  intro e he
  exact h e (List.mem_filter.mp ((s.entries_trim_perm now ttl).mem_iff.mp he)).1

/-- A trim leaves no swarm of which everybody is past the limit, and every
other. -/
theorem SinceEpoch.get?_trim_eq_none_iff (h : s.SinceEpoch) (hnow : 0 ≤ now.toInt) :
    (s.trim now ttl).1.swarms.get? hash = none
      ↔ ∀ id p, s.peer? hash id = some p → ttl.toInt < now.toInt - p.lastSeen.toInt := by
  rw [(s.populated_trim now ttl).get?_eq_none_iff]
  refine forall_congr' fun id => ?_
  rw [Option.eq_none_iff_forall_ne_some]
  refine forall_congr' fun p => ?_
  rw [ne_eq, h.peer?_trim_eq_some_iff hnow, not_and, Int.not_le]

-- =========================================================== composition

/-- An earlier trim does nothing that a later one would not do: who is too old
for it will be too old for the later one. -/
theorem Consistent.trim_trim {earlier later : Seconds} (hs : s.Consistent) (h : s.SinceEpoch)
    (hearlier : 0 ≤ earlier.toInt) (hle : earlier.toInt ≤ later.toInt) (ttl : Int64) :
    ((s.trim earlier ttl).1.trim later ttl).1 = (s.trim later ttl).1 := by
  have hlater := Int.le_trans hearlier hle
  refine Consistent.ext ((hs.trim earlier ttl).trim later ttl) (hs.trim later ttl) fun hash id =>
    Option.ext fun p => ?_
  rw [(h.trim earlier ttl).peer?_trim_eq_some_iff hlater, h.peer?_trim_eq_some_iff hearlier,
    h.peer?_trim_eq_some_iff hlater, and_assoc]
  refine and_congr_right fun _ => and_iff_right_of_imp fun hage => ?_
  omega

/-- And the two remove as many as the later one alone. -/
theorem Consistent.trim_snd_add_trim_snd {earlier later : Seconds} (hs : s.Consistent)
    (h : s.SinceEpoch) (hearlier : 0 ≤ earlier.toInt) (hle : earlier.toInt ≤ later.toInt)
    (ttl : Int64) :
    (s.trim earlier ttl).2 + ((s.trim earlier ttl).1.trim later ttl).2 = (s.trim later ttl).2 := by
  have hfirst := s.trim_snd_add earlier ttl
  have hsecond := (s.trim earlier ttl).1.trim_snd_add later ttl
  have hwhole := s.trim_snd_add later ttl
  rw [hs.trim_trim h hearlier hle] at hsecond
  omega

-- ============================================================= refreshes

/-- When an operation takes place, if it says. -/
def Operation.moment? : Operation → Option Seconds
  | save _ _ p => some p.lastSeen
  | drop _ _ => none
  | trim now _ => some now

/-- From a moment on the clock does not run back. -/
def InOrder (start : Seconds) (ops : List Operation) : Prop :=
  (start :: ops.filterMap Operation.moment?).Pairwise fun a b => a.toInt ≤ b.toInt

instance (start : Seconds) (ops : List Operation) : Decidable (InOrder start ops) :=
  inferInstanceAs (Decidable (List.Pairwise _ _))

/-- When an operation saves a pair. -/
def Operation.refresh? (hash : InfoHash) (id : PeerId) : Operation → Option Seconds
  | save hash' id' p => if hash' = hash ∧ id' = id then some p.lastSeen else none
  | drop _ _ => none
  | trim _ _ => none

theorem Operation.refresh?_save_self :
    (save hash id p).refresh? hash id = some p.lastSeen := if_pos ⟨rfl, rfl⟩

theorem Operation.refresh?_save_of_ne {hash' : InfoHash} {id' : PeerId}
    (h : ¬(hash' = hash ∧ id' = id)) : (save hash' id' p).refresh? hash id = none := if_neg h

/-- No trim comes longer after all saves of the pair, those of before and
those on the way, than it allows. -/
def Refreshed (hash : InfoHash) (id : PeerId) (saves : List Seconds) (ops : List Operation) :
    Prop :=
  ∀ earlier now ttl later, ops = earlier ++ .trim now ttl :: later →
    ∃ seen ∈ saves ++ earlier.filterMap (Operation.refresh? hash id),
      now.toInt - seen.toInt ≤ ttl.toInt

variable {start : Seconds} {saves : List Seconds}

/-- A peer is refreshed in time if a trim that comes first finds a save recent
enough, and so on with the saves by then. -/
theorem refreshed_cons_iff :
    Refreshed hash id saves (op :: ops)
      ↔ (∀ now ttl, op = .trim now ttl → ∃ seen ∈ saves, now.toInt - seen.toInt ≤ ttl.toInt)
        ∧ Refreshed hash id (saves ++ (op.refresh? hash id).toList) ops := by
  have hsaves : ∀ earlier, saves ++ (op :: earlier).filterMap (Operation.refresh? hash id)
      = saves ++ (op.refresh? hash id).toList
        ++ earlier.filterMap (Operation.refresh? hash id) := by
    intro earlier
    cases hop : op.refresh? hash id <;> simp [hop]
  constructor
  · intro h
    refine ⟨fun now ttl hop => ?_, fun earlier now ttl later hops => ?_⟩
    · obtain ⟨seen, hseen, hage⟩ := h [] now ttl ops (congrArg (· :: ops) hop)
      exact ⟨seen, by simpa using hseen, hage⟩
    · rw [← hsaves]
      exact h (op :: earlier) now ttl later (congrArg (op :: ·) hops)
  · intro h earlier now ttl later hops
    cases earlier with
    | nil =>
        obtain ⟨seen, hseen, hage⟩ := h.1 now ttl (List.cons.inj hops).1
        exact ⟨seen, List.mem_append_left _ hseen, hage⟩
    | cons first earlier =>
        obtain ⟨rfl, hrest⟩ := List.cons.inj hops
        rw [hsaves]
        exact h.2 earlier now ttl later hrest

theorem refreshed_nil : Refreshed hash id saves [] := by
  intro earlier now ttl later hops
  cases earlier <;> cases hops

theorem InOrder.of_cons (h : InOrder start (op :: ops)) : InOrder start ops := by
  unfold InOrder at h ⊢
  refine h.sublist (List.Sublist.cons_cons start ?_)
  exact (List.sublist_cons_self op ops).filterMap _

/-- An operation with a moment is no earlier than the start, and what follows
is no earlier than it. -/
theorem InOrder.of_moment {moment : Seconds} (h : InOrder start (op :: ops))
    (hop : op.moment? = some moment) : start.toInt ≤ moment.toInt ∧ InOrder moment ops := by
  unfold InOrder at h ⊢
  rw [List.filterMap_cons_some hop] at h
  exact ⟨List.rel_of_pairwise_cons h List.mem_cons_self, h.of_cons⟩

/-- From a moment since the epoch on all clocks are since the epoch, as none of
them goes back. -/
theorem InOrder.timely (h : InOrder start ops) (hstart : 0 ≤ start.toInt) :
    ∀ op ∈ ops, op.Timely := by
  intro op hop
  have hmoment : ∀ moment, op.moment? = some moment → 0 ≤ moment.toInt := by
    intro moment heq
    exact Int.le_trans hstart
      (List.rel_of_pairwise_cons h (List.mem_filterMap.mpr ⟨op, hop, heq⟩))
  cases op with
  | save hash id p => exact hmoment _ rfl
  | drop hash id => trivial
  | trim now ttl => exact hmoment _ rfl

/-- A peer that is refreshed in time is not taken out by trims. -/
theorem survives_of_refreshed {seen : Seconds} (hlatest : ∀ t ∈ saves, t.toInt ≤ seen.toInt)
    (horder : InOrder seen ops) (hkept : .drop hash id ∉ ops)
    (h : Refreshed hash id saves ops) : Survives hash id seen ops := by
  induction ops generalizing seen saves with
  | nil => trivial
  | cons op ops ih =>
      obtain ⟨hfirst, hrest⟩ := refreshed_cons_iff.mp h
      rw [List.mem_cons, not_or] at hkept
      cases op with
      | save hash' id' p =>
          obtain ⟨hle, hafter⟩ := horder.of_moment rfl
          by_cases hkey : hash' = hash ∧ id' = id
          · -- from here on this save is the latest
            obtain ⟨rfl, rfl⟩ := hkey
            rw [Operation.refresh?_save_self, Option.toList_some] at hrest
            refine survives_save_self.mpr (ih (fun t ht => ?_) hafter hkept.2 hrest)
            rcases List.mem_append.mp ht with hin | hin
            · exact Int.le_trans (hlatest t hin) hle
            · rw [List.mem_singleton.mp hin]
          · rw [Operation.refresh?_save_of_ne hkey, Option.toList_none, List.append_nil] at hrest
            exact (survives_save_of_ne hkey).mpr (ih hlatest horder.of_cons hkept.2 hrest)
      | drop hash' id' =>
          refine ⟨?_, ih hlatest horder.of_cons hkept.2 ?_⟩
          · rintro ⟨rfl, rfl⟩
            exact hkept.1 rfl
          · simpa [Operation.refresh?] using hrest
      | trim now ttl =>
          obtain ⟨t, ht, hage⟩ := hfirst now ttl rfl
          have hle := hlatest t ht
          refine ⟨by omega, ih hlatest horder.of_cons hkept.2 ?_⟩
          simpa [Operation.refresh?] using hrest

/-- A peer that survives is there. A save in its place does not take it away,
so only drops and trims are asked for. -/
theorem isSome_of_survives (hseen : 0 ≤ p.lastSeen.toInt) (htimely : ∀ op ∈ ops, op.Timely)
    (hp : s.peer? hash id = some p) (h : Survives hash id p.lastSeen ops) :
    ((ops.foldl perform s).peer? hash id).isSome = true := by
  have hentry : ∀ q, s.peer? hash id = some q → 0 ≤ q.lastSeen.toInt := by
    intro q hq
    rw [hp] at hq
    rw [← Option.some.inj hq]
    exact hseen
  have hany : ((ops.foldl (under hash id) (s.peer? hash id)).any fun _ => true) = true ↔ _ :=
    any_foldl_under_iff (fun _ _ => (Bool.true_or _).symm) htimely hentry
  rw [Option.any_true] at hany
  rw [peer?_foldl_perform]
  exact hany.mpr (.inl ⟨p, hp, rfl, h⟩)

-- =============================================================== the law

/-- A store is swept exactly: a trim removes who is past the limit and
leaves everybody else as they are, removes the swarms of which nobody is
left, and answers by how many the total went down; the same trim again
finds nothing to do, and an earlier one takes nothing from a later one. So
whatever trims there are, a peer that is refreshed in time stays. -/
structure Swept (s : Store) : Prop where
  peers : ∀ now ttl, 0 ≤ now.toInt → ∀ hash id p,
    (s.trim now ttl).1.peer? hash id = some p
      ↔ s.peer? hash id = some p ∧ now.toInt - p.lastSeen.toInt ≤ ttl.toInt
  swarms : ∀ now ttl, 0 ≤ now.toInt → ∀ hash,
    (s.trim now ttl).1.swarms.get? hash = none
      ↔ ∀ id p, s.peer? hash id = some p → ttl.toInt < now.toInt - p.lastSeen.toInt
  removed : ∀ now ttl, (s.trim now ttl).2 + (s.trim now ttl).1.totalPeers = s.totalPeers
  again : ∀ now ttl, 0 ≤ now.toInt →
    (s.trim now ttl).1.trim now ttl = ((s.trim now ttl).1, 0)
  composed : ∀ earlier later ttl, 0 ≤ earlier.toInt → earlier.toInt ≤ later.toInt →
    ((s.trim earlier ttl).1.trim later ttl).1 = (s.trim later ttl).1
      ∧ (s.trim earlier ttl).2 + ((s.trim earlier ttl).1.trim later ttl).2 = (s.trim later ttl).2
  refreshed : ∀ hash id p ops, 0 ≤ p.lastSeen.toInt → InOrder p.lastSeen ops →
    .drop hash id ∉ ops → Refreshed hash id [p.lastSeen] ops →
    ((ops.foldl perform (s.save hash id p)).peer? hash id).isSome = true

/-- The law of trims, one by one and after each other. A second trim at a later
moment finds what one at that moment would have left, so trims compose. -/
theorem Arises.swept (h : s.Arises) (hepoch : s.SinceEpoch) : s.Swept where
  peers := fun _ _ hnow _ _ _ => hepoch.peer?_trim_eq_some_iff hnow
  swarms := fun _ _ hnow _ => hepoch.get?_trim_eq_none_iff hnow
  removed := s.trim_snd_add
  again := by
    intro now ttl hnow
    have hstore := h.consistent.trim_trim hepoch hnow (Int.le_refl _) ttl
    have hcount := h.consistent.trim_snd_add_trim_snd hepoch hnow (Int.le_refl _) ttl
    exact Prod.ext hstore (Nat.add_eq_left.mp hcount)
  composed := by
    intro earlier later ttl hearlier hle
    exact ⟨h.consistent.trim_trim hepoch hearlier hle ttl,
      h.consistent.trim_snd_add_trim_snd hepoch hearlier hle ttl⟩
  refreshed := by
    intro hash id p ops hseen horder hkept hrefreshed
    have hp : (s.save hash id p).peer? hash id = some (p.over (s.peer? hash id)) := by
      rw [peer?_save, if_pos ⟨rfl, rfl⟩]
    refine isSome_of_survives (p := p.over (s.peer? hash id)) hseen (horder.timely hseen) hp ?_
    -- the save itself is the first refresh there is
    refine survives_of_refreshed (fun t ht => ?_) horder hkept hrefreshed
    rw [List.mem_singleton.mp ht]
    exact Int.le_refl _

/-- A store that was loaded has a peer exactly as old as it may be and a
swarm of which nobody stays. A peer of it is refreshed in time, once at the
last moment. -/
theorem swept_reloaded :
    let host : Ip := .v4 (.replicate 4 10)
    let hash : InfoHash := .replicate 20 1
    let id : PeerId := .replicate 20 2
    let saved := ((empty.perform (.save hash id ⟨host, 1, true, 1000⟩)).perform
      (.save hash (.replicate 20 3) ⟨host, 2, false, 1100⟩)).perform
      (.save (.replicate 20 4) id ⟨host, 1, true, 999⟩)
    let s := (ofSnapshot saved.snapshot).1
    let ops : List Operation :=
      [.trim 1400 450, .save hash id ⟨host, 1, false, 1440⟩, .trim 1890 450]
    s.Arises ∧ s.SinceEpoch ∧ s.Swept
      ∧ (s.trim 1450 450).2 = 1 ∧ (s.trim 1450 450).1.activeSwarms = 1
      ∧ (s.trim 1450 450).1.peer? hash id = some ⟨host, 1, true, 1000⟩
      ∧ Refreshed hash id [1000] ops
      ∧ ((ops.foldl perform (s.save hash id ⟨host, 1, true, 1000⟩)).peer? hash id).isSome
        = true := by
  intro host hash id saved s ops
  have hsaved : saved.Arises := .perform _ (.perform _ (.perform _ .empty))
  have hs : s.Arises :=
    .load hsaved (lists_snapshot saved) (decode?_encode (by decide) (by decide))
  have hepoch : s.SinceEpoch := by decide
  have hswept : s.Swept := hs.swept hepoch
  have hrefreshed : Refreshed hash id [1000] ops := by
    simp [ops, refreshed_cons_iff, refreshed_nil, Operation.refresh?]
  have hstays := hswept.refreshed hash id ⟨host, 1, true, 1000⟩ ops (by decide) (by decide)
    (by simp [ops]) hrefreshed
  exact ⟨hs, hepoch, hswept, by decide, by decide, by decide, hrefreshed, hstays⟩

end TorrentTracker.Store
