import TorrentTracker.Proofs.Config
import TorrentTracker.Proofs.Store.History
import TorrentTracker.Tracker.Upkeep

/-
The laws that the settings are held to, in exact integers.

The checks compare words, some of them signed and some not. `Lawful` is
what they come to in numbers, all but one: the lifetime of a peer has a
sign, the time between two sweeps has none, and the check takes the second
for a word of the first kind. Up to `Seconds.span` this makes no
difference. From there on the time comes out negative (`toInt_toInt64`), and
a lifetime passes that is far shorter, or no time at all.

Where the check is what it looks like, a peer outlives a sweep period: at
the next sweep it is no older than the time since the sweep before.

# Main statements

- `checked_settings`: which settings are accepted, and what follows;
- `short_lived_accepted`: settings under which a peer is gone before the
  next sweep is due.
-/

namespace TorrentTracker.Config

variable {c : Config}

/-- What valid settings are, but for the lifetime of peers. -/
structure Lawful (c : Config) : Prop where
  /-- A number of threads that is not given is that of the processors. -/
  threads : ∀ n, c.server.numThreads = some n → 0 < n.toNat
  transport : c.udp.enabled = true ∨ c.http.enabled = true
  workers : c.udp.enabled = true → ∀ n, c.udp.workers = some n → 0 < n.toNat
  announceInterval : 0 < c.tracker.announceInterval.toInt
  announceFuzz : 0 ≤ c.tracker.announceFuzz.toInt
  maxNumwant : 0 < c.tracker.maxNumwant.toNat
  defaultNumwant : c.tracker.defaultNumwant.toNat ≤ c.tracker.maxNumwant.toNat
  trimInterval : 0 < c.peers.trimInterval.toNat
  maxAge : 0 < c.connections.maxAge.toInt
  gcInterval : 0 < c.connections.gcInterval.toNat
  backupInterval : 0 < c.backup.interval.toNat
  backupPath : c.backup.kind = .file → ∃ path, c.backup.path = some path
  logLevel : c.logging.level ∈ ["trace", "debug", "info", "warn", "error"]
  logFormat : c.logging.format ∈ ["json", "console"]

-- =============================================================== checks

/-- An unsigned word taken for a signed one. -/
theorem toInt_toInt64 (n : UInt64) :
    n.toInt64.toInt
      = if (n.toNat : Int) < Seconds.span then (n.toNat : Int) else n.toNat - 2 * Seconds.span := by
  have hbits : n.toInt64.toInt = if 2 * n.toNat < 2 ^ 64 then (n.toNat : Int)
      else n.toNat - 2 ^ 64 := BitVec.toInt_eq_toNat_cond n.toBitVec
  unfold Seconds.span
  omega

theorem ne_zero_iff {n : UInt64} : n ≠ 0 ↔ 0 < n.toNat := by
  rw [← UInt64.toNat_inj.ne, Nat.pos_iff_ne_zero]
  rfl

/-- A number that need not be given may not be nought if it is. -/
theorem ne_some_zero_iff {given : Option UInt64} :
    given ≠ some 0 ↔ ∀ n, given = some n → 0 < n.toNat := by
  constructor
  · rintro h n rfl
    exact ne_zero_iff.mp fun hzero => h (congrArg some hzero)
  · rintro h rfl
    exact absurd (h 0 rfl) (by decide)

/-- Valid settings are those that fail no check. -/
theorem validate_eq_ok_iff_checks :
    c.validate = .ok () ↔ ∀ check ∈ c.checks, check.1 = false := by
  refine ⟨fun h check hcheck => fails_none h hcheck, fun h => ?_⟩
  have hnone : c.checks.find? Prod.fst = none :=
    List.find?_eq_none.mpr fun check hcheck => Bool.eq_false_iff.mp (h check hcheck)
  unfold validate problem?
  rw [hnone]
  rfl

/-- The checks in numbers, with the time between sweeps as the word that it
is taken for. -/
theorem validate_eq_ok_iff :
    c.validate = .ok ()
      ↔ c.Lawful ∧ c.peers.trimInterval.toInt64.toInt < c.peers.ttl.toInt := by
  rw [validate_eq_ok_iff_checks]
  simp only [checks, List.forall_mem_cons, decide_eq_false_iff_not, Bool.and_eq_false_iff,
    Bool.not_eq_false', Int32.le_iff_toInt_le, Int32.lt_iff_toInt_lt, Int64.le_iff_toInt_le,
    UInt64.lt_iff_toNat_lt, Int.not_le, Int.not_lt, Nat.not_lt, ← ne_eq, ne_zero_iff,
    ne_some_zero_iff, List.contains_iff_mem, Option.isNone_eq_false_iff, Option.isSome_iff_exists]
  -- a check of two conditions is a law that holds under the first
  simp only [← Bool.not_eq_true, ne_eq, ← imp_iff_not_or]
  constructor
  · rintro ⟨threads, transport, workers, announceInterval, announceFuzz, maxNumwant,
      defaultNumwant, trimInterval, lifetime, maxAge, gcInterval, backupInterval, backupPath,
      logLevel, logFormat, -⟩
    exact ⟨⟨threads, transport, workers, announceInterval, announceFuzz, maxNumwant,
      defaultNumwant, trimInterval, maxAge, gcInterval, backupInterval, backupPath, logLevel,
      logFormat⟩, lifetime⟩
  · rintro ⟨h, lifetime⟩
    exact ⟨h.threads, h.transport, h.workers, h.announceInterval, h.announceFuzz, h.maxNumwant,
      h.defaultNumwant, h.trimInterval, lifetime, h.maxAge, h.gcInterval, h.backupInterval,
      h.backupPath, h.logLevel, h.logFormat, fun _ hmem => absurd hmem List.not_mem_nil⟩

/-- A time between sweeps that a signed word holds is compared as it is. -/
theorem validate_eq_ok_iff_of_lt (h : (c.peers.trimInterval.toNat : Int) < Seconds.span) :
    c.validate = .ok () ↔ c.Lawful ∧ (c.peers.trimInterval.toNat : Int) < c.peers.ttl.toInt := by
  rw [validate_eq_ok_iff, toInt_toInt64, if_pos h]

/-- A longer one is compared as the negative number that its bits spell. -/
theorem validate_eq_ok_iff_of_le (h : Seconds.span ≤ (c.peers.trimInterval.toNat : Int)) :
    c.validate = .ok ()
      ↔ c.Lawful ∧ (c.peers.trimInterval.toNat : Int) - 2 * Seconds.span < c.peers.ttl.toInt := by
  rw [validate_eq_ok_iff, toInt_toInt64, if_neg (Int.not_lt.mpr h)]

-- =============================================================== sweeps

/-- Sweeps are due once in every period. -/
theorem mem_due_trimPeers_iff (h : c.validate = .ok ()) {second : Nat} :
    .trimPeers ∈ Task.due c second ↔ 0 < second ∧ c.peers.trimInterval.toNat ∣ second := by
  have hpositive := (validate_eq_ok_iff.mp h).1.trimInterval
  have hlisted : Task.trimPeers ∈ Task.all := .head _
  unfold Task.due
  rw [List.mem_filter, and_iff_right hlisted, Bool.and_eq_true, Bool.and_eq_true,
    decide_eq_true_iff, decide_eq_true_iff, decide_eq_true_iff, and_assoc,
    Nat.dvd_iff_mod_eq_zero]
  exact and_congr_right fun _ => and_iff_right hpositive

/-- A sweep leaves a peer that is no older than the time since the sweep
before. -/
theorem peer?_perform_trimPeers (h : c.validate = .ok ()) {t : Tracker} (hconfig : t.config = c)
    {sweep next : Seconds} (hsweep : 0 ≤ sweep.toInt)
    (hnext : next.toInt = sweep.toInt + c.peers.trimInterval.toNat) (disk : Disk)
    {hash : InfoHash} {id : PeerId} {p : Peer} (hp : t.store.peer? hash id = some p)
    (hseen : sweep.toInt ≤ p.lastSeen.toInt) :
    (t.perform next disk .trimPeers).1.store.peer? hash id = some p := by
  -- a period that no signed word holds does not come to an end on any clock
  have hspan : (c.peers.trimInterval.toNat : Int) < Seconds.span := by
    have hclock : next.toInt < Seconds.span := next.toInt_lt
    omega
  have hlifetime := ((validate_eq_ok_iff_of_lt hspan).mp h).2
  have hage : next.toInt - p.lastSeen.toInt ≤ t.config.peers.ttl.toInt := by
    rw [hconfig]
    omega
  show (t.store.trim next t.config.peers.ttl).1.peer? hash id = some p
  rw [Store.peer?_trim, hp, Option.filter_eq_some_iff, Bool.not_eq_true',
    Store.stale_eq_false_iff (by omega) (by omega)]
  exact ⟨rfl, hage⟩

-- ============================================================== the law

/-- What the check makes of settings, and what it promises of those that it
accepts. Up to what a signed word holds the lifetime of a peer is longer
than the time between sweeps; beyond it no lifetime is, and still some are
accepted. No client gets more peers than the ceiling. And a peer that was
seen since one sweep is there after the next. -/
structure Checked (c : Config) : Prop where
  accepted : (c.peers.trimInterval.toNat : Int) < Seconds.span →
    (c.validate = .ok () ↔ c.Lawful ∧ (c.peers.trimInterval.toNat : Int) < c.peers.ttl.toInt)
  missed : Seconds.span ≤ (c.peers.trimInterval.toNat : Int) →
    c.peers.ttl.toInt < (c.peers.trimInterval.toNat : Int)
      ∧ (c.validate = .ok () ↔ c.Lawful
        ∧ (c.peers.trimInterval.toNat : Int) - 2 * Seconds.span < c.peers.ttl.toInt)
  clamped : c.validate = .ok () → ∀ requested,
    (c.tracker.clampNumwant requested).toNat ≤ c.tracker.maxNumwant.toNat
  due : c.validate = .ok () → ∀ second,
    .trimPeers ∈ Task.due c second ↔ 0 < second ∧ c.peers.trimInterval.toNat ∣ second
  kept : c.validate = .ok () → ∀ (t : Tracker) (disk : Disk) (sweep next : Seconds),
    t.config = c → 0 ≤ sweep.toInt →
    next.toInt = sweep.toInt + c.peers.trimInterval.toNat →
    ∀ hash id p, t.store.peer? hash id = some p → sweep.toInt ≤ p.lastSeen.toInt →
      (t.perform next disk .trimPeers).1.store.peer? hash id = some p

/-- The law of the checks, on either side of the words that a period can be.
Below them the lifetime is compared as it should be, beyond them with a
negative number. -/
theorem checked_settings (c : Config) : c.Checked where
  accepted := validate_eq_ok_iff_of_lt
  missed := by
    intro h
    exact ⟨Int.lt_of_lt_of_le c.peers.ttl.toInt_lt h, validate_eq_ok_iff_of_le h⟩
  clamped := clampNumwant_le
  due := fun h _ => mem_due_trimPeers_iff h
  kept := fun h _ disk _ _ hconfig hsweep hnext _ _ _ hp hseen =>
    peer?_perform_trimPeers h hconfig hsweep hnext disk hp hseen

/-- The longest time between sweeps that can be set passes with no lifetime
at all, and then a sweep takes a peer that was seen the second before. -/
theorem short_lived_accepted :
    let c : Config := { peers := { ttl := 0, trimInterval := 18446744073709551615 } }
    let hash : InfoHash := .replicate 20 1
    let id : PeerId := .replicate 20 2
    let s := Store.empty.save hash id ⟨.v4 (.replicate 4 10), 6881, true, 1000⟩
    c.validate = .ok () ∧ ¬(c.peers.trimInterval.toNat : Int) < c.peers.ttl.toInt
      ∧ ¬0 < c.peers.ttl.toInt ∧ (s.peer? hash id).isSome = true
      ∧ ((s.trim 1001 c.peers.ttl).1.peer? hash id).isSome = false := by
  decide

end TorrentTracker.Config
