import Mathlib.Data.List.InsertIdx
import Mathlib.Data.List.Perm.Basic
import TorrentTracker.BufferPool

/-
Buffers that go out and come back.

A pool knows the buffers that are idle and no others. Here it stands beside
those that are out (`Lending`), and a loan is named by its place among
them. A holder appends to its buffer, puts other content in the place of
what stands there, and hands it back. It cannot do any of this with a buffer
it does not hold, so an operation on a loan that there is not does nothing.
Each acquire and each release is done as a whole, so what holders that work
side by side do is some list of operations, and the theorem is about every
list.

A buffer that grows may get more room than it needs, and nothing says how
much: an overwrite, also one with what stands there already, leaves any
amount to spare. What a holder does not do is give room up. The pool would
not make up for it, since it lends a buffer again with the room that it came
back with.

# The invariant

`Lending.Sound` is what every operation keeps:

1. idle buffers are clear, and no more than the pool may keep;
2. every buffer, idle or out, has the room that the pool promises;
3. no serial number stands twice among all of them, and new ones are new.

The numbers are followed up to order. An acquire leaves all buffers as they
are, or makes one (`buffers_acquire`); a release takes none away, or the one
that there is no place for (`serials_release`); what is written changes no
number. What stands in a buffer is not followed through the pool at all: it
is what the operations of its own loan wrote (`contents_run`).

# Main statement

- `orderly_run`: what a pool and its loans are like after any operations,
  and what the next acquire or release does to them.
-/

namespace TorrentTracker

/-- Other content in the place of what stands in a buffer, which gets the
room that it needs and maybe some to spare. -/
def Buffer.overwrite (b : Buffer) (content : Bytes) (spare : Nat) : Buffer :=
  { b with content, room := max b.room content.length + spare }

theorem Buffer.room_le_append (b : Buffer) (data : Bytes) : b.room ≤ (b.append data).room :=
  Nat.le_max_left _ _

theorem Buffer.room_le_overwrite (b : Buffer) (content : Bytes) (spare : Nat) :
    b.room ≤ (b.overwrite content spare).room :=
  Nat.le_trans (Nat.le_max_left _ _) (Nat.le_add_right _ spare)

namespace BufferPool

-- ========================================================== operations

/-- A pool with the buffers that are out, the latest loan first. -/
structure Lending where
  pool : BufferPool
  lent : List Buffer

/-- What is done with a pool and its buffers. -/
inductive Operation where
  | acquire
  | append (loan : Nat) (data : Bytes)
  | overwrite (loan : Nat) (content : Bytes) (spare : Nat)
  | release (loan : Nat)

namespace Lending

/-- The holder of a loan does something with its buffer. -/
def edit (d : Lending) (loan : Nat) (f : Buffer → Buffer) : Lending :=
  { d with lent := d.lent.modify loan f }

/-- Carry an operation out. -/
def perform (d : Lending) : Operation → Lending
  | .acquire => ⟨d.pool.acquire.1, d.pool.acquire.2 :: d.lent⟩
  | .append loan data => d.edit loan fun b => b.append data
  | .overwrite loan content spare => d.edit loan fun b => b.overwrite content spare
  | .release loan =>
    d.lent[loan]?.elim d fun b => ⟨d.pool.release b, d.lent.eraseIdx loan⟩

/-- All the buffers that there are. -/
def buffers (d : Lending) : List Buffer := d.pool.idle ++ d.lent

/-- Which ones these are. -/
def serials (d : Lending) : List Nat := d.buffers.map Buffer.serial

end Lending

/-- A pool without buffers, after operations. -/
def run (capacity size : Nat) (ops : List Operation) : Lending :=
  ops.foldl Lending.perform ⟨empty capacity size, []⟩

/-- What an operation writes in the buffers that are out. There is no pool
here and nothing of earlier loans. -/
def Operation.inscribe (contents : List Bytes) : Operation → List Bytes
  | acquire => [] :: contents
  | append loan data => contents.modify loan fun content => content ++ data
  | overwrite loan content _ => contents.modify loan fun _ => content
  | release loan => contents.eraseIdx loan

variable {capacity size loan : Nat} {pool : BufferPool} {d : Lending} {b : Buffer}
  {f : Buffer → Buffer}

-- ================================================== change of one loan

/-- A change in one place and a reading of all places that follows it. -/
theorem map_modify {α β : Type} {g : α → β} {f : α → α} {f' : β → β}
    (h : ∀ a, g (f a) = f' (g a)) (l : List α) (i : Nat) :
    (l.modify i f).map g = (l.map g).modify i f' := by
  induction l generalizing i with
  | nil => simp
  | cons a l ih =>
      cases i with
      | zero => simp [h]
      | succ i => simp [ih]

/-- What is so everywhere and survives the change is so everywhere after
it. -/
theorem forall_mem_modify {α : Type} {p : α → Prop} {f : α → α} {l : List α}
    (hl : ∀ a ∈ l, p a) (hf : ∀ a, p a → p (f a)) (i : Nat) : ∀ a ∈ l.modify i f, p a := by
  intro a ha
  obtain ⟨j, hj⟩ := List.mem_iff_getElem?.mp ha
  rw [List.getElem?_modify] at hj
  obtain ⟨c, hc, rfl⟩ := Option.map_eq_some_iff.mp hj
  have hp := hl c (List.mem_of_getElem? hc)
  split
  · exact hf c hp
  · exact hp

-- ================================================= acquire and release

/-- A buffer that is lent was idle, or none was and it is new. -/
theorem acquire_cases (pool : BufferPool) :
    pool.idle = pool.acquire.2 :: pool.acquire.1.idle
      ∨ (pool.idle = [] ∧ pool.acquire
          = ({ pool with made := pool.made + 1 }, ⟨pool.made, [], pool.bufferSize⟩)) := by
  unfold acquire
  cases pool.idle with
  | nil => exact .inr ⟨rfl, rfl⟩
  | cons b rest => exact .inl rfl

/-- An acquire changes what is idle, and counts a buffer that it makes. -/
theorem acquire_fst (pool : BufferPool) :
    pool.acquire.1 = { pool with
      idle := pool.idle.tail
      made := pool.made + if pool.idle = [] then 1 else 0 } := by
  obtain ⟨capacity, bufferSize, idle, made⟩ := pool
  cases idle <;> rfl

/-- A release changes what is idle and nothing else. -/
theorem release_eq (pool : BufferPool) (b : Buffer) :
    pool.release b = { pool with
      idle := if pool.idle.length < pool.capacity then b.clear :: pool.idle else pool.idle } := by
  unfold release
  split <;> rfl

theorem length_idle_acquire (pool : BufferPool) :
    pool.acquire.1.idle.length = pool.idle.length - 1 := by
  rw [acquire_fst]
  exact List.length_tail

theorem length_idle_release (h : pool.idle.length ≤ pool.capacity) (b : Buffer) :
    (pool.release b).idle.length = min pool.capacity (pool.idle.length + 1) := by
  rw [release_eq]
  dsimp only
  split
  · rw [List.length_cons]
    omega
  · omega

/-- What is so of the idle buffers and of the one that comes back cleared is
so of those that are idle then. -/
theorem forall_mem_idle_release {p : Buffer → Prop} (hidle : ∀ c ∈ pool.idle, p c)
    (hb : p b.clear) : ∀ c ∈ (pool.release b).idle, p c := by
  rw [release_eq]
  dsimp only
  split
  · exact List.forall_mem_cons.mpr ⟨hb, hidle⟩
  · exact hidle

namespace Lending

/-- A release ends one loan and hands its buffer to the pool. -/
theorem perform_release (h : d.lent[loan]? = some b) :
    d.perform (.release loan) = ⟨d.pool.release b, d.lent.eraseIdx loan⟩ := by
  show d.lent[loan]?.elim d _ = _
  rw [h]
  rfl

theorem perform_release_of_none (h : d.lent[loan]? = none) : d.perform (.release loan) = d := by
  show d.lent[loan]?.elim d _ = _
  rw [h]
  rfl

-- ======================================================== conservation

/-- An acquire takes a buffer from the idle ones, or makes one. -/
theorem buffers_acquire (d : Lending) :
    (d.perform .acquire).buffers.Perm
      ((if d.pool.idle = [] then [⟨d.pool.made, [], d.pool.bufferSize⟩] else []) ++ d.buffers) := by
  show (d.pool.acquire.1.idle ++ d.pool.acquire.2 :: d.lent).Perm (_ ++ (d.pool.idle ++ d.lent))
  rcases d.pool.acquire_cases with hidle | ⟨hidle, hacquire⟩
  · have hsome : d.pool.idle ≠ [] := hidle ▸ List.cons_ne_nil _ _
    rw [if_neg hsome, hidle]
    exact List.perm_middle
  · rw [if_pos hidle, hacquire]
    exact List.perm_middle

/-- An acquire moves a serial from the pool to the loans, or brings a new
one. -/
theorem serials_acquire (d : Lending) :
    (d.perform .acquire).serials.Perm
      ((if d.pool.idle = [] then [d.pool.made] else []) ++ d.serials) := by
  refine (d.buffers_acquire.map Buffer.serial).trans (.of_eq ?_)
  rw [List.map_append]
  split <;> rfl

/-- What a holder writes does not make another buffer of it. -/
theorem serials_edit (hf : ∀ b, (f b).serial = b.serial) (d : Lending) (loan : Nat) :
    (d.edit loan f).serials = d.serials := by
  show (d.pool.idle ++ d.lent.modify loan f).map _ = (d.pool.idle ++ d.lent).map _
  have hsame : ∀ b, (f b).serial = id b.serial := hf
  rw [List.map_append, List.map_append, map_modify hsame, List.modify_id]

/-- A release hands a buffer over to the idle ones, or lets it go when
there is no place for it. -/
theorem serials_release (h : d.lent[loan]? = some b) :
    d.serials.Perm ((if d.pool.idle.length < d.pool.capacity then [] else [b.serial])
      ++ (d.perform (.release loan)).serials) := by
  obtain ⟨hloan, rfl⟩ := List.getElem?_eq_some_iff.mp h
  have hout : d.buffers.Perm (d.lent[loan] :: (d.pool.idle ++ d.lent.eraseIdx loan)) :=
    ((List.getElem_cons_eraseIdx_perm hloan).symm.append_left d.pool.idle).trans List.perm_middle
  refine (hout.map Buffer.serial).trans (.of_eq ?_)
  rw [perform_release h, release_eq]
  show _ = _ ++ (_ ++ d.lent.eraseIdx loan).map Buffer.serial
  dsimp only
  split <;> rfl

-- ============================================================ invariant

/-- What holds of a pool and its loans at every moment. -/
structure Sound (capacity size : Nat) (d : Lending) : Prop where
  settings : d.pool.capacity = capacity ∧ d.pool.bufferSize = size
  clear : ∀ b ∈ d.pool.idle, b.content = []
  roomy : ∀ b ∈ d.buffers, size ≤ b.room
  bounded : d.pool.idle.length ≤ capacity
  distinct : d.serials.Nodup
  made : ∀ serial ∈ d.serials, serial < d.pool.made

/-- The invariant to begin with: nothing is idle and nothing is out. -/
theorem sound_empty (capacity size : Nat) : Sound capacity size ⟨empty capacity size, []⟩ where
  settings := ⟨rfl, rfl⟩
  clear := nofun
  roomy := nofun
  bounded := Nat.zero_le capacity
  distinct := List.nodup_nil
  made := nofun

/-- A buffer that is lent is clear: it was idle, or it is new. -/
theorem Sound.content_acquire (h : d.Sound capacity size) : d.pool.acquire.2.content = [] := by
  rcases d.pool.acquire_cases with hidle | ⟨-, hacquire⟩
  · refine h.clear _ ?_
    rw [hidle]
    exact List.mem_cons_self
  · rw [hacquire]

/-- The invariant after an acquire. A buffer that was idle is empty and roomy;
a new one is made so, and its serial is past all others. -/
theorem Sound.acquire (h : d.Sound capacity size) : (d.perform .acquire).Sound capacity size where
  settings := by
    show d.pool.acquire.1.capacity = _ ∧ d.pool.acquire.1.bufferSize = _
    rw [acquire_fst]
    exact h.settings
  clear := by
    show ∀ b ∈ d.pool.acquire.1.idle, b.content = []
    rw [acquire_fst]
    exact fun b hb => h.clear b (List.mem_of_mem_tail hb)
  roomy := by
    intro b hb
    rw [d.buffers_acquire.mem_iff, List.mem_append, List.mem_ite_nil_right,
      List.mem_singleton] at hb
    rcases hb with ⟨-, rfl⟩ | hb
    · exact Nat.le_of_eq h.settings.2.symm
    · exact h.roomy b hb
  bounded := by
    show d.pool.acquire.1.idle.length ≤ capacity
    rw [length_idle_acquire]
    exact Nat.le_trans (Nat.sub_le _ 1) h.bounded
  distinct := by
    -- a serial that is made now is past all that were made
    rw [d.serials_acquire.nodup_iff]
    split
    · exact List.nodup_cons.mpr ⟨fun hmade => Nat.lt_irrefl _ (h.made _ hmade), h.distinct⟩
    · exact h.distinct
  made := by
    intro serial hserial
    rw [d.serials_acquire.mem_iff, List.mem_append, List.mem_ite_nil_right,
      List.mem_singleton] at hserial
    show serial < d.pool.acquire.1.made
    rw [acquire_fst]
    rcases hserial with ⟨hidle, rfl⟩ | hserial
    · rw [if_pos hidle]
      exact Nat.lt_succ_self _
    · exact Nat.lt_of_lt_of_le (h.made serial hserial) (Nat.le_add_right _ _)

theorem Sound.room_acquire (h : d.Sound capacity size) : size ≤ d.pool.acquire.2.room :=
  h.acquire.roomy _ (List.mem_append_right _ List.mem_cons_self)

/-- A buffer that is lent is not out already. -/
theorem Sound.serial_acquire_not_mem (h : d.Sound capacity size) :
    d.pool.acquire.2.serial ∉ d.lent.map Buffer.serial := by
  have hdistinct := h.acquire.distinct
  unfold serials buffers at hdistinct
  rw [List.map_append] at hdistinct
  have hlent : (d.pool.acquire.2.serial :: d.lent.map Buffer.serial).Nodup :=
    (List.nodup_append.mp hdistinct).2.1
  exact (List.nodup_cons.mp hlent).1

/-- A holder may do anything to its buffer that leaves it that buffer and
takes no room from it. -/
theorem Sound.edit (h : d.Sound capacity size) (hserial : ∀ b, (f b).serial = b.serial)
    (hroom : ∀ b, b.room ≤ (f b).room) (loan : Nat) : (d.edit loan f).Sound capacity size where
  settings := h.settings
  clear := h.clear
  roomy := by
    obtain ⟨hidle, hlent⟩ := List.forall_mem_append.mp h.roomy
    refine List.forall_mem_append.mpr ⟨hidle, forall_mem_modify hlent (fun b hb => ?_) loan⟩
    exact Nat.le_trans hb (hroom b)
  bounded := h.bounded
  distinct := by
    rw [serials_edit hserial]
    exact h.distinct
  made := by
    rw [serials_edit hserial]
    exact h.made

/-- How many are idle after a release, with the capacity that the invariant
fixes. -/
theorem Sound.length_idle_release (h : d.Sound capacity size) (b : Buffer) :
    (d.pool.release b).idle.length = min capacity (d.pool.idle.length + 1) := by
  rw [← h.settings.1]
  refine d.pool.length_idle_release ?_ b
  rw [h.settings.1]
  exact h.bounded

/-- The invariant after a release: the buffer is cleared before it is idle, and
its serial is on loan no more. -/
theorem Sound.release (h : d.Sound capacity size) (hloan : d.lent[loan]? = some b) :
    (d.perform (.release loan)).Sound capacity size where
  settings := by
    rw [perform_release hloan, release_eq]
    exact h.settings
  clear := by
    rw [perform_release hloan]
    exact forall_mem_idle_release h.clear rfl
  roomy := by
    obtain ⟨hidle, hlent⟩ := List.forall_mem_append.mp h.roomy
    rw [perform_release hloan]
    refine List.forall_mem_append.mpr ⟨?_, fun c hc => hlent c (List.mem_of_mem_eraseIdx hc)⟩
    exact forall_mem_idle_release hidle (hlent b (List.mem_of_getElem? hloan))
  bounded := by
    rw [perform_release hloan]
    show (d.pool.release b).idle.length ≤ capacity
    rw [h.length_idle_release]
    exact Nat.min_le_left _ _
  distinct := (List.nodup_append.mp ((serials_release hloan).nodup_iff.mp h.distinct)).2.1
  made := by
    intro serial hserial
    have hbefore := h.made serial
      ((serials_release hloan).mem_iff.mpr (List.mem_append_right _ hserial))
    rw [perform_release hloan, release_eq]
    exact hbefore

theorem Sound.perform (h : d.Sound capacity size) (op : Operation) :
    (d.perform op).Sound capacity size := by
  cases op with
  | acquire => exact h.acquire
  | append loan data =>
      refine h.edit ?_ (fun b => b.room_le_append data) loan
      exact fun _ => rfl
  | overwrite loan content spare =>
      refine h.edit ?_ (fun b => b.room_le_overwrite content spare) loan
      exact fun _ => rfl
  | release loan =>
      cases hloan : d.lent[loan]? with
      | none =>
          rw [perform_release_of_none hloan]
          exact h
      | some b => exact h.release hloan

theorem Sound.foldl_perform (h : d.Sound capacity size) (ops : List Operation) :
    (ops.foldl Lending.perform d).Sound capacity size := by
  induction ops generalizing d with
  | nil => exact h
  | cons op ops ih => exact ih (h.perform op)

-- ============================================================= contents

/-- What callers see of the buffers they hold is what they wrote, as if each
had one of its own. That needs the invariant: a lent buffer is empty. -/
theorem Sound.contents_perform (h : d.Sound capacity size) (op : Operation) :
    (d.perform op).lent.map Buffer.content = op.inscribe (d.lent.map Buffer.content) := by
  cases op with
  | acquire => exact congrArg (· :: _) h.content_acquire
  | append loan data =>
      have happend : ∀ b : Buffer, (b.append data).content = b.content ++ data := fun _ => rfl
      exact map_modify happend d.lent loan
  | overwrite loan content spare =>
      have hcontent : ∀ b : Buffer, (b.overwrite content spare).content = content := fun _ => rfl
      exact map_modify hcontent d.lent loan
  | release loan =>
      show _ = (d.lent.map Buffer.content).eraseIdx loan
      rw [List.eraseIdx_map]
      cases hloan : d.lent[loan]? with
      | none =>
          rw [perform_release_of_none hloan,
            List.eraseIdx_of_length_le (List.getElem?_eq_none_iff.mp hloan)]
      | some b => rw [perform_release hloan]

theorem Sound.contents_foldl_perform (h : d.Sound capacity size) (ops : List Operation) :
    (ops.foldl Lending.perform d).lent.map Buffer.content
      = ops.foldl Operation.inscribe (d.lent.map Buffer.content) := by
  induction ops generalizing d with
  | nil => rfl
  | cons op ops ih => rw [List.foldl_cons, List.foldl_cons, ih (h.perform op), h.contents_perform]

end Lending

/-- The invariant of every run from an empty pool. -/
theorem sound_run (capacity size : Nat) (ops : List Operation) :
    (run capacity size ops).Sound capacity size :=
  (Lending.sound_empty capacity size).foldl_perform ops

/-- What callers see along every run from an empty pool. -/
theorem contents_run (capacity size : Nat) (ops : List Operation) :
    (run capacity size ops).lent.map Buffer.content = ops.foldl Operation.inscribe [] :=
  (Lending.sound_empty capacity size).contents_foldl_perform ops

-- ============================================================== the law

/-- What holders can rely on after any operations. A buffer that is lent
next is clear, has the room that was promised and is nobody else's, and in
those that are out stands what their holders wrote since and nothing else.
No more buffers are idle than the pool may keep; an acquire leaves one less,
or none if there was none, and a release one more, up to that number. No
buffer is idle and out, or out twice. An acquire loses none and makes one
only if none is idle, a release lets one go only if there is no place. -/
structure Orderly (capacity size : Nat) (ops : List Operation) (d : Lending) : Prop where
  acquired : d.pool.acquire.2.content = [] ∧ size ≤ d.pool.acquire.2.room
    ∧ d.pool.acquire.2.serial ∉ d.lent.map Buffer.serial
  contents : d.lent.map Buffer.content = ops.foldl Operation.inscribe []
  bounded : d.pool.idle.length ≤ capacity
  idle_acquire : (d.perform .acquire).pool.idle.length = d.pool.idle.length - 1
  idle_release : ∀ loan < d.lent.length,
    (d.perform (.release loan)).pool.idle.length = min capacity (d.pool.idle.length + 1)
  distinct : d.serials.Nodup
  acquire_conserves : (d.perform .acquire).serials.Perm
    ((if d.pool.idle = [] then [d.pool.made] else []) ++ d.serials)
  release_conserves : ∀ loan b, d.lent[loan]? = some b →
    d.serials.Perm ((if d.pool.idle.length < capacity then [] else [b.serial])
      ++ (d.perform (.release loan)).serials)

/-- The law of the pool, after any acquires, writes and releases. What is idle
and on loan comes from the invariant, and what one more acquire or release does
from the one step. -/
theorem orderly_run (capacity size : Nat) (ops : List Operation) :
    Orderly capacity size ops (run capacity size ops) where
  acquired := by
    have hsound := sound_run capacity size ops
    exact ⟨hsound.content_acquire, hsound.room_acquire, hsound.serial_acquire_not_mem⟩
  contents := contents_run capacity size ops
  bounded := (sound_run capacity size ops).bounded
  idle_acquire := length_idle_acquire _
  idle_release := by
    intro loan hloan
    rw [Lending.perform_release (List.getElem?_eq_getElem hloan)]
    exact (sound_run capacity size ops).length_idle_release _
  distinct := (sound_run capacity size ops).distinct
  acquire_conserves := Lending.serials_acquire _
  release_conserves := by
    intro loan b hloan
    have hserials := Lending.serials_release hloan
    rw [(sound_run capacity size ops).settings.1] at hserials
    exact hserials

/-- Of five buffers that come back a pool for two keeps two, and what was
written to one of them is gone when it is lent again. -/
example :
    let out : List Operation := .replicate 5 .acquire
    let back : List Operation := .replicate 5 (.release 0)
    let d := run 2 4 (out ++ .append 1 [1, 2, 3, 4, 5] :: back)
    d.pool.idle.length = 2 ∧ d.pool.made = 5
      ∧ (d.perform .acquire).lent = [⟨3, [], 5⟩] := by
  decide

end BufferPool

end TorrentTracker
