import TorrentTracker.Bytes

/-
Readers that undo a writing.

`Reads r v a` ties a reader to one written form `v` of one value `a`, and
says two things: after `v` the reader has `a` and has touched nothing of
what follows, and with any less than `v` it stops without an answer. The
first half is what a round trip needs, the second what a cut-off file
needs. Both pass through a sequence of readers in the same way
(`Reads.bind`), so a format is described once, piece by piece, and every
reader built with `do` inherits both halves from its pieces.

`Answers r P` is about any input, written or not: whatever the reader
makes of it has the property. It passes through a `do` block in the same
way.

`Takes r n value` is about any input too, and says all there is to say of
a reader whose fields have fixed places: it asks for `n` bytes, and what it
answers is a function of the input.

# Main statements

- `Reads.pure`, `Reads.bind`: the pieces of a `do` block;
- `reads_bytes`, `reads_byte`: the two readers that take input;
- `Takes.bind`: the places of what comes later are counted from where the
  first reader stops;
- `Reads.times`, `Answers.times`, `Takes.times`: items one after the other.
-/

namespace TorrentTracker.Reader

variable {α β : Type}

/-- The reader answers `a` to what is written and leaves what follows; cut
anywhere, what is written is not enough. -/
structure Reads (r : Reader α) (written : Bytes) (a : α) : Prop where
  gives : ∀ rest, r.run (written ++ rest) = some (a, rest)
  needs : ∀ k < written.length, r.run (written.take k) = none

/-- Nothing is written for a value that is known already. -/
theorem Reads.pure (a : α) : Reads (Pure.pure a) [] a where
  gives := fun rest => rfl
  needs := by
    intro k hk
    cases hk

/-- One reader after the other reads one writing after the other. -/
theorem Reads.bind {r : Reader α} {f : α → Reader β} {v w : Bytes} {a : α} {b : β}
    (hr : Reads r v a) (hf : Reads (f a) w b) : Reads (r >>= f) (v ++ w) b where
  gives := by
    intro rest
    rw [StateT.run_bind, List.append_assoc, hr.gives]
    exact hf.gives rest
  needs := by
    intro k hk
    rw [StateT.run_bind, List.take_append]
    by_cases hkv : k < v.length
    · -- the cut is in the first writing
      rw [Nat.sub_eq_zero_of_le (Nat.le_of_lt hkv), List.take_zero, List.append_nil,
        hr.needs k hkv]
      rfl
    · -- the first writing is whole, the cut is in the second
      have hv : v.take k = v := List.take_of_length_le (Nat.le_of_not_lt hkv)
      rw [hv, hr.gives]
      refine hf.needs _ ?_
      rw [List.length_append] at hk
      omega

/-- Of what begins with a writing, so much is not enough as is shorter than
the writing; where it stops after that makes no difference. -/
theorem Reads.run_take_eq_none_iff {r : Reader α} {v : Bytes} {a : α} (h : Reads r v a)
    (rest : Bytes) (k : Nat) : r.run ((v ++ rest).take k) = none ↔ k < v.length := by
  rw [List.take_append]
  by_cases hk : k < v.length
  · rw [Nat.sub_eq_zero_of_le (Nat.le_of_lt hk), List.take_zero, List.append_nil]
    exact iff_of_true (h.needs k hk) hk
  · rw [List.take_of_length_le (Nat.le_of_not_lt hk), h.gives]
    exact iff_of_false (Option.some_ne_none _) hk

/-- What is read can be put into another form. -/
theorem Reads.map {r : Reader α} {v : Bytes} {a : α} (hr : Reads r v a) (f : α → β) :
    Reads (r >>= fun a => Pure.pure (f a)) v (f a) := by
  have hbind := hr.bind (f := fun a => Pure.pure (f a)) (Reads.pure (f a))
  rw [List.append_nil] at hbind
  exact hbind

/-- The reader answers to nothing that begins like this. -/
def Refuses (r : Reader α) (v : Bytes) : Prop := ∀ rest, r.run (v ++ rest) = none

theorem refuses_fail : Refuses (fail : Reader α) [] := fun _ => rfl

/-- What the first of two readers refuses, both refuse. -/
theorem Refuses.bind {r : Reader α} {v : Bytes} (h : Refuses r v) (f : α → Reader β) :
    Refuses (r >>= f) v := by
  intro rest
  rw [StateT.run_bind, h]
  rfl

/-- What the second of two readers refuses, after what the first one reads,
both refuse. -/
theorem Reads.refuses {r : Reader α} {f : α → Reader β} {v w : Bytes} {a : α}
    (hr : Reads r v a) (hf : Refuses (f a) w) : Refuses (r >>= f) (v ++ w) := by
  intro rest
  rw [StateT.run_bind, List.append_assoc, hr.gives]
  exact hf rest

/-- A byte string of the length that is asked for. -/
theorem reads_bytes {n : Nat} {v : Bytes} (h : v.length = n) : Reads (bytes n) v v where
  gives := by
    intro rest
    subst h
    exact run_bytes_append v rest
  needs := by
    intro k hk
    rw [run_bytes, if_neg]
    rw [List.length_take]
    omega

/-- What is taken off the front is the front. -/
theorem run_bytes_eq_some_iff {n : Nat} {data front rest : Bytes} :
    (bytes n).run data = some (front, rest) ↔ front.length = n ∧ data = front ++ rest := by
  constructor
  · intro h
    rw [run_bytes] at h
    split at h
    · next hn =>
      obtain ⟨rfl, rfl⟩ := Prod.mk.inj (Option.some.inj h)
      exact ⟨List.length_take_of_le hn, (List.take_append_drop n data).symm⟩
    · cases h
  · rintro ⟨rfl, rfl⟩
    exact run_bytes_append front rest

theorem reads_byte (b : UInt8) : Reads byte [b] b where
  gives := fun rest => rfl
  needs := by
    intro k hk
    have hzero : k = 0 := by
      rw [List.length_singleton] at hk
      omega
    subst hzero
    rfl

/-- Octets are read back, and no fewer bytes will do. -/
theorem reads_octets {n : Nat} (o : Octets n) : Reads (octets n) o.bytes o where
  gives := run_octets_append o
  needs := by
    intro k hk
    rw [o.length_bytes] at hk
    have hshort : ¬n ≤ (o.bytes.take k).length := by
      rw [List.length_take]
      omega
    show (if h : n ≤ (o.bytes.take k).length then _ else none) = none
    rw [dif_neg hshort]

/-- Items one after the other, where each reading undoes its writing. -/
theorem Reads.times {one : Reader α} {write : α → Bytes} {xs : List α}
    (h : ∀ x ∈ xs, Reads one (write x) x) :
    Reads (times xs.length one) (xs.flatMap write) xs := by
  induction xs with
  | nil => exact Reads.pure []
  | cons x xs ih =>
      have hx := h x List.mem_cons_self
      have hxs := ih fun y hy => h y (List.mem_cons_of_mem _ hy)
      exact hx.bind (hxs.map (x :: ·))

/-- The first item, and then the others. -/
theorem run_times_succ_eq_some {one : Reader α} {n : Nat} {data rest : Bytes} {xs : List α}
    (h : (times (n + 1) one).run data = some (xs, rest)) :
    ∃ x middle others, one.run data = some (x, middle)
      ∧ (times n one).run middle = some (others, rest) ∧ xs = x :: others := by
  rw [times, StateT.run_bind] at h
  obtain ⟨⟨x, middle⟩, hx, h⟩ := Option.bind_eq_some_iff.mp h
  rw [StateT.run_bind] at h
  obtain ⟨⟨others, left⟩, hothers, h⟩ := Option.bind_eq_some_iff.mp h
  cases h
  exact ⟨x, middle, others, hx, hothers, rfl⟩

theorem length_flatMap {write : α → Bytes} {n : Nat} {xs : List α}
    (h : ∀ x ∈ xs, (write x).length = n) : (xs.flatMap write).length = xs.length * n := by
  rw [List.length_flatMap, List.map_congr_left h, List.map_const', List.sum_replicate_nat]

-- ============================================== what readers can answer

/-- Whatever the reader answers, on any input, has the property. -/
structure Answers (r : Reader α) (P : α → Prop) : Prop where
  holds : ∀ {data a rest}, r.run data = some (a, rest) → P a

/-- What is returned without reading is known beforehand. -/
theorem Answers.pure {P : α → Prop} {a : α} (h : P a) : Answers (Pure.pure a) P where
  holds := by
    intro data b rest hrun
    cases hrun
    exact h

theorem answers_fail {P : α → Prop} : Answers fail P where
  holds := by
    intro data a rest hrun
    cases hrun

theorem answers_true (r : Reader α) : Answers r fun _ => True where
  holds := fun _ => trivial

/-- What is known of a first answer may be used for the second. -/
theorem Answers.bind {r : Reader α} {f : α → Reader β} {P : α → Prop} {Q : β → Prop}
    (hr : Answers r P) (hf : ∀ a, P a → Answers (f a) Q) : Answers (r >>= f) Q where
  holds := by
    intro data b rest hrun
    rw [StateT.run_bind] at hrun
    obtain ⟨⟨a, middle⟩, ha, hb⟩ := Option.bind_eq_some_iff.mp hrun
    exact (hf a (hr.holds ha)).holds hb

/-- A list of so many items, each with what one reading answers. Nothing is
said of where one ends and the next begins. -/
theorem Answers.times {one : Reader α} {P : α → Prop} (h : Answers one P) (n : Nat) :
    Answers (times n one) fun xs => xs.length = n ∧ ∀ x ∈ xs, P x := by
  induction n with
  | zero =>
      refine Answers.pure ⟨rfl, ?_⟩
      intro x hx
      cases hx
  | succ n ih =>
      refine h.bind fun x hx => ih.bind fun xs hxs => Answers.pure ⟨?_, ?_⟩
      · rw [List.length_cons, hxs.1]
      · exact List.forall_mem_cons.mpr ⟨hx, hxs.2⟩

/-- Bytes that are read are as many as were asked for. -/
theorem answers_bytes (n : Nat) : Answers (bytes n) fun v => v.length = n where
  holds := by
    intro data v rest hrun
    rw [run_bytes] at hrun
    split at hrun
    · next hle =>
      cases hrun
      rw [List.length_take]
      exact Nat.min_eq_left hle
    · cases hrun

-- =============================================== readers of a fixed width

/-- The reader asks for `n` bytes and stops without an answer if there are
fewer. Its answer is made of the input by `value`. -/
structure Takes (r : Reader α) (n : Nat) (value : Bytes → α) : Prop where
  run : ∀ data, r.run data = if n ≤ data.length then some (value data, data.drop n) else none

theorem Takes.pure (a : α) : Takes (Pure.pure a) 0 fun _ => a where
  run := by
    intro data
    rw [if_pos (Nat.zero_le _), List.drop_zero]
    rfl

/-- One reader after the other takes what both take, the second one from where
the first one stopped. -/
theorem Takes.bind {r : Reader α} {f : α → Reader β} {n m : Nat} {value : Bytes → α}
    {next : α → Bytes → β} (hr : Takes r n value) (hf : ∀ a, Takes (f a) m (next a)) :
    Takes (r >>= f) (n + m) fun data => next (value data) (data.drop n) where
  run := by
    intro data
    rw [StateT.run_bind, hr.run]
    by_cases hn : n ≤ data.length
    · rw [if_pos hn]
      show (f (value data)).run (data.drop n) = _
      rw [(hf _).run, List.drop_drop, List.length_drop]
      by_cases hm : m ≤ data.length - n
      · rw [if_pos hm, if_pos (by omega)]
      · rw [if_neg hm, if_neg (by omega)]
    · rw [if_neg hn, if_neg (by omega)]
      rfl

/-- The same reader, with its width and its value told in another way. -/
theorem Takes.of_eq {r : Reader α} {n n' : Nat} {value value' : Bytes → α}
    (h : Takes r n value) (hn : n = n') (hvalue : ∀ data, value data = value' data) :
    Takes r n' value' := by
  subst hn
  rwa [← funext hvalue]

theorem takes_bytes (n : Nat) : Takes (bytes n) n fun data => data.take n where
  run := run_bytes n

/-- The first `n` bytes as an octet string. Where there are fewer, nobody
asks. -/
def frontOctets (n : Nat) (data : Bytes) : Octets n :=
  (Octets.ofBytes? n (data.take n)).getD default

theorem takes_octets (n : Nat) : Takes (octets n) n (frontOctets n) where
  run := by
    intro data
    show (if h : n ≤ data.length then _ else none) = _
    by_cases hn : n ≤ data.length
    · have hlen : (data.take n).length = n := by
        rw [List.length_take]
        exact Nat.min_eq_left hn
      rw [dif_pos hn, if_pos hn]
      unfold frontOctets Octets.ofBytes?
      rw [dif_pos hlen]
      rfl
    · rw [dif_neg hn, if_neg hn]

/-- Items of the same width stand at the multiples of it, so the bytes of each
can be told from its place alone. -/
theorem Takes.times {one : Reader α} {n : Nat} {value : Bytes → α} (h : Takes one n value)
    (count : Nat) :
    Takes (times count one) (count * n) fun data =>
      (List.range count).map fun i => value (data.drop (i * n)) := by
  induction count with
  | zero => exact (Takes.pure []).of_eq (Nat.zero_mul n).symm fun _ => rfl
  | succ count ih =>
      refine (h.bind fun first => ih.bind fun others => Takes.pure (first :: others)).of_eq ?_ ?_
      · rw [Nat.add_zero, Nat.succ_mul, Nat.add_comm]
      · intro data
        rw [List.range_succ_eq_map, List.map_cons, List.map_map, Nat.zero_mul, List.drop_zero]
        refine congrArg _ (List.map_congr_left fun i _ => ?_)
        show value ((data.drop n).drop (i * n)) = value (data.drop ((i + 1) * n))
        rw [List.drop_drop, Nat.succ_mul, Nat.add_comm]

end TorrentTracker.Reader
