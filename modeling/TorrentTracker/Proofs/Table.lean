import Mathlib.Data.List.Induction
import Mathlib.Data.List.Nodup
import TorrentTracker.Table

/-
Counting in tables: how many of a table's values have a property, and
what each operation does to that number.

The look-up laws of `Table` say what a table answers; a count is a
question about its listing, whose order an insertion changes. The bridge
is `toList_perm`: two listings without repeated keys that answer alike
are rearrangements of each other, and a rearrangement counts the same.

# Main statements

- `count_insert`, `count_erase`, `count_filterMap`: one law per
  operation;
- `get?_ofList`: of several pairs with one key a table made from a list
  answers the last;
- `count_ofList_cons`: a pair in front of a list counts only if no later
  pair has its key.
-/

namespace TorrentTracker.Table

universe u v

variable {κ : Type u} {α : Type v} [Key κ]

-- ========================================================== rearranging

/-- A table lists any list of different keys that answers as it does, in
some order. -/
theorem toList_perm {t : Table κ α} {xs : List (κ × α)}
    (hkeys : (xs.map Prod.fst).Nodup)
    (h : ∀ k a, t.get? k = some a ↔ (k, a) ∈ xs) :
    t.toList.Perm xs := by
  refine (List.perm_ext_iff_of_nodup ?_ (List.Nodup.of_map _ hkeys)).mpr ?_
  · exact List.Nodup.of_map _ t.nodup_keys
  · rintro ⟨k, a⟩
    rw [mem_toList_iff, h]

/-- A key that answers nothing is not in the listing. -/
theorem not_mem_keys {t : Table κ α} {k : κ} (h : t.get? k = none) :
    k ∉ t.toList.map Prod.fst := by
  intro hk
  obtain ⟨⟨k', a⟩, hmem, rfl⟩ := List.mem_map.mp hk
  rw [mem_toList_iff, h] at hmem
  cases hmem

@[simp]
theorem get?_erase_self [DecidableEq κ] (t : Table κ α) (k : κ) : (t.erase k).get? k = none := by
  rw [get?_erase, if_pos rfl]

/-- Inserting lists one entry more than erasing. Counts and sums over a table
are followed through an insertion by this. -/
theorem toList_insert_perm [DecidableEq κ] (t : Table κ α) (k : κ) (a : α) :
    (t.insert k a).toList.Perm ((k, a) :: (t.erase k).toList) := by
  refine toList_perm ?_ fun k' a' => ?_
  · rw [List.map_cons, List.nodup_cons]
    exact ⟨not_mem_keys (get?_erase_self t k), nodup_keys _⟩
  · rw [get?_insert, List.mem_cons, mem_toList_iff, get?_erase]
    by_cases hk : k = k'
    · subst hk
      simp [eq_comm]
    · simp [hk, Ne.symm hk]

/-- Putting back what is there changes nothing. -/
theorem insert_of_get? [DecidableEq κ] {t : Table κ α} {k : κ} {a : α} (h : t.get? k = some a) :
    t.insert k a = t := by
  refine ext_get? fun k' => ?_
  rw [get?_insert]
  split
  · next hk => rw [← hk, h]
  · rfl

/-- Erasing what is not there changes nothing. -/
theorem erase_of_get?_none [DecidableEq κ] {t : Table κ α} {k : κ} (h : t.get? k = none) :
    t.erase k = t := by
  refine ext_get? fun k' => ?_
  rw [get?_erase]
  split
  · next hk => rw [← hk, h]
  · rfl

/-- Erasing a key that was just filled forgets what was under it before,
too. -/
theorem erase_insert_self [DecidableEq κ] (t : Table κ α) (k : κ) (a : α) :
    (t.insert k a).erase k = t.erase k := by
  refine ext_get? fun k' => ?_
  rw [get?_erase, get?_erase, get?_insert]
  by_cases hk : k = k' <;> simp [hk]

theorem erase_erase_self [DecidableEq κ] (t : Table κ α) (k : κ) :
    (t.erase k).erase k = t.erase k :=
  erase_of_get?_none (get?_erase_self t k)

-- ============================================================= counting

/-- How many of the values have a property. -/
def count (t : Table κ α) (p : α → Bool) : Nat := t.values.countP p

/-- A count may be taken over any listing of the table. Listings come in no
particular order out of the operations, so most counts start here. -/
theorem count_eq_of_perm {t : Table κ α} {xs : List (κ × α)} (h : t.toList.Perm xs)
    (p : α → Bool) : t.count p = xs.countP fun x => p x.2 := by
  unfold count values
  rw [List.countP_map]
  exact h.countP_eq _

/-- Only what the property says of the values that are there matters. -/
theorem count_congr {t : Table κ α} {p q : α → Bool}
    (h : ∀ k a, t.get? k = some a → p a = q a) : t.count p = t.count q := by
  rw [count_eq_of_perm (List.Perm.refl _), count_eq_of_perm (List.Perm.refl _)]
  refine List.countP_congr fun x hx => ?_
  rw [h x.1 x.2 (mem_toList_iff.mp hx)]

@[simp]
theorem count_empty (p : α → Bool) : (empty : Table κ α).count p = 0 := by
  simp [count, values]

/-- A new value counts for itself; what it replaced no longer does, which is
why the rest is counted with the key erased. -/
theorem count_insert [DecidableEq κ] (t : Table κ α) (k : κ) (a : α) (p : α → Bool) :
    (t.insert k a).count p = (t.erase k).count p + if p a then 1 else 0 := by
  rw [count_eq_of_perm (toList_insert_perm t k a), List.countP_cons,
    count_eq_of_perm (List.Perm.refl _)]

theorem count_erase [DecidableEq κ] {t : Table κ α} {k : κ} {a : α}
    (h : t.get? k = some a) (p : α → Bool) :
    t.count p = (t.erase k).count p + if p a then 1 else 0 := by
  rw [← count_insert, insert_of_get? h]

/-- The size is a count of everything, so what is shown for counts holds of
it. -/
theorem size_eq_count (t : Table κ α) : t.size = t.count fun _ => true := by
  unfold count values
  rw [← length_toList, List.countP_map]
  exact (List.countP_eq_length.mpr fun _ _ => rfl).symm

/-- A key that is there is one of the size. -/
theorem size_erase_add [DecidableEq κ] (t : Table κ α) (k : κ) :
    t.size = (t.erase k).size + if (t.get? k).isSome then 1 else 0 := by
  rw [size_eq_count, size_eq_count]
  cases h : t.get? k with
  | none =>
      rw [erase_of_get?_none h]
      rfl
  | some a => exact count_erase h _

theorem count_le_size (t : Table κ α) (p : α → Bool) : t.count p ≤ t.size := by
  unfold count values
  rw [← length_toList, List.countP_map]
  exact List.countP_le_length

/-- What has a property and what has it not are all there is. -/
theorem count_add_count_not (t : Table κ α) (p : α → Bool) :
    t.count p + t.count (fun a => !p a) = t.size := by
  have hlen := (t.values.length_eq_countP_add_countP p).symm
  unfold values at hlen
  rw [List.length_map, length_toList] at hlen
  simpa [count, values] using hlen

-- ============================================================ filtering

/-- Look-up after the entries that fail a test are dropped. -/
theorem get?_filterMap_unless (t : Table κ α) (gone : α → Bool) (k : κ) :
    (t.filterMap fun _ a => if gone a then none else some a).get? k
      = (t.get? k).filter fun a => !gone a := by
  rw [get?_filterMap]
  cases t.get? k with
  | none => rfl
  | some a =>
      rw [Option.bind_some, Option.filter_some]
      by_cases ha : gone a <;> simp [ha]

/-- Dropping what fails a test lists the rest. -/
theorem toList_filterMap_perm (t : Table κ α) (gone : α → Bool) :
    (t.filterMap fun _ a => if gone a then none else some a).toList.Perm
      (t.toList.filter fun x => !gone x.2) := by
  refine toList_perm ?_ fun k a => ?_
  · exact t.nodup_keys.sublist (List.filter_sublist.map _)
  · rw [get?_filterMap_unless, Option.filter_eq_some_iff, List.mem_filter, mem_toList_iff]

/-- A test divides a count into what stays and what goes: of the values that
are counted each is one or the other. -/
theorem count_filterMap (t : Table κ α) (gone p : α → Bool) :
    (t.filterMap fun _ a => if gone a then none else some a).count p
        + t.count (fun a => gone a && p a)
      = t.count p := by
  have hall : t.toList.countP (fun x => p x.2)
      = (t.toList.filter fun x => gone x.2).countP (fun x => p x.2)
        + (t.toList.filter fun x => !gone x.2).countP (fun x => p x.2) := by
    rw [← List.countP_append]
    exact ((List.filter_append_perm (fun x => gone x.2) t.toList).countP_eq _).symm
  rw [count_eq_of_perm (toList_filterMap_perm t gone), count_eq_of_perm (List.Perm.refl _),
    count_eq_of_perm (List.Perm.refl _), hall, Nat.add_comm]
  congr 1
  rw [List.countP_filter]
  exact List.countP_congr fun x _ => by rw [Bool.and_comm]

/-- What is dropped and what stays are all there was. -/
theorem size_filterMap_add (t : Table κ α) (gone : α → Bool) :
    (t.filterMap fun _ a => if gone a then none else some a).size + t.count gone = t.size := by
  have hall := count_filterMap t gone fun _ => true
  simp only [Bool.and_true] at hall
  rw [size_eq_count, size_eq_count, hall]

-- ============================================================ emptiness

theorem isEmpty_iff_size {t : Table κ α} : t.isEmpty = true ↔ t.size = 0 := by
  unfold isEmpty size
  rw [Std.ExtTreeMap.isEmpty_eq_size_beq_zero, beq_iff_eq]

/-- Emptiness told from the lookups alone, as the operations are. -/
theorem isEmpty_iff_get? {t : Table κ α} :
    t.isEmpty = true ↔ ∀ k, t.get? k = none := by
  rw [isEmpty_iff_size, ← length_toList, List.length_eq_zero_iff]
  constructor
  · intro h k
    refine Option.eq_none_iff_forall_ne_some.mpr fun a ha => ?_
    rw [← mem_toList_iff, h] at ha
    cases ha
  · intro h
    refine List.eq_nil_iff_forall_not_mem.mpr fun x hx => ?_
    have hx' := mem_toList_iff.mp hx
    rw [h] at hx'
    cases hx'

theorem isEmpty_eq_false_iff {t : Table κ α} :
    t.isEmpty = false ↔ ∃ k a, t.get? k = some a := by
  rw [← Bool.not_eq_true, isEmpty_iff_get?]
  constructor
  · intro h
    obtain ⟨k, hk⟩ := not_forall.mp h
    exact ⟨k, Option.ne_none_iff_exists'.mp hk⟩
  · rintro ⟨k, a, ha⟩ h
    rw [h k] at ha
    cases ha

-- ==================================================== tables from lists

/-- A list is filed from its front to its back, so the last pair is the last
insertion. -/
theorem ofList_concat (xs : List (κ × α)) (x : κ × α) :
    ofList (xs ++ [x]) = (ofList xs).insert x.1 x.2 := by
  unfold ofList
  rw [List.foldl_append]
  rfl

/-- Of several pairs with one key the last one stays, which is the first one
from the end. -/
theorem get?_ofList [DecidableEq κ] (xs : List (κ × α)) (k : κ) :
    (ofList xs).get? k = (xs.reverse.find? fun x => x.1 = k).map Prod.snd := by
  induction xs using List.reverseRecOn with
  | nil => exact get?_empty k
  | append_singleton xs x ih =>
      rw [ofList_concat, get?_insert, ih, List.reverse_append, List.reverse_singleton,
        List.singleton_append, List.find?_cons]
      by_cases hk : x.1 = k
      · rw [if_pos hk, decide_eq_true hk]
        rfl
      · rw [if_neg hk, decide_eq_false hk]

/-- What is found in a table made of a list was on the list. That it was the
last of its key is `get?_ofList`. -/
theorem mem_of_get?_ofList [DecidableEq κ] {xs : List (κ × α)} {k : κ} {a : α}
    (h : (ofList xs).get? k = some a) : (k, a) ∈ xs := by
  rw [get?_ofList, Option.map_eq_some_iff] at h
  obtain ⟨x, hfind, rfl⟩ := h
  have hkey : x.1 = k := by simpa using List.find?_some hfind
  rw [← hkey]
  exact List.mem_reverse.mp (List.mem_of_find?_eq_some hfind)

/-- Nothing is found just under the keys that the list does not have. -/
theorem get?_ofList_eq_none_iff [DecidableEq κ] {xs : List (κ × α)} {k : κ} :
    (ofList xs).get? k = none ↔ ∀ x ∈ xs, x.1 ≠ k := by
  rw [get?_ofList, Option.map_eq_none_iff, List.find?_eq_none]
  simp only [List.mem_reverse, decide_eq_true_eq]

/-- A pair in front of a list stays only if no later one has its key. The pairs
come in one after the other, so of one key the last pair wins. -/
theorem ofList_cons [DecidableEq κ] (x : κ × α) (xs : List (κ × α)) :
    ofList (x :: xs)
      = if ((ofList xs).get? x.1).isNone then (ofList xs).insert x.1 x.2 else ofList xs := by
  refine ext_get? fun k => ?_
  -- the pair is the last to be looked at from the end
  have hcons : (ofList (x :: xs)).get? k
      = ((ofList xs).get? k).or (if x.1 = k then some x.2 else none) := by
    rw [get?_ofList, get?_ofList, List.reverse_cons, List.find?_append, Option.map_or]
    congr 1
    by_cases hk : x.1 = k
    · rw [List.find?_cons, decide_eq_true hk, if_pos hk]
      rfl
    · rw [List.find?_cons, decide_eq_false hk, if_neg hk]
      rfl
  rw [hcons]
  cases hx : (ofList xs).get? x.1 with
  | none =>
      rw [Option.isNone_none, if_pos rfl, get?_insert]
      by_cases hk : x.1 = k
      · rw [if_pos hk, if_pos hk, ← hk, hx]
        rfl
      · rw [if_neg hk, Option.or_none, if_neg hk]
  | some a =>
      rw [Option.isNone_some, if_neg Bool.false_ne_true]
      by_cases hk : x.1 = k
      · rw [← hk, hx]
        rfl
      · rw [if_neg hk, Option.or_none]

/-- A pair in front of a list counts only if no later one has its key; else it
is that one that counts. -/
theorem count_ofList_cons [DecidableEq κ] (x : κ × α) (xs : List (κ × α))
    (p : α → Bool) :
    (ofList (x :: xs)).count p
      = (ofList xs).count p
        + if ((ofList xs).get? x.1).isNone && p x.2 then 1 else 0 := by
  rw [ofList_cons]
  cases hx : (ofList xs).get? x.1 with
  | none =>
      rw [Option.isNone_none, if_pos rfl, count_insert, erase_of_get?_none hx]
      rfl
  | some a =>
      rw [Option.isNone_some, if_neg Bool.false_ne_true]
      rfl

/-- The order of pairs with different keys makes no difference. -/
theorem ofList_reverse [DecidableEq κ] {xs : List (κ × α)}
    (h : (xs.map Prod.fst).Nodup) : ofList xs.reverse = ofList xs := by
  have hrev : (xs.reverse.map Prod.fst).Nodup := by
    rw [List.map_reverse]
    exact List.nodup_reverse.mpr h
  refine ext_get? fun k => Option.ext fun a => ?_
  rw [get?_ofList_eq_some_iff hrev, get?_ofList_eq_some_iff h, List.mem_reverse]

/-- A table made from its own entries in any order is the same table. -/
theorem ofList_of_perm {t : Table κ α} {xs : List (κ × α)} (h : xs.Perm t.toList) :
    ofList xs = t := by
  have hkeys : (xs.map Prod.fst).Nodup := (h.map Prod.fst).nodup_iff.mpr t.nodup_keys
  refine ext_get? fun k => Option.ext fun a => ?_
  rw [get?_ofList_eq_some_iff hkeys, h.mem_iff, mem_toList_iff]

/-- What a table answers after the entries of another one came in, in any
order. -/
theorem get?_foldl_insert_of_perm [DecidableEq κ] {s : Table κ α} {xs : List (κ × α)}
    (h : xs.Perm s.toList) (t : Table κ α) (k : κ) :
    (xs.foldl (fun t x => t.insert x.1 x.2) t).get? k = (s.get? k).or (t.get? k) := by
  have hkeys : (xs.map Prod.fst).Nodup := (h.map Prod.fst).nodup_iff.mpr s.nodup_keys
  have hs := get?_foldl_insert xs empty k hkeys
  rw [get?_empty, Option.or_none] at hs
  rw [get?_foldl_insert xs t k hkeys, ← hs]
  exact congrArg (fun u => (u.get? k).or (t.get? k)) (ofList_of_perm h)

/-- Filing a list loses pairs but never all of them, as the last one has
nothing to give way to. -/
theorem isEmpty_ofList [DecidableEq κ] (xs : List (κ × α)) :
    (ofList xs).isEmpty = xs.isEmpty := by
  cases xs with
  | nil => exact isEmpty_iff_get?.mpr fun k => get?_empty k
  | cons x xs =>
      rw [List.isEmpty_cons, isEmpty_eq_false_iff]
      refine ⟨x.1, Option.ne_none_iff_exists'.mp fun hnone => ?_⟩
      exact get?_ofList_eq_none_iff.mp hnone x List.mem_cons_self rfl

/-- Pairs that share a key become one, so a table made of a list is at most as
long. -/
theorem size_ofList_le [DecidableEq κ] (xs : List (κ × α)) : (ofList xs).size ≤ xs.length := by
  induction xs with
  | nil => exact Nat.le_of_eq (isEmpty_iff_size.mp (isEmpty_ofList []))
  | cons x xs ih =>
      rw [size_eq_count] at ih ⊢
      rw [count_ofList_cons, List.length_cons]
      split
      · exact Nat.succ_le_succ ih
      · exact Nat.le_succ_of_le ih

theorem size_ofList_pos [DecidableEq κ] {xs : List (κ × α)} (h : xs.isEmpty = false) :
    0 < (ofList xs).size := by
  refine Nat.pos_of_ne_zero fun hzero => ?_
  rw [← isEmpty_iff_size, isEmpty_ofList, h] at hzero
  cases hzero

-- =============================================================== totals

/-- What the values of pairs amount to in all. -/
def sumOf (xs : List (κ × α)) (amount : α → Nat) : Nat :=
  xs.foldr (fun x n => amount x.2 + n) 0

omit [Key κ] in
@[simp]
theorem sumOf_cons (x : κ × α) (xs : List (κ × α)) (amount : α → Nat) :
    sumOf (x :: xs) amount = amount x.2 + sumOf xs amount := rfl

/-- The total of a table is the sum over its listing, so permutations of the
listing leave it alone. -/
theorem total_eq_sumOf (t : Table κ α) (amount : α → Nat) :
    t.total amount = sumOf t.toList amount := by
  unfold total values sumOf
  rw [List.foldr_map]

omit [Key κ] in
/-- What pairs amount to in all does not depend on their order. -/
theorem sumOf_perm {xs ys : List (κ × α)} (h : xs.Perm ys) (amount : α → Nat) :
    sumOf xs amount = sumOf ys amount := by
  induction h with
  | nil => rfl
  | cons x _ ih => rw [sumOf_cons, sumOf_cons, ih]
  | swap x y xs =>
      simp only [sumOf_cons]
      omega
  | trans _ _ ih₁ ih₂ => exact ih₁.trans ih₂

/-- A new value adds its amount to what the table has without its key. -/
theorem total_insert [DecidableEq κ] (t : Table κ α) (k : κ) (a : α) (amount : α → Nat) :
    (t.insert k a).total amount = amount a + (t.erase k).total amount := by
  rw [total_eq_sumOf, sumOf_perm (toList_insert_perm t k a), total_eq_sumOf]
  rfl

theorem total_erase [DecidableEq κ] {t : Table κ α} {k : κ} {a : α} (h : t.get? k = some a)
    (amount : α → Nat) : t.total amount = amount a + (t.erase k).total amount := by
  rw [← total_insert, insert_of_get? h]

theorem total_insert_of_none [DecidableEq κ] {t : Table κ α} {k : κ}
    (h : t.get? k = none) (a : α) (amount : α → Nat) :
    (t.insert k a).total amount = amount a + t.total amount := by
  rw [total_insert, erase_of_get?_none h]

/-- Values of which none amounts to anything amount to nothing in all. -/
theorem total_eq_zero {t : Table κ α} {amount : α → Nat}
    (h : ∀ k a, t.get? k = some a → amount a = 0) : t.total amount = 0 := by
  have hlist : ∀ xs : List (κ × α), (∀ x ∈ xs, amount x.2 = 0) → sumOf xs amount = 0 := by
    intro xs hxs
    induction xs with
    | nil => rfl
    | cons x xs ih =>
        rw [sumOf_cons, hxs x List.mem_cons_self,
          ih fun y hy => hxs y (List.mem_cons_of_mem _ hy)]
  rw [total_eq_sumOf]
  exact hlist _ fun x hx => h x.1 x.2 (mem_toList_iff.mp hx)

/-- Of the values of a key only the last counts. Seen from the front, a pair
adds its amount if its key does not come again. -/
theorem total_ofList_cons [DecidableEq κ] (x : κ × α) (xs : List (κ × α))
    (amount : α → Nat) :
    (ofList (x :: xs)).total amount
      = (if ((ofList xs).get? x.1).isNone then amount x.2 else 0)
        + (ofList xs).total amount := by
  rw [ofList_cons]
  cases hx : (ofList xs).get? x.1 with
  | none =>
      rw [Option.isNone_none, if_pos rfl, total_insert_of_none hx]
      rfl
  | some a =>
      rw [Option.isNone_some, if_neg Bool.false_ne_true, if_neg Bool.false_ne_true,
        Nat.zero_add]

theorem total_ofList_le [DecidableEq κ] (xs : List (κ × α)) (amount : α → Nat) :
    (ofList xs).total amount ≤ sumOf xs amount := by
  induction xs with
  | nil => exact Nat.le_of_eq (total_eq_sumOf _ _)
  | cons x xs ih =>
      rw [total_ofList_cons, sumOf_cons]
      split
      · omega
      · omega

/-- A table holds all that its list amounts to exactly when no key comes
twice, if every pair amounts to something. -/
theorem total_ofList_eq_iff [DecidableEq κ] {xs : List (κ × α)} {amount : α → Nat}
    (hpos : ∀ x ∈ xs, 0 < amount x.2) :
    (ofList xs).total amount = sumOf xs amount ↔ (xs.map Prod.fst).Nodup := by
  induction xs with
  | nil => exact iff_of_true (total_eq_sumOf _ _) List.nodup_nil
  | cons x xs ih =>
      have hx := hpos x List.mem_cons_self
      have hrest := ih fun y hy => hpos y (List.mem_cons_of_mem _ hy)
      have hle := total_ofList_le xs amount
      have hkey : (ofList xs).get? x.1 = none ↔ x.1 ∉ xs.map Prod.fst := by
        rw [get?_ofList_eq_none_iff, List.mem_map, not_exists]
        exact forall_congr' fun y => by rw [not_and]
      rw [total_ofList_cons, sumOf_cons, List.map_cons, List.nodup_cons, ← hkey, ← hrest]
      cases hnone : (ofList xs).get? x.1 with
      | none =>
          rw [Option.isNone_none, if_pos rfl, Nat.add_right_inj]
          exact (and_iff_right rfl).symm
      | some a =>
          rw [Option.isNone_some, if_neg Bool.false_ne_true, Nat.zero_add]
          refine iff_of_false ?_ fun h => Option.some_ne_none a h.1
          omega

end TorrentTracker.Table
