import Std.Data.ExtTreeMap
import TorrentTracker.Bytes

/-
Tables: finite maps that list their entries in the order of their keys.

The tracker keeps its peers by id, its swarms by info hash and its
connection ids by endpoint in tables, all of them large, so a table is a
balanced tree. Two tables that answer alike are one value whatever was done
to build them, and a reloaded table is the very one that was saved.

# Main statements

Each operation is described through `get?`, and no later proof opens an
operation:

- `get?_empty`, `get?_insert`, `get?_erase`, `get?_filterMap`;
- `ext_get?`: a table is what it answers;
- `mem_toList_iff`: the entries listed are the pairs that `get?` answers;
- `ofList_toList`: inserting a table's entries one by one rebuilds it.
-/

namespace TorrentTracker

universe u v w

-- ================================================================ keys

/-- Numbers in their order. -/
def numberOrder (a b : Nat) : Ordering :=
  if a < b then .lt else if a = b then .eq else .gt

instance : Std.TransCmp numberOrder where
  eq_swap {a b} := by grind [numberOrder, Ordering.swap]
  isLE_trans {a b c} := by grind [numberOrder, Ordering.isLE]

instance : Std.LawfulEqCmp numberOrder where
  compare_self := by simp [numberOrder]
  eq_of_compare {a b} := by grind [numberOrder]

/-- An order of keys in which only equal keys are alike. -/
class Table.Key (κ : Type u) where
  order : κ → κ → Ordering
  trans : Std.TransCmp order
  lawful : Std.LawfulEqCmp order

attribute [instance] Table.Key.trans Table.Key.lawful

namespace Table.Key

variable {κ : Type u} {β : Type v}

/-- Keys in the order of something that tells them apart. -/
@[reducible]
def through (cmp : β → β → Ordering) [Std.TransCmp cmp] [Std.LawfulEqCmp cmp] (f : κ → β)
    (injective : ∀ a b, f a = f b → a = b) : Key κ where
  order a b := cmp (f a) (f b)
  trans :=
    { eq_swap := Std.OrientedCmp.eq_swap
      isLE_trans := Std.TransCmp.isLE_trans }
  lawful :=
    { compare_self := Std.ReflCmp.compare_self
      eq_of_compare := fun h => injective _ _ (Std.LawfulEqCmp.eq_of_compare h) }

/-- Bytes by number. -/
instance : Key UInt8 := through numberOrder UInt8.toNat fun _ _ => UInt8.toNat_inj.mp

/-- Characters by number. -/
instance : Key Char := through numberOrder Char.toNat fun _ _ => Char.toNat_inj.mp

/-- Lists by their first difference. -/
instance [Key κ] : Key (List κ) where
  order := List.compareLex order
  trans := inferInstance
  lawful := inferInstance

/-- Texts by their first different character. -/
instance : Key String :=
  through (@order (List Char) _) String.toList fun _ _ => String.toList_inj.mp

/-- Octet strings by their first different byte. -/
instance {n : Nat} : Key (Octets n) :=
  through (@order (List UInt8) _) Octets.bytes fun _ _ => Octets.bytes_injective

end Table.Key

-- =============================================================== tables

/-- A finite map with its entries in the order of the keys. -/
structure Table (κ : Type u) (α : Type v) [Table.Key κ] where
  tree : Std.ExtTreeMap κ α Table.Key.order

namespace Table

variable {κ : Type u} {α : Type v} {β : Type w} [Key κ]

/-- The table without entries. -/
def empty : Table κ α := ⟨∅⟩

instance : Inhabited (Table κ α) := ⟨empty⟩

/-- The value under a key. -/
def get? (t : Table κ α) (k : κ) : Option α := t.tree[k]?

/-- Put a value under a key, replacing the one that is there. -/
def insert (t : Table κ α) (k : κ) (a : α) : Table κ α := ⟨t.tree.insert k a⟩

/-- Take a key out. -/
def erase (t : Table κ α) (k : κ) : Table κ α := ⟨t.tree.erase k⟩

/-- The entries, first key first. -/
def toList (t : Table κ α) : List (κ × α) := t.tree.toList

/-- The values, first key first. -/
def values (t : Table κ α) : List α := t.toList.map Prod.snd

/-- What the values amount to in all. -/
def total (t : Table κ α) (amount : α → Nat) : Nat :=
  t.values.foldr (fun a n => amount a + n) 0

/-- How many keys the table has. -/
def size (t : Table κ α) : Nat := t.tree.size

/-- Whether the table has no key. -/
def isEmpty (t : Table κ α) : Bool := t.tree.isEmpty

/-- Insert pairs front to back; of two with one key the later stays. -/
def ofList (xs : List (κ × α)) : Table κ α :=
  xs.foldl (fun t x => t.insert x.1 x.2) empty

/-- Change or drop every entry; what stays keeps its key. -/
def filterMap (f : κ → α → Option β) (t : Table κ α) : Table κ β :=
  ofList (t.toList.filterMap fun x => (f x.1 x.2).map (x.1, ·))

-- -------------------------------------------- one law per operation

@[simp]
theorem get?_empty (k : κ) : (empty : Table κ α).get? k = none := by
  simp [get?, empty]

theorem get?_insert [DecidableEq κ] (t : Table κ α) (k k' : κ) (a : α) :
    (t.insert k a).get? k' = if k = k' then some a else t.get? k' := by
  simp only [get?, insert, Std.ExtTreeMap.getElem?_insert, Std.LawfulEqCmp.compare_eq_iff_eq]

theorem get?_erase [DecidableEq κ] (t : Table κ α) (k k' : κ) :
    (t.erase k).get? k' = if k = k' then none else t.get? k' := by
  simp only [get?, erase, Std.ExtTreeMap.getElem?_erase, Std.LawfulEqCmp.compare_eq_iff_eq]

/-- A table is what it answers. -/
theorem ext_get? {s t : Table κ α} (h : ∀ k, s.get? k = t.get? k) : s = t := by
  cases s; cases t
  exact congrArg mk (Std.ExtTreeMap.ext_getElem? h)

-- ------------------------------------------------------- the listing

@[simp]
theorem toList_empty : (empty : Table κ α).toList = [] := by
  simp [toList, empty]

/-- The listing has what is found in the table, and nothing else. -/
theorem mem_toList_iff {t : Table κ α} {k : κ} {a : α} :
    (k, a) ∈ t.toList ↔ t.get? k = some a :=
  Std.ExtTreeMap.mem_toList_iff_getElem?_eq_some

theorem length_toList (t : Table κ α) : t.toList.length = t.size :=
  Std.ExtTreeMap.length_toList

theorem nodup_keys (t : Table κ α) : (t.toList.map Prod.fst).Nodup := by
  refine List.pairwise_map.mpr (Std.ExtTreeMap.distinct_keys_toList.imp ?_)
  intro x y hne heq
  exact hne (heq ▸ Std.ReflCmp.compare_self)

theorem toList_injective {s t : Table κ α} (h : s.toList = t.toList) : s = t :=
  ext_get? fun k => Option.ext fun a => by rw [← mem_toList_iff, ← mem_toList_iff, h]

instance [DecidableEq κ] [DecidableEq α] : DecidableEq (Table κ α) := fun s t =>
  if h : s.toList = t.toList then isTrue (toList_injective h)
  else isFalse fun hst => h (hst ▸ rfl)

-- ------------------------------------------------- tables from lists

/-- What a key answers after pairs with different keys came in: what its pair
has, or what was there before. -/
theorem get?_foldl_insert [DecidableEq κ] (xs : List (κ × α)) (t : Table κ α) (k : κ)
    (h : (xs.map Prod.fst).Nodup) :
    (xs.foldl (fun t x => t.insert x.1 x.2) t).get? k
      = ((xs.find? fun x => x.1 = k).map Prod.snd).or (t.get? k) := by
  induction xs generalizing t with
  | nil => simp
  | cons x xs ih =>
    obtain ⟨k', a⟩ := x
    rw [List.map_cons, List.nodup_cons] at h
    rw [List.foldl_cons, ih _ h.2, get?_insert]
    by_cases hk : k' = k
    · subst hk
      have hnone : xs.find? (fun x => x.1 = k') = none := by
        rw [List.find?_eq_none]
        intro x hx heq
        exact h.1 (List.mem_map.mpr ⟨x, hx, of_decide_eq_true heq⟩)
      simp [hnone]
    · simp [hk]

/-- A table of pairs with different keys answers those pairs, and nothing
else. -/
theorem get?_ofList_eq_some_iff {xs : List (κ × α)} {k : κ} {a : α}
    (h : (xs.map Prod.fst).Nodup) : (ofList xs).get? k = some a ↔ (k, a) ∈ xs := by
  classical
  rw [ofList, get?_foldl_insert xs empty k h, get?_empty, Option.or_none, Option.map_eq_some_iff]
  constructor
  · rintro ⟨x, hx, rfl⟩
    have hkey : x.1 = k := by simpa using List.find?_some hx
    exact hkey ▸ List.mem_of_find?_eq_some hx
  · intro hm
    refine ⟨(k, a), ?_, rfl⟩
    induction xs with
    | nil => simp at hm
    | cons x xs ih =>
      rw [List.map_cons, List.nodup_cons] at h
      rcases List.mem_cons.mp hm with rfl | hm
      · simp
      · have hne : x.1 ≠ k := fun heq => h.1 (heq ▸ List.mem_map.mpr ⟨_, hm, rfl⟩)
        simpa [List.find?_cons, hne] using ih h.2 hm

/-- Inserting a table's entries into the empty table rebuilds it. -/
theorem ofList_toList (t : Table κ α) : ofList t.toList = t :=
  ext_get? fun _ => Option.ext fun _ => by
    rw [get?_ofList_eq_some_iff t.nodup_keys, mem_toList_iff]

/-- What stays under a key, and as what, depends on what was there alone. The
table is made anew from its listing, whose keys stay different. -/
@[simp]
theorem get?_filterMap (f : κ → α → Option β) (t : Table κ α) (k : κ) :
    (t.filterMap f).get? k = (t.get? k).bind (f k) := by
  have hkeys : ((t.toList.filterMap fun x => (f x.1 x.2).map (x.1, ·)).map Prod.fst).Nodup := by
    refine List.Nodup.sublist ?_ t.nodup_keys
    induction t.toList with
    | nil => simp
    | cons x xs ih =>
      cases hx : f x.1 x.2 with
      | none => simpa [List.filterMap_cons, hx] using ih.cons x.1
      | some b => simpa [List.filterMap_cons, hx] using ih
  refine Option.ext fun b => ?_
  rw [filterMap, get?_ofList_eq_some_iff hkeys, List.mem_filterMap, Option.bind_eq_some_iff]
  constructor
  · rintro ⟨⟨k', a⟩, hm, hx⟩
    obtain ⟨b', hb, heq⟩ := Option.map_eq_some_iff.mp hx
    obtain ⟨rfl, rfl⟩ := Prod.mk.inj heq
    exact ⟨a, mem_toList_iff.mp hm, hb⟩
  · rintro ⟨a, ha, hb⟩
    exact ⟨(k, a), mem_toList_iff.mpr ha, by simp [hb]⟩

end Table

end TorrentTracker
