import Mathlib.Data.List.Lex
import Mathlib.Order.Lattice
import Mathlib.Tactic.Common

/-!
# A map kept in key order

`std::map`: entries in strictly increasing key order, so that each key occurs once and
a loop over the map visits the keys in order. The order is a field of the structure —
a `SortedMap` that is out of order cannot be built — and every operation below rebuilds
it.

The lemmas are the lookup equations (`find?_insert`, `find?_modify`), the key equations
(`keys_modify`, `mem_keys_insert`), and the two ways of speaking about an entry:
being found under a key and being a member of `entries` are the same thing
(`mem_entries_iff`, `mem_entries_insert`, `mem_entries_erase`).
-/

set_option autoImplicit false

namespace TcpUv.Lib

variable {κ ν : Type} [LinearOrder κ]

/-- A finite map with its entries in strictly increasing key order. -/
structure SortedMap (κ ν : Type) [LinearOrder κ] where
  entries : List (κ × ν)
  sorted : entries.Pairwise fun e e' => e.1 < e'.1

namespace SortedMap

def empty : SortedMap κ ν := ⟨[], .nil⟩

instance : Inhabited (SortedMap κ ν) := ⟨empty⟩

/-- The keys, in order. -/
def keys (m : SortedMap κ ν) : List κ := m.entries.map Prod.fst

def findEntry (k : κ) : List (κ × ν) → Option ν
  | [] => none
  | (k', v) :: rest => if k = k' then some v else findEntry k rest

/-- `find(k)`: the value stored under a key. -/
def find? (m : SortedMap κ ν) (k : κ) : Option ν := findEntry k m.entries

def insertEntry (k : κ) (v : ν) : List (κ × ν) → List (κ × ν)
  | [] => [(k, v)]
  | (k', v') :: rest =>
      if k < k' then (k, v) :: (k', v') :: rest
      else if k = k' then (k, v) :: rest
      else (k', v') :: insertEntry k v rest

theorem mem_insertEntry {k : κ} {v : ν} {e : κ × ν} :
    ∀ {l : List (κ × ν)}, e ∈ insertEntry k v l → e = (k, v) ∨ e ∈ l := by
  intro l
  induction l with
  | nil => intro h; simpa [insertEntry] using h
  | cons x rest ih =>
    intro h
    rw [insertEntry.eq_def] at h
    dsimp only at h
    split at h
    · rcases List.mem_cons.mp h with rfl | h
      · exact Or.inl rfl
      · exact Or.inr h
    · split at h
      · rcases List.mem_cons.mp h with rfl | h
        · exact Or.inl rfl
        · exact Or.inr (List.mem_cons_of_mem _ h)
      · rcases List.mem_cons.mp h with rfl | h
        · exact Or.inr (by simp)
        · exact (ih h).imp id (List.mem_cons_of_mem _)

theorem insertEntry_sorted {k : κ} {v : ν} {l : List (κ × ν)}
    (h : l.Pairwise fun e e' => e.1 < e'.1) :
    (insertEntry k v l).Pairwise fun e e' => e.1 < e'.1 := by
  induction l with
  | nil => simp [insertEntry]
  | cons x rest ih =>
    obtain ⟨k', v'⟩ := x
    obtain ⟨hx, hrest⟩ := List.pairwise_cons.mp h
    rw [insertEntry]
    by_cases hlt : k < k'
    · rw [if_pos hlt]
      refine List.pairwise_cons.mpr ⟨fun e he => ?_, h⟩
      rcases List.mem_cons.mp he with rfl | he
      · exact hlt
      · exact lt_trans hlt (hx e he)
    · rw [if_neg hlt]
      by_cases heq : k = k'
      · rw [if_pos heq]
        subst heq
        exact List.pairwise_cons.mpr ⟨hx, hrest⟩
      · rw [if_neg heq]
        have hgt : k' < k := lt_of_le_of_ne (not_lt.mp hlt) (Ne.symm heq)
        refine List.pairwise_cons.mpr ⟨fun e he => ?_, ih hrest⟩
        rcases mem_insertEntry he with rfl | he
        · exact hgt
        · exact hx e he

/-- `m[k] = v`: ordered insertion, overwriting what is stored under the key. -/
def insert (m : SortedMap κ ν) (k : κ) (v : ν) : SortedMap κ ν :=
  ⟨insertEntry k v m.entries, insertEntry_sorted m.sorted⟩

/-- An update in place of the value under a key, when there is one. -/
def modify (m : SortedMap κ ν) (k : κ) (f : ν → ν) : SortedMap κ ν :=
  ⟨m.entries.map fun e => if e.1 = k then (e.1, f e.2) else e, by
    refine List.pairwise_map.mpr (m.sorted.imp ?_)
    intro a b hab
    split <;> split <;> exact hab⟩

/-- `erase(k)`. -/
def erase (m : SortedMap κ ν) (k : κ) : SortedMap κ ν :=
  ⟨m.entries.filter fun e => e.1 ≠ k, m.sorted.filter _⟩

@[simp] theorem find?_empty (k : κ) : (empty : SortedMap κ ν).find? k = none := rfl

@[simp] theorem keys_empty : (empty : SortedMap κ ν).keys = [] := rfl

theorem findEntry_insertEntry {k k' : κ} {v : ν} : ∀ {l : List (κ × ν)},
    l.Pairwise (fun e e' => e.1 < e'.1) →
    findEntry k' (insertEntry k v l) = if k' = k then some v else findEntry k' l := by
  intro l
  induction l with
  | nil => intro _; simp [insertEntry, findEntry]
  | cons x rest ih =>
    intro h
    obtain ⟨kx, vx⟩ := x
    obtain ⟨hx, hrest⟩ := List.pairwise_cons.mp h
    rw [insertEntry]
    by_cases hlt : k < kx
    · simp [if_pos hlt, findEntry]
    · by_cases heq : k = kx
      · subst heq
        simp only [lt_irrefl, if_false, if_true, findEntry]
        split <;> rfl
      · simp only [if_neg hlt, if_neg heq, findEntry, ih hrest]
        by_cases hk : k' = kx
        · simp [hk, Ne.symm heq]
        · simp [hk]

theorem find?_insert (m : SortedMap κ ν) (k k' : κ) (v : ν) :
    (m.insert k v).find? k' = if k' = k then some v else m.find? k' :=
  findEntry_insertEntry m.sorted

theorem findEntry_map {k k' : κ} {f : ν → ν} : ∀ {l : List (κ × ν)},
    findEntry k' (l.map fun e => if e.1 = k then (e.1, f e.2) else e) =
      if k' = k then (findEntry k' l).map f else findEntry k' l := by
  intro l
  induction l with
  | nil => simp [findEntry]
  | cons x rest ih =>
    obtain ⟨kx, vx⟩ := x
    by_cases hx : kx = k
    · subst hx
      by_cases hk : k' = kx <;> simp [findEntry, hk, ih]
    · by_cases hk : k' = kx
      · subst hk
        simp [findEntry, hx]
      · simp [findEntry, hx, hk, ih]

theorem find?_modify (m : SortedMap κ ν) (k k' : κ) (f : ν → ν) :
    (m.modify k f).find? k' = if k' = k then (m.find? k').map f else m.find? k' :=
  findEntry_map

@[simp] theorem keys_modify (m : SortedMap κ ν) (k : κ) (f : ν → ν) :
    (m.modify k f).keys = m.keys := by
  simp only [keys, modify, List.map_map]
  refine List.map_congr_left fun e _ => ?_
  dsimp only [Function.comp]
  split <;> rfl

theorem findEntry_of_mem {k : κ} {v : ν} : ∀ {l : List (κ × ν)},
    l.Pairwise (fun e e' => e.1 < e'.1) → (k, v) ∈ l → findEntry k l = some v := by
  intro l
  induction l with
  | nil => intro _ h; exact absurd h (by simp)
  | cons x rest ih =>
    intro h hm
    obtain ⟨hx, hrest⟩ := List.pairwise_cons.mp h
    rcases List.mem_cons.mp hm with rfl | hm
    · simp [findEntry]
    · have hne : k ≠ x.1 := ne_of_gt (hx _ hm)
      simp [findEntry, hne, ih hrest hm]

theorem mem_of_findEntry {k : κ} {v : ν} : ∀ {l : List (κ × ν)},
    findEntry k l = some v → (k, v) ∈ l := by
  intro l
  induction l with
  | nil => intro h; exact absurd h (by simp [findEntry])
  | cons x rest ih =>
    obtain ⟨kx, vx⟩ := x
    intro h
    by_cases hk : k = kx
    · subst hk
      simp only [findEntry, if_true, Option.some.injEq] at h
      simp [h]
    · simp only [findEntry, if_neg hk] at h
      exact List.mem_cons_of_mem _ (ih h)

/-- Being stored under a key and being an entry are the same thing. -/
theorem mem_entries_iff (m : SortedMap κ ν) (k : κ) (v : ν) :
    (k, v) ∈ m.entries ↔ m.find? k = some v :=
  ⟨findEntry_of_mem m.sorted, mem_of_findEntry⟩

/-- An insertion keeps the entries under other keys. -/
theorem mem_entries_insert (m : SortedMap κ ν) (k k' : κ) (v v' : ν) :
    (k', v') ∈ (m.insert k v).entries ↔ (k' = k ∧ v' = v) ∨ (k' ≠ k ∧ (k', v') ∈ m.entries) := by
  rw [mem_entries_iff, mem_entries_iff, find?_insert]
  by_cases h : k' = k <;> simp [h, eq_comm]

theorem mem_entries_erase (m : SortedMap κ ν) (k : κ) (e : κ × ν) :
    e ∈ (m.erase k).entries ↔ e ∈ m.entries ∧ e.1 ≠ k := by
  simp [erase]

theorem mem_keys_iff (m : SortedMap κ ν) (k : κ) : k ∈ m.keys ↔ ∃ v, m.find? k = some v := by
  simp only [keys, List.mem_map, ← mem_entries_iff]
  exact ⟨fun ⟨⟨_, v⟩, h, rfl⟩ => ⟨v, h⟩, fun ⟨v, h⟩ => ⟨(k, v), h, rfl⟩⟩

theorem mem_keys_insert (m : SortedMap κ ν) (k k' : κ) (v : ν) :
    k' ∈ (m.insert k v).keys ↔ k' = k ∨ k' ∈ m.keys := by
  simp only [mem_keys_iff, find?_insert]
  by_cases h : k' = k <;> simp [h]

/-- Collecting a list of keys into a map discards the duplicates and nothing else. -/
theorem mem_keys_collect (ks : List κ) (v : ν) : ∀ (m : SortedMap κ ν) (k : κ),
    k ∈ (ks.foldl (fun m k => m.insert k v) m).keys ↔ k ∈ ks ∨ k ∈ m.keys := by
  induction ks with
  | nil => intro m k; simp
  | cons a ks ih =>
    intro m k
    rw [List.foldl_cons, ih, mem_keys_insert, List.mem_cons]
    tauto

/-- The keys are in order, so none occurs twice. -/
theorem keys_sorted (m : SortedMap κ ν) : m.keys.Pairwise (· < ·) :=
  List.pairwise_map.mpr m.sorted

theorem keys_nodup (m : SortedMap κ ν) : m.keys.Nodup :=
  m.keys_sorted.imp fun h => ne_of_lt h

/-- An image of the keys holds a value once exactly if one key alone is mapped to it. -/
theorem count_map_keys {β : Type} [BEq β] [LawfulBEq β] (m : SortedMap κ ν) (f : κ → β) (b : β) :
    (m.keys.map f).count b = 1 ↔ ∃! k, k ∈ m.keys ∧ f k = b := by
  have hmem : ∀ x, x ∈ m.keys.filter (fun k => f k == b) ↔ x ∈ m.keys ∧ f x = b := by
    intro x
    rw [List.mem_filter, beq_iff_eq]
  rw [List.count_eq_countP, List.countP_map, List.countP_eq_length_filter]
  constructor
  · intro hone
    obtain ⟨k, hk⟩ := List.length_eq_one_iff.mp hone
    have honly : ∀ x, (x ∈ m.keys ∧ f x = b) ↔ x = k := by
      intro x
      rw [← hmem, ← List.mem_singleton (a := x) (b := k), ← hk]
      rfl
    exact ⟨k, (honly k).mpr rfl, fun x hx => (honly x).mp hx⟩
  · rintro ⟨k, hk, huniq⟩
    have hperm : (m.keys.filter fun k => f k == b).Perm [k] := by
      refine (List.perm_ext_iff_of_nodup (m.keys_nodup.filter _)
        (List.pairwise_singleton _ k)).mpr fun x => ?_
      rw [List.mem_singleton, hmem]
      exact ⟨huniq x, fun hx => hx ▸ hk⟩
    exact hperm.length_eq

end SortedMap

end TcpUv.Lib
