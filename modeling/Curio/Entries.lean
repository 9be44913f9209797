import Mathlib.Tactic

/-! A finite map as its list of entries, no key twice, compared with a list of pairs in which
keys may repeat. -/

namespace Entries

open List

variable {κ ν : Type} [DecidableEq κ] {entry : κ × ν}

/-- The entries of a map in some order. -/
@[ext] structure KeyMap (κ ν : Type) where
  entries : List (κ × ν)
  unique : (entries.map Prod.fst).Nodup

namespace KeyMap

def empty : KeyMap κ ν := ⟨[], nodup_nil⟩

def get (map : KeyMap κ ν) (key : κ) : Option ν :=
  (map.entries.find? fun entry => entry.1 = key).map Prod.snd

def without (entries : List (κ × ν)) (key : κ) : List (κ × ν) :=
  entries.filter fun entry => entry.1 ≠ key

variable {key : κ} {map : KeyMap κ ν} {value : ν}

theorem without_of_absent {entries : List (κ × ν)} (absent : key ∉ entries.map Prod.fst) :
    without entries key = entries := by
  grind [without, filter_eq_self]

theorem without_absent (entries : List (κ × ν)) (key : κ) :
    key ∉ (without entries key).map Prod.fst := by
  intro present
  obtain ⟨entry, member, same⟩ := mem_map.mp present
  simpa [same] using (mem_filter.mp member).2

def remove (map : KeyMap κ ν) (key : κ) : KeyMap κ ν :=
  ⟨without map.entries key, (filter_sublist.map Prod.fst).nodup map.unique⟩

def put (map : KeyMap κ ν) (key : κ) (value : ν) : KeyMap κ ν :=
  ⟨(key, value) :: without map.entries key,
    nodup_cons.mpr ⟨without_absent _ _, (map.remove key).unique⟩⟩

theorem get_eq_none : map.get key = none ↔ key ∉ map.entries.map Prod.fst := by
  simp only [get, Option.map_eq_none_iff]
  constructor
  · grind
  · grind

theorem remove_comm (map : KeyMap κ ν) (key other : κ) :
    (map.remove key).remove other = (map.remove other).remove key :=
  KeyMap.ext (by simp only [remove, without, filter_filter, Bool.and_comm])

theorem remove_put (absent : map.get key = none) : (map.put key value).remove key = map := by
  apply KeyMap.ext
  have kept := without_of_absent (get_eq_none.mp absent)
  show without ((key, value) :: without map.entries key) key = map.entries
  rw [kept, without, filter_cons_of_neg (by simp), ← without, kept]

theorem get_put_other {other : κ} (apart : other ≠ key) (absent : map.get other = none) :
    (map.put key value).get other = none := by
  rw [get_eq_none] at absent ⊢
  simp only [put, map_cons, mem_cons, not_or]
  refine ⟨apart, fun present => absent ?_⟩
  exact (filter_sublist.map Prod.fst).subset present

theorem get_eq_some : map.get key = some value ↔ (key, value) ∈ map.entries := by
  constructor
  · intro got
    obtain ⟨entry, found, rfl⟩ := Option.map_eq_some_iff.mp got
    grind
  · intro member
    cases got : map.get key with
    | none => exact absurd (mem_map_of_mem member) (get_eq_none.mp got)
    | some other =>
      obtain ⟨entry, found, rfl⟩ := Option.map_eq_some_iff.mp got
      have same : entry.1 = key := by simpa using List.find?_some found
      have both : entry = (key, value) :=
        inj_on_of_nodup_map map.unique (List.mem_of_find?_eq_some found) member same
      rw [both]

theorem mem_remove : entry ∈ (map.remove key).entries ↔ entry ∈ map.entries ∧ entry.1 ≠ key := by
  simp [remove, without]

theorem mem_put :
    entry ∈ (map.put key value).entries ↔
      entry = (key, value) ∨ entry ∈ map.entries ∧ entry.1 ≠ key := by
  rw [← mem_remove]
  exact mem_cons

theorem get_put (map : KeyMap κ ν) (key : κ) (value : ν) (other : κ) :
    (map.put key value).get other = if other = key then some value else map.get other := by
  ext found
  rw [get_eq_some, mem_put]
  split
  · rename_i same
    subst same
    simp [eq_comm]
  · rename_i apart
    rw [get_eq_some]
    simp [apart]

theorem get_remove (map : KeyMap κ ν) (key other : κ) :
    (map.remove key).get other = if other = key then none else map.get other := by
  ext found
  rw [get_eq_some, mem_remove]
  split
  · rename_i same
    simp [same]
  · rename_i apart
    rw [get_eq_some]
    simp [apart]

theorem entries_perm (got : map.get key = some value) :
    map.entries.Perm ((key, value) :: (map.remove key).entries) := by
  obtain ⟨front, back, split⟩ := append_of_mem (get_eq_some.mp got)
  have unique := map.unique
  have same : map.entries.Perm ((key, value) :: (front ++ back)) := split ▸ perm_middle
  have absent := (nodup_cons.mp ((same.map Prod.fst).nodup_iff.mp unique)).1
  have kept := same.filter fun entry => entry.1 ≠ key
  rw [filter_cons_of_neg (by simp)] at kept
  have others : (map.remove key).entries.Perm (front ++ back) := by
    rwa [← without, ← without, without_of_absent absent] at kept
  exact same.trans (others.symm.cons _)

/-- `UPDATE`: every entry gets a new value. -/
def update (map : KeyMap κ ν) (change : κ → ν → ν) : KeyMap κ ν :=
  ⟨map.entries.map fun entry => (entry.1, change entry.1 entry.2), by
    rw [map_map]
    exact map.unique⟩

omit [DecidableEq κ] in
theorem mem_update {change : κ → ν → ν} :
    (key, value) ∈ (map.update change).entries ↔
      ∃ old, (key, old) ∈ map.entries ∧ change key old = value := by
  simp [update]

/-- `DELETE … WHERE`: the entries that do not meet the condition stay. -/
def removeWhere (map : KeyMap κ ν) (condition : κ → ν → Bool) : KeyMap κ ν :=
  ⟨map.entries.filter fun entry => !condition entry.1 entry.2,
    (filter_sublist.map Prod.fst).nodup map.unique⟩

omit [DecidableEq κ] in
theorem mem_removeWhere {condition : κ → ν → Bool} :
    (key, value) ∈ (map.removeWhere condition).entries ↔
      (key, value) ∈ map.entries ∧ condition key value = false := by
  simp [removeWhere]

end KeyMap

/-- A table whose keys come from a sequence: no key is given out twice. -/
structure SerialTable (ν : Type) where
  rows : KeyMap Nat ν
  next : Nat
  below : ∀ row ∈ rows.entries, row.1 < next

namespace SerialTable

open KeyMap

variable {table : SerialTable ν} {key : Nat} {value : ν}

def empty : SerialTable ν := ⟨.empty, 1, fun _ member => by cases member⟩

def entries (table : SerialTable ν) : List (Nat × ν) := table.rows.entries

def get (table : SerialTable ν) (key : Nat) : Option ν := table.rows.get key

def insert (table : SerialTable ν) (value : ν) : SerialTable ν :=
  ⟨table.rows.put table.next value, table.next + 1, by
    intro row member
    rcases mem_put.mp member with rfl | ⟨old, _⟩
    · exact Nat.lt_succ_self _
    · exact (table.below row old).trans (Nat.lt_succ_self _)⟩

def update (table : SerialTable ν) (change : Nat → ν → ν) : SerialTable ν :=
  ⟨table.rows.update change, table.next, by
    rintro ⟨key, value⟩ member
    obtain ⟨old, present, _⟩ := mem_update.mp member
    exact table.below (key, old) present⟩

def removeWhere (table : SerialTable ν) (condition : Nat → ν → Bool) : SerialTable ν :=
  ⟨table.rows.removeWhere condition, table.next, fun row member =>
    table.below row (mem_removeWhere.mp member).1⟩

theorem get_eq_some : table.get key = some value ↔ (key, value) ∈ table.entries :=
  KeyMap.get_eq_some

theorem mem_insert {new : ν} : (key, value) ∈ (table.insert new).entries ↔
    (key = table.next ∧ value = new) ∨ (key, value) ∈ table.entries := by
  show (key, value) ∈ (table.rows.put table.next new).entries ↔ _
  rw [mem_put, Prod.mk.injEq]
  refine or_congr_right ⟨And.left, fun old => ⟨old, (table.below _ old).ne⟩⟩

theorem mem_update {change : Nat → ν → ν} : (key, value) ∈ (table.update change).entries ↔
    ∃ old, (key, old) ∈ table.entries ∧ change key old = value :=
  KeyMap.mem_update

theorem mem_removeWhere {condition : Nat → ν → Bool} :
    (key, value) ∈ (table.removeWhere condition).entries ↔
      (key, value) ∈ table.entries ∧ condition key value = false :=
  KeyMap.mem_removeWhere

theorem unique {other : ν} (first : (key, value) ∈ table.entries)
    (second : (key, other) ∈ table.entries) : value = other :=
  Option.some.inj ((get_eq_some.mpr first).symm.trans (get_eq_some.mpr second))

theorem get_insert (table : SerialTable ν) (new : ν) (key : Nat) :
    (table.insert new).get key = if key = table.next then some new else table.get key :=
  KeyMap.get_put _ _ _ _

theorem get_update (table : SerialTable ν) (change : Nat → ν → ν) (key : Nat) :
    (table.update change).get key = (table.get key).map (change key) := by
  ext value
  rw [get_eq_some, mem_update, Option.map_eq_some_iff]
  simp only [get_eq_some]

end SerialTable

open KeyMap

variable {entries pairs : List (κ × ν)} {key : κ} {value : ν}

variable {map : KeyMap κ ν}

theorem put_perm (same : map.entries.Perm pairs) (absent : map.get key = none) :
    (map.put key value).entries.Perm (pairs ++ [(key, value)]) := by
  show ((key, value) :: without map.entries key).Perm _
  rw [without_of_absent (get_eq_none.mp absent)]
  exact (same.cons _).trans (perm_append_singleton _ _).symm

theorem remove_perm (same : map.entries.Perm ((key, value) :: pairs)) :
    (map.remove key).entries.Perm pairs := by
  have unique := (same.map Prod.fst).nodup_iff.mp map.unique
  have others := without_of_absent (nodup_cons.mp unique).1
  have kept := same.filter fun entry => entry.1 ≠ key
  rwa [filter_cons_of_neg (by simp), ← without, ← without, others] at kept

theorem put_subperm (below : map.entries.Subperm pairs) :
    (map.put key value).entries.Subperm (pairs ++ [(key, value)]) := by
  have others : (without map.entries key).Subperm pairs :=
    filter_sublist.subperm.trans below
  exact ((subperm_cons (key, value)).mpr others).trans
    (perm_append_singleton _ _).symm.subperm

theorem remove_subperm (below : map.entries.Subperm ((key, value) :: pairs)) :
    (map.remove key).entries.Subperm pairs := by
  have kept := below.filter fun entry => entry.1 ≠ key
  rw [filter_cons_of_neg (by simp)] at kept
  exact kept.trans filter_sublist.subperm

theorem sum_le_of_subperm {α : Type} {first second : List α} (weight : α → Nat)
    (below : first.Subperm second) : (first.map weight).sum ≤ (second.map weight).sum := by
  obtain ⟨middle, same, sublist⟩ := below
  rw [← (same.map weight).sum_eq]
  exact (sublist.map weight).sum_le_sum fun _ _ => Nat.zero_le _

end Entries
