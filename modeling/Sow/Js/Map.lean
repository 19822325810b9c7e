import Mathlib.Tactic
import Mathlib.Data.List.Nodup

namespace sow.js

/-- A JavaScript `Map`: its entries in insertion order, each key once. -/
@[ext] structure Map (κ ν : Type) where
  entries : List (κ × ν)
  nodup : (entries.map Prod.fst).Nodup

namespace Map

variable {κ ν : Type}

instance [DecidableEq κ] [DecidableEq ν] : DecidableEq (Map κ ν) := fun m n =>
  decidable_of_iff (m.entries = n.entries) (Map.ext_iff).symm

/-- `new Map()`. -/
def empty : Map κ ν := ⟨[], List.nodup_nil⟩

instance : Inhabited (Map κ ν) := ⟨empty⟩

/-- `[...map.keys()]`. -/
def keys (m : Map κ ν) : List κ := m.entries.map Prod.fst

/-- `map.size`. -/
def size (m : Map κ ν) : Nat := m.entries.length

section

variable [DecidableEq κ]

/-- The value under `k` in a list of entries. -/
def getEntry (k : κ) : List (κ × ν) → Option ν
  | [] => none
  | (k', v) :: t => if k' = k then some v else getEntry k t

/-- Overwrite the entry of `k` in place, or append it. -/
def setEntry (k : κ) (v : ν) : List (κ × ν) → List (κ × ν)
  | [] => [(k, v)]
  | (k', v') :: t => if k' = k then (k, v) :: t else (k', v') :: setEntry k v t

/-- `map.get(k)`, with `none` for `undefined`. -/
def get (m : Map κ ν) (k : κ) : Option ν := getEntry k m.entries

/-- `map.has(k)`. -/
def has (m : Map κ ν) (k : κ) : Bool := (m.get k).isSome

private theorem setEntry_keys (k : κ) (v : ν) (l : List (κ × ν)) :
    (setEntry k v l).map Prod.fst = if k ∈ l.map Prod.fst then l.map Prod.fst else l.map Prod.fst ++ [k] := by
  induction l with
  | nil => simp [setEntry]
  | cons e t ih =>
    obtain ⟨k', v'⟩ := e
    rw [setEntry]
    by_cases h : k' = k
    · simp [h]
    · rw [if_neg h, List.map_cons, ih]
      have h' : ¬ k = k' := fun e => h e.symm
      by_cases hm : k ∈ t.map Prod.fst
      · rw [if_pos hm, List.map_cons, if_pos (List.mem_cons_of_mem _ hm)]
      · rw [if_neg hm, List.map_cons, if_neg (by simpa [h'] using hm), List.cons_append]

private theorem setEntry_nodup (k : κ) (v : ν) {l : List (κ × ν)} (h : (l.map Prod.fst).Nodup) :
    ((setEntry k v l).map Prod.fst).Nodup := by
  rw [setEntry_keys]
  split
  · exact h
  · next hm =>
    rw [List.nodup_append]
    refine ⟨h, List.nodup_singleton k, ?_⟩
    rintro a ha b hb rfl
    exact hm (by simpa [List.mem_singleton.mp hb] using ha)

/-- `map.set(k, v)`. -/
def set (m : Map κ ν) (k : κ) (v : ν) : Map κ ν := ⟨setEntry k v m.entries, setEntry_nodup k v m.nodup⟩

/-- `map.delete(k)`. -/
def delete (m : Map κ ν) (k : κ) : Map κ ν :=
  ⟨m.entries.filter fun e => e.1 ≠ k, m.nodup.sublist (List.filter_sublist.map Prod.fst)⟩

/-- `new Map(entries)`: a later entry of a key overwrites an earlier one. -/
def ofList (l : List (κ × ν)) : Map κ ν := l.foldl (fun m e => m.set e.1 e.2) empty

@[simp] theorem get_empty (k : κ) : (empty : Map κ ν).get k = none := rfl

private theorem getEntry_setEntry (k k' : κ) (v : ν) (l : List (κ × ν)) :
    getEntry k' (setEntry k v l) = if k = k' then some v else getEntry k' l := by
  induction l with
  | nil => simp [setEntry, getEntry]
  | cons e t ih =>
    obtain ⟨k₀, v₀⟩ := e
    rw [setEntry]
    by_cases h : k₀ = k
    · rw [if_pos h, getEntry, getEntry, h]
      by_cases hk : k = k' <;> simp [hk]
    · rw [if_neg h, getEntry, getEntry, ih]
      by_cases hk : k₀ = k'
      · have hkk : ¬ k = k' := fun e => h (hk.trans e.symm)
        simp [hk, hkk]
      · simp [hk]

theorem get_set (m : Map κ ν) (k k' : κ) (v : ν) :
    (m.set k v).get k' = if k = k' then some v else m.get k' :=
  getEntry_setEntry k k' v m.entries

@[simp] theorem get_set_self (m : Map κ ν) (k : κ) (v : ν) : (m.set k v).get k = some v := by
  simp [get_set]

theorem get_set_of_ne (m : Map κ ν) {k k' : κ} (v : ν) (h : k ≠ k') :
    (m.set k v).get k' = m.get k' := by
  simp [get_set, h]

private theorem getEntry_eq_some {k : κ} {v : ν} {l : List (κ × ν)} (hnd : (l.map Prod.fst).Nodup) :
    getEntry k l = some v ↔ (k, v) ∈ l := by
  induction l with
  | nil => simp [getEntry]
  | cons e t ih =>
    obtain ⟨k', v'⟩ := e
    rw [List.map_cons, List.nodup_cons] at hnd
    rw [getEntry]
    by_cases h : k' = k
    · subst h
      have hnot : (k', v) ∉ t := fun hm => hnd.1 (List.mem_map.mpr ⟨_, hm, rfl⟩)
      simp [hnot, eq_comm]
    · have h' : ¬ k = k' := fun e => h e.symm
      rw [if_neg h, ih hnd.2]
      simp [h']

theorem get_eq_some_iff {m : Map κ ν} {k : κ} {v : ν} : m.get k = some v ↔ (k, v) ∈ m.entries :=
  getEntry_eq_some m.nodup

theorem get_eq_none_iff {m : Map κ ν} {k : κ} : m.get k = none ↔ k ∉ m.keys := by
  rw [keys, List.mem_map, Option.eq_none_iff_forall_ne_some]
  constructor
  · rintro h ⟨⟨k', v⟩, hm, rfl⟩
    exact h v (get_eq_some_iff.mpr hm)
  · intro h v hv
    exact h ⟨(k, v), get_eq_some_iff.mp hv, rfl⟩

theorem mem_keys_iff {m : Map κ ν} {k : κ} : k ∈ m.keys ↔ (m.get k).isSome := by
  rw [Option.isSome_iff_ne_none, ne_eq, get_eq_none_iff, not_not]

theorem keys_set (m : Map κ ν) (k : κ) (v : ν) :
    (m.set k v).keys = if k ∈ m.keys then m.keys else m.keys ++ [k] :=
  setEntry_keys k v m.entries

theorem mem_keys_set {m : Map κ ν} {k k' : κ} {v : ν} : k' ∈ (m.set k v).keys ↔ k' = k ∨ k' ∈ m.keys := by
  rw [keys_set]
  split
  · next h => exact ⟨.inr, fun h' => h'.elim (fun e => e ▸ h) id⟩
  · simp [or_comm]

theorem get_delete (m : Map κ ν) (k k' : κ) :
    (m.delete k).get k' = if k = k' then none else m.get k' := by
  ext v
  rw [get_eq_some_iff]
  by_cases h : k = k'
  · simp [delete, h]
  · have h' : ¬ k' = k := fun e => h e.symm
    simp [delete, h, h', get_eq_some_iff]

@[simp] theorem get_delete_self (m : Map κ ν) (k : κ) : (m.delete k).get k = none := by
  simp [get_delete]

theorem get_delete_of_ne (m : Map κ ν) {k k' : κ} (h : k ≠ k') : (m.delete k).get k' = m.get k' := by
  simp [get_delete, h]

private theorem setEntry_of_not_mem {k : κ} (v : ν) {l : List (κ × ν)} (h : k ∉ l.map Prod.fst) :
    setEntry k v l = l ++ [(k, v)] := by
  induction l with
  | nil => rfl
  | cons e t ih =>
    obtain ⟨k', v'⟩ := e
    simp only [List.map_cons, List.mem_cons, not_or] at h
    rw [setEntry, if_neg (fun e => h.1 e.symm), ih h.2, List.cons_append]

/-- Setting a key that the map lacks appends its entry. -/
theorem entries_set_of_none {m : Map κ ν} {k : κ} (v : ν) (h : m.get k = none) :
    (m.set k v).entries = m.entries ++ [(k, v)] :=
  setEntry_of_not_mem v (get_eq_none_iff.mp h)

private theorem filter_setEntry {p : κ × ν → Bool} {k : κ} (v : ν) (h : ∀ v, p (k, v) = false) (l : List (κ × ν)) :
    (setEntry k v l).filter p = l.filter p := by
  induction l with
  | nil => simp [setEntry, h]
  | cons e t ih =>
    obtain ⟨k', v'⟩ := e
    rw [setEntry]
    split
    · next heq => simp [heq, h]
    · rw [List.filter_cons, List.filter_cons, ih]

/-- A filter that drops a key does not see it set. -/
theorem filter_entries_set {p : κ × ν → Bool} (m : Map κ ν) {k : κ} (v : ν) (h : ∀ v, p (k, v) = false) :
    (m.set k v).entries.filter p = m.entries.filter p := filter_setEntry v h m.entries

private theorem setEntry_self {k : κ} {v : ν} {l : List (κ × ν)} (h : getEntry k l = some v) :
    setEntry k v l = l := by
  induction l with
  | nil => simp [getEntry] at h
  | cons e t ih =>
    obtain ⟨k', v'⟩ := e
    rw [getEntry] at h
    rw [setEntry]
    by_cases hk : k' = k
    · rw [if_pos hk] at h ⊢
      simp [hk, Option.some.inj h]
    · rw [if_neg hk] at h ⊢
      rw [ih h]

/-- Setting a present key to its own value changes nothing. -/
theorem set_get_self {m : Map κ ν} {k : κ} {v : ν} (h : m.get k = some v) : m.set k v = m :=
  Map.ext (setEntry_self h)

private theorem ofList_aux (l : List (κ × ν)) (m : Map κ ν)
    (hnd : ((m.entries ++ l).map Prod.fst).Nodup) :
    (l.foldl (fun m e => m.set e.1 e.2) m).entries = m.entries ++ l := by
  induction l generalizing m with
  | nil => simp
  | cons e t ih =>
    obtain ⟨k, v⟩ := e
    have hnone : m.get k = none := by
      rw [get_eq_none_iff, keys]
      intro hm
      rw [List.map_append, List.nodup_append] at hnd
      exact hnd.2.2 k hm k (by simp) rfl
    have hent := entries_set_of_none v hnone
    rw [List.foldl_cons, ih, hent]
    · simp
    · rw [hent]
      simpa using hnd

/-- Entries with distinct keys build the map that lists them. -/
theorem entries_ofList {l : List (κ × ν)} (hnd : (l.map Prod.fst).Nodup) : (ofList l).entries = l := by
  simpa [ofList, empty] using ofList_aux l empty (by simpa [empty] using hnd)

theorem get_ofList_iff {l : List (κ × ν)} (hnd : (l.map Prod.fst).Nodup) {k : κ} {v : ν} :
    (ofList l).get k = some v ↔ (k, v) ∈ l := by
  rw [get_eq_some_iff, entries_ofList hnd]

theorem ofList_concat (l : List (κ × ν)) (k : κ) (v : ν) : ofList (l ++ [(k, v)]) = (ofList l).set k v := by
  unfold ofList
  rw [List.foldl_append, List.foldl_cons, List.foldl_nil]

theorem mem_of_get_ofList {l : List (κ × ν)} {k : κ} {v : ν} (h : (ofList l).get k = some v) : (k, v) ∈ l := by
  induction l using List.reverseRecOn with
  | nil => simp [ofList] at h
  | append_singleton l e ih =>
    obtain ⟨k', v'⟩ := e
    rw [ofList_concat, get_set] at h
    split at h
    · next hk =>
      cases h
      simp [hk]
    · simp [ih h]

theorem mem_keys_ofList {l : List (κ × ν)} {k : κ} : k ∈ (ofList l).keys ↔ k ∈ l.map Prod.fst := by
  induction l using List.reverseRecOn with
  | nil => simp [ofList, empty, keys]
  | append_singleton l e ih =>
    obtain ⟨k', v'⟩ := e
    rw [ofList_concat, mem_keys_set, ih]
    simp [or_comm]

end

end Map

end sow.js
