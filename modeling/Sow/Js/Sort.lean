import Mathlib.Data.List.Pairwise
import Mathlib.Data.List.Sort
import Mathlib.Data.Prod.Lex
import Sow.Js.String

namespace sow.js

/-- `a <= b` on strings: the order of their code units, place by place. -/
def LeUnits (s t : JsString) : Prop := s.map UInt16.toNat ≤ t.map UInt16.toNat

instance : DecidableRel LeUnits := fun s t => inferInstanceAs (Decidable (s.map UInt16.toNat ≤ t.map UInt16.toNat))

instance : Std.Total LeUnits := ⟨fun s t => le_total (s.map UInt16.toNat) (t.map UInt16.toNat)⟩

instance : IsTrans JsString LeUnits := ⟨fun _ _ _ h h' => le_trans (α := List Nat) h h'⟩

/-- `a < b` on strings. -/
def LtUnits (s t : JsString) : Prop := s.map UInt16.toNat < t.map UInt16.toNat

instance : DecidableRel LtUnits := fun s t => inferInstanceAs (Decidable (s.map UInt16.toNat < t.map UInt16.toNat))

theorem not_ltUnits_iff {s t : JsString} : ¬ LtUnits s t ↔ LeUnits t s := not_lt (α := List Nat)

theorem toNat_map_injective : Function.Injective (List.map UInt16.toNat) :=
  List.map_injective_iff.mpr fun _ _ h => UInt16.toNat_inj.mp h

theorem LeUnits.antisymm {s t : JsString} (h : LeUnits s t) (h' : LeUnits t s) : s = t :=
  toNat_map_injective (le_antisymm (α := List Nat) h h')

/-- `list.sort()`. -/
def sort (l : List JsString) : List JsString := l.insertionSort LeUnits

theorem sort_perm (l : List JsString) : (sort l).Perm l := List.perm_insertionSort LeUnits l

/-- A list already in order is what sorting a permutation of it gives. -/
theorem eq_sort_of_perm {l l' : List JsString} (h : l.Perm l') (hl : l.Pairwise LeUnits) : l = sort l' := by
  refine @List.Perm.eq_of_pairwise _ LeUnits _ _ (fun a b _ _ hab hba => hab.antisymm hba) hl
    (List.pairwise_insertionSort LeUnits l') ?_
  exact h.trans (sort_perm l').symm

/-- Sorting forgets the order of its argument. -/
theorem sort_eq_of_perm {l l' : List JsString} (h : l.Perm l') : sort l = sort l' :=
  eq_sort_of_perm ((sort_perm l).trans h) (List.pairwise_insertionSort LeUnits l)

/-- Sorting by a key, ties in their order: `list.sort((a, b) => ...)` on `key`. -/
def sortBy {α : Type} (key : α → JsString) (l : List α) : List α :=
  l.insertionSort fun a b => LeUnits (key a) (key b)

theorem sortBy_perm {α : Type} (key : α → JsString) (l : List α) : (sortBy key l).Perm l := List.perm_insertionSort _ l

theorem pairwise_sortBy {α : Type} (key : α → JsString) (l : List α) :
    (sortBy key l).Pairwise fun a b => LeUnits (key a) (key b) := by
  have htotal : Std.Total fun a b => LeUnits (key a) (key b) := ⟨fun a b => Std.Total.total (key a) (key b)⟩
  have htrans : IsTrans α fun a b => LeUnits (key a) (key b) := ⟨fun a b c => IsTrans.trans (key a) (key b) (key c)⟩
  exact List.pairwise_insertionSort _ l

section

variable {α : Type} [DecidableEq α]

/-- `[...new Set(list)]`. -/
def unique (l : List α) : List α := l.eraseDups

@[simp] theorem mem_unique {a : α} {l : List α} : a ∈ unique l ↔ a ∈ l := List.mem_eraseDups

theorem unique_cons (a : α) (l : List α) : unique (a :: l) = a :: unique (l.filter (· ≠ a)) := by
  unfold unique
  rw [List.eraseDups_cons]
  congr 2
  apply List.filter_congr
  intro b _
  by_cases hb : b = a
  · simp [hb]
  · simp [hb, beq_eq_false_iff_ne.mpr hb]

theorem nodup_unique (l : List α) : (unique l).Nodup := by
  unfold unique
  induction hlen : l.length using Nat.strong_induction_on generalizing l with
  | _ n ih =>
    cases l with
    | nil => simp
    | cons a l =>
      subst hlen
      rw [List.eraseDups_cons, List.nodup_cons]
      refine ⟨?_, ih _ (Nat.lt_succ_of_le (List.length_filter_le _ _)) _ rfl⟩
      rw [List.mem_eraseDups]
      simp

end

/-- A set sorted does not depend on the order of its elements. -/
theorem sort_unique_congr {l l' : List JsString} (h : ∀ s, s ∈ l ↔ s ∈ l') : sort (unique l) = sort (unique l') := by
  apply sort_eq_of_perm
  rw [List.perm_ext_iff_of_nodup (nodup_unique l) (nodup_unique l')]
  intro s
  rw [mem_unique, mem_unique, h]

theorem mem_sort_unique {s : JsString} {l : List JsString} : s ∈ sort (unique l) ↔ s ∈ l := by
  rw [(sort_perm _).mem_iff, mem_unique]

/-- A set sorted is in strict order. -/
theorem pairwise_sort_unique (l : List JsString) : (sort (unique l)).Pairwise LtUnits := by
  have hnodup : (sort (unique l)).Nodup := (sort_perm _).nodup_iff.mpr (nodup_unique l)
  have hle : (sort (unique l)).Pairwise LeUnits := List.pairwise_insertionSort LeUnits _
  refine (hle.and hnodup).imp ?_
  rintro s t ⟨hst, hne⟩
  exact lt_of_le_of_ne (α := List Nat) hst fun heq => hne (toNat_map_injective heq)

variable {α β : Type} {key : α → Nat} {number : α → Nat} {l l' : List α}

/-- `l'` is `l` sorted by `key`, with ties in their order. -/
structure StableSorted (key : α → Nat) (l l' : List α) : Prop where
  perm : l'.Perm l
  sorted : l'.Pairwise fun a b => key a ≤ key b
  ties : ∀ k, l'.filter (fun a => key a = k) = l.filter (fun a => key a = k)

theorem StableSorted.filter (h : StableSorted key l l') (p : α → Bool) : StableSorted key (l.filter p) (l'.filter p) where
  perm := h.perm.filter p
  sorted := h.sorted.sublist List.filter_sublist
  ties k := by
    rw [List.filter_comm, h.ties k, List.filter_comm]

theorem StableSorted.map {key' : β → Nat} {f : α → β} (h : StableSorted key l l') (hkey : ∀ a, key' (f a) = key a) :
    StableSorted key' (l.map f) (l'.map f) where
  perm := h.perm.map f
  sorted := by
    rw [List.pairwise_map]
    simpa only [hkey] using h.sorted
  ties k := by
    have hfilter : ∀ l : List α, (l.map f).filter (fun b => key' b = k) = (l.filter fun a => key a = k).map f := by
      intro l
      rw [List.filter_map]
      simp only [Function.comp_def, hkey]
    rw [hfilter, hfilter, h.ties k]

/-- `list.sort((a, b) => ...)` on the key, then on the number of an entry. -/
def sortNumbered (key number : α → Nat) (l : List α) : List α :=
  l.insertionSort fun a b => toLex (key a, number a) ≤ toLex (key b, number b)

/-- Entries in the order of their numbers are sorted stably. -/
theorem sortNumbered_stable (hnumbered : l.Pairwise fun a b => number a < number b) : StableSorted key l (sortNumbered key number l) := by
  have hpairwise : (sortNumbered key number l).Pairwise fun a b => toLex (key a, number a) ≤ toLex (key b, number b) :=
    List.pairwise_insertionSort _ l
  have hperm : (sortNumbered key number l).Perm l := List.perm_insertionSort _ l
  constructor
  case perm => exact hperm
  case sorted =>
    refine hpairwise.imp fun {a b} hle => ?_
    rcases Prod.Lex.toLex_le_toLex.mp hle with hlt | ⟨heq, -⟩
    · exact hlt.le
    · exact heq.le
  case ties =>
    intro k
    have hnumbers : l.Pairwise fun a b => number a ≤ number b := hnumbered.imp fun hlt => hlt.le
    have hsorted : ((sortNumbered key number l).filter fun a => key a = k).Pairwise fun a b => number a ≤ number b := by
      refine List.Pairwise.imp_of_mem ?_ (hpairwise.sublist List.filter_sublist)
      intro a b ha hb hle
      have ha' : key a = k := by simpa using (List.mem_filter.mp ha).2
      have hb' : key b = k := by simpa using (List.mem_filter.mp hb).2
      rcases Prod.Lex.toLex_le_toLex.mp hle with hlt | ⟨-, hle'⟩
      · dsimp only at hlt
        omega
      · exact hle'
    refine (hperm.filter _).eq_of_pairwise ?_ hsorted (hnumbers.sublist List.filter_sublist)
    intro a b ha hb hab hba
    have hmem : ∀ c, c ∈ (sortNumbered key number l).filter (fun a => key a = k) ∨ c ∈ l.filter (fun a => key a = k) → c ∈ l := by
      rintro c (hc | hc)
      · exact hperm.mem_iff.mp (List.mem_of_mem_filter hc)
      · exact List.mem_of_mem_filter hc
    by_contra hne
    have hdiffer : l.Pairwise fun a b => number a ≠ number b := hnumbered.imp fun hlt => hlt.ne
    have hsymm : Std.Symm fun a b => number a ≠ number b := ⟨fun _ _ => Ne.symm⟩
    exact hdiffer.forall (hmem a (.inl ha)) (hmem b (.inr hb)) hne (le_antisymm hab hba)

end sow.js
