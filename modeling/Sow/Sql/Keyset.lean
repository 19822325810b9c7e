import Mathlib.Data.List.Sort

namespace sow.sql

variable {Row Key : Type} [LinearOrder Key] (key : Row → Key)

/-- `order by key` -/
def orderBy (rows : List Row) : List Row := rows.insertionSort fun a b => key a ≤ key b

theorem mem_orderBy {rows : List Row} {row : Row} : row ∈ orderBy key rows ↔ row ∈ rows :=
  List.mem_insertionSort _

theorem length_orderBy (rows : List Row) : (orderBy key rows).length = rows.length :=
  List.length_insertionSort _ rows

theorem orderBy_pairwise (rows : List Row) : (orderBy key rows).Pairwise fun a b => key a ≤ key b :=
  List.pairwise_insertionSort _ rows

/-- Rows of different keys are sorted strictly. -/
theorem orderBy_strict {rows : List Row} (hkeys : rows.Pairwise fun a b => key a ≠ key b) :
    (orderBy key rows).Pairwise fun a b => key a < key b := by
  have hne : (orderBy key rows).Pairwise fun a b => key a ≠ key b :=
    (List.perm_insertionSort _ rows).symm.pairwise hkeys Ne.symm
  exact ((orderBy_pairwise key rows).and hne).imp fun h => lt_of_le_of_ne h.1 h.2

/-- `order by desc(key)`, for rows of different keys. -/
def orderByDesc (rows : List Row) : List Row := (orderBy key rows).reverse

/-- The row of the greatest key comes first in the descending order. -/
theorem head_orderByDesc_iff {rows : List Row} (hkeys : rows.Pairwise fun a b => key a ≠ key b) {row : Row} :
    (orderByDesc key rows).head? = some row ↔ row ∈ rows ∧ ∀ other ∈ rows, key other ≤ key row := by
  rw [orderByDesc, List.head?_reverse]
  have hstrict := orderBy_strict key hkeys
  have hmem : ∀ r, r ∈ rows ↔ r ∈ orderBy key rows := fun r => (mem_orderBy key).symm
  simp only [hmem]
  rcases List.eq_nil_or_concat (orderBy key rows) with hnil | ⟨init, last, hsplit⟩
  · simp [hnil]
  · rw [List.concat_eq_append] at hsplit
    rw [hsplit] at hstrict ⊢
    rw [List.getLast?_concat, Option.some.injEq]
    have hbelow := (List.pairwise_append.mp hstrict).2.2
    constructor
    · rintro rfl
      refine ⟨List.mem_append_right _ (List.mem_singleton_self last), fun other hother => ?_⟩
      rcases List.mem_append.mp hother with hinit | hlast
      · exact (hbelow other hinit last (List.mem_singleton_self last)).le
      · exact le_of_eq (congrArg key (List.mem_singleton.mp hlast))
    · rintro ⟨hrow, hgreatest⟩
      have hlast := hgreatest last (List.mem_append_right _ (List.mem_singleton_self last))
      rcases List.mem_append.mp hrow with hinit | heq
      · exact absurd hlast (not_le.mpr (hbelow row hinit last (List.mem_singleton_self last)))
      · exact (List.mem_singleton.mp heq).symm

/-- Lists in strict order that have the same members are equal. -/
theorem eq_of_strict {l l' : List Row} (hl : l.Pairwise fun a b => key a < key b) (hl' : l'.Pairwise fun a b => key a < key b)
    (hmem : ∀ row, row ∈ l ↔ row ∈ l') : l = l' := by
  have hnodup : ∀ {k : List Row}, k.Pairwise (fun a b => key a < key b) → k.Nodup := fun hk =>
    hk.imp fun hlt heq => hlt.ne (congrArg key heq)
  have hperm : l.Perm l' := (List.perm_ext_iff_of_nodup (hnodup hl) (hnodup hl')).mpr hmem
  exact hperm.eq_of_pairwise (fun a b _ _ hab hba => absurd hab (lt_asymm hba)) hl hl'

/-- `where key > after order by key limit n`; without a cursor every row qualifies. -/
def page (after : Option Key) (limit : Nat) (rows : List Row) : List Row :=
  (orderBy key (rows.filter fun row => after.all fun c => c < key row)).take limit

/-- A table under insertion, and what a reader has received of it page by page. -/
structure Scan (Row : Type) where
  rows : List Row
  received : List Row

namespace Scan

/-- The key of the last row received. -/
def cursor (s : Scan Row) : Option Key := s.received.getLast?.map key

def read (s : Scan Row) (limit : Nat) : Scan Row := { s with received := s.received ++ page key (s.cursor key) limit s.rows }

def insert (s : Scan Row) (row : Row) : Scan Row := { s with rows := s.rows ++ [row] }

/-- A page of a positive size comes back empty. -/
def Drained (s : Scan Row) : Prop := ∃ limit, 0 < limit ∧ page key (s.cursor key) limit s.rows = []

/-- What holds of a table of distinct keys that is read page by page. -/
structure Ordered (s : Scan Row) : Prop where
  keys : s.rows.Pairwise fun a b => key a ≠ key b
  mem : ∀ row ∈ s.received, row ∈ s.rows
  increasing : s.received.Pairwise fun a b => key a < key b

/-- The row lies behind the cursor. -/
def Behind (s : Scan Row) (row : Row) : Prop := ∃ c, s.cursor key = some c ∧ key row < c

/-- Every row has been received, or lies ahead of the cursor. -/
def NothingBehind (s : Scan Row) : Prop := ∀ row ∈ s.rows, row ∈ s.received ∨ ∀ c, s.cursor key = some c → c < key row

variable {key} {s : Scan Row}

theorem mem_page {after : Option Key} {limit : Nat} {rows : List Row} {row : Row} (h : row ∈ page key after limit rows) :
    row ∈ rows ∧ ∀ c, after = some c → c < key row := by
  have hmem := (mem_orderBy key).mp (List.mem_of_mem_take h)
  refine ⟨List.mem_of_mem_filter hmem, ?_⟩
  rintro c rfl
  simpa using List.of_mem_filter hmem

/-- A page is filled up with the rows that come first, ahead of every row it leaves out. -/
theorem page_or_after {after : Option Key} {limit : Nat} {rows : List Row} {row : Row}
    (hkeys : rows.Pairwise fun a b => key a ≠ key b) (hmem : row ∈ rows) (hafter : ∀ c, after = some c → c < key row) :
    row ∈ page key after limit rows ∨ ∀ other ∈ page key after limit rows, key other < key row := by
  have hqualifies : row ∈ orderBy key (rows.filter fun row => after.all fun c => c < key row) := by
    rw [mem_orderBy, List.mem_filter]
    refine ⟨hmem, ?_⟩
    cases after with
    | none => rfl
    | some c => simpa using hafter c rfl
  have hstrict := orderBy_strict key (hkeys.filter fun row => after.all fun c => decide (c < key row))
  rw [← List.take_append_drop limit (orderBy key (rows.filter fun row => after.all fun c => decide (c < key row)))]
    at hqualifies hstrict
  rcases List.mem_append.mp hqualifies with htaken | hleft
  · exact .inl htaken
  · exact .inr fun other hother => (List.pairwise_append.mp hstrict).2.2 other hother row hleft

theorem page_pairwise {after : Option Key} {limit : Nat} {rows : List Row}
    (hkeys : rows.Pairwise fun a b => key a ≠ key b) : (page key after limit rows).Pairwise fun a b => key a < key b :=
  (orderBy_strict key (hkeys.filter _)).take

/-- The cursor stands at the greatest key received. -/
theorem Ordered.le_cursor (h : s.Ordered key) {row : Row} (hrow : row ∈ s.received) :
    ∃ c, s.cursor key = some c ∧ key row ≤ c := by
  obtain ⟨init, last, hsplit⟩ := List.eq_nil_or_concat s.received |>.resolve_left (List.ne_nil_of_mem hrow)
  refine ⟨key last, by simp [cursor, hsplit], ?_⟩
  have hinc := h.increasing
  rw [hsplit, List.concat_eq_append, List.pairwise_append] at hinc
  rw [hsplit, List.concat_eq_append, List.mem_append, List.mem_singleton] at hrow
  rcases hrow with hrow | rfl
  · exact (hinc.2.2 row hrow last (List.mem_singleton_self last)).le
  · exact le_refl _

theorem Ordered.read (h : s.Ordered key) (limit : Nat) : (s.read key limit).Ordered key := by
  refine ⟨h.keys, ?_, ?_⟩
  · intro row hrow
    rcases List.mem_append.mp hrow with hrow | hrow
    · exact h.mem row hrow
    · exact (mem_page hrow).1
  · refine List.pairwise_append.mpr ⟨h.increasing, page_pairwise h.keys, ?_⟩
    intro row hrow other hother
    obtain ⟨c, hc, hle⟩ := h.le_cursor hrow
    exact hle.trans_lt ((mem_page hother).2 c hc)

theorem Ordered.insert (h : s.Ordered key) {row : Row} (hfresh : ∀ other ∈ s.rows, key other ≠ key row) :
    (s.insert row).Ordered key := by
  refine ⟨?_, fun other hother => List.mem_append_left _ (h.mem other hother), h.increasing⟩
  refine List.pairwise_append.mpr ⟨h.keys, List.pairwise_singleton .., ?_⟩
  intro other hother r hr
  rw [List.mem_singleton.mp hr]
  exact hfresh other hother

/-- No row is received twice. -/
theorem Ordered.nodup (h : s.Ordered key) : s.received.Nodup :=
  h.increasing.imp fun hlt => fun heq => hlt.ne (congrArg key heq)

/-- A reader of a drained table has received what was never behind its cursor. -/
theorem NothingBehind.received_of_drained (h : s.NothingBehind key) (hdrained : s.Drained key) :
    ∀ row ∈ s.rows, row ∈ s.received := by
  obtain ⟨limit, hlimit, hempty⟩ := hdrained
  intro row hrow
  refine (h row hrow).resolve_right fun hahead => ?_
  have hqualifies : row ∈ s.rows.filter fun row => (s.cursor key).all fun c => c < key row := by
    rw [List.mem_filter]
    refine ⟨hrow, ?_⟩
    cases hc : s.cursor key with
    | none => rfl
    | some c => simpa using hahead c hc
  have hnil : orderBy key (s.rows.filter fun row => (s.cursor key).all fun c => c < key row) = [] :=
    (List.take_eq_nil_iff.mp hempty).resolve_left (by omega)
  have hmem := (mem_orderBy key).mpr hqualifies
  rw [hnil] at hmem
  cases hmem

/-- A page as long as the table drains it. -/
theorem Ordered.drained_read (h : s.Ordered key) : (s.read key s.rows.length).Drained key := by
  refine ⟨1, by omega, ?_⟩
  refine List.eq_nil_iff_forall_not_mem.mpr fun row hrow => ?_
  obtain ⟨hmem, hafter⟩ := mem_page hrow
  have hnot : row ∉ (s.read key s.rows.length).received := by
    intro hreceived
    obtain ⟨c, hc, hle⟩ := (h.read _).le_cursor hreceived
    exact (hafter c hc).not_ge hle
  refine hnot (List.mem_append_right _ ?_)
  -- The page takes every row that qualifies.
  rw [page, List.take_of_length_le]
  · rw [mem_orderBy, List.mem_filter]
    refine ⟨hmem, ?_⟩
    cases hc : s.cursor key with
    | none => rfl
    | some c =>
      rw [Option.all_some, decide_eq_true_eq]
      obtain ⟨last, hlast, hkey⟩ := Option.map_eq_some_iff.mp hc
      obtain ⟨c', hc', hle⟩ := (h.read s.rows.length).le_cursor
        (List.mem_append_left _ (List.mem_of_getLast? hlast) : last ∈ (s.read key s.rows.length).received)
      rw [← hkey]
      exact hle.trans_lt (hafter c' hc')
  · rw [length_orderBy]
    exact List.length_filter_le ..

/-- A page never leaves anything behind, and never brings back what is. -/
theorem Ordered.nothingBehind_read_iff (h : s.Ordered key) (limit : Nat) :
    (s.read key limit).NothingBehind key ↔ s.NothingBehind key := by
  constructor
  · intro hnothing row hrow
    rcases hnothing row hrow with hreceived | hahead
    · exact (List.mem_append.mp hreceived).imp id fun hpage => (mem_page hpage).2
    · refine .inr fun c hc => ?_
      obtain ⟨last, hlast, rfl⟩ := Option.map_eq_some_iff.mp hc
      obtain ⟨c', hc', hle⟩ := (h.read limit).le_cursor
        (List.mem_append_left _ (List.mem_of_getLast? hlast) : last ∈ (s.read key limit).received)
      exact hle.trans_lt (hahead c' hc')
  · intro hnothing row hrow
    rcases hnothing row hrow with hreceived | hahead
    · exact .inl (List.mem_append_left _ hreceived)
    · rcases @page_or_after _ _ _ _ _ limit _ _ h.keys hrow hahead with hpage | hbeyond
      · exact .inl (List.mem_append_right _ hpage)
      · refine .inr fun c hc => ?_
        obtain ⟨last, hlast, rfl⟩ := Option.map_eq_some_iff.mp hc
        rcases List.mem_append.mp (List.mem_of_getLast? hlast) with hold | hnew
        · obtain ⟨c, hc, hle⟩ := h.le_cursor hold
          exact hle.trans_lt (hahead c hc)
        · exact hbeyond last hnew

/-- An insertion leaves nothing behind unless it lands there itself. -/
theorem Ordered.nothingBehind_insert_iff (h : s.Ordered key) {row : Row} (hfresh : ∀ other ∈ s.rows, key other ≠ key row) :
    (s.insert row).NothingBehind key ↔ s.NothingBehind key ∧ ¬ s.Behind key row := by
  have hnot : row ∉ s.received := fun hrow => hfresh row (h.mem row hrow) rfl
  constructor
  · intro hnothing
    refine ⟨fun other hother => hnothing other (List.mem_append_left _ hother), ?_⟩
    rintro ⟨c, hc, hlt⟩
    rcases hnothing row (List.mem_append_right _ (List.mem_singleton_self row)) with hreceived | hahead
    · exact hnot hreceived
    · exact (hahead c hc).not_gt hlt
  · rintro ⟨hnothing, hbehind⟩ other hother
    rcases List.mem_append.mp hother with hother | hother
    · exact hnothing other hother
    · obtain rfl := List.mem_singleton.mp hother
      refine .inr fun c hc => ?_
      obtain ⟨last, hlast, rfl⟩ := Option.map_eq_some_iff.mp hc
      refine lt_of_le_of_ne (not_lt.mp fun hlt => hbehind ⟨_, hc, hlt⟩) ?_
      exact hfresh last (h.mem last (List.mem_of_getLast? hlast))

end Scan

end sow.sql
