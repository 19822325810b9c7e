import Sow.Knowledge.Gbrain.Parity.Reconciler

open sow.js sow.contracts

namespace sow.gbrain

/-- The outcome is not a refusal of the schema. -/
def ClassifyOutcome.Valid (outcome : ClassifyOutcome) : Prop := ∀ id detail, outcome ≠ .invalid id detail

theorem ClassifyOutcome.eq_of_divergent_iff {o o' : ClassifyOutcome} (ho : o.Valid) (ho' : o'.Valid)
    (h : ∀ d, o = .divergent d ↔ o' = .divergent d) : o = o' := by
  cases o with
  | divergent d => exact ((h d).mp rfl).symm
  | invalid id detail => exact absurd rfl (ho id detail)
  | clean =>
    cases o' with
    | clean => rfl
    | divergent d => exact (h d).mpr rfl
    | invalid id detail => exact absurd rfl (ho' id detail)

section lookup

variable {canonicalSet : CanonicalFactSet} {rows : List DbFact} {row : DbFact} {df : DerivedFact} {id : JsString}

theorem byIdCanonical_get_iff : (byIdCanonical canonicalSet).get id = some df ↔ df ∈ canonicalSet.facts ∧ df.fact.factIdentity = id := by
  unfold byIdCanonical
  rw [Map.get_ofList_iff (by simpa [Function.comp_def] using canonicalSet.nodup)]
  simp only [List.mem_map, Prod.mk.injEq]
  constructor
  · rintro ⟨df', hmem, hid, rfl⟩
    exact ⟨hmem, hid⟩
  · rintro ⟨hmem, hid⟩
    exact ⟨df, hmem, hid, rfl⟩

theorem mem_of_byIdDb (h : (byIdDb rows).get id = some row) : row ∈ rows ∧ row.factIdentity = id := by
  obtain ⟨row', hmem, heq⟩ := List.mem_map.mp (Map.mem_of_get_ofList h)
  cases heq
  exact ⟨hmem, rfl⟩

/-- The last row of an identity is the one that is kept. -/
theorem byIdDb_concat (rows : List DbFact) (row : DbFact) : (byIdDb (rows ++ [row])).get row.factIdentity = some row := by
  unfold byIdDb
  rw [List.map_append, List.map_singleton, Map.ofList_concat, Map.get_set_self]

theorem byIdDb_isSome_iff : ((byIdDb rows).get id).isSome = true ↔ ∃ row ∈ rows, row.factIdentity = id := by
  rw [← Map.mem_keys_iff]
  unfold byIdDb
  rw [Map.mem_keys_ofList]
  simp

theorem byIdDb_none_iff : (byIdDb rows).get id = none ↔ ∀ row ∈ rows, row.factIdentity ≠ id := by
  rw [← Option.not_isSome_iff_eq_none, byIdDb_isSome_iff]
  simp

theorem mem_identities_iff :
    id ∈ identities canonicalSet rows ↔ (∃ df ∈ canonicalSet.facts, df.fact.factIdentity = id) ∨ ∃ row ∈ rows, row.factIdentity = id := by
  unfold identities
  rw [mem_sort_unique, List.mem_append, Map.mem_keys_iff, Map.mem_keys_iff, byIdDb_isSome_iff, Option.isSome_iff_exists]
  simp only [byIdCanonical_get_iff]

theorem identities_perm {rows' : List DbFact} (h : rows'.Perm rows) : identities canonicalSet rows' = identities canonicalSet rows := by
  unfold identities
  apply sort_unique_congr
  intro id
  rw [List.mem_append, List.mem_append, Map.mem_keys_iff (m := byIdDb rows'), Map.mem_keys_iff (m := byIdDb rows),
    byIdDb_isSome_iff, byIdDb_isSome_iff]
  simp only [h.mem_iff]

end lookup

section classify

variable {refusal : Divergence → JsString} {draft d : Divergence} {outcome : ClassifyOutcome}

theorem build_valid_iff : (build refusal draft).Valid ↔ isDivergence draft = true := by
  unfold build ClassifyOutcome.Valid
  split <;> simp_all

theorem build_divergent_iff : build refusal draft = .divergent d ↔ isDivergence draft = true ∧ draft = d := by
  unfold build
  split <;> simp_all

/-- A draft that the schema takes is the divergence. -/
theorem build_eq (h : (build refusal draft).Valid) : build refusal draft = .divergent draft := by
  rw [build_divergent_iff]
  exact ⟨build_valid_iff.mp h, rfl⟩

/-- Every divergence is one that the schema takes. -/
theorem classifyDivergence_isDivergence {cmp : FactComparison} {revision : JsString} (h : classifyDivergence refusal cmp revision = .divergent d) :
    isDivergence d = true := by
  have hbuild {draft : Divergence} (h : build refusal draft = .divergent d) : isDivergence d = true := by
    obtain ⟨hdraft, rfl⟩ := build_divergent_iff.mp h
    exact hdraft
  cases cmp with
  | db_only db => exact hbuild h
  | canonical_only canonical => exact hbuild h
  | both canonical db =>
    simp only [classifyDivergence] at h
    split at h
    · exact hbuild h
    · split at h
      · exact hbuild h
      · cases h

end classify

/-- The identity is one of the Markdown's facts. -/
def IsCanonical (canonicalSet : CanonicalFactSet) (id : JsString) : Prop := ∃ df ∈ canonicalSet.facts, df.fact.factIdentity = id

section row

variable (refusals : Refusals) (canonicalSet : CanonicalFactSet)

/-- What would be said of the identity of a row were the row the only one. -/
def rowVerdict (row : DbFact) : ClassifyOutcome :=
  match (byIdCanonical canonicalSet).get row.factIdentity with
  | some c => classifyDivergence refusals.divergence (.both c row) canonicalSet.revisionId
  | none => classifyDivergence refusals.divergence (.db_only row) canonicalSet.revisionId

variable {refusals canonicalSet} {rows : List DbFact} {row row' : DbFact} {df : DerivedFact} {id : JsString} {d : Divergence}

theorem not_isCanonical_iff : ¬ IsCanonical canonicalSet id ↔ (byIdCanonical canonicalSet).get id = none := by
  rw [Option.eq_none_iff_forall_ne_some]
  unfold IsCanonical
  simp only [ne_eq, byIdCanonical_get_iff]
  push Not
  exact Iff.rfl

theorem forall_canonical_iff {P : DerivedFact → Prop} :
    (∀ df ∈ canonicalSet.facts, df.fact.factIdentity = id → P df) ↔ ∀ df, (byIdCanonical canonicalSet).get id = some df → P df := by
  simp only [byIdCanonical_get_iff, and_imp]

theorem verdict_of_row (h : (byIdDb rows).get id = some row) : verdict refusals canonicalSet rows id = rowVerdict refusals canonicalSet row := by
  have hid := (mem_of_byIdDb h).2
  unfold verdict rowVerdict
  rw [h, hid]
  cases (byIdCanonical canonicalSet).get id <;> rfl

/-- A canonical fact that passes the schema. -/
theorem canonical_valid (hget : (byIdCanonical canonicalSet).get id = some df) :
    df.fact.factIdentity = id ∧ isFactIdentity df.fact.factIdentity = true ∧ isMdContentSha df.fact.mdContentSha = true := by
  obtain ⟨hmem, hid⟩ := byIdCanonical_get_iff.mp hget
  have hvalid := canonicalSet.facts_valid df hmem
  unfold isSemanticFact at hvalid
  simp only [Bool.and_eq_true] at hvalid
  exact ⟨hid, hvalid.1.1.1.1, hvalid.1.1.2⟩

theorem isMdContentSha_ne_nil {sha : JsString} (h : isMdContentSha sha = true) : sha ≠ [] := by
  rintro rfl
  simp [isMdContentSha] at h

variable (canonicalSet) in
/-- The divergence that a row drafts, if it drafts one. -/
def rowDraft (row : DbFact) : Option Divergence :=
  match (byIdCanonical canonicalSet).get row.factIdentity with
  | none => some ⟨row.factIdentity, if row.factKind = .link then .edge_db_only else .db_only,
      if row.factKind = .link then .soft else .hard, none, some row.dbContentHash, .review⟩
  | some c =>
    if row.stamped = false then
      some ⟨c.fact.factIdentity, .unstamped, .hard, some c.fact.mdContentSha, some row.dbContentHash, .review⟩
    else if row.dbContentHash = c.fact.mdContentSha then none
    else some ⟨c.fact.factIdentity, if row.revisionId = canonicalSet.revisionId then .content_mismatch else .stale_revision,
      .soft, some c.fact.mdContentSha, some row.dbContentHash, .resync⟩

variable (refusals canonicalSet) in
theorem rowVerdict_eq (row : DbFact) :
    rowVerdict refusals canonicalSet row = (rowDraft canonicalSet row).elim .clean (build refusals.divergence) := by
  unfold rowVerdict rowDraft
  cases (byIdCanonical canonicalSet).get row.factIdentity with
  | none => by_cases hlink : row.factKind = .link <;> simp [classifyDivergence, hlink]
  | some c =>
    cases hstamped : row.stamped with
    | false => simp [classifyDivergence, hstamped]
    | true =>
      by_cases hhash : row.dbContentHash = c.fact.mdContentSha
      · simp [classifyDivergence, hstamped, hhash]
      · by_cases hstale : row.revisionId = canonicalSet.revisionId <;> simp [classifyDivergence, hstamped, hhash, hstale]

theorem rowVerdict_of_valid (hvalid : (rowVerdict refusals canonicalSet row).Valid) :
    rowVerdict refusals canonicalSet row = .divergent d ↔ rowDraft canonicalSet row = some d := by
  rw [rowVerdict_eq] at hvalid ⊢
  cases hdraft : rowDraft canonicalSet row with
  | none => simp
  | some draft =>
    rw [hdraft, Option.elim_some] at hvalid
    rw [Option.elim_some, build_eq hvalid]
    simp

theorem isCanonical_iff : IsCanonical canonicalSet id ↔ ∃ df, (byIdCanonical canonicalSet).get id = some df := by
  unfold IsCanonical
  simp only [byIdCanonical_get_iff]

variable (refusals canonicalSet) in
/-- The schema takes what is said of a row that has a hash, and an identity of the schema's form. -/
theorem rowVerdict_valid_iff (row : DbFact) :
    (rowVerdict refusals canonicalSet row).Valid ↔
      row.dbContentHash ≠ [] ∧ (¬ IsCanonical canonicalSet row.factIdentity → isFactIdentity row.factIdentity = true) := by
  rw [not_isCanonical_iff, rowVerdict_eq]
  unfold rowDraft
  cases hget : (byIdCanonical canonicalSet).get row.factIdentity with
  | none =>
    rw [Option.elim_some, build_valid_iff]
    by_cases hlink : row.factKind = .link <;> simp [isDivergence, hlink, List.length_pos_iff, and_comm]
  | some c =>
    obtain ⟨-, hid, hsha⟩ := canonical_valid hget
    by_cases hstamped : row.stamped = false
    · simp [hstamped, build_valid_iff, isDivergence, hid, hsha, List.length_pos_iff]
    · by_cases hhash : row.dbContentHash = c.fact.mdContentSha
      · simp [hstamped, hhash, ClassifyOutcome.Valid, isMdContentSha_ne_nil hsha]
      · by_cases hstale : row.revisionId = canonicalSet.revisionId <;>
          simp [hstamped, hhash, hstale, build_valid_iff, isDivergence, hid, hsha, List.length_pos_iff]

/-- A row is hard where the Markdown does not derive its fact and it declares no link, or where the
    writer did not stamp it. -/
def HardRow (canonicalSet : CanonicalFactSet) (row : DbFact) : Prop :=
  (¬ IsCanonical canonicalSet row.factIdentity ∧ row.factKind ≠ .link) ∨ (IsCanonical canonicalSet row.factIdentity ∧ row.stamped = false)

theorem rowDraft_hard_iff : (∃ d, rowDraft canonicalSet row = some d ∧ d.severityFloor = .hard) ↔ HardRow canonicalSet row := by
  unfold HardRow rowDraft
  rw [not_isCanonical_iff, isCanonical_iff]
  cases hget : (byIdCanonical canonicalSet).get row.factIdentity with
  | none => by_cases hlink : row.factKind = .link <;> simp [hlink]
  | some c =>
    cases hstamped : row.stamped with
    | false => simp
    | true => by_cases hhash : row.dbContentHash = c.fact.mdContentSha <;> simp [hhash]

/-- A row disagrees with the Markdown. -/
def DisagreeingRow (canonicalSet : CanonicalFactSet) (row : DbFact) : Prop :=
  ∀ df ∈ canonicalSet.facts, df.fact.factIdentity = row.factIdentity → row.stamped = false ∨ row.dbContentHash ≠ df.fact.mdContentSha

theorem rowDraft_isSome_iff : (rowDraft canonicalSet row).isSome = true ↔ DisagreeingRow canonicalSet row := by
  unfold DisagreeingRow rowDraft
  rw [forall_canonical_iff]
  cases hget : (byIdCanonical canonicalSet).get row.factIdentity with
  | none => simp
  | some c =>
    cases hstamped : row.stamped with
    | false => simp
    | true => by_cases hhash : row.dbContentHash = c.fact.mdContentSha <;> simp [hhash]

/-- Rows of one identity of which the same is said. -/
@[mk_iff] structure AlikeRows (canonicalSet : CanonicalFactSet) (row row' : DbFact) : Prop where
  hash : row.dbContentHash = row'.dbContentHash
  kind : ¬ IsCanonical canonicalSet row.factIdentity → (row.factKind = .link ↔ row'.factKind = .link)
  stamped : IsCanonical canonicalSet row.factIdentity → row.stamped = row'.stamped
  stale : ∀ df ∈ canonicalSet.facts, df.fact.factIdentity = row.factIdentity → row.stamped = true →
    row.dbContentHash ≠ df.fact.mdContentSha → (row.revisionId = canonicalSet.revisionId ↔ row'.revisionId = canonicalSet.revisionId)

theorem rowDraft_eq_iff (hid : row.factIdentity = row'.factIdentity) :
    rowDraft canonicalSet row = rowDraft canonicalSet row' ↔ AlikeRows canonicalSet row row' := by
  rw [alikeRows_iff, not_isCanonical_iff, isCanonical_iff, forall_canonical_iff]
  unfold rowDraft
  rw [← hid]
  cases hget : (byIdCanonical canonicalSet).get row.factIdentity with
  | none => by_cases hlink : row.factKind = .link <;> by_cases hlink' : row'.factKind = .link <;> simp [hlink, hlink']
  | some c =>
    cases hstamped : row.stamped with
    | false =>
      cases hstamped' : row'.stamped with
      | false => simp
      | true => by_cases hhash' : row'.dbContentHash = c.fact.mdContentSha <;> simp [hhash']
    | true =>
      by_cases hhash : row.dbContentHash = c.fact.mdContentSha
      · cases hstamped' : row'.stamped with
        | false => simp [hhash]
        | true => by_cases hhash' : row'.dbContentHash = c.fact.mdContentSha <;> simp [hhash, hhash', eq_comm]
      · cases hstamped' : row'.stamped with
        | false => simp [hhash]
        | true =>
          by_cases hhash' : row'.dbContentHash = c.fact.mdContentSha
          · simp [hhash, hhash']
          · by_cases hstale : row.revisionId = canonicalSet.revisionId <;>
              by_cases hstale' : row'.revisionId = canonicalSet.revisionId <;> simp [hhash, hhash', hstale, hstale']

end row

end sow.gbrain
