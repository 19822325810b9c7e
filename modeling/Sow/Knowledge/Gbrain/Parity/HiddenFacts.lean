import Sow.Knowledge.Gbrain.Parity.Verdict

open sow.js sow.contracts

namespace sow.gbrain

section purpose

/-- A row that no Markdown stands behind: of a fact that is no link and not derived, or not stamped. -/
def HiddenRow (canonicalSet : CanonicalFactSet) (row : DbFact) : Prop :=
  (¬ IsCanonical canonicalSet row.factIdentity ∧ startsWith row.factIdentity (FACT_KIND_IDENTITY_PREFIX .link) = false) ∨
    (IsCanonical canonicalSet row.factIdentity ∧ row.stamped = false)

/-- An identity of one side only, or of a row that disagrees with the canonical fact. -/
def Disagrees (canonicalSet : CanonicalFactSet) (rows : List DbFact) (id : JsString) : Prop :=
  (IsCanonical canonicalSet id ∧ ∀ row ∈ rows, row.factIdentity ≠ id) ∨
    ∃ row ∈ rows, row.factIdentity = id ∧ DisagreeingRow canonicalSet row

/-- What a pass is to report. -/
structure Reports (canonicalSet : CanonicalFactSet) (rows : List DbFact) (outcome : ReconcilerOutcome) : Prop where
  clean : outcome.report.cleanForServing = false ↔ ∃ row ∈ rows, HiddenRow canonicalSet row
  disagreeing : ∀ id, (∃ d ∈ outcome.report.divergences, d.factIdentity = id) ↔ Disagrees canonicalSet rows id
  ordered : outcome.report.divergences.Pairwise fun d d' => LtUnits d.factIdentity d'.factIdentity
  defect : (∃ item ∈ outcome.healthItems, item.failureClass = .parity_defect) ↔ outcome.report.cleanForServing = false

end purpose

/-- The request with its rows in another order. -/
def ReconcileRequest.withRows (req : ReconcileRequest) (rows : List DbFact) : ReconcileRequest :=
  { req with dbProjection := { req.dbProjection with facts := rows } }

/-- The pass reports every hidden fact, whatever the order of the rows. -/
def CatchesHidden (refusals : Refusals) (deps : ReconcilerDeps) (req : ReconcileRequest) : Prop :=
  ∃ outcome, Reports req.canonicalSet req.dbProjection.facts outcome ∧
    ∀ rows, rows.Perm req.dbProjection.facts → reconcileParity refusals (req.withRows rows) deps = .ok outcome

/-- The rows pass the schema, and those of one identity say one thing. -/
structure UniformRows (canonicalSet : CanonicalFactSet) (rows : List DbFact) : Prop where
  hash : ∀ row ∈ rows, row.dbContentHash ≠ []
  identity : ∀ row ∈ rows, ¬ IsCanonical canonicalSet row.factIdentity → isFactIdentity row.factIdentity = true
  alike : ∀ row ∈ rows, ∀ row' ∈ rows, row.factIdentity = row'.factIdentity → AlikeRows canonicalSet row row'

/-- The rows are uniform, and one declares a hard fact where one is hidden. -/
structure SoundRows (canonicalSet : CanonicalFactSet) (rows : List DbFact) : Prop extends UniformRows canonicalSet rows where
  kind : (∃ row ∈ rows, HardRow canonicalSet row) ↔ ∃ row ∈ rows, HiddenRow canonicalSet row

section pass

variable {refusals : Refusals} {deps : ReconcilerDeps} {req : ReconcileRequest} {outcome : ReconcilerOutcome}
  {canonicalSet : CanonicalFactSet} {rows rows' : List DbFact} {id : JsString} {d : Divergence} {row : DbFact} {df : DerivedFact}

/-- The divergence of an outcome that is one. -/
def ClassifyOutcome.divergence? : ClassifyOutcome → Option Divergence
  | .divergent d => some d
  | _ => none

theorem divergence?_eq_some_iff {o : ClassifyOutcome} : o.divergence? = some d ↔ o = .divergent d := by
  cases o <;> simp [ClassifyOutcome.divergence?]

theorem collectDivergences_of_valid {outcomes : List ClassifyOutcome} (h : ∀ o ∈ outcomes, o.Valid) :
    collectDivergences outcomes = .ok (outcomes.filterMap ClassifyOutcome.divergence?) := by
  induction outcomes with
  | nil => rfl
  | cons o outcomes ih =>
    have ih := ih fun o hmem => h o (List.mem_cons_of_mem _ hmem)
    cases o with
    | clean =>
      rw [collectDivergences, ih]
      rfl
    | invalid id detail => exact absurd rfl (h _ List.mem_cons_self id detail)
    | divergent d =>
      rw [collectDivergences, ih]
      rfl

theorem valid_of_collectDivergences {outcomes : List ClassifyOutcome} {ds : List Divergence} (h : collectDivergences outcomes = .ok ds) :
    ∀ o ∈ outcomes, o.Valid := by
  induction outcomes generalizing ds with
  | nil => simp
  | cons o outcomes ih =>
    rw [List.forall_mem_cons]
    cases o with
    | clean =>
      refine ⟨by simp [ClassifyOutcome.Valid], ih h⟩
    | invalid id detail => simp [collectDivergences] at h
    | divergent d =>
      rw [collectDivergences] at h
      cases hrest : collectDivergences outcomes with
      | error e => simp [hrest, Except.map] at h
      | ok rest => exact ⟨by simp [ClassifyOutcome.Valid], ih hrest⟩

/-- The divergences of a pass over these rows. -/
def divergencesOf (refusals : Refusals) (canonicalSet : CanonicalFactSet) (rows : List DbFact) : List Divergence :=
  ((identities canonicalSet rows).map (verdict refusals canonicalSet rows)).filterMap ClassifyOutcome.divergence?

def outcomeOf (refusals : Refusals) (deps : ReconcilerDeps) (req : ReconcileRequest) : ReconcilerOutcome :=
  let report := reportOf req deps (divergencesOf refusals req.canonicalSet req.dbProjection.facts)
  { report := report
    divergences := report.divergences
    healthItems := healthItemsOf deps report (req.rebuildOracle.all (corroborates req.canonicalSet))
    coverageComplete := report.coverageComplete }

/-- Every verdict of the pass is one that the schema takes. -/
def ValidPass (refusals : Refusals) (canonicalSet : CanonicalFactSet) (rows : List DbFact) : Prop :=
  ∀ id ∈ identities canonicalSet rows, (verdict refusals canonicalSet rows id).Valid

/-- An identity that no row has is reported as a fact the index lacks. -/
theorem verdict_of_no_row (refusals : Refusals) (hget : (byIdCanonical canonicalSet).get id = some df) (hnone : (byIdDb rows).get id = none) :
    ∃ d, verdict refusals canonicalSet rows id = .divergent d ∧ d.factIdentity = id ∧ d.severityFloor = .soft := by
  obtain ⟨hid, hform, hsha⟩ := canonical_valid hget
  unfold verdict
  simp only [hget, hnone, classifyDivergence]
  refine ⟨_, build_eq (build_valid_iff.mpr ?_), hid, rfl⟩
  by_cases hlink : df.fact.factKind = .link <;> simp [isDivergence, hform, hsha, hlink]

theorem rowDraft_factIdentity (h : rowDraft canonicalSet row = some d) : d.factIdentity = row.factIdentity := by
  unfold rowDraft at h
  cases hget : (byIdCanonical canonicalSet).get row.factIdentity with
  | none =>
    simp only [hget, Option.some.injEq] at h
    rw [← h]
  | some c =>
    have hid := (canonical_valid hget).1
    simp only [hget] at h
    split at h
    · cases h
      exact hid
    · split at h
      · cases h
      · cases h
        exact hid

/-- A divergence names the identity that it is about. -/
theorem verdict_factIdentity (hmem : id ∈ identities canonicalSet rows) (hvalid : (verdict refusals canonicalSet rows id).Valid)
    (h : verdict refusals canonicalSet rows id = .divergent d) : d.factIdentity = id := by
  cases hrow : (byIdDb rows).get id with
  | some row =>
    rw [verdict_of_row hrow] at h hvalid
    rw [rowDraft_factIdentity ((rowVerdict_of_valid hvalid).mp h), (mem_of_byIdDb hrow).2]
  | none =>
    rw [mem_identities_iff] at hmem
    obtain ⟨df, hdf, hid⟩ | ⟨row, hmem, hid⟩ := hmem
    · obtain ⟨d', heq, hid', -⟩ := verdict_of_no_row refusals (byIdCanonical_get_iff.mpr ⟨hdf, hid⟩) hrow
      rw [heq] at h
      cases h
      exact hid'
    · exact absurd hid (byIdDb_none_iff.mp hrow row hmem)

theorem mem_divergencesOf_iff (hvalid : ValidPass refusals canonicalSet rows) :
    d ∈ divergencesOf refusals canonicalSet rows ↔
      d.factIdentity ∈ identities canonicalSet rows ∧ verdict refusals canonicalSet rows d.factIdentity = .divergent d := by
  unfold divergencesOf
  simp only [List.mem_filterMap, List.mem_map, divergence?_eq_some_iff]
  constructor
  · rintro ⟨_, ⟨id, hmem, rfl⟩, heq⟩
    have hid := verdict_factIdentity hmem (hvalid id hmem) heq
    subst hid
    exact ⟨hmem, heq⟩
  · rintro ⟨hmem, heq⟩
    exact ⟨_, ⟨_, hmem, rfl⟩, heq⟩

/-- The divergences are in the order of their identities. -/
theorem pairwise_divergencesOf (hvalid : ValidPass refusals canonicalSet rows) :
    (divergencesOf refusals canonicalSet rows).Pairwise fun d d' => LtUnits d.factIdentity d'.factIdentity := by
  have hsorted : (identities canonicalSet rows).Pairwise LtUnits := pairwise_sort_unique _
  unfold divergencesOf
  rw [List.pairwise_filterMap, List.pairwise_map]
  refine hsorted.imp_of_mem ?_
  intro id id' hmem hmem' hlt d hd d' hd'
  rw [verdict_factIdentity hmem (hvalid id hmem) (divergence?_eq_some_iff.mp hd),
    verdict_factIdentity hmem' (hvalid id' hmem') (divergence?_eq_some_iff.mp hd')]
  exact hlt

theorem verdict_isDivergence (h : verdict refusals canonicalSet rows id = .divergent d) : isDivergence d = true := by
  unfold verdict at h
  split at h
  · exact classifyDivergence_isDivergence h
  · exact classifyDivergence_isDivergence h
  · exact classifyDivergence_isDivergence h
  · cases h

/-- The schema takes the report of a pass that drafted its divergences. -/
theorem isParityReport_reportOf (hvalid : ValidPass refusals req.canonicalSet req.dbProjection.facts) (hreport : isBrandedId deps.newReportId = true) :
    isParityReport (reportOf req deps (divergencesOf refusals req.canonicalSet req.dbProjection.facts)) = true := by
  have hall : (divergencesOf refusals req.canonicalSet req.dbProjection.facts).all isDivergence = true := by
    rw [List.all_eq_true]
    intro d hmem
    exact verdict_isDivergence ((mem_divergencesOf_iff hvalid).mp hmem).2
  unfold isParityReport reportOf
  rw [hreport, req.canonicalSet.workspaceId_valid, req.canonicalSet.revisionId_valid, hall]
  simp

theorem reconcileParity_ok_iff (hws : req.canonicalSet.workspaceId = req.dbProjection.workspaceId)
    (hreport : isBrandedId deps.newReportId = true) :
    reconcileParity refusals req deps = .ok outcome ↔
      ValidPass refusals req.canonicalSet req.dbProjection.facts ∧ outcome = outcomeOf refusals deps req := by
  have hpass (hvalid : ValidPass refusals req.canonicalSet req.dbProjection.facts) :
      reconcileParity refusals req deps = .ok (outcomeOf refusals deps req) := by
    have hcollect := collectDivergences_of_valid (List.forall_mem_map.mpr hvalid)
    have hschema : isParityReport (reportOf req deps (divergencesOf refusals req.canonicalSet req.dbProjection.facts)) = true :=
      isParityReport_reportOf hvalid hreport
    unfold reconcileParity
    rw [if_neg (not_not.mpr hws), hcollect]
    unfold divergencesOf at hschema
    simp only [hschema]
    rfl
  constructor
  · intro h
    have hvalid : ValidPass refusals req.canonicalSet req.dbProjection.facts := by
      unfold reconcileParity at h
      rw [if_neg (not_not.mpr hws)] at h
      split at h
      · cases h
      · next ds hcollect => exact List.forall_mem_map.mp (valid_of_collectDivergences hcollect)
    rw [hpass hvalid] at h
    exact ⟨hvalid, (Except.ok.inj h).symm⟩
  · rintro ⟨hvalid, rfl⟩
    exact hpass hvalid

end pass

section sound

variable {refusals : Refusals} {deps : ReconcilerDeps} {req : ReconcileRequest} {outcome : ReconcilerOutcome}
  {canonicalSet : CanonicalFactSet} {rows rows' : List DbFact} {id : JsString} {d : Divergence} {row : DbFact}

/-- In a sound list of rows, any row of an identity says what is said of it. -/
theorem UniformRows.verdict_eq (h : UniformRows canonicalSet rows) (hmem : row ∈ rows) :
    verdict refusals canonicalSet rows row.factIdentity = rowVerdict refusals canonicalSet row := by
  obtain ⟨last, hlast⟩ := Option.isSome_iff_exists.mp (byIdDb_isSome_iff.mpr ⟨row, hmem, rfl⟩)
  obtain ⟨hmem', hid⟩ := mem_of_byIdDb hlast
  rw [verdict_of_row hlast, rowVerdict_eq, rowVerdict_eq, (rowDraft_eq_iff hid).mpr (h.alike last hmem' row hmem hid)]

theorem UniformRows.valid (h : UniformRows canonicalSet rows) (hmem : row ∈ rows) : (rowVerdict refusals canonicalSet row).Valid :=
  (rowVerdict_valid_iff refusals canonicalSet row).mpr ⟨h.hash row hmem, h.identity row hmem⟩

theorem UniformRows.validPass (h : UniformRows canonicalSet rows) : ValidPass refusals canonicalSet rows := by
  intro id hmem
  cases hrow : (byIdDb rows).get id with
  | some row =>
    rw [verdict_of_row hrow]
    exact h.valid (mem_of_byIdDb hrow).1
  | none =>
    rw [mem_identities_iff] at hmem
    obtain ⟨df, hdf, hid⟩ | ⟨row, hmem, hid⟩ := hmem
    · obtain ⟨d, heq, -⟩ := verdict_of_no_row refusals (byIdCanonical_get_iff.mpr ⟨hdf, hid⟩) hrow
      rw [heq]
      simp [ClassifyOutcome.Valid]
    · exact absurd hid (byIdDb_none_iff.mp hrow row hmem)

theorem UniformRows.perm (h : UniformRows canonicalSet rows) (hperm : rows'.Perm rows) : UniformRows canonicalSet rows' where
  hash row hmem := h.hash row (hperm.mem_iff.mp hmem)
  identity row hmem := h.identity row (hperm.mem_iff.mp hmem)
  alike row hmem row' hmem' := h.alike row (hperm.mem_iff.mp hmem) row' (hperm.mem_iff.mp hmem')

/-- Sound rows in another order are said the same of. -/
theorem UniformRows.divergencesOf_perm (h : UniformRows canonicalSet rows) (hperm : rows'.Perm rows) :
    divergencesOf refusals canonicalSet rows' = divergencesOf refusals canonicalSet rows := by
  unfold divergencesOf
  rw [identities_perm hperm]
  congr 1
  apply List.map_congr_left
  intro id hmem
  by_cases hrow : ∃ row ∈ rows, row.factIdentity = id
  · obtain ⟨row, hin, rfl⟩ := hrow
    rw [h.verdict_eq hin, (h.perm hperm).verdict_eq (hperm.mem_iff.mpr hin)]
  · have hnone : (byIdDb rows).get id = none := by
      rw [byIdDb_none_iff]
      intro row hmem hid
      exact hrow ⟨row, hmem, hid⟩
    have hnone' : (byIdDb rows').get id = none := by
      rw [byIdDb_none_iff]
      intro row hmem hid
      exact hrow ⟨row, hperm.mem_iff.mp hmem, hid⟩
    unfold verdict
    rw [hnone, hnone']

/-- A row is reported where its draft is. -/
theorem UniformRows.mem_divergencesOf_of_row (h : UniformRows canonicalSet rows) (hmem : row ∈ rows) (hdraft : rowDraft canonicalSet row = some d) :
    d ∈ divergencesOf refusals canonicalSet rows := by
  rw [mem_divergencesOf_iff h.validPass, rowDraft_factIdentity hdraft, h.verdict_eq hmem, rowVerdict_of_valid (h.valid hmem)]
  exact ⟨mem_identities_iff.mpr (.inr ⟨row, hmem, rfl⟩), hdraft⟩

/-- What is reported is what a row drafts, or a canonical fact that no row has. -/
theorem UniformRows.row_of_mem_divergencesOf (h : UniformRows canonicalSet rows) (hmem : d ∈ divergencesOf refusals canonicalSet rows) :
    (∃ row ∈ rows, rowDraft canonicalSet row = some d) ∨
      (IsCanonical canonicalSet d.factIdentity ∧ d.severityFloor = .soft ∧ ∀ row ∈ rows, row.factIdentity ≠ d.factIdentity) := by
  rw [mem_divergencesOf_iff h.validPass, mem_identities_iff] at hmem
  obtain ⟨hid, hverdict⟩ := hmem
  cases hrow : (byIdDb rows).get d.factIdentity with
  | some row =>
    obtain ⟨hmem, -⟩ := mem_of_byIdDb hrow
    rw [verdict_of_row hrow, rowVerdict_of_valid (h.valid hmem)] at hverdict
    exact .inl ⟨row, hmem, hverdict⟩
  | none =>
    have hno := byIdDb_none_iff.mp hrow
    obtain ⟨df, hdf, hdfid⟩ | ⟨row, hmem, hrowid⟩ := hid
    · obtain ⟨d', heq, -, hsoft⟩ := verdict_of_no_row refusals (byIdCanonical_get_iff.mpr ⟨hdf, hdfid⟩) hrow
      rw [heq] at hverdict
      cases hverdict
      exact .inr ⟨⟨df, hdf, hdfid⟩, hsoft, hno⟩
    · exact absurd hrowid (hno row hmem)

theorem UniformRows.hard_iff (h : UniformRows canonicalSet rows) :
    (∃ d ∈ divergencesOf refusals canonicalSet rows, d.severityFloor = .hard) ↔ ∃ row ∈ rows, HardRow canonicalSet row := by
  constructor
  · rintro ⟨d, hmem, hhard⟩
    obtain ⟨row, hrow, hdraft⟩ | ⟨-, hsoft, -⟩ := h.row_of_mem_divergencesOf hmem
    · exact ⟨row, hrow, rowDraft_hard_iff.mp ⟨d, hdraft, hhard⟩⟩
    · rw [hsoft] at hhard
      cases hhard
  · rintro ⟨row, hrow, hhard⟩
    obtain ⟨d, hdraft, hd⟩ := rowDraft_hard_iff.mpr hhard
    exact ⟨d, h.mem_divergencesOf_of_row hrow hdraft, hd⟩

theorem UniformRows.disagrees_iff (h : UniformRows canonicalSet rows) :
    (∃ d ∈ divergencesOf refusals canonicalSet rows, d.factIdentity = id) ↔ Disagrees canonicalSet rows id := by
  unfold Disagrees
  constructor
  · rintro ⟨d, hmem, rfl⟩
    obtain ⟨row, hrow, hdraft⟩ | ⟨hcanonical, -, hno⟩ := h.row_of_mem_divergencesOf hmem
    · refine .inr ⟨row, hrow, (rowDraft_factIdentity hdraft).symm, ?_⟩
      rw [← rowDraft_isSome_iff, hdraft, Option.isSome_some]
    · exact .inl ⟨hcanonical, hno⟩
  · rintro (⟨⟨df, hdf, hid⟩, hno⟩ | ⟨row, hrow, rfl, hdisagree⟩)
    · obtain ⟨d, heq, hd, -⟩ := verdict_of_no_row refusals (byIdCanonical_get_iff.mpr ⟨hdf, hid⟩) (byIdDb_none_iff.mpr hno)
      subst hd
      exact ⟨d, (mem_divergencesOf_iff h.validPass).mpr ⟨mem_identities_iff.mpr (.inl ⟨df, hdf, hid⟩), heq⟩, rfl⟩
    · obtain ⟨d, hdraft⟩ := Option.isSome_iff_exists.mp (rowDraft_isSome_iff.mpr hdisagree)
      exact ⟨d, h.mem_divergencesOf_of_row hrow hdraft, rowDraft_factIdentity hdraft⟩

theorem cleanForServing_iff {ds : List Divergence} :
    (reportOf req deps ds).cleanForServing = false ↔ ∃ d ∈ ds, d.severityFloor = .hard := by
  simp [reportOf]

/-- A defect is raised for a report that is not clean. -/
theorem parity_defect_iff {report : ParityReport} {corroborated : Bool} :
    (∃ item ∈ healthItemsOf deps report corroborated, item.failureClass = .parity_defect) ↔
      ∃ d ∈ report.divergences, d.severityFloor = .hard := by
  unfold healthItemsOf
  have hempty : report.divergences.filter (·.severityFloor = .hard) = [] ↔ ¬ ∃ d ∈ report.divergences, d.severityFloor = .hard := by
    simp [List.filter_eq_nil_iff]
  cases hhard : report.divergences.filter (·.severityFloor = .hard) with
  | nil =>
    refine iff_of_false ?_ (hempty.mp hhard)
    cases corroborated <;> simp [buildHealthItem]
  | cons first hard =>
    refine iff_of_true ?_ (not_not.mp (hempty.not.mp (by simp [hhard])))
    simp [buildHealthItem]

theorem SoundRows.reports (h : SoundRows req.canonicalSet req.dbProjection.facts) :
    Reports req.canonicalSet req.dbProjection.facts (outcomeOf refusals deps req) where
  clean := cleanForServing_iff.trans (h.hard_iff.trans h.kind)
  disagreeing _ := h.disagrees_iff
  ordered := pairwise_divergencesOf h.validPass
  defect := parity_defect_iff.trans cleanForServing_iff.symm

end sound

section masked

variable {refusals : Refusals} {deps : ReconcilerDeps} {req : ReconcileRequest} {canonicalSet : CanonicalFactSet}
  {rows : List DbFact} {row row' : DbFact}

/-- The rows with one of them last. -/
theorem perm_last (hmem : row ∈ rows) : (rows.erase row ++ [row]).Perm rows :=
  (List.perm_append_singleton row (rows.erase row)).trans (List.perm_cons_erase hmem).symm

/-- Where the order does not matter, each row says what is said of its identity. -/
theorem rowVerdict_of_catches (hws : req.canonicalSet.workspaceId = req.dbProjection.workspaceId) (hreport : isBrandedId deps.newReportId = true)
    {outcome : ReconcilerOutcome}
    (hall : ∀ rows, rows.Perm req.dbProjection.facts → reconcileParity refusals (req.withRows rows) deps = .ok outcome)
    (hmem : row ∈ req.dbProjection.facts) :
    (rowVerdict refusals req.canonicalSet row).Valid ∧
      ∀ d, rowVerdict refusals req.canonicalSet row = .divergent d ↔ d ∈ outcome.report.divergences ∧ d.factIdentity = row.factIdentity := by
  have hok := hall _ (perm_last hmem)
  rw [reconcileParity_ok_iff (by exact hws) hreport] at hok
  obtain ⟨hpass, rfl⟩ := hok
  have hpass : ValidPass refusals req.canonicalSet (req.dbProjection.facts.erase row ++ [row]) := hpass
  have hverdict : verdict refusals req.canonicalSet (req.dbProjection.facts.erase row ++ [row]) row.factIdentity = rowVerdict refusals req.canonicalSet row :=
    verdict_of_row (byIdDb_concat _ row)
  have hid : row.factIdentity ∈ identities req.canonicalSet (req.dbProjection.facts.erase row ++ [row]) :=
    mem_identities_iff.mpr (.inr ⟨row, by simp, rfl⟩)
  have hvalid := hpass _ hid
  refine ⟨hverdict ▸ hvalid, ?_⟩
  intro d
  have hmem : d ∈ (outcomeOf refusals deps (req.withRows (req.dbProjection.facts.erase row ++ [row]))).report.divergences ↔
      d.factIdentity ∈ identities req.canonicalSet (req.dbProjection.facts.erase row ++ [row]) ∧
        verdict refusals req.canonicalSet (req.dbProjection.facts.erase row ++ [row]) d.factIdentity = .divergent d := mem_divergencesOf_iff hpass
  rw [hmem]
  constructor
  · intro h
    have hd : d.factIdentity = row.factIdentity := verdict_factIdentity hid hvalid (hverdict.trans h)
    rw [hd, hverdict]
    exact ⟨⟨hid, h⟩, rfl⟩
  · rintro ⟨⟨-, h⟩, hd⟩
    rw [← hverdict, ← hd]
    exact h

/-- The rows of a pass that catches what is hidden are sound. -/
theorem soundRows_of_catches (hws : req.canonicalSet.workspaceId = req.dbProjection.workspaceId) (hreport : isBrandedId deps.newReportId = true)
    (h : CatchesHidden refusals deps req) : SoundRows req.canonicalSet req.dbProjection.facts := by
  obtain ⟨outcome, hreports, hall⟩ := h
  have hrow (row : DbFact) (hmem : row ∈ req.dbProjection.facts) := rowVerdict_of_catches hws hreport hall hmem
  have hok := hall _ (List.Perm.refl _)
  rw [reconcileParity_ok_iff (by exact hws) hreport] at hok
  have halike : ∀ row ∈ req.dbProjection.facts, ∀ row' ∈ req.dbProjection.facts, row.factIdentity = row'.factIdentity →
      AlikeRows req.canonicalSet row row' := by
    intro row hmem row' hmem' hid
    obtain ⟨hvalid, hdivergent⟩ := hrow row hmem
    obtain ⟨hvalid', hdivergent'⟩ := hrow row' hmem'
    rw [← rowDraft_eq_iff hid]
    ext d
    rw [← rowVerdict_of_valid hvalid, ← rowVerdict_of_valid hvalid', hdivergent, hdivergent', hid]
  have hschema (row : DbFact) (hmem : row ∈ req.dbProjection.facts) := (rowVerdict_valid_iff refusals req.canonicalSet row).mp (hrow row hmem).1
  have huniform : UniformRows req.canonicalSet req.dbProjection.facts :=
    ⟨fun row hmem => (hschema row hmem).1, fun row hmem => (hschema row hmem).2, halike⟩
  refine ⟨huniform, ?_⟩
  rw [← hreports.clean, hok.2]
  exact huniform.hard_iff.symm.trans cleanForServing_iff.symm

end masked

section

/-- A vault without facts. -/
def emptySet : CanonicalFactSet where
  workspaceId := str "employer-work"
  revisionId := str "rev-1"
  facts := []
  workspaceId_valid := by decide
  revisionId_valid := by decide
  facts_valid := by simp
  nodup := List.nodup_nil

/-- A page that only the database has, declared as this kind of fact. -/
def hiddenPage (kind : FactKind) : DbFact := ⟨str "page:secret", kind, str "digest", false, str "rev-1"⟩

def requestOf (rows : List DbFact) : ReconcileRequest where
  canonicalSet := emptySet
  dbProjection := ⟨str "employer-work", 1, rows, true⟩
  rebuildOracle := none

def fixedDeps : ReconcilerDeps where
  newReportId := str "report-1"
  newHealthItemId _ := str "health-1"
  newAuditId _ := str "audit-1"
  now _ := str "2026-01-01T00:00:00Z"

theorem not_isCanonical_emptySet (id : JsString) : ¬ IsCanonical emptySet id := by
  simp [IsCanonical, emptySet]

theorem hiddenRow_hiddenPage (kind : FactKind) : HiddenRow emptySet (hiddenPage kind) :=
  .inl ⟨not_isCanonical_emptySet _, (by decide : startsWith (str "page:secret") (str "link:") = false)⟩

theorem hiddenPage_sound : SoundRows emptySet [hiddenPage .page] where
  hash row hmem := by
    rw [List.mem_singleton.mp hmem]
    exact (by decide : str "digest" ≠ [])
  identity row hmem _ := by
    rw [List.mem_singleton.mp hmem]
    exact (by decide : isFactIdentity (str "page:secret") = true)
  alike row hmem row' hmem' _ := by
    rw [List.mem_singleton.mp hmem, List.mem_singleton.mp hmem']
    exact ⟨rfl, fun _ => Iff.rfl, fun _ => rfl, fun _ _ _ _ _ => Iff.rfl⟩
  kind := iff_of_true ⟨_, List.mem_singleton_self _, .inl ⟨not_isCanonical_emptySet _, by simp [hiddenPage]⟩⟩
    ⟨_, List.mem_singleton_self _, hiddenRow_hiddenPage .page⟩

end

end sow.gbrain
