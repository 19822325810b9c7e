import Sow.Contracts.Models
import Sow.Contracts.SemanticFact
import Sow.Js.Sort
import Sow.Knowledge.Gbrain.Derive.CanonicalFactDeriver

open sow.js sow.contracts

namespace sow.gbrain

/-- A fact as the database projects it. -/
structure DbFact where
  factIdentity : JsString
  factKind : FactKind
  dbContentHash : JsString
  stamped : Bool
  revisionId : JsString
  deriving DecidableEq

inductive FactComparison where
  | both (canonical : DerivedFact) (db : DbFact)
  | canonical_only (canonical : DerivedFact)
  | db_only (db : DbFact)

inductive ClassifyOutcome where
  | clean
  | divergent (divergence : Divergence)
  | invalid (factIdentity detail : JsString)
  deriving DecidableEq

section

/- The text in which the schema refuses a draft. -/
variable (refusal : Divergence → JsString)

def build (draft : Divergence) : ClassifyOutcome :=
  if isDivergence draft then .divergent draft else .invalid draft.factIdentity (refusal draft)

/-- Classify the disagreement about one identity. -/
def classifyDivergence (cmp : FactComparison) (canonicalRevision : JsString) : ClassifyOutcome :=
  match cmp with
  | .db_only db =>
    let isEdge : Bool := db.factKind = .link
    build refusal {
      factIdentity := db.factIdentity
      divergenceClass := if isEdge then .edge_db_only else .db_only
      severityFloor := if isEdge then .soft else .hard
      mdContentSha := none
      dbContentHash := some db.dbContentHash
      remediation := .review }
  | .canonical_only canonical =>
    let isEdge : Bool := canonical.fact.factKind = .link
    build refusal {
      factIdentity := canonical.fact.factIdentity
      divergenceClass := if isEdge then .edge_md_only else .md_only
      severityFloor := .soft
      mdContentSha := some canonical.fact.mdContentSha
      dbContentHash := none
      remediation := .resync }
  | .both canonical db =>
    let canonicalSha := canonical.fact.mdContentSha
    let identity := canonical.fact.factIdentity
    -- before the hashes are compared: a hash that matches is no stamp
    if db.stamped = false then
      build refusal {
        factIdentity := identity
        divergenceClass := .unstamped
        severityFloor := .hard
        mdContentSha := some canonicalSha
        dbContentHash := some db.dbContentHash
        remediation := .review }
    else if db.dbContentHash ≠ canonicalSha then
      let stale : Bool := db.revisionId ≠ canonicalRevision
      build refusal {
        factIdentity := identity
        divergenceClass := if stale then .stale_revision else .content_mismatch
        severityFloor := .soft
        mdContentSha := some canonicalSha
        dbContentHash := some db.dbContentHash
        remediation := .resync }
    else .clean

end

/-- What the Markdown of a revision says: facts that the schema accepts, one to an identity. -/
structure CanonicalFactSet where
  workspaceId : JsString
  revisionId : JsString
  facts : List DerivedFact
  workspaceId_valid : isWorkspaceId workspaceId = true
  revisionId_valid : isBrandedId revisionId = true
  facts_valid : ∀ df ∈ facts, isSemanticFact df.fact = true
  nodup : (facts.map (·.fact.factIdentity)).Nodup

/-- A read of the database. -/
structure ReconcilerDbProjection where
  workspaceId : JsString
  gbrainSchemaVersion : ℚ
  facts : List DbFact
  complete : Bool

structure RebuildOracleSet where
  factIdentities : List JsString
  complete : Bool

structure ReconcileRequest where
  canonicalSet : CanonicalFactSet
  dbProjection : ReconcilerDbProjection
  rebuildOracle : Option RebuildOracleSet

/-- What the minters and the clock give in this pass, each at its n-th call. -/
structure ReconcilerDeps where
  newReportId : JsString
  newHealthItemId : Nat → JsString
  newAuditId : Nat → JsString
  now : Nat → JsString

/-- The texts in which the schemas refuse. -/
structure Refusals where
  divergence : Divergence → JsString
  report : ParityReport → JsString

inductive ReconcileError where
  | workspace_mismatch (canonical db : JsString)
  | report_invalid (detail : JsString)
  deriving DecidableEq

structure ReconcilerOutcome where
  report : ParityReport
  divergences : List Divergence
  healthItems : List (HealthItem JsString)
  coverageComplete : Bool
  deriving DecidableEq

/-- The canonical facts under their identities. -/
def byIdCanonical (canonicalSet : CanonicalFactSet) : Map JsString DerivedFact :=
  .ofList (canonicalSet.facts.map fun df => (df.fact.factIdentity, df))

/-- The rows under their identities: of several, the last. -/
def byIdDb (rows : List DbFact) : Map JsString DbFact := .ofList (rows.map fun f => (f.factIdentity, f))

/-- The identities of both sides, in order. -/
def identities (canonicalSet : CanonicalFactSet) (rows : List DbFact) : List JsString :=
  sort (unique ((byIdCanonical canonicalSet).keys ++ (byIdDb rows).keys))

section

variable (refusals : Refusals)

/-- What is said of one identity. -/
def verdict (canonicalSet : CanonicalFactSet) (rows : List DbFact) (id : JsString) : ClassifyOutcome :=
  match (byIdCanonical canonicalSet).get id, (byIdDb rows).get id with
  | some c, some d => classifyDivergence refusals.divergence (.both c d) canonicalSet.revisionId
  | some c, none => classifyDivergence refusals.divergence (.canonical_only c) canonicalSet.revisionId
  | none, some d => classifyDivergence refusals.divergence (.db_only d) canonicalSet.revisionId
  -- no identity of the union is on neither side
  | none, none => .clean

/-- The divergences of a list of outcomes, up to one that the schema refuses. -/
def collectDivergences : List ClassifyOutcome → Except ReconcileError (List Divergence)
  | [] => .ok []
  | .clean :: outcomes => collectDivergences outcomes
  | .divergent d :: outcomes => (collectDivergences outcomes).map (d :: ·)
  | .invalid id detail :: _ => .error (.report_invalid (str "divergence " ++ id ++ str ": " ++ detail))

/-- The oracle derives the canonical identities and no others. -/
def corroborates (canonicalSet : CanonicalFactSet) (oracle : RebuildOracleSet) : Bool :=
  let oracleIds := unique oracle.factIdentities
  let canonicalIds := (byIdCanonical canonicalSet).keys
  oracle.complete && oracleIds.length = canonicalIds.length && canonicalIds.all (· ∈ oracleIds)

/-- An open item; the parse of the schema keeps it as it is, and where it fails the item is kept too. -/
def buildHealthItem (deps : ReconcilerDeps) (call : Nat) (failureClass : FailureClass) (severity message parityReportRef : JsString)
    (factIdentity : Option JsString) : HealthItem JsString where
  id := deps.newHealthItemId call
  failureClass := failureClass
  severity := severity
  message := message
  auditRef := deps.newAuditId call
  openedAt := deps.now call
  state := .open
  resolvedAt := none
  parityReportRef := some parityReportRef
  factIdentity := factIdentity

def parityDefectMessage (report : ParityReport) (hard : List Divergence) : JsString :=
  str "Parity defect in workspace " ++ report.workspaceId ++ str " at revision " ++ report.reconciledAtRevision ++ str ": " ++
    decimal hard.length ++ str " HARD-floor divergence(s) (DB-only/unstamped semantic fact) " ++
    str "quarantined — a DB-only fact is a hidden-brain defect (safety rule 1). Serving " ++
    str "withholds these facts; remediate via materialize-or-purge."

def rebuildDivergenceMessage (report : ParityReport) : JsString :=
  str "GBrain rebuild oracle disagrees with the SoW canonical set for workspace " ++
    report.workspaceId ++ str " at revision " ++ report.reconciledAtRevision ++ str " (oracle=" ++ decimal (report.oracleFactCount.getD 0) ++
    str " vs canonical=" ++ decimal report.canonicalFactCount ++ str "); coverage incomplete → serving degrades to " ++
    str "direct committed-Markdown. Oracle disagreement is a defect, never a calibration target."

/-- The items of a report: one for its hard divergences, pinned to the first, and one for the oracle. -/
def healthItemsOf (deps : ReconcilerDeps) (report : ParityReport) (oracleCorroborates : Bool) : List (HealthItem JsString) :=
  let hard := report.divergences.filter (·.severityFloor = .hard)
  let defect := hard.head?.map fun first =>
    buildHealthItem deps 0 .parity_defect (str "critical") (parityDefectMessage report hard) report.reportId (some first.factIdentity)
  let rebuild := if oracleCorroborates then none else
    some (buildHealthItem deps defect.toList.length .rebuild_divergence (str "warn") (rebuildDivergenceMessage report) report.reportId none)
  defect.toList ++ rebuild.toList

/-- The report of a pass that found these divergences. -/
def reportOf (req : ReconcileRequest) (deps : ReconcilerDeps) (divergences : List Divergence) : ParityReport where
  reportId := deps.newReportId
  workspaceId := req.canonicalSet.workspaceId
  reconciledAtRevision := req.canonicalSet.revisionId
  gbrainSchemaVersion := req.dbProjection.gbrainSchemaVersion
  canonicalFactCount := req.canonicalSet.facts.length
  dbFactCount := req.dbProjection.facts.length
  oracleFactCount := req.rebuildOracle.map (·.factIdentities.length)
  divergences := divergences
  cleanForServing := !divergences.any (·.severityFloor = .hard)
  coverageComplete := req.dbProjection.complete && req.rebuildOracle.all (corroborates req.canonicalSet)

/-- One pass over the two sides. -/
def reconcileParity (req : ReconcileRequest) (deps : ReconcilerDeps) : Except ReconcileError ReconcilerOutcome :=
  if req.canonicalSet.workspaceId ≠ req.dbProjection.workspaceId then
    .error (.workspace_mismatch req.canonicalSet.workspaceId req.dbProjection.workspaceId)
  else
    match collectDivergences ((identities req.canonicalSet req.dbProjection.facts).map
        (verdict refusals req.canonicalSet req.dbProjection.facts)) with
    | .error e => .error e
    | .ok divergences =>
      let report := reportOf req deps divergences
      if isParityReport report = false then .error (.report_invalid (refusals.report report))
      else .ok {
        report := report
        divergences := report.divergences
        healthItems := healthItemsOf deps report (req.rebuildOracle.all (corroborates req.canonicalSet))
        coverageComplete := report.coverageComplete }

end

end sow.gbrain
