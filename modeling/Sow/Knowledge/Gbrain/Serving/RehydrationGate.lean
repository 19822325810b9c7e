import Sow.Effect.Wp
import Sow.Knowledge.Gbrain.Derive.CanonicalFactDeriver
import Sow.Knowledge.Gbrain.Parity.Reconciler
import Sow.Knowledge.Gbrain.Serving.QuarantineLedger
import Sow.Knowledge.KnowledgeWriter.ProvenanceStamp

open sow.js sow.contracts sow.effect sow.markdown_vault
open sow.knowledge_writer (Sha256 SecretsM SecretUnresolved SignedProvenanceStamp StampKit StamperDeps verifyProvenanceStamp
  readStampField)

namespace sow.gbrain

/-- A pointer of a database read; `dbBody` is what the database would have served. -/
structure DbPointer where
  factIdentity : JsString
  score : ℚ
  dbBody : Option JsString

structure RehydratedFact where
  factIdentity : JsString
  content : JsString
  mdContentSha : JsString
  stamp : SignedProvenanceStamp

structure RehydrateError where
  factIdentity : JsString
  reason : JsString

abbrev RehydrateFn : Type := JsString → Except RehydrateError RehydratedFact

structure ServingCoverage where
  cleanForServing : Bool
  coverageComplete : Bool
  pinValid : Bool
  oracleBuildOk : Bool

def isDegradedCoverage (c : ServingCoverage) : Bool :=
  !(c.cleanForServing && c.coverageComplete && c.pinValid && c.oracleBuildOk)

structure ServingRequest where
  workspaceId : JsString
  revisionId : JsString
  pointers : List DbPointer
  allowSet : CanonicalFactSet
  rehydrate : RehydrateFn
  quarantine : QuarantineLedger
  coverage : ServingCoverage

inductive WithholdReason where
  | not_in_allow_set
  | quarantined
  | rehydrate_failed
  | content_hash_mismatch
  | origin_path_missing
  | signature_invalid
  | degraded_coverage
  | signing_key_unresolved
  deriving DecidableEq

structure AdmittedFact where
  factIdentity : JsString
  content : JsString
  mdContentSha : JsString
  score : ℚ
  deriving DecidableEq

structure WithheldFact where
  factIdentity : JsString
  reason : WithholdReason
  deriving DecidableEq

inductive ServingMode where
  | gated
  | degraded_direct_markdown
  deriving DecidableEq

structure ServingResult where
  mode : ServingMode
  admitted : List AdmittedFact
  withheld : List WithheldFact
  deriving DecidableEq

inductive ServingError where
  | workspace_mismatch (request allowSet : JsString)
  | revision_mismatch (request allowSet : JsString)
  deriving DecidableEq

/-- Nothing is admitted. -/
def degraded (pointers : List DbPointer) (reason : WithholdReason) : ServingResult where
  mode := .degraded_direct_markdown
  admitted := []
  withheld := pointers.map fun p => ⟨p.factIdentity, reason⟩

/-- The outcome of the four checks on one identity. -/
inductive Admission where
  | withhold (reason : WithholdReason)
  | admitted (content mdContentSha : JsString)
  deriving DecidableEq

/-- The last check: the stamp signs the tuple that the allow-set gives, not what it says itself. -/
def verifyFact (deps : StamperDeps) (df : DerivedFact) (rf : RehydratedFact) :
    SecretsM (Except SecretUnresolved Admission) := do
  let verified ← verifyProvenanceStamp
    ⟨⟨df.fact.workspaceId, df.fact.factIdentity, df.provenance.originPath, df.fact.mdContentSha⟩, rf.stamp⟩ deps
  match verified with
  | .error e => pure (.error e)
  | .ok false => pure (.ok (.withhold .signature_invalid))
  | .ok true => pure (.ok (.admitted rf.content df.fact.mdContentSha))

/-- The body of the loop over the pointers, behind the deduplication. -/
def admitOne (req : ServingRequest) (deps : StamperDeps) (id : JsString) : SecretsM (Except SecretUnresolved Admission) :=
  match (byIdCanonical req.allowSet).get id with
  | none => pure (.ok (.withhold .not_in_allow_set))
  | some df =>
    if req.quarantine.isQuarantined req.workspaceId id then pure (.ok (.withhold .quarantined))
    else
      match req.rehydrate id with
      | .error _ => pure (.ok (.withhold .rehydrate_failed))
      | .ok rf =>
        if rf.mdContentSha ≠ df.fact.mdContentSha then pure (.ok (.withhold .content_hash_mismatch))
        else if df.provenance.originPath = [] then pure (.ok (.withhold .origin_path_missing))
        else verifyFact deps df rf

/-- What the loop has gathered. -/
structure Gathered where
  admitted : List AdmittedFact
  withheld : List WithheldFact
  seen : List JsString

def Gathered.add (g : Gathered) (p : DbPointer) : Admission → Gathered
  | .withhold reason =>
    ⟨g.admitted, g.withheld ++ [⟨p.factIdentity, reason⟩], g.seen ++ [p.factIdentity]⟩
  | .admitted content mdContentSha =>
    ⟨g.admitted ++ [⟨p.factIdentity, content, mdContentSha, p.score⟩], g.withheld, g.seen ++ [p.factIdentity]⟩

/-- The loop: of the pointers to one identity the first counts, and a key that cannot be
    resolved ends it. -/
def admitPointers (req : ServingRequest) (deps : StamperDeps) :
    List DbPointer → Gathered → SecretsM (Except SecretUnresolved Gathered)
  | [], g => pure (.ok g)
  | p :: pointers, g =>
    if p.factIdentity ∈ g.seen then admitPointers req deps pointers g
    else do
      match ← admitOne req deps p.factIdentity with
      | .error e => pure (.error e)
      | .ok admission => admitPointers req deps pointers (g.add p admission)

def admitForServing (req : ServingRequest) (deps : StamperDeps) : SecretsM (Except ServingError ServingResult) :=
  if req.workspaceId ≠ req.allowSet.workspaceId then
    pure (.error (.workspace_mismatch req.workspaceId req.allowSet.workspaceId))
  else if req.revisionId ≠ req.allowSet.revisionId then
    pure (.error (.revision_mismatch req.revisionId req.allowSet.revisionId))
  else if isDegradedCoverage req.coverage then pure (.ok (degraded req.pointers .degraded_coverage))
  else do
    match ← admitPointers req deps req.pointers ⟨[], [], []⟩ with
    | .error _ => pure (.ok (degraded req.pointers .signing_key_unresolved))
    | .ok g => pure (.ok ⟨.gated, g.admitted, g.withheld⟩)

def rehydrateFailed (factIdentity reason : JsString) : Except RehydrateError RehydratedFact := .error ⟨factIdentity, reason⟩

/-- The bytes of an identity from the notes that were read, hashed anew. -/
def createVaultRehydrate (sha256 : Sha256) (kit : StampKit) (readNote : Path → Option JsString)
    (allowSet : CanonicalFactSet) : RehydrateFn := fun factIdentity =>
  match (byIdCanonical allowSet).get factIdentity with
  | none => rehydrateFailed factIdentity (str "not_in_allow_set")
  | some df =>
    let originPath := df.provenance.originPath
    if originPath = [] then rehydrateFailed factIdentity (str "origin_path_missing")
    else
      match readNote originPath with
      | none => rehydrateFailed factIdentity (str "note_unreadable")
      | some content =>
        match computePageProvenance sha256 originPath content with
        | none => rehydrateFailed factIdentity (str "unhashable_note")
        | some page =>
          match readStampField kit content with
          | none => rehydrateFailed factIdentity (str "no_stamp")
          | some stamp => .ok ⟨factIdentity, content, page.pageSha, stamp⟩

end sow.gbrain
