import Sow.Effect.Crash
import Sow.Worker.Copilot.ProposeKnowledge
import Sow.Worker.Copilot.ProposeSink
import Sow.Workflows.Activities.CommitKnowledge

open sow.js sow.effect sow.contracts sow.db sow.domain sow.integrations sow.markdown_vault
open sow.knowledge_writer (Sha256 KwOp KwM KwChoice World KnowledgeMutationPlan kwPorts)
open sow.tools (duplicateKey)
open sow.worker (readWorkspace)

namespace sow.copilot

/-- A plan that waits for its card. -/
structure PendingKnowledgeMutation where
  planId : JsString
  workspaceId : JsString
  plan : Json
  payloadHash : JsString
  status : JsString
  recordedAt : JsString
  settledAt : Option JsString

/-- What the channel of the proposals calls: the ports of the writer, and the stores of the workspaces, of the plans
    and of the cards. -/
inductive KnowledgeOp where
  | kw (op : KwOp)
  | getWorkspace (workspaceId : JsString)
  | recordPlan (entry : PendingKnowledgeMutation)
  | getPlan (planId : JsString)
  | updatePlan (entry : PendingKnowledgeMutation)
  | getApproval (id : JsString)
  | createApproval (card : Approval)
  | now

abbrev KnowledgeOp.Ret : KnowledgeOp → Type
  | .kw op => op.Ret
  | .getWorkspace _ => DbResult Unit
  | .recordPlan _ => DbResult PendingKnowledgeMutation
  | .getPlan _ => DbResult PendingKnowledgeMutation
  | .updatePlan _ => DbResult PendingKnowledgeMutation
  | .getApproval _ => DbResult Approval
  | .createApproval _ => DbResult Approval
  | .now => JsString

abbrev KnowledgeM := Program KnowledgeOp KnowledgeOp.Ret Cause

/-- A program of the writer among the calls of the channel. -/
def liftKw {α : Type} (p : KwM α) : KnowledgeM α := p.lift KnowledgeOp.kw fun _ r => r

/-- The stores, with the vault and the records of the writer. -/
structure KnowledgeWorld where
  kw : World
  plans : Map JsString PendingKnowledgeMutation
  approvals : Approvals
  workspaces : WorkspaceRegistry

/-- How the environment answers one call: a store may fail, and what it fails to report may have landed. -/
structure KnowledgeChoice where
  fault : Option DbError
  landed : Bool
  clock : JsString
  kw : KwChoice

/-- The first plan under an id stays. -/
def insertPlan (plans : Map JsString PendingKnowledgeMutation) (entry : PendingKnowledgeMutation) :
    DbResult PendingKnowledgeMutation × Map JsString PendingKnowledgeMutation :=
  match plans.get entry.planId with
  | some _ => (.error duplicateKey, plans)
  | none => (.ok entry, plans.set entry.planId entry)

def readPlan (plans : Map JsString PendingKnowledgeMutation) (planId : JsString) : DbResult PendingKnowledgeMutation :=
  match plans.get planId with
  | some row => .ok row
  | none => .error (notFound (str "pending-kmp " ++ planId))

/-- Only the status and its instant are set. -/
def settlePlan (plans : Map JsString PendingKnowledgeMutation) (entry : PendingKnowledgeMutation) :
    DbResult PendingKnowledgeMutation × Map JsString PendingKnowledgeMutation :=
  match plans.get entry.planId with
  | some row =>
    let settled := { row with status := entry.status, settledAt := entry.settledAt }
    (.ok settled, plans.set entry.planId settled)
  | none => (.error (notFound (str "pending-kmp " ++ entry.planId)), plans)

/-- The stores behind the channel; each call is atomic. -/
def knowledgePorts (listing : Listing) : Handler KnowledgeOp KnowledgeOp.Ret Cause KnowledgeWorld KnowledgeChoice where
  exec w op d := match op with
    | .kw op => (((kwPorts listing).exec w.kw op d.kw).1, { w with kw := ((kwPorts listing).exec w.kw op d.kw).2 })
    | .getWorkspace workspaceId => (.ok (d.fault.elim (readWorkspace w.workspaces.rows workspaceId) .error), w)
    | .recordPlan entry =>
      (.ok (d.fault.elim (insertPlan w.plans entry).1 .error),
        if d.fault.isNone || d.landed then { w with plans := (insertPlan w.plans entry).2 } else w)
    | .getPlan planId => (.ok (d.fault.elim (readPlan w.plans planId) .error), w)
    | .updatePlan entry =>
      (.ok (d.fault.elim (settlePlan w.plans entry).1 .error),
        if d.fault.isNone || d.landed then { w with plans := (settlePlan w.plans entry).2 } else w)
    | .getApproval id => (.ok (d.fault.elim (readApproval w.approvals id) .error), w)
    | .createApproval card =>
      (.ok (d.fault.elim (insertApproval w.approvals card).1 .error),
        if d.fault.isNone || d.landed then { w with approvals := (insertApproval w.approvals card).2 } else w)
    | .now => (.ok d.clock, w)

structure CopilotKnowledgeProposeReceipt where
  approvalRef : JsString
  planRef : JsString
  created : Bool
  deriving DecidableEq

structure KnowledgeProposeSinkDeps where
  actor : JsString
  expiryMs : Nat
  /-- The instant that many milliseconds after an instant. -/
  expiresAt : JsString → Nat → JsString

def dbErrorToKnowledgeFailure (e : DbError) : FailureVariant :=
  match e.code with
  | .conflict => failure .write_conflict (str "copilot knowledge propose: store conflict") (some (str "COPILOT_PROPOSE_KNOWLEDGE_STORE_CONFLICT")) false
  | .not_found =>
    failure .validation_rejected (str "copilot knowledge propose: store row not found") (some (str "COPILOT_PROPOSE_KNOWLEDGE_STORE_NOT_FOUND")) false
  | .constraint_violation =>
    failure .write_conflict (str "copilot knowledge propose: store rejected") (some (str "COPILOT_PROPOSE_KNOWLEDGE_STORE_CONSTRAINT")) false
  | .serialization_failure =>
    failure .degraded_unavailable (str "copilot knowledge propose: store retryable") (some (str "COPILOT_PROPOSE_KNOWLEDGE_STORE_SERIALIZATION")) true
  | .unavailable =>
    failure .degraded_unavailable (str "copilot knowledge propose: store unavailable") (some (str "COPILOT_PROPOSE_KNOWLEDGE_STORE_UNAVAILABLE")) true
  | _ => failure .degraded_unavailable (str "copilot knowledge propose: store error") (some (str "COPILOT_PROPOSE_KNOWLEDGE_STORE_UNKNOWN")) false

def PLAN_CONFLICT : JsString := str "COPILOT_PROPOSE_KNOWLEDGE_PLAN_CONFLICT"

def planConflict : FailureVariant :=
  failure .write_conflict (str "copilot knowledge propose: a different plan is already pending for this note") (some PLAN_CONFLICT) false

/-- A card under this id is for the same plan, or for a different one. -/
def reconcileApproval (existing : Approval) (hash planRef : JsString) : Except FailureVariant CopilotKnowledgeProposeReceipt :=
  if existing.payloadHash = hash then .ok ⟨existing.id, planRef, false⟩ else .error planConflict

section sink

variable (tables : CaseTables) (sha256 : Sha256) (deps : KnowledgeProposeSinkDeps)

/-- The one id of the card of a plan in a workspace. -/
def knowledgeApprovalId (planId workspaceId : JsString) : JsString :=
  buildIdempotencyKey tables sha256 (str "approval.pending.knowledge") [(str "planRef", planId), (str "workspace", workspaceId)]

def knowledgeCard (plan : KnowledgeMutationPlan) (workspaceId hash now : JsString) : Approval where
  id := knowledgeApprovalId tables sha256 plan.planId workspaceId
  actionRef := none
  planRef := some plan.planId
  subjectKind := .semantic_mutation
  workspaceId := workspaceId
  status := .pending
  actor := deps.actor
  channel := .mac
  payloadHash := hash
  snoozeUntil := none
  expiresAt := some (deps.expiresAt now deps.expiryMs)

/-- The part of `record` behind the stored plan: the card of the plan, if it has none. -/
def cardOfPlan (plan : KnowledgeMutationPlan) (workspaceId hash : JsString) : KnowledgeM (Except FailureVariant CopilotKnowledgeProposeReceipt) := do
  let id := knowledgeApprovalId tables sha256 plan.planId workspaceId
  match ← .perform (KnowledgeOp.getApproval id) with
  | .ok existing => return reconcileApproval existing hash plan.planId
  | .error _ =>
    let now ← .perform KnowledgeOp.now
    match ← .perform (KnowledgeOp.createApproval (knowledgeCard tables sha256 deps plan workspaceId hash now)) with
    | .ok _ => return .ok ⟨id, plan.planId, true⟩
    | .error e =>
      if e.code = .conflict then
        match ← .perform (KnowledgeOp.getApproval id) with
        | .ok racer => return reconcileApproval racer hash plan.planId
        | .error _ => return .error (dbErrorToKnowledgeFailure e)
      else return .error (dbErrorToKnowledgeFailure e)

/-- Record the plan before its card; a plan that was recorded before is adopted only if it is the same. -/
def recordThenCard (plan : KnowledgeMutationPlan) (workspaceId : JsString) : KnowledgeM (Except FailureVariant CopilotKnowledgeProposeReceipt) := do
  let hash := payloadHash sha256 plan.data
  let now ← .perform KnowledgeOp.now
  match ← .perform (KnowledgeOp.recordPlan ⟨plan.planId, workspaceId, plan.data, hash, str "pending", now, none⟩) with
  | .ok _ => cardOfPlan tables sha256 deps plan workspaceId hash
  | .error e =>
    if e.code = .conflict then
      match ← .perform (KnowledgeOp.getPlan plan.planId) with
      | .error e => return .error (dbErrorToKnowledgeFailure e)
      | .ok existing =>
        if existing.payloadHash = hash then cardOfPlan tables sha256 deps plan workspaceId hash
        else return .error planConflict
    else return .error (dbErrorToKnowledgeFailure e)

/-- `record` of the sink that `createApprovalsKnowledgeProposeSink` makes. -/
def recordKnowledge (plan : KnowledgeMutationPlan) (workspaceId : JsString) : KnowledgeM (Except FailureVariant CopilotKnowledgeProposeReceipt) := do
  match ← .perform (KnowledgeOp.getWorkspace workspaceId) with
  | .error _ =>
    return .error (failure .validation_rejected (str "copilot knowledge propose: unknown workspace")
      (some (str "COPILOT_PROPOSE_KNOWLEDGE_UNKNOWN_WORKSPACE")) false)
  | .ok _ =>
    if plan.workspaceId ≠ workspaceId then
      return .error (failure .validation_rejected (str "copilot knowledge propose: plan/workspace mismatch")
        (some (str "COPILOT_PROPOSE_KNOWLEDGE_WORKSPACE_MISMATCH")) false)
    else recordThenCard tables sha256 deps plan workspaceId

end sink

end sow.copilot
