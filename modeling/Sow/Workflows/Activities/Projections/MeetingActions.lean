import Sow.Contracts.Models
import Sow.Domain.Keys
import Sow.Js.Number
import Sow.Workflows.Activities.Projections.MeetingOutputs

open sow.js sow.contracts sow.domain
open sow.knowledge_writer (Sha256)

namespace sow.workflows

/-- An external action as a projection describes it: its identities, and not yet its keys. -/
structure DerivedActionDescriptor where
  targetSystem : TargetSystem
  canonicalIdentity : Identity
  operation : JsString
  idempotencyIdentity : Identity
  payload : Json
  approvalPolicy : JsString
  payloadHash : JsString
  preconditions : List JsString

structure MeetingExternalActionInput where
  action : ProposedAction Json
  envelope : ExternalWriteEnvelope

def actionTitleKey (index : Nat) : JsString := str "actionItems." ++ decimal index ++ str ".title"

def actionOwnerKey (index : Nat) : JsString := str "actionItems." ++ decimal index ++ str ".owner"

/-- The text of a field that is stated and not blank. -/
def concreteString (field : Option ExtractionField) : Option JsString :=
  if !isConcrete field then none
  else match field.map ExtractionField.value with
    | some (.str value) => if trim value = [] then none else some value
    | _ => none

/-- The action of one item, if the item has a title and an owner. -/
def deriveAction (fields : ExtractionFields) (workspaceId : JsString) (index : Nat) : Option DerivedActionDescriptor := do
  let itemTitle ← concreteString (fields.get (actionTitleKey index))
  let itemOwner ← concreteString (fields.get (actionOwnerKey index))
  return {
    targetSystem := .todoist
    canonicalIdentity := [(str "workspace", workspaceId), (str "title", itemTitle)]
    operation := str "todoist.create"
    idempotencyIdentity := [(str "workspace", workspaceId), (str "title", itemTitle), (str "owner", itemOwner)]
    payload := .obj [(str "title", .str itemTitle), (str "owner", .str itemOwner)]
    approvalPolicy := str "auto"
    payloadHash := str "payload:todoist.create:" ++ workspaceId ++ str ":" ++ itemTitle ++ str ":" ++ itemOwner
    preconditions := [str "not_exists"] }

/-- The keys of an action are derived from its identities; its digest is taken over as it is. -/
def externalAction (tables : CaseTables) (sha256 : Sha256) (d : DerivedActionDescriptor) : MeetingExternalActionInput :=
  let canonicalObjectKey := buildCanonicalObjectKey tables sha256 d.targetSystem.text d.canonicalIdentity
  let idempotencyKey := buildIdempotencyKey tables sha256 d.operation d.idempotencyIdentity
  { action := ⟨idempotencyKey, d.targetSystem, canonicalObjectKey, d.payload, d.approvalPolicy, idempotencyKey⟩
    envelope := ⟨idempotencyKey, d.targetSystem, canonicalObjectKey, idempotencyKey, d.preconditions, d.payloadHash⟩ }

/-- The digest of a meeting's action is no digest of its payload. -/
theorem payloadHash_of_deriveAction {fields : ExtractionFields} {workspaceId : JsString} {index : Nat} {d : DerivedActionDescriptor}
    (h : deriveAction fields workspaceId index = some d) : ∃ rest, d.payloadHash = str "payload:" ++ rest := by
  unfold deriveAction at h
  cases htitle : concreteString (fields.get (actionTitleKey index)) with
  | none =>
    rw [htitle] at h
    cases h
  | some itemTitle =>
    cases howner : concreteString (fields.get (actionOwnerKey index)) with
    | none =>
      rw [htitle, howner] at h
      cases h
    | some itemOwner =>
      rw [htitle, howner] at h
      obtain rfl := Option.some.inj h
      refine ⟨str "todoist.create:" ++ workspaceId ++ str ":" ++ itemTitle ++ str ":" ++ itemOwner, ?_⟩
      simp [str]

end sow.workflows
