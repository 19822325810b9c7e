import Sow.Js.Case
import Sow.Js.Path
import Sow.Knowledge.KnowledgeWriter.Writer

open sow.js sow.markdown_vault

namespace sow.knowledge_writer

def SOURCE_NOTE_SUBTREE : JsString := str "sources"

def STRUCTURAL_INDEX_PATH : JsString := str "index.md"

def STRUCTURAL_LOG_POINTER_PATH : JsString := str "log.md"

def STRUCTURAL_LOGS_DIR : JsString := str "Logs"

/-- No segment is empty, a dot or two dots. -/
def hasNoTraversalSegments (path : Path) : Bool :=
  (split (unit '/') path).all fun s => s ≠ str ".." && s ≠ str "." && s ≠ []

/-- A surface of the writer itself, in any case of its letters. -/
def isStructuralSurface (tables : CaseTables) (path : Path) : Bool :=
  let lower := tables.toLowerCase path
  if lower = tables.toLowerCase STRUCTURAL_INDEX_PATH then true
  else if lower = tables.toLowerCase STRUCTURAL_LOG_POINTER_PATH then true
  else startsWith lower (tables.toLowerCase STRUCTURAL_LOGS_DIR ++ str "/")

/-- The code points that count as no content, besides blanks. -/
def ZERO_WIDTH_FORMAT_CHARS : List UInt16 := [0x200B, 0x200C, 0x2060, 0x180E]

def isBlankExemptId (raw : JsString) : Bool := trim (raw.filter fun c => c ∉ ZERO_WIDTH_FORMAT_CHARS) = []

/-- The path guard, for the one workspace that is exempt; it is not built for a blank id. -/
def makeEnforceWorkspacePathScope (tables : CaseTables) (exemptWorkspaceId : JsString) : Option WorkspacePathCheck :=
  if isBlankExemptId exemptWorkspaceId then none
  else some fun path plan =>
    if path.length = 0 then .error path
    else if !hasNoTraversalSegments path then .error path
    else if isStructuralSurface tables path then .ok ()
    else if plan.workspaceId.length = 0 then .error path
    else if plan.workspaceId = exemptWorkspaceId then .ok ()
    else
      let segments := split (unit '/') path
      if segments[0]? = some plan.workspaceId then .ok ()
      else if segments[0]? = some SOURCE_NOTE_SUBTREE ∧ segments[1]? = some plan.workspaceId then .ok ()
      else .error path

section spec

variable {tables : CaseTables} {exempt : JsString} {check : WorkspacePathCheck} {path : Path} {plan : KnowledgeMutationPlan}

theorem workspaceId_ne_nil (plan : KnowledgeMutationPlan) : plan.workspaceId ≠ [] := by
  intro hnil
  have hslug := plan.workspaceId_slug
  rw [hnil] at hslug
  revert hslug
  decide

/-- The paths that the guard admits. -/
theorem workspacePathScope_ok_iff (hcheck : makeEnforceWorkspacePathScope tables exempt = some check) :
    check path plan = .ok () ↔ hasNoTraversalSegments path = true ∧
      (isStructuralSurface tables path = true ∨ plan.workspaceId = exempt ∨
        (split (unit '/') path)[0]? = some plan.workspaceId ∨
        (split (unit '/') path)[0]? = some SOURCE_NOTE_SUBTREE ∧ (split (unit '/') path)[1]? = some plan.workspaceId) := by
  unfold makeEnforceWorkspacePathScope at hcheck
  split at hcheck
  · cases hcheck
  · obtain rfl := Option.some.inj hcheck
    have hworkspace : ¬ plan.workspaceId.length = 0 := fun h => workspaceId_ne_nil plan (List.length_eq_zero_iff.mp h)
    by_cases hempty : path.length = 0
    · rw [List.length_eq_zero_iff.mp hempty]
      simp [hasNoTraversalSegments, split]
    · dsimp only
      rw [if_neg hempty, if_neg hworkspace]
      cases htraversal : hasNoTraversalSegments path with
      | false => simp
      | true =>
        simp only [Bool.not_true, Bool.false_eq_true, if_false, true_and]
        split
        · next h => simp [h]
        · next hcontent =>
          rw [Bool.not_eq_true] at hcontent
          simp only [hcontent, Bool.false_eq_true, false_or]
          split
          · next h => simp [h]
          · next hexempt =>
            simp only [hexempt, false_or]
            split
            · next h => simp [h]
            · next hfirst =>
              simp only [hfirst, false_or]
              split
              · next h => simp [h]
              · next h => simp [h]

end spec

end sow.knowledge_writer
