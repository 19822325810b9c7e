import Sow.Knowledge.KnowledgeWriter.Writer
import Sow.Knowledge.MarkdownVault.Atomicity

open sow.js sow.effect sow.markdown_vault

namespace sow.knowledge_writer

/-- The state behind the writer's ports. -/
structure World where
  files : Files
  revisions : Map JsString CommittedRevision
  audit : List AuditRecord

/-- What the environment decides at one call: whether the port throws, whether a
    record lands, what the clock reads, and how the signing key resolves. -/
structure KwChoice where
  outcome : Choice
  landed : Bool
  clock : JsString
  key : Except SecretUnresolved SigningKey

/-- The answer of a port that throws on a fault. -/
def answer {α : Type} (outcome : Choice) (a : α) : Except Cause α :=
  match outcome with
  | .proceed => .ok a
  | .fault cause _ => .error cause

/-- The ports of the writer over a world. -/
def kwPorts (listing : Listing) : Handler KwOp KwOp.Ret Cause World KwChoice where
  exec w op d := match op with
    | .vault op =>
      let r := (vaultFs listing).exec w.files op d.outcome
      (r.1, { w with files := r.2 })
    | .secrets (.resolveSigningKey _) => (answer d.outcome d.key, w)
    | .getByIdempotencyKey key => (answer d.outcome (w.revisions.get key), w)
    | .record revision =>
      (answer d.outcome (), if d.landed then { w with revisions := w.revisions.set revision.idempotencyKey revision } else w)
    | .append record => (answer d.outcome (), if d.landed then { w with audit := w.audit ++ [record] } else w)
    | .now => (answer d.outcome d.clock, w)

/-- The environment lets restoring writes and removals of live files succeed. -/
def KwRestoring (op : KwOp) (d : KwChoice) : Prop :=
  match op with
  | .vault op => Restoring op d.outcome
  | _ => True

section

variable {listing : Listing} {α : Type}

theorem liftVault_wp {adm : KwOp → KwChoice → Prop} {vadm : VaultOp → Choice → Prop} {p : VaultM α}
    {Q : Except Cause α → World → Prop} {w : World} (hadm : ∀ op d, adm (.vault op) d → vadm op d.outcome)
    (hp : wp (vaultFs listing) vadm p (fun r fs => Q r { w with files := fs }) w.files) :
    wp (kwPorts listing) adm (liftVault p) Q w := by
  refine wp_lift World.files (fun w fs => { w with files := fs }) KwChoice.outcome
    hadm (fun w op d => ?_) (fun _ _ _ => rfl) (fun _ _ => rfl) (fun _ _ _ => rfl) (fun _ => rfl) hp
  change Except.map id _ = _
  exact Except.map_id ▸ rfl

/-- Resolving keys changes nothing. -/
theorem liftSecrets_wp {adm : KwOp → KwChoice → Prop} {p : SecretsM α} {Q : Except Cause α → World → Prop} {w : World}
    (hp : ∀ r, Q r w) : wp (kwPorts listing) adm (liftSecrets p) Q w := by
  induction p with
  | pure a => exact hp _
  | throw e => exact hp _
  | call op k ih =>
    obtain ⟨ref⟩ := op
    exact fun d _ => ih _

end

end sow.knowledge_writer
