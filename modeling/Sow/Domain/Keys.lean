import Sow.Js.Case
import Sow.Js.Json
import Sow.Js.Sort
import Sow.Knowledge.KnowledgeWriter.Revision

open sow.js
open sow.knowledge_writer (Sha256)

namespace sow.domain

def CANONICAL_KEY_VERSION : JsString := str "sow.cok.v1"

def IDEMPOTENCY_KEY_VERSION : JsString := str "sow.idem.v1"

/-- The fields that identify an object or an operation, with their values. -/
abbrev Identity := List (JsString × JsString)

/-- The order of `(name, value)` by code units. -/
def LeEntry (a b : JsString × JsString) : Prop := if a.1 = b.1 then LeUnits a.2 b.2 else LeUnits a.1 b.1

instance : DecidableRel LeEntry := fun a b =>
  inferInstanceAs (Decidable (if a.1 = b.1 then LeUnits a.2 b.2 else LeUnits a.1 b.1))

section keys

variable (tables : CaseTables) (sha256 : Sha256)

def normalizeIdentity (identity : Identity) : Identity :=
  (identity.map fun e => (tables.toLowerCase (trim e.1), trim e.2)).insertionSort LeEntry

/-- The entries as an array of pairs. -/
def entriesJson (entries : Identity) : Json := .arr (entries.map fun e => .arr [.str e.1, .str e.2])

def buildCanonicalObjectKey (targetSystem : JsString) (identity : Identity) : JsString :=
  let preimage := Json.stringify (.arr [.str CANONICAL_KEY_VERSION, .str targetSystem, entriesJson (normalizeIdentity tables identity)])
  str "cok_" ++ targetSystem ++ str "_" ++ sha256.text preimage

def buildIdempotencyKey (operation : JsString) (identity : Identity) : JsString :=
  let preimage := Json.stringify
    (.arr [.str IDEMPOTENCY_KEY_VERSION, .str (tables.toLowerCase (trim operation)), entriesJson (normalizeIdentity tables identity)])
  str "idem_" ++ sha256.text preimage

/-- The one id of the pending external-action approval for a replay key in a workspace. -/
def approvalIdFor (idempotencyKey workspace : JsString) : JsString :=
  buildIdempotencyKey tables sha256 (str "approval.pending")
    [(str "idempotencyKey", idempotencyKey), (str "workspace", workspace)]

end keys

/-- The outbox id of the action saved for a card. -/
def approvalOutboxId (approval : JsString) : JsString := str "ob_" ++ approval

section ids

variable {tables : CaseTables} {sha256 : Sha256} {idempotencyKey workspace idempotencyKey' workspace' : JsString}

/-- What the id of a card is the digest of. -/
def approvalPreimage (idempotencyKey workspace : JsString) : JsString :=
  str "[\"sow.idem.v1\",\"approval.pending\",[[\"idempotencykey\"," ++
    (Json.quote (trim idempotencyKey) ++ (str "],[\"workspace\"," ++ (Json.quote (trim workspace) ++ str "]]]")))

theorem approvalIdFor_eq : approvalIdFor tables sha256 idempotencyKey workspace =
    str "idem_" ++ sha256.text (approvalPreimage idempotencyKey workspace) := by
  have hkey : tables.toLowerCase (trim (str "idempotencyKey")) = str "idempotencykey" := CaseTables.lowerFrom_ascii _ (by decide)
  have hworkspace : tables.toLowerCase (trim (str "workspace")) = str "workspace" := CaseTables.lowerFrom_ascii _ (by decide)
  have hoperation : tables.toLowerCase (trim (str "approval.pending")) = str "approval.pending" := CaseTables.lowerFrom_ascii _ (by decide)
  have hidentity : normalizeIdentity tables [(str "idempotencyKey", idempotencyKey), (str "workspace", workspace)] =
      [(str "idempotencykey", trim idempotencyKey), (str "workspace", trim workspace)] := by
    have hle : LeEntry (str "idempotencykey", trim idempotencyKey) (str "workspace", trim workspace) := by
      have hne : str "idempotencykey" ≠ str "workspace" := by decide
      have hnames : LeUnits (str "idempotencykey") (str "workspace") := by decide
      unfold LeEntry
      rw [if_neg hne]
      exact hnames
    unfold normalizeIdentity
    rw [List.map_cons, List.map_cons, List.map_nil, hkey, hworkspace, List.insertionSort_cons, List.insertionSort_cons,
      List.insertionSort_nil, List.orderedInsert_nil, List.orderedInsert_cons, if_pos hle]
  have htext : Json.stringify (.arr [.str IDEMPOTENCY_KEY_VERSION, .str (str "approval.pending"),
      entriesJson [(str "idempotencykey", trim idempotencyKey), (str "workspace", trim workspace)]]) =
        approvalPreimage idempotencyKey workspace := by
    have hversion : Json.quote IDEMPOTENCY_KEY_VERSION = str "\"sow.idem.v1\"" := by decide
    have hpending : Json.quote (str "approval.pending") = str "\"approval.pending\"" := by decide
    have hfirst : Json.quote (str "idempotencykey") = str "\"idempotencykey\"" := by decide
    have hsecond : Json.quote (str "workspace") = str "\"workspace\"" := by decide
    simp only [entriesJson, List.map_cons, List.map_nil, Json.stringify, Json.stringifyItems, hversion, hpending, hfirst, hsecond,
      approvalPreimage]
    simp [str]
  unfold approvalIdFor buildIdempotencyKey
  rw [hidentity, hoperation]
  dsimp only
  rw [htext]

/-- Cards of different replay keys or of different workspaces have different ids, up to the blanks around the two. -/
theorem approvalIdFor_inj (hsha : Function.Injective sha256)
    (h : approvalIdFor tables sha256 idempotencyKey workspace = approvalIdFor tables sha256 idempotencyKey' workspace') :
    trim idempotencyKey = trim idempotencyKey' ∧ trim workspace = trim workspace' := by
  have hwell : ∀ k ws : JsString, isWellFormed (approvalPreimage k ws) = true := by
    intro k ws
    unfold approvalPreimage
    refine isWellFormed_append (by decide) (isWellFormed_append (Json.isWellFormed_quote _) ?_)
    exact isWellFormed_append (by decide) (isWellFormed_append (Json.isWellFormed_quote _) (by decide))
  rw [approvalIdFor_eq, approvalIdFor_eq] at h
  have hpreimage := utf8_injective (hwell _ _) (hwell _ _) (hsha (List.append_cancel_left h))
  unfold approvalPreimage at hpreimage
  obtain ⟨hkey, hrest⟩ := Json.quote_append_inj (List.append_cancel_left hpreimage)
  exact ⟨hkey, (Json.quote_append_inj (List.append_cancel_left hrest)).1⟩

end ids

end sow.domain
