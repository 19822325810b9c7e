import Sow.Js.Case
import Sow.Js.Json
import Sow.Js.String

open sow.js

namespace sow.copilot

/-- The tools that read. -/
def COPILOT_READ_TOOLS : List JsString :=
  [str "gbrain.search", str "gbrain.traverse_graph", str "gbrain.get_timeline", str "gbrain.find_contradictions",
    str "gbrain.find_anomalies", str "gbrain.find_orphans", str "gbrain.find_experts", str "gbrain.takes_list",
    str "gbrain.takes_search", str "gbrain.takes_scorecard", str "gbrain.takes_calibration", str "gbrain.code_def",
    str "gbrain.code_refs", str "gbrain.code_callers", str "gbrain.code_callees", str "gbrain.code_flow", str "gbrain.code_blast",
    str "gbrain.get_recent_salience", str "vault.read", str "skills.list", str "skills.get"]

/-- The tools that propose writes. -/
def COPILOT_PROPOSE_TOOLS : List JsString :=
  [str "copilot.propose_action", str "copilot.propose_knowledge", str "copilot.propose_linear_issue"]

/-- Each tool with whether it mutates. -/
def CATALOG : List (JsString × Bool) := COPILOT_READ_TOOLS.map (·, false) ++ COPILOT_PROPOSE_TOOLS.map (·, true)

/-- A tool that the catalog does not list counts as mutating. -/
def isMutatingCopilotTool (id : JsString) : Bool := (CATALOG.lookup id).getD true

inductive CopilotToolScopingClass where
  | arg_scopable
  | result_filterable
  | unscopable
  | workspace_agnostic
  deriving DecidableEq

def COPILOT_TOOL_SCOPING : List (JsString × CopilotToolScopingClass) :=
  [(str "gbrain.search", .result_filterable),
    (str "gbrain.traverse_graph", .result_filterable),
    (str "gbrain.find_contradictions", .result_filterable),
    (str "gbrain.get_timeline", .arg_scopable),
    (str "gbrain.get_recent_salience", .arg_scopable),
    (str "vault.read", .arg_scopable),
    (str "gbrain.find_experts", .unscopable),
    (str "gbrain.find_anomalies", .unscopable),
    (str "gbrain.find_orphans", .unscopable),
    (str "gbrain.takes_list", .unscopable),
    (str "gbrain.takes_search", .unscopable),
    (str "gbrain.takes_scorecard", .unscopable),
    (str "gbrain.takes_calibration", .unscopable),
    (str "gbrain.code_def", .unscopable),
    (str "gbrain.code_refs", .unscopable),
    (str "gbrain.code_callers", .unscopable),
    (str "gbrain.code_callees", .unscopable),
    (str "gbrain.code_flow", .unscopable),
    (str "gbrain.code_blast", .unscopable),
    (str "skills.list", .workspace_agnostic),
    (str "skills.get", .workspace_agnostic)]

/-- A tool without a class is not to be scoped. -/
def copilotToolScopingClass (id : JsString) : CopilotToolScopingClass := (COPILOT_TOOL_SCOPING.lookup id).getD .unscopable

def GBRAIN_MCP_PREFIX : JsString := str "mcp__gbrain__"

/-- A read operation of the store, with the catalog's id of it. -/
structure GbrainReadTool where
  op : JsString
  id : JsString
  deriving DecidableEq

/-- The read tool that an MCP name is of. -/
def gbrainReadToolOf (mcpToolName : JsString) : Option GbrainReadTool :=
  ((stripLit GBRAIN_MCP_PREFIX mcpToolName).filter (0 < ·.length)).bind fun op =>
    let id := if op = str "query" then str "gbrain.search" else str "gbrain." ++ op
    if isMutatingCopilotTool id then none else some ⟨op, id⟩

theorem gbrainReadToolOf_id {name : JsString} {tool : GbrainReadTool} (h : gbrainReadToolOf name = some tool) :
    tool.id = if tool.op = str "query" then str "gbrain.search" else str "gbrain." ++ tool.op := by
  unfold gbrainReadToolOf at h
  obtain ⟨op, -, hop⟩ := Option.bind_eq_some_iff.mp h
  simp only [Option.ite_none_left_eq_some, Option.some.injEq] at hop
  obtain ⟨-, rfl⟩ := hop
  rfl

/-- How the content of a workspace is told apart in the one brain. -/
structure WorkspaceScopeDescriptor where
  workspaceId : JsString
  slugPrefixes : List JsString
  sourceId : Option JsString
  deriving DecidableEq

inductive AttributionCause where
  | SLUG_EMPTY
  | SLUG_MALFORMED
  | SLUG_AMBIGUOUS
  | SOURCE_AMBIGUOUS
  deriving DecidableEq

inductive AttributionVia where
  | sourceId
  | slugPrefix
  deriving DecidableEq

inductive WorkspaceAttribution where
  | workspace (workspaceId : JsString) (via : AttributionVia)
  | legacy
  | indeterminate (cause : AttributionCause)
  deriving DecidableEq

structure ScopeHit where
  slug : JsString
  sourceId : Option JsString
  deriving DecidableEq

inductive LegacyContentPolicy where
  | deny
  | assign (toWorkspaceId : JsString)
  deriving DecidableEq

inductive HitDropReason where
  | FOREIGN_WORKSPACE
  | LEGACY_DENIED
  | LEGACY_NOT_SERVED
  | SLUG_INDETERMINATE
  deriving DecidableEq

inductive HitScopeDecision where
  | keep
  | drop (reason : HitDropReason)
  deriving DecidableEq

/-- The served workspace, and what attribution goes by. -/
structure CopilotWorkspaceScope where
  servedWorkspaceId : JsString
  registry : List WorkspaceScopeDescriptor
  policy : LegacyContentPolicy
  brainPartitioned : Option Bool
  deriving DecidableEq

def isControl (c : UInt16) : Bool := c.toNat ≤ 0x1f || c.toNat = 0x7f

/-- Why a slug is not to be attributed. -/
def slugFault (slug : JsString) : Option AttributionCause :=
  if trim slug = [] then some .SLUG_EMPTY
  else if slug ≠ trim slug || startsWith slug (str "/") || includes slug (str "//") || includes slug (str "\\") then some .SLUG_MALFORMED
  else if slug.any isControl then some .SLUG_MALFORMED
  else if (split (unit '/') slug).any fun seg => seg = str "." || seg = str ".." || seg ≠ trim seg then some .SLUG_MALFORMED
  else none

def segmentsOf (s : JsString) : List JsString := (split (unit '/') s).filter (0 < ·.length)

/-- How many segments a prefix matches, from the start of a slug; 0 where it does not. -/
def prefixMatchLen (slugSegs prefixSegs : List JsString) : Nat :=
  if prefixSegs.isPrefixOf slugSegs then prefixSegs.length else 0

/-- The longest match of a descriptor's prefixes. -/
def longestMatch (slugSegs : List JsString) (d : WorkspaceScopeDescriptor) : Nat :=
  d.slugPrefixes.foldl (fun best p => max best (prefixMatchLen slugSegs (segmentsOf p))) 0

/-- The best match so far, its workspace, and whether another workspace ties with it. -/
structure BestMatch where
  len : Nat
  workspace : Option JsString
  tied : Bool

def BestMatch.next (slugSegs : List JsString) (best : BestMatch) (d : WorkspaceScopeDescriptor) : BestMatch :=
  let len := longestMatch slugSegs d
  if len = 0 then best
  else if best.len < len then ⟨len, some d.workspaceId, false⟩
  else if len = best.len ∧ some d.workspaceId ≠ best.workspace then { best with tied := true }
  else best

/-- Attribute a slug by its longest registered prefix. -/
def attributeSlug (slug : JsString) (registry : List WorkspaceScopeDescriptor) : WorkspaceAttribution :=
  match slugFault slug with
  | some fault => .indeterminate fault
  | none =>
    let best := registry.foldl (BestMatch.next (segmentsOf slug)) ⟨0, none, false⟩
    match best.workspace with
    | none => .legacy
    | some workspaceId => if best.tied then .indeterminate .SLUG_AMBIGUOUS else .workspace workspaceId .slugPrefix

/-- The workspace of the last descriptor with a source, and whether one before it names another. -/
def matchSource (src : JsString) (registry : List WorkspaceScopeDescriptor) : Option JsString × Bool :=
  registry.foldl (fun (found, ambiguous) d =>
    if d.sourceId = some src then (some d.workspaceId, ambiguous || (found.isSome && found ≠ some d.workspaceId))
    else (found, ambiguous)) (none, false)

/-- Attribute a hit by its source where a descriptor has it, else by its slug. -/
def attributeHit (hit : ScopeHit) (registry : List WorkspaceScopeDescriptor) : WorkspaceAttribution :=
  match hit.sourceId.filter (0 < ·.length) with
  | none => attributeSlug hit.slug registry
  | some src =>
    match matchSource src registry with
    | (_, true) => .indeterminate .SOURCE_AMBIGUOUS
    | (some workspaceId, false) => .workspace workspaceId .sourceId
    | (none, false) => attributeSlug hit.slug registry

def decideHitScope (hit : ScopeHit) (servedWorkspaceId : JsString) (registry : List WorkspaceScopeDescriptor)
    (policy : LegacyContentPolicy) : HitScopeDecision :=
  match attributeHit hit registry with
  | .indeterminate _ => .drop .SLUG_INDETERMINATE
  | .workspace workspaceId _ => if workspaceId = servedWorkspaceId then .keep else .drop .FOREIGN_WORKSPACE
  | .legacy =>
    match policy with
    | .deny => .drop .LEGACY_DENIED
    | .assign toWorkspaceId => if toWorkspaceId = servedWorkspaceId then .keep else .drop .LEGACY_NOT_SERVED

def descriptorFor (registry : List WorkspaceScopeDescriptor) (ws : JsString) : Option WorkspaceScopeDescriptor :=
  registry.find? (·.workspaceId = ws)

/-- The one slug prefix of the served workspace. -/
def singleSlugPrefixOf (scope : CopilotWorkspaceScope) : Option JsString :=
  (descriptorFor scope.registry scope.servedWorkspaceId).bind fun d =>
    match d.slugPrefixes with
    | [p] => some p
    | _ => none

/-- A hit of the served workspace. -/
def CopilotWorkspaceScope.keeps (scope : CopilotWorkspaceScope) (hit : ScopeHit) : Bool :=
  decideHitScope hit scope.servedWorkspaceId scope.registry scope.policy = .keep

/-- A slug that is empty is kept for no workspace, unless a source says whose it is. -/
theorem CopilotWorkspaceScope.keeps_empty (scope : CopilotWorkspaceScope) : scope.keeps ⟨[], none⟩ = false := by
  unfold CopilotWorkspaceScope.keeps decideHitScope attributeHit attributeSlug slugFault
  simp [trim]

inductive ArgPolicyCause where
  | SCOPE_WIDENING_DENIED
  | FOREIGN_SEED_DENIED
  | UNSCOPABLE_TOOL_DENIED
  | UNKNOWN_TOOL_DENIED
  | MALFORMED_ARGS_DENIED
  deriving DecidableEq

inductive ArgPolicyResult where
  | allow (updatedInput : Map JsString Json)
  | deny (cause : ArgPolicyCause)

section

variable (tables : CaseTables)

/-- A flag that is set, in any of its spellings; a number is in the text that the runtime gives it. -/
def isTruthy : Option Json → Bool
  | some (.bool b) => b
  | some (.num text) => text = str "1"
  | some (.str s) =>
    let s := tables.toLowerCase (trim s)
    s = str "true" || s = str "1" || s = str "yes" || s = str "on"
  | _ => false

/-- A source of every workspace, or no source at all. -/
def widensSource : Option Json → Bool
  | none => false
  | some (.str s) => tables.toLowerCase (trim s) = str "__all__"
  | some _ => true

/-- The slug that a read starts from. -/
def seedSlug (args : Map JsString Json) : JsString :=
  match args.get (str "slug") with
  | some (.str s) => s
  | _ => []

/-- The source of the served workspace. -/
def servedSource (scope : CopilotWorkspaceScope) : Option JsString :=
  (descriptorFor scope.registry scope.servedWorkspaceId).bind (·.sourceId)

/-- The arguments of a tool whose source is the served one or none. -/
def pinSource (scope : CopilotWorkspaceScope) (args : Map JsString Json) : Map JsString Json :=
  match servedSource scope with
  | some source => args.set (str "source_id") (.str source)
  | none => args.delete (str "source_id")

/-- What each operation makes of its arguments. -/
def scopeArgs (op : JsString) (args : Map JsString Json) (scope : CopilotWorkspaceScope) : ArgPolicyResult :=
  if op = str "traverse_graph" ∨ op = str "get_timeline" then
    if scope.keeps ⟨seedSlug args, none⟩ then .allow args else .deny .FOREIGN_SEED_DENIED
  else if op = str "get_recent_salience" then
    match singleSlugPrefixOf scope with
    | some p => .allow (args.set (str "slugPrefix") (.str p))
    | none => .allow args
  else
    let args := pinSource scope args
    if op = str "find_contradictions" ∧ args.get (str "slug") = none then
      match singleSlugPrefixOf scope with
      | some p => .allow (args.set (str "slug") (.str p))
      | none => .allow args
    else .allow args

/-- Police the arguments that the model supplies; `none` for a name that is no text. -/
def policeGbrainToolArgs (mcpToolName : Option JsString) (input : Json) (scope : CopilotWorkspaceScope) : ArgPolicyResult :=
  match mcpToolName.bind gbrainReadToolOf with
  | none => .deny .UNKNOWN_TOOL_DENIED
  | some tool =>
    match input with
    | .obj fields =>
      if copilotToolScopingClass tool.id = .unscopable ∧ scope.brainPartitioned ≠ some true then .deny .UNSCOPABLE_TOOL_DENIED
      else
        let args : Map JsString Json := .ofList fields
        if isTruthy tables (args.get (str "all_sources")) then .deny .SCOPE_WIDENING_DENIED
        else
          let args := args.delete (str "all_sources")
          if widensSource tables (args.get (str "source_id")) then .deny .SCOPE_WIDENING_DENIED
          else scopeArgs tool.op args scope
    | _ => .deny .MALFORMED_ARGS_DENIED

end

inductive RedactionCause where
  | UNKNOWN_TOOL
  | UNSCOPABLE_TOOL
  | MALFORMED_ENVELOPE
  | UNPARSEABLE_JSON
  | MALFORMED_PAYLOAD
  deriving DecidableEq

/-- The envelope that is forwarded: its one text is the JSON of its payload. -/
structure McpToolResultEnvelope where
  payload : Option Json

def McpToolResultEnvelope.content (envelope : McpToolResultEnvelope) : List JsString := envelope.payload.toList.map Json.stringify

structure RedactedToolResult where
  output : McpToolResultEnvelope
  dropped : Nat
  failClosed : Bool
  cause : Option RedactionCause

def EMPTY_ENVELOPE : McpToolResultEnvelope := ⟨none⟩

def failClosed (cause : RedactionCause) : RedactedToolResult := ⟨EMPTY_ENVELOPE, 0, true, some cause⟩

def envelopeOf (payload : Json) : McpToolResultEnvelope := ⟨some payload⟩

/-- The fields of an object, none of another value. -/
def fieldsOf : Json → List (JsString × Json)
  | .obj fields => fields
  | _ => []

/-- The value of a field, `none` where the value has no such field. -/
def field (v : Json) (key : JsString) : Option Json := (fieldsOf v).lookup key

/-- The text of a field that is a text. -/
def stringField (v : Json) (key : JsString) : Option JsString :=
  match field v key with
  | some (.str s) => some s
  | _ => none

def isRecord : Json → Bool
  | .obj _ => true
  | _ => false

/-- The text of the first text item. -/
def extractPayloadText (result : Json) : Option JsString :=
  match field result (str "content") with
  | some (.arr items) =>
    (items.find? fun item => stringField item (str "type") = some (str "text") ∧ (stringField item (str "text")).isSome).bind (stringField · (str "text"))
  | _ => none

def keepHit (o : Json) (scope : CopilotWorkspaceScope) : Bool :=
  scope.keeps ⟨(stringField o (str "slug")).getD [], stringField o (str "source_id")⟩

def keepSlug (slug : JsString) (scope : CopilotWorkspaceScope) : Bool := scope.keeps ⟨slug, none⟩

/-- The slug of a side: a bare text, or an object's. -/
def sideSlug : Option Json → JsString
  | some (.str s) => s
  | some side => (stringField side (str "slug")).getD []
  | none => []

def HIT_KEEP_STRINGS : List JsString := [str "slug", str "title", str "chunk_text", str "summary", str "content", str "text"]
def EDGE_KEEP_STRINGS : List JsString := []
def TIMELINE_KEEP_STRINGS : List JsString := [str "date", str "summary", str "detail", str "source", str "title"]

/-- A number, a boolean, or a text under one of the item's own keys. -/
def allowsField (keepStrings : List JsString) (f : JsString × Json) : Bool :=
  match f.2 with
  | .num _ | .bool _ => true
  | .str _ => f.1 ∈ keepStrings
  | _ => false

/-- The fields of an item that are its own content. An assignment to `__proto__` makes no field. -/
def allowItemFields (item : Json) (keepStrings : List JsString) : Map JsString Json :=
  .ofList ((fieldsOf item).filter fun f => allowsField keepStrings f && f.1 ≠ str "__proto__")

/-- The items that are kept, each as it is forwarded. -/
def redactHitCollection (parsed : Json) (scope : CopilotWorkspaceScope) : RedactedToolResult :=
  match parsed with
  | .arr hits =>
    let kept := hits.filter (keepHit · scope)
    ⟨envelopeOf (.arr (kept.map fun h => .obj (allowItemFields h HIT_KEEP_STRINGS).entries)), hits.length - kept.length, false, none⟩
  | _ => failClosed .MALFORMED_PAYLOAD

def edgeTarget (lnk : Json) : JsString :=
  match stringField lnk (str "to") with
  | some slug => slug
  | none => (stringField lnk (str "target")).getD []

/-- An edge with its target under one key, and its scalars. -/
def redactEdge (lnk : Json) : Json := .obj ((allowItemFields lnk EDGE_KEEP_STRINGS).set (str "to") (.str (edgeTarget lnk))).entries

/-- A node of its own content, with the edges to kept nodes. -/
def redactNodeLinks (node : Json) (scope : CopilotWorkspaceScope) : Json :=
  let scrubbedNode := allowItemFields node HIT_KEEP_STRINGS
  match field node (str "links") with
  | none => .obj scrubbedNode.entries
  | some (.arr links) =>
    .obj (scrubbedNode.set (str "links") (.arr ((links.filter fun lnk => keepSlug (edgeTarget lnk) scope).map redactEdge))).entries
  | some _ => .obj (scrubbedNode.set (str "links") (.arr [])).entries

def redactTraverseGraph (parsed : Json) (scope : CopilotWorkspaceScope) : RedactedToolResult :=
  match parsed with
  | .arr nodes =>
    let kept := nodes.filter (keepHit · scope)
    ⟨envelopeOf (.arr (kept.map (redactNodeLinks · scope))), nodes.length - kept.length, false, none⟩
  | _ => failClosed .MALFORMED_PAYLOAD

/-- The fields of a finding that are forwarded as they are. -/
def FINDING_KEYS : List JsString := [str "severity", str "axis", str "confidence"]

/-- The two slugs of a pair and what was found, whatever value that has. -/
def a4Strip (pair : Json) : Json :=
  .obj ([(str "a", .str (sideSlug (field pair (str "a")))), (str "b", .str (sideSlug (field pair (str "b"))))] ++
    FINDING_KEYS.filterMap fun k => (field pair k).map (k, ·))

/-- Both sides of the pair are of the served workspace. -/
def keepPair (pair : Json) (scope : CopilotWorkspaceScope) : Bool :=
  isRecord pair && keepSlug (sideSlug (field pair (str "a"))) scope && keepSlug (sideSlug (field pair (str "b"))) scope

def redactContradictions (parsed : Json) (scope : CopilotWorkspaceScope) : RedactedToolResult :=
  match field parsed (str "contradictions") with
  | some (.arr pairs) =>
    let kept := pairs.filter (keepPair · scope)
    ⟨envelopeOf (.obj [(str "contradictions", .arr (kept.map a4Strip))]), pairs.length - kept.length, false, none⟩
  | _ => failClosed .MALFORMED_PAYLOAD

/-- The entries of a page; they have no slug to attribute them by. -/
def redactTimeline (parsed : Json) : RedactedToolResult :=
  match parsed with
  | .arr entries =>
    let records := entries.filter isRecord
    ⟨envelopeOf (.arr (records.map fun e => .obj (allowItemFields e TIMELINE_KEEP_STRINGS).entries)), entries.length - records.length, false, none⟩
  | _ => failClosed .MALFORMED_PAYLOAD

/-- Redact what a tool returned; `none` for a name that is no text. -/
def redactGbrainToolResult (mcpToolName : Option JsString) (result : Json) (scope : CopilotWorkspaceScope) : RedactedToolResult :=
  match mcpToolName.bind gbrainReadToolOf with
  | none => failClosed .UNKNOWN_TOOL
  | some tool =>
    if copilotToolScopingClass tool.id = .unscopable ∧ scope.brainPartitioned ≠ some true then failClosed .UNSCOPABLE_TOOL
    else
      match extractPayloadText result with
      | none => failClosed .MALFORMED_ENVELOPE
      | some text =>
        match Json.parse text with
        | none => failClosed .UNPARSEABLE_JSON
        | some parsed =>
          if tool.op = str "traverse_graph" then redactTraverseGraph parsed scope
          else if tool.op = str "find_contradictions" then redactContradictions parsed scope
          else if tool.op = str "get_timeline" then redactTimeline parsed
          else redactHitCollection parsed scope

end sow.copilot
