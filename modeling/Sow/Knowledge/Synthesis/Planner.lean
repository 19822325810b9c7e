import Sow.Knowledge.Synthesis.EntityResolver

open sow.js sow.markdown_vault
open sow.knowledge_writer (NoteCreate NotePatch LinkMutation SourceRef isWorkspaceSlug)

namespace sow.synthesis

inductive ProvenanceOrigin where
  | human
  | meeting_close
  | ingestion
  | gbrain_proposal
  | parity_remediation
  | project_capture
  | project_sync
  | copilot_propose
  deriving DecidableEq

/-- A value that a note's frontmatter is to have under a key. -/
structure FrontmatterPatch where
  path : Path
  key : JsString
  value : Value
  path_ne_nil : path ≠ []
  key_ne_nil : key ≠ []

structure Muts where
  creates : List NoteCreate
  patches : List NotePatch
  linkMutations : List LinkMutation
  frontmatterUpdates : List FrontmatterPatch

def Muts.count (m : Muts) : Nat := m.creates.length + m.patches.length + m.linkMutations.length + m.frontmatterUpdates.length

/-- The source of a plan is named, and so is its span. -/
def isSourceRef (ref : SourceRef) : Bool := trim ref.sourceId ≠ [] && ref.span ≠ some []

/-- A plan as the schema of plans returns it; no planner proposes actions or stamps. -/
structure KnowledgeMutationPlan where
  planId : JsString
  workspaceId : JsString
  sourceRefs : List SourceRef
  mutations : Muts
  confidence : Rat
  requiresApproval : Bool
  provenanceOrigin : ProvenanceOrigin
  planId_ne_blank : trim planId ≠ []
  workspaceId_slug : isWorkspaceSlug workspaceId = true
  sourceRefs_ne_nil : sourceRefs ≠ []
  sourceRefs_valid : sourceRefs.all isSourceRef = true
  confidence_unit : 0 ≤ confidence ∧ confidence ≤ 1

/-- A plan before it has passed its schema; its mutations and its confidence pass. -/
structure PlanInput where
  planId : JsString
  workspaceId : JsString
  sourceRefs : List SourceRef
  mutations : Muts
  confidence : { c : Rat // 0 ≤ c ∧ c ≤ 1 }
  requiresApproval : Bool
  provenanceOrigin : ProvenanceOrigin

def KnowledgeMutationPlanSchema.safeParse (p : PlanInput) : Option KnowledgeMutationPlan :=
  if h : trim p.planId ≠ [] ∧ isWorkspaceSlug p.workspaceId = true ∧ p.sourceRefs ≠ [] ∧ p.sourceRefs.all isSourceRef = true then
    some {
      planId := p.planId
      workspaceId := p.workspaceId
      sourceRefs := p.sourceRefs
      mutations := p.mutations
      confidence := p.confidence.1
      requiresApproval := p.requiresApproval
      provenanceOrigin := p.provenanceOrigin
      planId_ne_blank := h.1
      workspaceId_slug := h.2.1
      sourceRefs_ne_nil := h.2.2.1
      sourceRefs_valid := h.2.2.2
      confidence_unit := p.confidence.2 }
  else none

/-- The regions of a note, as one call finds them. -/
structure SynthesisSectionPort where
  describe : Path → Except Raised Value

/-- A confidence that is missing, or no finite number, is left out. -/
structure SynthesisInput where
  workspaceId : JsString
  provenanceOrigin : ProvenanceOrigin
  sourceRefs : List SourceRef
  confidence : Option Rat
  linkCandidates : Option (List Value)

/-- The plan that applies itself, and the one that is proposed. -/
inductive Tier where
  | auto
  | propose
  deriving DecidableEq

def Tier.requiresApproval : Tier → Bool
  | .auto => false
  | .propose => true

/-- The ports of a run. A port may answer each call differently: a region is described once, an entity
    is looked up once, and a tier takes one id. -/
structure SynthesisDeps where
  gbrain : Nat → EntityGbrainReadPort
  reason : SynthesisInput → Except Raised Value
  sections : Nat → SynthesisSectionPort
  newPlanId : Tier → Except Raised JsString

structure EntityCollectionStats where
  truncated : Nat
  rejected : Nat
  withheld : Map WithheldReason Nat

structure SynthesisOutcome where
  plans : List KnowledgeMutationPlan
  entityRefs : EntityCollectionStats

inductive SynthesisError where
  | unusable_input
  deriving DecidableEq

def USER_SENTINEL : JsString := str "@user"

def TBD : JsString := str "TBD"

/-- `/(?:owner|assignee|due|date)/i` -/
def isOwnerOrDate (key : JsString) : Bool :=
  [str "owner", str "assignee", str "due", str "date"].any fun word => includes (key.map lowerAscii) word

def MAX_MODEL_ENTITY_REFS : Nat := 200

def clamp01 (confidence : Option Rat) : { c : Rat // 0 ≤ c ∧ c ≤ 1 } :=
  ⟨min 1 (max 0 (confidence.getD 0)), le_min zero_le_one (le_max_left _ _), min_le_left _ _⟩

/-- A text that a region marker can carry, and that is not the region of the user. -/
def isSafeRegionId (id : JsString) : Bool := id ≠ USER_SENTINEL && id.all fun c => !isSpace c && c ≠ unit '>'

/-- The regions that the writer owns; a fault leaves none. -/
def safeDescribe (port : SynthesisSectionPort) (notePath : Path) : List JsString :=
  ((do (← port.describe notePath).getOptional (str "generatedRegionIds")).toOption.bind Value.items?).getD [] |>.filterMap Value.text?

/-- What a proposed region becomes. -/
inductive RegionEdit where
  | create (note : NoteCreate)
  | patch (patch : NotePatch)

theorem untitled_ne_nil : (none : Option JsString) ≠ some [] := (Option.some_ne_none []).symm

/-- The region of one element, if it is confined. -/
def collectRegion (port : SynthesisSectionPort) (r : Value) : Except Raised (Option RegionEdit) := do
  if r.isNullish then return none
  match (← r.get (str "notePath")).nonEmpty? with
  | none => pure none
  | some notePath =>
    match (← r.get (str "body")).text? with
    | none => pure none
    | some body =>
      match (← r.get (str "regionId")).nonEmpty? with
      | none => pure none
      | some regionId =>
        if !isSafeRegionId regionId.1 then return none
        let effect ← r.get (str "effect")
        if effect.text? = some (str "new_note") then
          return some (.create ⟨notePath.1, none, renderGeneratedRegion regionId.1 body, none, Value.nonEmpty_ne_nil notePath, untitled_ne_nil⟩)
        let patch : RegionEdit := .patch ⟨notePath.1, regionId.1, body, Value.nonEmpty_ne_nil notePath, Value.nonEmpty_ne_nil regionId⟩
        if regionId.1 ∈ safeDescribe port notePath.1 then
          pure (if effect.text? = some (str "refresh") then some patch else none)
        else
          pure (if effect.text? = some (str "new_region") then some patch else none)

def collectRegions (sections : Nat → SynthesisSectionPort) (regions : List Value) : List RegionEdit :=
  regions.zipIdx.filterMap fun e => (collectRegion (sections e.2) e.1).toOption.join

/-- A claim that is backed, or no claim. -/
def checkExtractionField (value evidenceRef : Value) : Bool :=
  value.text? = some TBD || evidenceRef.text?.any fun ref => 0 < (trim ref).length

def collectFrontmatterField (f : Value) : Except Raised (Option FrontmatterPatch) := do
  if f.isNullish then return none
  match (← f.get (str "notePath")).nonEmpty? with
  | none => pure none
  | some notePath =>
    match (← f.get (str "key")).nonEmpty? with
    | none => pure none
    | some key =>
      let value ← f.get (str "value")
      let evidenceRef ← f.get (str "evidenceRef")
      if checkExtractionField value evidenceRef then
        pure (some ⟨notePath.1, key.1, value, Value.nonEmpty_ne_nil notePath, Value.nonEmpty_ne_nil key⟩)
      else if isOwnerOrDate key.1 then
        pure (some ⟨notePath.1, key.1, .str TBD, Value.nonEmpty_ne_nil notePath, Value.nonEmpty_ne_nil key⟩)
      else pure none

def collectFrontmatter (frontmatter : List Value) : List FrontmatterPatch :=
  frontmatter.filterMap fun f => (collectFrontmatterField f).toOption.join

/-- The names of the kinds of entities. -/
def ENTITY_KINDS : List JsString := [str "person", str "project", str "concept"]

/-- A name that is not blank, of a kind that there is, and nothing else. -/
def EntityRefSchema.safeParse (v : Value) : Except Raised (Option EntityRef) :=
  match v with
  | .obj fields => do
    let name ← v.get (str "name")
    let kind ← v.get (str "kind")
    if fields.any fun field => field.1 ≠ str "name" && field.1 ≠ str "kind" then return none
    match name.text?, kind.text? with
    | some name, some kind =>
      pure (if 1 ≤ name.length && name.length ≤ 1024 && trim name ≠ [] && ENTITY_KINDS.contains kind then some ⟨name, some kind⟩ else none)
    | _, _ => pure none
  | _ => pure none

section planner

variable (tables : MatchTables)

def collectLinks (links : Value) (input : SynthesisInput) : Except Raised (List LinkMutation) := do
  if links.isNullish then return []
  match (← links.get (str "srcPath")).nonEmpty? with
  | none => pure []
  | some srcPath =>
    match (← links.get (str "refs")).items? with
    | none => pure []
    | some refs =>
      pure ((healLinks tables srcPath refs (input.linkCandidates.getD []) input.workspaceId).filterMap fun h =>
        match h with
        | .healed mutation => some mutation
        | .withheld _ _ => none)

/-- The creates so far, and what has been counted. -/
structure EntityPass where
  creates : List NoteCreate
  rejected : Nat
  withheld : Map WithheldReason Nat

/-- A withheld resolution is counted. -/
def EntityPass.tally (pass : EntityPass) (resolution : EntityResolution) : EntityPass :=
  match resolution with
  | .withheld reason => { pass with withheld := pass.withheld.set reason ((pass.withheld.get reason).getD 0 + 1) }
  | _ => pass

/-- A stub never takes the place of a create. -/
def EntityPass.add (pass : EntityPass) (stub : Option NoteCreate) : EntityPass :=
  match stub with
  | none => pass
  | some stub => if pass.creates.any fun c => c.path = stub.path then pass else { pass with creates := pass.creates ++ [stub] }

def collectEntity (workspaceId : JsString) (gbrain : Nat → EntityGbrainReadPort) (pass : EntityPass) (e : Value × Nat) : EntityPass :=
  match EntityRefSchema.safeParse e.1 with
  | .error _ => pass
  | .ok none => { pass with rejected := pass.rejected + 1 }
  | .ok (some ref) =>
    let resolution := resolveEntity tables ref workspaceId (gbrain e.2)
    (pass.tally resolution).add (mintEntityStub resolution ref.kind)

def collectEntities (entityRefs : List Value) (creates : List NoteCreate) (workspaceId : JsString) (gbrain : Nat → EntityGbrainReadPort) :
    List NoteCreate × EntityCollectionStats :=
  let pass := (entityRefs.take MAX_MODEL_ENTITY_REFS).zipIdx.foldl (collectEntity tables workspaceId gbrain) ⟨creates, 0, .empty⟩
  (pass.creates, ⟨entityRefs.length - MAX_MODEL_ENTITY_REFS, pass.rejected, pass.withheld⟩)

def NO_STATS : EntityCollectionStats := ⟨0, 0, .empty⟩

/-- What a run has collected. -/
structure Collected where
  autoM : Muts
  proposeM : Muts
  stats : EntityCollectionStats

/-- The creates among edits. -/
def createsOf (edits : List RegionEdit) : List NoteCreate :=
  edits.filterMap fun e =>
    match e with
    | .create note => some note
    | .patch _ => none

/-- The patches among edits. -/
def patchesOf (edits : List RegionEdit) : List NotePatch :=
  edits.filterMap fun e =>
    match e with
    | .create _ => none
    | .patch patch => some patch

/-- All that is proposed goes through its collector. -/
def collect (candidate : Value) (input : SynthesisInput) (deps : SynthesisDeps) : Except Raised Collected := do
  if !candidate.isObject then return ⟨⟨[], [], [], []⟩, ⟨[], [], [], []⟩, NO_STATS⟩
  let regions ← candidate.get (str "regions")
  let edits := collectRegions deps.sections (regions.items?.getD [])
  let frontmatter ← candidate.get (str "frontmatter")
  let updates := collectFrontmatter (frontmatter.items?.getD [])
  let links ← candidate.get (str "links")
  let mutations ← collectLinks tables links input
  let entityRefs ← candidate.get (str "entityRefs")
  let entities := collectEntities tables (entityRefs.items?.getD []) (createsOf edits) input.workspaceId deps.gbrain
  pure ⟨⟨entities.1, patchesOf edits, mutations, []⟩, ⟨[], [], [], updates⟩, entities.2⟩

/-- The plan of a tier, if there is anything to do and its schema passes it. -/
def assemble (m : Muts) (tier : Tier) (input : SynthesisInput) (deps : SynthesisDeps) : Except Raised (Option KnowledgeMutationPlan) := do
  if m.count = 0 then return none
  let planId ← deps.newPlanId tier
  pure (KnowledgeMutationPlanSchema.safeParse
    ⟨planId, input.workspaceId, input.sourceRefs, m, clamp01 input.confidence, tier.requiresApproval, input.provenanceOrigin⟩)

def isUsable (input : SynthesisInput) : Bool :=
  input.workspaceId ≠ [] && input.sourceRefs ≠ [] && input.sourceRefs.all fun s => s.sourceId ≠ []

/-- What has been assembled before a fault is kept. -/
def planSynthesis (input : SynthesisInput) (deps : SynthesisDeps) : Except Raised (Except SynthesisError SynthesisOutcome) := do
  if !isUsable input then return .error .unusable_input
  match ← caught (do collect tables (← deps.reason input) input deps) with
  | none => pure (.ok ⟨[], NO_STATS⟩)
  | some collected =>
    match ← caught (assemble collected.autoM .auto input deps) with
    | none => pure (.ok ⟨[], collected.stats⟩)
    | some autoPlan =>
      match ← caught (assemble collected.proposeM .propose input deps) with
      | none => pure (.ok ⟨autoPlan.toList, collected.stats⟩)
      | some proposePlan => pure (.ok ⟨autoPlan.toList ++ proposePlan.toList, collected.stats⟩)

end planner

end sow.synthesis
