import Sow.Knowledge.Synthesis.Planner

open sow.js sow.markdown_vault
open sow.knowledge_writer (NoteCreate NotePatch LinkMutation SourceRef isWorkspaceSlug)
open sow.workflows (asciiSlugs)

namespace sow.synthesis

/-- An element proposes a body for a region of a note. -/
structure ProposesRegion (r : Value) (effect : JsString) (path : Path) (regionId body : JsString) : Prop where
  notePath : r.get (str "notePath") = .ok (.str path)
  regionId : r.get (str "regionId") = .ok (.str regionId)
  body : r.get (str "body") = .ok (.str body)
  effect : r.get (str "effect") = .ok (.str effect)

/-- The port lists the region among those that the writer owns in a note. -/
def Describes (port : SynthesisSectionPort) (path : Path) (regionId : JsString) : Prop :=
  ∃ descriptor ids, port.describe path = .ok descriptor ∧ descriptor.getOptional (str "generatedRegionIds") = .ok (.arr ids) ∧ .str regionId ∈ ids

/-- What an edit writes to: a note, or a region of one. -/
inductive RegionTarget where
  | note (path : Path)
  | region (path : Path) (regionId : JsString)
  deriving DecidableEq

def RegionEdit.target : RegionEdit → RegionTarget
  | .create note => .note note.path
  | .patch p => .region p.path p.regionId

section regions

variable {port : SynthesisSectionPort} {r : Value} {edit : RegionEdit}

theorem mem_safeDescribe {path : Path} {regionId : JsString} : regionId ∈ safeDescribe port path ↔ Describes port path regionId := by
  unfold safeDescribe Describes
  cases hdescribe : port.describe path with
  | error e =>
    constructor
    · intro h
      cases h
    · rintro ⟨descriptor, ids, h, -⟩
      cases h
  | ok descriptor =>
    change regionId ∈ List.filterMap Value.text? (((descriptor.getOptional (str "generatedRegionIds")).toOption.bind Value.items?).getD []) ↔ _
    cases hids : descriptor.getOptional (str "generatedRegionIds") with
    | error e =>
      constructor
      · intro h
        cases h
      · rintro ⟨descriptor', ids, h, h', -⟩
        rw [← Except.ok.inj h, hids] at h'
        cases h'
    | ok v =>
      change regionId ∈ List.filterMap Value.text? (v.items?.getD []) ↔ _
      rw [List.mem_filterMap]
      constructor
      · rintro ⟨id, hid, htext⟩
        cases hitems : v.items? with
        | none =>
          rw [hitems] at hid
          cases hid
        | some ids =>
          rw [hitems] at hid
          rw [Value.items?_eq_some hitems] at hids
          rw [Value.text?_eq_some htext] at hid
          exact ⟨descriptor, ids, rfl, hids, hid⟩
      · rintro ⟨descriptor', ids, h, h', hmem⟩
        rw [← Except.ok.inj h, hids] at h'
        rw [Except.ok.inj h']
        exact ⟨.str regionId, hmem, rfl⟩

/-- What becomes of an element: a note, a refresh of a region that the writer owns, or a new region. -/
theorem collectRegion_eq_some (h : collectRegion port r = .ok (some edit)) :
    ∃ path regionId body effect, ProposesRegion r effect path regionId body ∧ isSafeRegionId regionId = true ∧
      (effect = str "new_note" ∧ (∃ note, edit = .create note ∧ note.path = path ∧ note.body = renderGeneratedRegion regionId body) ∨
        (∃ patch, edit = .patch patch ∧ patch.path = path ∧ patch.regionId = regionId ∧ patch.newBody = body) ∧
          (effect = str "refresh" ∧ Describes port path regionId ∨ effect = str "new_region" ∧ ¬ Describes port path regionId)) := by
  unfold collectRegion at h
  by_cases hnull : r.isNullish = true
  · rw [if_pos hnull] at h
    cases h
  rw [if_neg hnull] at h
  obtain ⟨pathValue, hpath, h⟩ := exists_of_bind_ok h
  cases hpath? : pathValue.nonEmpty? with
  | none =>
    rw [hpath?] at h
    cases h
  | some path =>
    rw [hpath?] at h
    obtain ⟨bodyValue, hbody, h⟩ := exists_of_bind_ok h
    cases hbody? : bodyValue.text? with
    | none =>
      rw [hbody?] at h
      cases h
    | some body =>
      rw [hbody?] at h
      obtain ⟨idValue, hid, h⟩ := exists_of_bind_ok h
      cases hid? : idValue.nonEmpty? with
      | none =>
        rw [hid?] at h
        cases h
      | some regionId =>
        rw [hid?] at h
        dsimp only at h
        by_cases hsafe : isSafeRegionId regionId.1 = true
        · rw [hsafe, if_neg (by decide)] at h
          obtain ⟨effectValue, heffect, h⟩ := exists_of_bind_ok h
          rw [Value.nonEmpty?_eq_some hpath?] at hpath
          rw [Value.text?_eq_some hbody?] at hbody
          rw [Value.nonEmpty?_eq_some hid?] at hid
          have hproposes : ∀ effect, effectValue.text? = some effect → ProposesRegion r effect path.1 regionId.1 body := by
            intro effect htext
            exact ⟨hpath, hid, hbody, by rw [heffect, Value.text?_eq_some htext]⟩
          split_ifs at h with hnote howned hrefresh hnew
          · obtain rfl := Option.some.inj (Except.ok.inj h)
            exact ⟨_, _, _, _, hproposes _ hnote, hsafe, .inl ⟨rfl, _, rfl, rfl, rfl⟩⟩
          · obtain rfl := Option.some.inj (Except.ok.inj h)
            exact ⟨_, _, _, _, hproposes _ hrefresh, hsafe, .inr ⟨⟨_, rfl, rfl, rfl, rfl⟩, .inl ⟨rfl, mem_safeDescribe.mp howned⟩⟩⟩
          · cases h
          · obtain rfl := Option.some.inj (Except.ok.inj h)
            exact ⟨_, _, _, _, hproposes _ hnew, hsafe, .inr ⟨⟨_, rfl, rfl, rfl, rfl⟩, .inr ⟨rfl, fun hin => howned (mem_safeDescribe.mpr hin)⟩⟩⟩
          · cases h
        · rw [Bool.not_eq_true] at hsafe
          rw [hsafe, if_pos (by decide)] at h
          cases h

end regions

section entities

variable {tables : MatchTables} {ref : EntityRef} {workspaceId : JsString} {gbrain : EntityGbrainReadPort} {slug : JsString}

theorem matchCandidates_eq_create_stub {proposedSlug key : JsString} {named : List (EntityCandidate × List JsString)}
    (h : matchCandidates tables proposedSlug key named = .create_stub slug) : slug = proposedSlug := by
  unfold matchCandidates at h
  split at h
  · split at h <;> cases h
  · cases h
  · split_ifs at h
    exact (EntityResolution.create_stub.inj h).symm

/-- The slug of a stub is that of the name. -/
theorem resolveEntity_eq_create_stub (h : resolveEntity tables ref workspaceId gbrain = .create_stub slug) : slug = entitySlug tables ref.name := by
  unfold resolveEntity at h
  split_ifs at h
  cases hread : readEntity tables ref workspaceId gbrain with
  | error e =>
    rw [hread] at h
    cases h
  | ok resolution =>
    rw [hread] at h
    obtain rfl : resolution = .create_stub slug := h
    unfold readEntity at hread
    obtain ⟨read, -, hread⟩ := exists_of_bind_ok hread
    cases read with
    | error e => cases hread
    | ok value =>
      dsimp only at hread
      cases hitems : value.items? with
      | none =>
        rw [hitems] at hread
        cases hread
      | some rows =>
        rw [hitems] at hread
        obtain ⟨valid, -, hread⟩ := exists_of_bind_ok hread
        obtain ⟨named, -, hread⟩ := exists_of_bind_ok hread
        exact matchCandidates_eq_create_stub (Except.ok.inj hread)

/-- A note right below one of the namespaces of entities. -/
def InEntityNamespace (path : Path) : Prop :=
  ∃ folder leaf, folder ∈ FALLBACK_NAMESPACE :: ENTITY_NAMESPACES.map Prod.snd ∧ unit '/' ∉ leaf ∧ path = folder ++ leaf

theorem entityNamespace_mem (kind : Option JsString) : entityNamespace kind ∈ FALLBACK_NAMESPACE :: ENTITY_NAMESPACES.map Prod.snd := by
  unfold entityNamespace
  cases hlookup : ENTITY_NAMESPACES.lookup (kind.getD []) with
  | none => exact List.mem_cons_self
  | some folder =>
    refine List.mem_cons_of_mem _ ?_
    unfold ENTITY_NAMESPACES at hlookup ⊢
    simp only [List.lookup_cons, List.lookup_nil] at hlookup
    split at hlookup
    · obtain rfl := Option.some.inj hlookup
      decide
    · split at hlookup
      · obtain rfl := Option.some.inj hlookup
        decide
      · split at hlookup
        · obtain rfl := Option.some.inj hlookup
          decide
        · cases hlookup

/-- The stub of an entity that no note is found for. -/
def StubOf (tables : MatchTables) (workspaceId : JsString) (gbrain : EntityGbrainReadPort) (e : Value) (c : NoteCreate) : Prop :=
  ∃ ref slug, EntityRefSchema.safeParse e = .ok (some ref) ∧ resolveEntity tables ref workspaceId gbrain = .create_stub slug ∧
    c.path = entityNamespace ref.kind ++ slug ++ str ".md"

theorem StubOf.inEntityNamespace {e : Value} {c : NoteCreate} (h : StubOf tables workspaceId gbrain e c) : InEntityNamespace c.path := by
  obtain ⟨ref, slug, -, hresolve, hpath⟩ := h
  refine ⟨_, slug ++ str ".md", entityNamespace_mem ref.kind, ?_, by rw [hpath, List.append_assoc]⟩
  rw [resolveEntity_eq_create_stub hresolve, List.mem_append]
  rintro (h | h)
  · exact slash_not_mem_entitySlug _ h
  · revert h
    decide

theorem EntityPass.tally_creates (pass : EntityPass) (resolution : EntityResolution) : (pass.tally resolution).creates = pass.creates := by
  cases resolution <;> rfl

variable {ports : Nat → EntityGbrainReadPort}

/-- An element adds a stub to the creates where none has its path, or nothing. -/
theorem collectEntity_creates (pass : EntityPass) (e : Value × Nat) :
    (collectEntity tables workspaceId ports pass e).creates = pass.creates ∨
      ∃ stub, (collectEntity tables workspaceId ports pass e).creates = pass.creates ++ [stub] ∧ (∀ c ∈ pass.creates, c.path ≠ stub.path) ∧
        StubOf tables workspaceId (ports e.2) e.1 stub := by
  unfold collectEntity
  cases hparse : EntityRefSchema.safeParse e.1 with
  | error _ => exact .inl rfl
  | ok parsed =>
    cases parsed with
    | none => exact .inl rfl
    | some ref =>
      dsimp only
      cases hstub : mintEntityStub (resolveEntity tables ref workspaceId (ports e.2)) ref.kind with
      | none => exact .inl (pass.tally_creates _)
      | some stub =>
        dsimp only [EntityPass.add]
        rw [pass.tally_creates]
        split_ifs with hany
        · exact .inl (pass.tally_creates _)
        · obtain ⟨slug, hresolve, -, hpath⟩ := stubNotePathFor_eq_some (mintEntityStub_eq_some hstub)
          refine .inr ⟨stub, rfl, fun c hc hsame => hany ?_, ref, slug, hparse, hresolve, hpath⟩
          exact List.any_eq_true.mpr ⟨c, hc, decide_eq_true hsame⟩

/-- The creates are those that there were, and then stubs; no two more of them share a path. -/
structure ExtendsCreates (tables : MatchTables) (workspaceId : JsString) (ports : Nat → EntityGbrainReadPort) (es : List (Value × Nat))
    (creates creates' : List NoteCreate) : Prop where
  prefixed : creates <+: creates'
  stubs : ∀ c ∈ creates', c ∈ creates ∨ ∃ e ∈ es, StubOf tables workspaceId (ports e.2) e.1 c
  nodup : (creates.map (·.path)).Nodup → (creates'.map (·.path)).Nodup

theorem foldl_collectEntity (es : List (Value × Nat)) (pass : EntityPass) :
    ExtendsCreates tables workspaceId ports es pass.creates (es.foldl (collectEntity tables workspaceId ports) pass).creates := by
  induction es generalizing pass with
  | nil => exact ⟨List.prefix_refl _, fun c hc => .inl hc, id⟩
  | cons e es ih =>
    rw [List.foldl_cons]
    obtain ⟨hkept, hstubs, hnodup⟩ := ih (collectEntity tables workspaceId ports pass e)
    have hstep := @collectEntity_creates tables workspaceId ports pass e
    rcases hstep with hsame | ⟨stub, hstep, hfresh, hstub⟩
    · rw [hsame] at hkept hstubs hnodup
      refine ⟨hkept, fun c hc => (hstubs c hc).imp id ?_, hnodup⟩
      rintro ⟨e', he', h⟩
      exact ⟨e', List.mem_cons_of_mem _ he', h⟩
    · rw [hstep] at hkept hstubs hnodup
      refine ⟨(List.prefix_append _ _).trans hkept, fun c hc => ?_, fun hold => hnodup ?_⟩
      · rcases hstubs c hc with hmem | ⟨e', he', h⟩
        · rcases List.mem_append.mp hmem with hold | hnew
          · exact .inl hold
          · rw [List.mem_singleton.mp hnew]
            exact .inr ⟨e, List.mem_cons_self, hstub⟩
        · exact .inr ⟨e', List.mem_cons_of_mem _ he', h⟩
      · rw [List.map_append, List.map_singleton, List.nodup_append]
        refine ⟨hold, List.nodup_singleton _, fun path hpath path' hpath' => ?_⟩
        obtain ⟨c, hc, rfl⟩ := List.mem_map.mp hpath
        rw [List.mem_singleton.mp hpath']
        exact hfresh c hc

end entities

section frontmatter

/-- A claim of the candidate is the one of a patch, and it came with evidence. -/
def Evidenced (frontmatter : List Value) (f : FrontmatterPatch) : Prop :=
  ∃ e ∈ frontmatter, e.get (str "notePath") = .ok (.str f.path) ∧ e.get (str "key") = .ok (.str f.key) ∧ e.get (str "value") = .ok f.value ∧
    ∃ ref, e.get (str "evidenceRef") = .ok (.str ref) ∧ trim ref ≠ []

/-- No value is invented. -/
theorem mem_collectFrontmatter {frontmatter : List Value} {f : FrontmatterPatch} (h : f ∈ collectFrontmatter frontmatter) :
    f.value = .str TBD ∨ Evidenced frontmatter f := by
  unfold collectFrontmatter at h
  obtain ⟨e, he, hf⟩ := List.mem_filterMap.mp h
  cases hcollect : collectFrontmatterField e with
  | error _ =>
    rw [hcollect] at hf
    cases hf
  | ok patch =>
    rw [hcollect] at hf
    obtain rfl : patch = some f := hf
    unfold collectFrontmatterField at hcollect
    by_cases hnull : e.isNullish = true
    · rw [if_pos hnull] at hcollect
      cases hcollect
    rw [if_neg hnull] at hcollect
    obtain ⟨pathValue, hpath, hcollect⟩ := exists_of_bind_ok hcollect
    cases hpath? : pathValue.nonEmpty? with
    | none =>
      rw [hpath?] at hcollect
      cases hcollect
    | some path =>
      rw [hpath?] at hcollect
      obtain ⟨keyValue, hkey, hcollect⟩ := exists_of_bind_ok hcollect
      cases hkey? : keyValue.nonEmpty? with
      | none =>
        rw [hkey?] at hcollect
        cases hcollect
      | some key =>
        rw [hkey?] at hcollect
        obtain ⟨value, hvalue, hcollect⟩ := exists_of_bind_ok hcollect
        obtain ⟨evidence, hevidence, hcollect⟩ := exists_of_bind_ok hcollect
        split_ifs at hcollect with hcheck howner
        · obtain rfl := Option.some.inj (Except.ok.inj hcollect)
          unfold checkExtractionField at hcheck
          rw [Bool.or_eq_true, decide_eq_true_eq] at hcheck
          rcases hcheck with htbd | hbacked
          · exact .inl (Value.text?_eq_some htbd)
          · right
            rw [Value.nonEmpty?_eq_some hpath?] at hpath
            rw [Value.nonEmpty?_eq_some hkey?] at hkey
            cases hevidence? : evidence.text? with
            | none =>
              rw [hevidence?] at hbacked
              cases hbacked
            | some ref =>
              rw [hevidence?, Option.any_some, decide_eq_true_eq, List.length_pos_iff] at hbacked
              rw [Value.text?_eq_some hevidence?] at hevidence
              exact ⟨e, he, hpath, hkey, hvalue, ref, hevidence, hbacked⟩
        · obtain rfl := Option.some.inj (Except.ok.inj hcollect)
          exact .inl rfl
        · cases hcollect

end frontmatter

section plans

variable {tables : MatchTables} {input : SynthesisInput} {deps : SynthesisDeps}

/-- The items that a candidate proposes under a key. -/
def proposals (candidate : Value) (key : JsString) : List Value := ((candidate.get key).toOption.bind Value.items?).getD []

/-- What has been collected comes of what the candidate proposes. -/
structure CollectedFrom (tables : MatchTables) (input : SynthesisInput) (deps : SynthesisDeps) (candidate : Value) (collected : Collected) : Prop where
  auto_frontmatter : collected.autoM.frontmatterUpdates = []
  propose_creates : collected.proposeM.creates = []
  propose_patches : collected.proposeM.patches = []
  patches : collected.autoM.patches = patchesOf (collectRegions deps.sections (proposals candidate (str "regions")))
  frontmatter : collected.proposeM.frontmatterUpdates = collectFrontmatter (proposals candidate (str "frontmatter"))
  creates : ExtendsCreates tables input.workspaceId deps.gbrain ((proposals candidate (str "entityRefs")).take MAX_MODEL_ENTITY_REFS).zipIdx
    (createsOf (collectRegions deps.sections (proposals candidate (str "regions")))) collected.autoM.creates

theorem proposals_of_ok {candidate v : Value} {key : JsString} (h : candidate.get key = .ok v) : proposals candidate key = v.items?.getD [] := by
  unfold proposals
  rw [h]
  rfl

theorem proposals_of_not_object {candidate : Value} (h : candidate.isObject = false) (key : JsString) : proposals candidate key = [] := by
  cases candidate with
  | arr items => cases h
  | obj fields => cases h
  | _ => rfl

theorem collect_eq_ok {candidate : Value} {collected : Collected} (h : collect tables candidate input deps = .ok collected) :
    CollectedFrom tables input deps candidate collected := by
  unfold collect at h
  by_cases hobject : candidate.isObject = true
  · rw [hobject, if_neg (by decide)] at h
    obtain ⟨regions, hregions, h⟩ := exists_of_bind_ok h
    obtain ⟨frontmatter, hfrontmatter, h⟩ := exists_of_bind_ok h
    obtain ⟨links, -, h⟩ := exists_of_bind_ok h
    obtain ⟨mutations, -, h⟩ := exists_of_bind_ok h
    obtain ⟨entityRefs, hentityRefs, h⟩ := exists_of_bind_ok h
    obtain rfl := Except.ok.inj h
    refine ⟨rfl, rfl, rfl, ?_, ?_, ?_⟩
    · rw [proposals_of_ok hregions]
    · rw [proposals_of_ok hfrontmatter]
    · rw [proposals_of_ok hregions, proposals_of_ok hentityRefs]
      exact foldl_collectEntity _ ⟨createsOf (collectRegions deps.sections (regions.items?.getD [])), 0, .empty⟩
  · rw [Bool.not_eq_true] at hobject
    rw [hobject, if_pos (by decide)] at h
    obtain rfl := Except.ok.inj h
    refine ⟨rfl, rfl, rfl, ?_, ?_, ?_⟩
    · rw [proposals_of_not_object hobject]
      rfl
    · rw [proposals_of_not_object hobject]
      rfl
    · rw [proposals_of_not_object hobject, proposals_of_not_object hobject]
      exact ⟨List.prefix_refl _, fun c hc => .inl hc, id⟩

/-- A plan of a tier gets an id, and what the input says of it passes the schema. -/
def Admissible (input : SynthesisInput) (deps : SynthesisDeps) (tier : Tier) : Prop :=
  ∃ planId, deps.newPlanId tier = .ok planId ∧ trim planId ≠ [] ∧ isWorkspaceSlug input.workspaceId = true ∧ input.sourceRefs ≠ [] ∧
    input.sourceRefs.all isSourceRef = true

theorem assemble_eq_some {m : Muts} {tier : Tier} {plan : KnowledgeMutationPlan} (h : assemble m tier input deps = .ok (some plan)) :
    Admissible input deps tier ∧ plan.mutations = m ∧ plan.requiresApproval = tier.requiresApproval := by
  unfold assemble at h
  split_ifs at h
  · cases h
  · obtain ⟨planId, hplanId, h⟩ := exists_of_bind_ok h
    have hparse := Except.ok.inj h
    unfold KnowledgeMutationPlanSchema.safeParse at hparse
    split_ifs at hparse with hvalid
    obtain rfl := Option.some.inj hparse
    exact ⟨⟨planId, hplanId, hvalid⟩, rfl, rfl⟩

/-- An admissible tier with mutations has its plan. -/
theorem assemble_of_admissible {m : Muts} {tier : Tier} (hcount : m.count ≠ 0) (h : Admissible input deps tier) :
    ∃ plan, assemble m tier input deps = .ok (some plan) ∧ plan.mutations = m := by
  obtain ⟨planId, hplanId, hvalid⟩ := h
  unfold assemble
  rw [if_neg hcount, hplanId]
  refine ⟨_, congrArg Except.ok (dif_pos hvalid), rfl⟩

/-- A run collects, and then makes a plan for each tier that has one. -/
structure Planned (tables : MatchTables) (input : SynthesisInput) (deps : SynthesisDeps) (outcome : SynthesisOutcome) (candidate : Value)
    (collected : Collected) (auto propose : Option KnowledgeMutationPlan) : Prop where
  usable : isUsable input = true
  reasoned : deps.reason input = .ok candidate
  gathered : collect tables candidate input deps = .ok collected
  plans : outcome.plans = auto.toList ++ propose.toList
  auto : ∀ plan, auto = some plan → assemble collected.autoM .auto input deps = .ok (some plan)
  propose : ∀ plan, propose = some plan → assemble collected.proposeM .propose input deps = .ok (some plan)

/-- A run returns; it makes no plan, or it is planned. -/
theorem planSynthesis_cases (tables : MatchTables) (input : SynthesisInput) (deps : SynthesisDeps) :
    planSynthesis tables input deps = .ok (.error .unusable_input) ∨ ∃ outcome, planSynthesis tables input deps = .ok (.ok outcome) ∧
      (outcome.plans = [] ∨ ∃ candidate collected auto propose, Planned tables input deps outcome candidate collected auto propose) := by
  unfold planSynthesis
  by_cases husable : isUsable input = true
  · right
    rw [husable, if_neg (by decide)]
    cases hreason : deps.reason input with
    | error e => exact ⟨_, rfl, .inl rfl⟩
    | ok candidate =>
      cases hcollect : collect tables candidate input deps with
      | error e =>
        have hcaught : (do collect tables (← (Except.ok candidate : Except Raised Value)) input deps) = .error e := hcollect
        rw [hcaught]
        exact ⟨_, rfl, .inl rfl⟩
      | ok collected =>
        have hcaught : (do collect tables (← (Except.ok candidate : Except Raised Value)) input deps) = .ok collected := hcollect
        rw [hcaught]
        cases hauto : assemble collected.autoM .auto input deps with
        | error e =>
          simp only [caught_ok, caught_error, bind, Except.bind, hauto]
          exact ⟨_, rfl, .inl rfl⟩
        | ok auto =>
          cases hpropose : assemble collected.proposeM .propose input deps with
          | error e =>
            simp only [caught_ok, caught_error, bind, Except.bind, hauto, hpropose]
            refine ⟨_, rfl, .inr ⟨candidate, collected, auto, none, husable, hreason, hcollect, (List.append_nil _).symm, fun plan hplan => ?_, nofun⟩⟩
            rw [hauto, hplan]
          | ok propose =>
            simp only [caught_ok, bind, Except.bind, hauto, hpropose]
            refine ⟨_, rfl, .inr ⟨candidate, collected, auto, propose, husable, hreason, hcollect, rfl, fun plan hplan => ?_, fun plan hplan => ?_⟩⟩
            · rw [hauto, hplan]
            · rw [hpropose, hplan]
  · rw [Bool.not_eq_true] at husable
    rw [husable, if_pos (by decide)]
    exact .inl rfl

/-- The first plan of a run is that of its own tier. -/
theorem planSynthesis_of_auto {candidate : Value} {collected : Collected} {plan : KnowledgeMutationPlan} (husable : isUsable input = true)
    (hreason : deps.reason input = .ok candidate) (hcollect : collect tables candidate input deps = .ok collected)
    (hauto : assemble collected.autoM .auto input deps = .ok (some plan)) :
    ∃ outcome rest, planSynthesis tables input deps = .ok (.ok outcome) ∧ outcome.plans = plan :: rest := by
  unfold planSynthesis
  have hcaught : (do collect tables (← deps.reason input) input deps) = .ok collected := by
    rw [hreason]
    exact hcollect
  rw [husable, if_neg (by decide), hcaught]
  cases hpropose : assemble collected.proposeM .propose input deps with
  | error e =>
    simp only [caught_ok, caught_error, bind, Except.bind, hauto, hpropose]
    exact ⟨_, [], rfl, rfl⟩
  | ok propose =>
    simp only [caught_ok, bind, Except.bind, hauto, hpropose]
    exact ⟨_, propose.toList, rfl, rfl⟩

end plans

section apart

/-- No element of a candidate is accepted for what an earlier one is accepted for. -/
def RegionsApart (sections : Nat → SynthesisSectionPort) (regions : List Value) : Prop :=
  ∀ i j r r' edit edit', i < j → regions[i]? = some r → regions[j]? = some r' → collectRegion (sections i) r = .ok (some edit) →
    collectRegion (sections j) r' = .ok (some edit') → edit.target ≠ edit'.target

variable {sections : Nat → SynthesisSectionPort} {regions : List Value} {edits : List RegionEdit}

theorem accepted_iff {port : SynthesisSectionPort} {r : Value} {edit : RegionEdit} :
    (collectRegion port r).toOption.join = some edit ↔ collectRegion port r = .ok (some edit) := by
  cases collectRegion port r with
  | error e => exact ⟨nofun, nofun⟩
  | ok result => exact ⟨fun h => congrArg Except.ok h, fun h => Except.ok.inj h⟩

theorem regionsApart_iff : RegionsApart sections regions ↔ (collectRegions sections regions).Pairwise fun edit edit' => edit.target ≠ edit'.target := by
  unfold collectRegions RegionsApart
  rw [List.pairwise_filterMap, List.pairwise_iff_getElem]
  constructor
  · intro h i j hi hj hij edit hedit edit' hedit'
    rw [List.getElem_zipIdx, accepted_iff] at hedit hedit'
    simp only [Nat.zero_add] at hedit hedit'
    exact h i j _ _ edit edit' hij (List.getElem?_eq_getElem _) (List.getElem?_eq_getElem _) hedit hedit'
  · intro h i j r r' edit edit' hij hr hr' hedit hedit'
    obtain ⟨hi, hri⟩ := List.getElem?_eq_some_iff.mp hr
    obtain ⟨hj, hrj⟩ := List.getElem?_eq_some_iff.mp hr'
    refine h i j (by rwa [List.length_zipIdx]) (by rwa [List.length_zipIdx]) hij edit ?_ edit' ?_
    · rw [List.getElem_zipIdx, accepted_iff]
      simpa only [Nat.zero_add, hri] using hedit
    · rw [List.getElem_zipIdx, accepted_iff]
      simpa only [Nat.zero_add, hrj] using hedit'

/-- The notes that are written, and the regions that are. -/
theorem pairwise_target_iff : (edits.Pairwise fun edit edit' => edit.target ≠ edit'.target) ↔
    ((createsOf edits).map (·.path)).Nodup ∧ ((patchesOf edits).map fun p => (p.path, p.regionId)).Nodup := by
  unfold createsOf patchesOf List.Nodup
  rw [List.pairwise_map, List.pairwise_map, List.pairwise_filterMap, List.pairwise_filterMap, ← List.pairwise_and_iff]
  refine List.Pairwise.iff fun edit edit' => ?_
  cases edit with
  | create note =>
    cases edit' with
    | create note' =>
      refine ⟨fun h => ⟨fun n hn n' hn' => ?_, nofun⟩, fun h hsame => h.1 note rfl note' rfl (RegionTarget.note.inj hsame)⟩
      rw [← Option.some.inj hn, ← Option.some.inj hn']
      exact fun hsame => h (congrArg RegionTarget.note hsame)
    | patch p' => exact ⟨fun _ => ⟨nofun, nofun⟩, fun _ => nofun⟩
  | patch p =>
    cases edit' with
    | create note' => exact ⟨fun _ => ⟨nofun, nofun⟩, fun _ => nofun⟩
    | patch p' =>
      refine ⟨fun h => ⟨nofun, fun q hq q' hq' => ?_⟩, fun h hsame => ?_⟩
      · rw [← Option.some.inj hq, ← Option.some.inj hq']
        intro hsame
        obtain ⟨hpath, hid⟩ := Prod.mk.inj hsame
        exact h (congrArg₂ RegionTarget.region hpath hid)
      · obtain ⟨hpath, hid⟩ := RegionTarget.region.inj hsame
        exact h.2 p rfl p' rfl (Prod.ext hpath hid)

end apart

/-- What the plans of a run hold. -/
structure ConfinedOutcome (tables : MatchTables) (input : SynthesisInput) (deps : SynthesisDeps) (outcome : SynthesisOutcome) : Prop where
  /-- At most one plan applies itself, and at most one is proposed. -/
  tiers : ∃ auto propose : Option KnowledgeMutationPlan, outcome.plans = auto.toList ++ propose.toList ∧
    (∀ plan ∈ auto, plan.requiresApproval = false) ∧ ∀ plan ∈ propose, plan.requiresApproval = true
  proposed : ∀ plan ∈ outcome.plans, plan.requiresApproval = false → plan.mutations.frontmatterUpdates = []
  /-- No value is invented. -/
  evidenced : ∀ plan ∈ outcome.plans, ∀ f ∈ plan.mutations.frontmatterUpdates, f.value = .str TBD ∨
    ∃ candidate, deps.reason input = .ok candidate ∧ Evidenced (proposals candidate (str "frontmatter")) f
  /-- A patch refreshes a region that the writer owns, or adds one. -/
  patched : ∀ plan ∈ outcome.plans, ∀ p ∈ plan.mutations.patches, plan.requiresApproval = false ∧ p.regionId ≠ USER_SENTINEL ∧
    ∃ candidate i r effect, deps.reason input = .ok candidate ∧ (proposals candidate (str "regions"))[i]? = some r ∧
      ProposesRegion r effect p.path p.regionId p.newBody ∧
      (effect = str "refresh" ∧ Describes (deps.sections i) p.path p.regionId ∨
        effect = str "new_region" ∧ ¬ Describes (deps.sections i) p.path p.regionId)
  /-- No note is created twice. -/
  creates_apart : ((outcome.plans.flatMap fun plan => plan.mutations.creates).map (·.path)).Nodup
  /-- No region is written twice. -/
  patches_apart : ((outcome.plans.flatMap fun plan => plan.mutations.patches).map fun p => (p.path, p.regionId)).Nodup
  /-- A create is a note of its own, or the stub of an entity that no note is found for. -/
  created : ∀ plan ∈ outcome.plans, ∀ c ∈ plan.mutations.creates, ∃ candidate, deps.reason input = .ok candidate ∧
    ((∃ r ∈ proposals candidate (str "regions"), ∃ regionId body, ProposesRegion r (str "new_note") c.path regionId body ∧
        c.body = renderGeneratedRegion regionId body) ∨
      InEntityNamespace c.path ∧ ∃ i e, (proposals candidate (str "entityRefs"))[i]? = some e ∧ StubOf tables input.workspaceId (deps.gbrain i) e c)

/-- A run returns, and its plans are confined. -/
structure Confined (tables : MatchTables) (input : SynthesisInput) (deps : SynthesisDeps) : Prop where
  returns : ∃ result, planSynthesis tables input deps = .ok result
  outcome : ∀ outcome, planSynthesis tables input deps = .ok (.ok outcome) → ConfinedOutcome tables input deps outcome

/-- A run gets as far as a plan that applies itself, if there is anything to do. -/
def AutoPlanMade (tables : MatchTables) (input : SynthesisInput) (deps : SynthesisDeps) (candidate : Value) : Prop :=
  isUsable input = true ∧ deps.reason input = .ok candidate ∧ (∃ collected, collect tables candidate input deps = .ok collected) ∧
    Admissible input deps .auto

section confined

variable {tables : MatchTables} {input : SynthesisInput} {deps : SynthesisDeps} {outcome : SynthesisOutcome}

theorem confined_of_no_plans (h : outcome.plans = []) : ConfinedOutcome tables input deps outcome := by
  have hnone : ∀ plan, plan ∉ outcome.plans := by
    rw [h]
    exact fun plan => List.not_mem_nil
  refine ⟨⟨none, none, h, nofun, nofun⟩, fun plan hplan => absurd hplan (hnone plan), fun plan hplan => absurd hplan (hnone plan),
    fun plan hplan => absurd hplan (hnone plan), ?_, ?_, fun plan hplan => absurd hplan (hnone plan)⟩
  · rw [h]
    exact List.nodup_nil
  · rw [h]
    exact List.nodup_nil

/-- A plan of a run holds what has been collected for its tier. -/
theorem Planned.mutations {candidate : Value} {collected : Collected} {auto propose : Option KnowledgeMutationPlan}
    (h : Planned tables input deps outcome candidate collected auto propose) {plan : KnowledgeMutationPlan} (hplan : plan ∈ outcome.plans) :
    plan.requiresApproval = false ∧ plan.mutations = collected.autoM ∨ plan.requiresApproval = true ∧ plan.mutations = collected.proposeM := by
  rw [h.plans, List.mem_append, Option.mem_toList, Option.mem_toList] at hplan
  rcases hplan with hauto | hpropose
  · obtain ⟨-, hmutations, htier⟩ := assemble_eq_some (h.auto plan hauto)
    exact .inl ⟨htier, hmutations⟩
  · obtain ⟨-, hmutations, htier⟩ := assemble_eq_some (h.propose plan hpropose)
    exact .inr ⟨htier, hmutations⟩

/-- An edit comes of an element that has been accepted. -/
theorem mem_collectRegions {regions : List Value} {sections : Nat → SynthesisSectionPort} {edit : RegionEdit} (h : edit ∈ collectRegions sections regions) :
    ∃ i r, regions[i]? = some r ∧ collectRegion (sections i) r = .ok (some edit) := by
  unfold collectRegions at h
  obtain ⟨⟨r, i⟩, hmem, hedit⟩ := List.mem_filterMap.mp h
  exact ⟨i, r, List.mem_zipIdx_iff_getElem?.mp hmem, accepted_iff.mp hedit⟩

theorem mem_patchesOf {regions : List Value} {sections : Nat → SynthesisSectionPort} {p : NotePatch} (h : p ∈ patchesOf (collectRegions sections regions)) :
    p.regionId ≠ USER_SENTINEL ∧ ∃ i r effect, regions[i]? = some r ∧ ProposesRegion r effect p.path p.regionId p.newBody ∧
      (effect = str "refresh" ∧ Describes (sections i) p.path p.regionId ∨ effect = str "new_region" ∧ ¬ Describes (sections i) p.path p.regionId) := by
  obtain ⟨edit, hedit, hp⟩ := List.mem_filterMap.mp h
  cases edit with
  | create note => cases hp
  | patch q =>
    obtain rfl := Option.some.inj hp
    obtain ⟨i, r, hr, haccepted⟩ := mem_collectRegions hedit
    obtain ⟨path, regionId, body, effect, hproposes, hsafe, hnote | ⟨⟨patch, hpatch, rfl, rfl, rfl⟩, hconfined⟩⟩ := collectRegion_eq_some haccepted
    · obtain ⟨-, note, hcreate, -⟩ := hnote
      cases hcreate
    · obtain rfl := RegionEdit.patch.inj hpatch
      refine ⟨fun huser => ?_, i, r, effect, hr, hproposes, hconfined⟩
      unfold isSafeRegionId at hsafe
      rw [huser] at hsafe
      revert hsafe
      decide

theorem mem_createsOf {regions : List Value} {sections : Nat → SynthesisSectionPort} {c : NoteCreate} (h : c ∈ createsOf (collectRegions sections regions)) :
    ∃ r ∈ regions, ∃ regionId body, ProposesRegion r (str "new_note") c.path regionId body ∧ c.body = renderGeneratedRegion regionId body := by
  obtain ⟨edit, hedit, hc⟩ := List.mem_filterMap.mp h
  cases edit with
  | patch q => cases hc
  | create note =>
    obtain rfl := Option.some.inj hc
    obtain ⟨i, r, hr, haccepted⟩ := mem_collectRegions hedit
    obtain ⟨path, regionId, body, effect, hproposes, -, ⟨rfl, note', hnote, rfl, hbody⟩ | ⟨⟨patch, hpatch, -⟩, -⟩⟩ := collectRegion_eq_some haccepted
    · obtain rfl := RegionEdit.create.inj hnote
      exact ⟨r, List.mem_of_getElem? hr, regionId, body, hproposes, hbody⟩
    · cases hpatch

/-- The plans of a run are confined where its regions are apart. -/
theorem Planned.confined {candidate : Value} {collected : Collected} {auto propose : Option KnowledgeMutationPlan}
    (h : Planned tables input deps outcome candidate collected auto propose)
    (hapart : AutoPlanMade tables input deps candidate → RegionsApart deps.sections (proposals candidate (str "regions"))) :
    ConfinedOutcome tables input deps outcome := by
  have hfrom := collect_eq_ok h.gathered
  have hnodup : ∀ plan, auto = some plan → ((createsOf (collectRegions deps.sections (proposals candidate (str "regions")))).map (·.path)).Nodup ∧
      ((patchesOf (collectRegions deps.sections (proposals candidate (str "regions")))).map fun p => (p.path, p.regionId)).Nodup := by
    intro plan hplan
    obtain ⟨hadmissible, -⟩ := assemble_eq_some (h.auto plan hplan)
    exact pairwise_target_iff.mp (regionsApart_iff.mp (hapart ⟨h.usable, h.reasoned, ⟨collected, h.gathered⟩, hadmissible⟩))
  have hpropose : ∀ plan, propose = some plan → plan.mutations = collected.proposeM := fun plan hplan => (assemble_eq_some (h.propose plan hplan)).2.1
  refine ⟨⟨auto, propose, h.plans, fun plan hplan => (assemble_eq_some (h.auto plan hplan)).2.2, fun plan hplan => (assemble_eq_some (h.propose plan hplan)).2.2⟩,
    fun plan hplan htier => ?_, fun plan hplan f hf => ?_, fun plan hplan p hp => ?_, ?_, ?_, fun plan hplan c hc => ?_⟩
  · rcases h.mutations hplan with ⟨-, hmutations⟩ | ⟨htier', -⟩
    · rw [hmutations, hfrom.auto_frontmatter]
    · rw [htier] at htier'
      cases htier'
  · rcases h.mutations hplan with ⟨-, hmutations⟩ | ⟨-, hmutations⟩
    · rw [hmutations, hfrom.auto_frontmatter] at hf
      cases hf
    · rw [hmutations, hfrom.frontmatter] at hf
      exact (mem_collectFrontmatter hf).imp id fun hevidenced => ⟨candidate, h.reasoned, hevidenced⟩
  · rcases h.mutations hplan with ⟨htier, hmutations⟩ | ⟨-, hmutations⟩
    · rw [hmutations, hfrom.patches] at hp
      obtain ⟨huser, i, r, effect, hr, hproposes, hconfined⟩ := mem_patchesOf hp
      exact ⟨htier, huser, candidate, i, r, effect, h.reasoned, hr, hproposes, hconfined⟩
    · rw [hmutations, hfrom.propose_patches] at hp
      cases hp
  · have hcreates : (outcome.plans.flatMap fun plan => plan.mutations.creates) = auto.toList.flatMap fun plan => plan.mutations.creates := by
      rw [h.plans, List.flatMap_append]
      cases hplan : propose with
      | none => exact List.append_nil _
      | some plan =>
        rw [Option.toList_some, List.flatMap_singleton, hpropose plan hplan, hfrom.propose_creates, List.append_nil]
    rw [hcreates]
    cases hplan : auto with
    | none => exact List.nodup_nil
    | some plan =>
      obtain ⟨-, hmutations, -⟩ := assemble_eq_some (h.auto plan hplan)
      rw [Option.toList_some, List.flatMap_singleton, hmutations]
      exact hfrom.creates.nodup (hnodup plan hplan).1
  · have hpatches : (outcome.plans.flatMap fun plan => plan.mutations.patches) = auto.toList.flatMap fun plan => plan.mutations.patches := by
      rw [h.plans, List.flatMap_append]
      cases hplan : propose with
      | none => exact List.append_nil _
      | some plan =>
        rw [Option.toList_some, List.flatMap_singleton, hpropose plan hplan, hfrom.propose_patches, List.append_nil]
    rw [hpatches]
    cases hplan : auto with
    | none => exact List.nodup_nil
    | some plan =>
      obtain ⟨-, hmutations, -⟩ := assemble_eq_some (h.auto plan hplan)
      rw [Option.toList_some, List.flatMap_singleton, hmutations, hfrom.patches]
      exact (hnodup plan hplan).2
  · rcases h.mutations hplan with ⟨-, hmutations⟩ | ⟨-, hmutations⟩
    · rw [hmutations] at hc
      refine ⟨candidate, h.reasoned, ?_⟩
      rcases hfrom.creates.stubs c hc with hregion | ⟨⟨e, i⟩, hmem, hstub⟩
      · exact .inl (mem_createsOf hregion)
      · have hget := List.mem_zipIdx_iff_getElem?.mp hmem
        rw [List.getElem?_take] at hget
        split_ifs at hget
        exact .inr ⟨hstub.inEntityNamespace, i, e, hget, hstub⟩
    · rw [hmutations, hfrom.propose_creates] at hc
      cases hc

/-- Where the plans of a run are apart, so are its regions. -/
theorem regionsApart_of_confined {candidate : Value} (h : Confined tables input deps) (hmade : AutoPlanMade tables input deps candidate) :
    RegionsApart deps.sections (proposals candidate (str "regions")) := by
  obtain ⟨husable, hreason, ⟨collected, hcollect⟩, hadmissible⟩ := hmade
  have hfrom := collect_eq_ok hcollect
  rw [regionsApart_iff, pairwise_target_iff, ← hfrom.patches]
  by_cases hcount : collected.autoM.count = 0
  · unfold Muts.count at hcount
    have hcreates : collected.autoM.creates = [] := List.length_eq_zero_iff.mp (by omega)
    have hpatches : collected.autoM.patches = [] := List.length_eq_zero_iff.mp (by omega)
    have hkept := hfrom.creates.prefixed
    rw [hcreates, List.prefix_nil] at hkept
    rw [hkept, hpatches]
    exact ⟨List.nodup_nil, List.nodup_nil⟩
  · obtain ⟨plan, hplan, hmutations⟩ := assemble_of_admissible hcount hadmissible
    obtain ⟨outcome, rest, houtcome, hplans⟩ := planSynthesis_of_auto husable hreason hcollect hplan
    obtain ⟨-, -, -, -, hcreates, hpatches, -⟩ := h.outcome outcome houtcome
    rw [hplans, List.flatMap_cons, List.map_append, hmutations] at hcreates hpatches
    refine ⟨(List.nodup_append.mp hcreates).1.sublist ?_, (List.nodup_append.mp hpatches).1⟩
    exact (hfrom.creates.prefixed.map _).sublist

end confined

/-- Synthesis planning is confined if and only if no two elements of a candidate whose plan is made are
    accepted for one note, or for one region of a note. -/
theorem confinedSynthesis_iff (tables : MatchTables) (input : SynthesisInput) (deps : SynthesisDeps) :
    Confined tables input deps ↔
      ∀ candidate, AutoPlanMade tables input deps candidate → RegionsApart deps.sections (proposals candidate (str "regions")) := by
  constructor
  · exact fun h candidate hmade => regionsApart_of_confined h hmade
  · intro hapart
    rcases planSynthesis_cases tables input deps with hunusable | ⟨outcome, houtcome, hplans⟩
    · refine ⟨⟨_, hunusable⟩, fun outcome houtcome => ?_⟩
      rw [hunusable] at houtcome
      cases houtcome
    · refine ⟨⟨_, houtcome⟩, fun outcome' houtcome' => ?_⟩
      obtain rfl : outcome = outcome' := Except.ok.inj (Except.ok.inj (houtcome.symm.trans houtcome'))
      rcases hplans with hnone | ⟨candidate, collected, auto, propose, hplanned⟩
      · exact confined_of_no_plans hnone
      · exact hplanned.confined (hapart candidate)

section twice

/-- Unicode, for texts in ASCII. -/
def asciiMatch : MatchTables where
  slugs := asciiSlugs
  cases := asciiTables
  nfc s := s

/-- An element that proposes a new note. -/
def newNote (path body : JsString) : Value :=
  .obj [(str "notePath", .ok (.str path)), (str "regionId", .ok (.str (str "summary"))), (str "body", .ok (.str body)),
    (str "effect", .ok (.str (str "new_note")))]

def twiceCandidate : Value := .obj [(str "regions", .ok (.arr [newNote (str "notes/a.md") (str "first"), newNote (str "notes/a.md") (str "second")]))]

def twiceInput : SynthesisInput := ⟨str "personal-business", .ingestion, [⟨str "s1", none⟩], none, none⟩

def twiceDeps : SynthesisDeps where
  gbrain _ := ⟨str "personal-business", fun _ => .ok (.ok (.arr []))⟩
  reason _ := .ok twiceCandidate
  sections _ := ⟨fun _ => .ok (.obj [])⟩
  newPlanId _ := .ok (str "p1")

theorem twiceCandidate_not_confined : ¬ Confined asciiMatch twiceInput twiceDeps := by
  intro h
  have hmade : AutoPlanMade asciiMatch twiceInput twiceDeps twiceCandidate :=
    ⟨rfl, rfl, ⟨_, rfl⟩, str "p1", rfl, by decide, by decide, by decide, by decide⟩
  exact regionsApart_of_confined h hmade 0 1 _ _ _ _ Nat.zero_lt_one rfl rfl rfl rfl rfl

end twice

end sow.synthesis
