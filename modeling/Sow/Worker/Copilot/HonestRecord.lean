import Sow.Js.Json
import Sow.Worker.Composition.SourceNotePath
import Sow.Worker.Copilot.KnowledgeHistory

open sow.js sow.effect sow.contracts sow.db sow.domain sow.integrations sow.markdown_vault
open sow.knowledge_writer (Sha256 KwOp KnowledgeMutationPlan KnownDigests tabulated tabulated_law digits_of_all memoryListing memoryDeps faultFree)
open sow.tools (duplicateKey)
open sow.worker (readWorkspace)
open sow.workflows (asciiSlugs composeProjectStatusNote projectNotePath)

namespace sow.copilot

section proceed

variable {listing : Listing} {channel : KnowledgeChannel} {note : ProposedNote} {plan : KnowledgeMutationPlan} {w w' : KnowledgeWorld}

/-- The pending card of a plan. -/
def HoldsCard (channel : KnowledgeChannel) (note : ProposedNote) (plan : KnowledgeMutationPlan) (w : KnowledgeWorld) : Prop :=
  ∃ card, w.approvals.get (channel.cardIdOf note) = some card ∧ card.status = .pending ∧ card.planRef = some plan.planId ∧
    card.payloadHash = payloadHash channel.sha256 plan.data

theorem readApproval_none {table : Approvals} {id : JsString} (h : table.get id = none) :
    readApproval table id = .error (notFound (str "approval " ++ id)) := by
  unfold readApproval
  rw [h]

theorem readApproval_some {table : Approvals} {id : JsString} {card : Approval} (h : table.get id = some card) :
    readApproval table id = .ok card := by
  unfold readApproval
  rw [h]

/-- No call registers a workspace. -/
theorem workspaces_of_leaves {α : Type} {p : KnowledgeM α} {adm : KnowledgeOp → KnowledgeChoice → Prop} (h : Leaves (knowledgePorts listing) adm p w w') :
    w'.workspaces = w.workspaces := by
  induction h with
  | stop => rfl
  | @step op k w w' d hd rest ih =>
    refine ih.trans ?_
    cases op with
    | recordPlan entry => simp only [knowledgePorts]; split <;> rfl
    | updatePlan entry => simp only [knowledgePorts]; split <;> rfl
    | createApproval card => simp only [knowledgePorts]; split <;> rfl
    | _ => rfl

theorem knowledgeApprovalId_eq (hplan : plan.planId = channel.planIdOf note) :
    knowledgeApprovalId channel.tables channel.sha256 plan.planId note.workspaceId = channel.cardIdOf note := by
  unfold KnowledgeChannel.cardIdOf
  rw [hplan]

/-- Without a fault, a plan without a card gets one. -/
theorem cardOfPlan_new (hplan : plan.planId = channel.planIdOf note) (hfree : w.approvals.get (channel.cardIdOf note) = none) :
    wp (knowledgePorts listing) StoresProceed
      (cardOfPlan channel.tables channel.sha256 channel.sink plan note.workspaceId (payloadHash channel.sha256 plan.data))
      (fun _ => HoldsCard channel note plan) w := by
  have hid := knowledgeApprovalId_eq hplan
  unfold cardOfPlan
  rw [hid]
  refine wp_call fun d hd => ⟨.error (notFound (str "approval " ++ channel.cardIdOf note)), w, ?_, ?_⟩
  · simp only [knowledgePorts]
    rw [hd, Option.elim_none, readApproval_none hfree]
  refine wp_call fun d _ => ⟨_, _, rfl, ?_⟩
  generalize hcard : knowledgeCard channel.tables channel.sha256 channel.sink plan note.workspaceId (payloadHash channel.sha256 plan.data) d.clock =
    card
  have hcardId : card.id = channel.cardIdOf note := by rw [← hcard, ← hid]; rfl
  refine wp_call fun d hd => ⟨.ok card, { w with approvals := w.approvals.set card.id card }, ?_, ?_⟩
  · simp only [knowledgePorts]
    unfold insertApproval
    rw [hd, hcardId, hfree]
    rfl
  · refine ⟨card, ?_, by rw [← hcard]; rfl, by rw [← hcard]; rfl, by rw [← hcard]; rfl⟩
    rw [hcardId]
    exact Map.get_set_self _ _ _

/-- Without a fault, a plan with a card is answered with it. -/
theorem cardOfPlan_found (hplan : plan.planId = channel.planIdOf note) (hsound : NoteSound channel note w) (hadopted : Adopted channel note plan w)
    {card : Approval} (hcard : w.approvals.get (channel.cardIdOf note) = some card) :
    wp (knowledgePorts listing) StoresProceed
      (cardOfPlan channel.tables channel.sha256 channel.sink plan note.workspaceId (payloadHash channel.sha256 plan.data))
      (fun r w' => r = .ok (.ok ⟨channel.cardIdOf note, plan.planId, false⟩) ∧ w' = w) w := by
  unfold cardOfPlan
  rw [knowledgeApprovalId_eq hplan]
  refine wp_call fun d hd => ⟨.ok card, w, ?_, ?_⟩
  · simp only [knowledgePorts]
    rw [hd, Option.elim_none, readApproval_some hcard]
  · simp only [reconcileApproval_eq hsound hadopted hcard]
    exact ⟨rfl, rfl⟩

/-- Without a fault, a proposal for a note of a registered workspace reaches the store of the plans. -/
theorem wp_record (hws : plan.workspaceId = note.workspaceId) (hregistered : w.workspaces.rows.get note.workspaceId = some true)
    {Q : Except Cause (Except FailureVariant CopilotKnowledgeProposeReceipt) → KnowledgeWorld → Prop}
    (h : wp (knowledgePorts listing) StoresProceed (recordThenCard channel.tables channel.sha256 channel.sink plan note.workspaceId) Q w) :
    wp (knowledgePorts listing) StoresProceed (channel.record note plan) Q w := by
  unfold KnowledgeChannel.record recordKnowledge
  refine wp_call fun d hd => ⟨.ok (), w, ?_, ?_⟩
  · simp only [knowledgePorts]
    unfold readWorkspace
    rw [hd, hregistered]
    rfl
  · simp only
    rw [if_neg (not_not.mpr hws)]
    exact h

/-- Without a fault, the first plan of a note is stored. -/
theorem recordThenCard_new (hplan : plan.planId = channel.planIdOf note) (hfree : w.plans.get (channel.planIdOf note) = none)
    (hcard : w.approvals.get (channel.cardIdOf note) = none) :
    wp (knowledgePorts listing) StoresProceed (recordThenCard channel.tables channel.sha256 channel.sink plan note.workspaceId)
      (fun _ => HoldsCard channel note plan) w := by
  unfold recordThenCard
  refine wp_call fun d _ => ⟨_, _, rfl, ?_⟩
  refine wp_call fun d' hd => ⟨.ok (pendingRow channel note plan d.clock),
    { w with plans := w.plans.set plan.planId (pendingRow channel note plan d.clock) }, ?_, cardOfPlan_new hplan hcard⟩
  simp only [knowledgePorts]
  unfold insertPlan
  rw [hd, hplan, hfree]
  simp only [pendingRow, hplan]
  rfl

/-- Without a fault, a later plan of a note is compared with the stored one. -/
theorem recordThenCard_again (hplan : plan.planId = channel.planIdOf note) {row : PendingKnowledgeMutation}
    (hrow : w.plans.get (channel.planIdOf note) = some row)
    {Q : Except Cause (Except FailureVariant CopilotKnowledgeProposeReceipt) → KnowledgeWorld → Prop}
    (h : wp (knowledgePorts listing) StoresProceed
      (if row.payloadHash = payloadHash channel.sha256 plan.data then
        cardOfPlan channel.tables channel.sha256 channel.sink plan note.workspaceId (payloadHash channel.sha256 plan.data)
      else pure (.error planConflict)) Q w) :
    wp (knowledgePorts listing) StoresProceed (recordThenCard channel.tables channel.sha256 channel.sink plan note.workspaceId) Q w := by
  unfold recordThenCard
  refine wp_call fun d _ => ⟨_, _, rfl, wp_call fun d' hd => ⟨.error duplicateKey, w, ?_, ?_⟩⟩
  · simp only [knowledgePorts]
    unfold insertPlan
    rw [hd]
    simp only [hplan, hrow]
    rfl
  · have hconflict : duplicateKey.code = .conflict := by decide
    simp only
    rw [if_pos hconflict]
    refine wp_call fun d' hd => ⟨.ok row, w, ?_, h⟩
    simp only [knowledgePorts]
    unfold readPlan
    rw [hd, hplan, hrow]
    rfl

end proceed

section iff

variable {listing : Listing} {channel : KnowledgeChannel} {note : ProposedNote} {plan : KnowledgeMutationPlan} {w w' : KnowledgeWorld}

/-- Plans of one digest are one plan. -/
theorem canonicalBytes_eq (hsha : channel.sha256.Law) {a b : Json} (h : payloadHash channel.sha256 a = payloadHash channel.sha256 b) :
    canonicalBytes a = canonicalBytes b :=
  hsha.injective (List.append_cancel_left h)

theorem ids_of_proposes (hschema : KeepsIds channel.dispatch.schema) (hplan : channel.Proposes note plan) :
    plan.planId = channel.planIdOf note ∧ plan.workspaceId = note.workspaceId := by
  obtain ⟨intent, deps, hdeps, hpath, hderive⟩ := hplan
  obtain ⟨hid, hws⟩ := ids_of_derived hschema hderive (by rw [hdeps]; exact hpath)
  exact ⟨hid, hws.trans hdeps⟩

/-- No call fails. -/
def faultless (n : Nat) (_ : KnowledgeOp) : KnowledgeChoice :=
  ⟨none, true, str "2026-01-01T00:00:00Z", faultFree (str "2026-01-01T00:00:00Z") (.ok []) n .now⟩

theorem faultless_proceeds (n : Nat) (op : KnowledgeOp) : StoresProceed op (faultless n op) := rfl

/-- One run of a proposal meets what all of them meet. -/
theorem exists_of_wp {α : Type} {p : KnowledgeM α} {Q : Except Cause α → KnowledgeWorld → Prop} (h : wp (knowledgePorts listing) StoresProceed p Q w) :
    ∃ r w', Q r w' :=
  ⟨_, _, h.run faultless_proceeds 0⟩

section

variable (hplan : plan.planId = channel.planIdOf note) (hws : plan.workspaceId = note.workspaceId) (hsound : NoteSound channel note w)
  (hregistered : w.workspaces.rows.get note.workspaceId = some true)

include hplan hws hsound

/-- A proposal that starts where the note has no plan, or an undecided card, or no card for the plan, is honest. -/
theorem honestRecord_of_recordable (hsha : channel.sha256.Law) (hregistered : w.workspaces.rows.get note.workspaceId = some true)
    (h : Recordable channel note plan w) : HonestRecord listing channel note plan w := by
  have hspec : wpInv (knowledgePorts listing) (fun _ _ => True) (NoteSound channel note) (channel.record note plan) (RecordSpec channel note plan w) w :=
    record_spec hplan hws hsound
  refine ⟨fun hdecided => ?_, ?_, ?_⟩
  · cases hrow : w.plans.get (channel.planIdOf note) with
    | none =>
      have hcard : w.approvals.get (channel.cardIdOf note) = none := by
        cases hcard : w.approvals.get (channel.cardIdOf note) with
        | none => rfl
        | some card =>
          obtain ⟨-, row, hrow', -⟩ := hsound.bound card hcard
          rw [hrow] at hrow'
          cases hrow'
      exact wp_record hws hregistered (recordThenCard_new hplan hrow hcard)
    | some row =>
      rcases h row hrow with ⟨card, hcard, hundecided⟩ | ⟨hcard, hhash⟩
      · rw [hdecided card hcard] at hundecided
        cases hundecided
      · refine wp_record hws hregistered (recordThenCard_again hplan hrow ?_)
        rw [if_pos hhash]
        exact cardOfPlan_new hplan hcard
  · refine ((hspec.mono fun _ _ hsound' hrecord => And.intro hsound' hrecord).wp).mono ?_
    rintro r w' ⟨hsound', hrecord⟩ receipt hreceipt
    obtain ⟨⟨row, hrow, hhash⟩, href, card, hcard, hwhich⟩ := hrecord.receipt receipt hreceipt
    refine ⟨⟨card, href ▸ hcard, ?_⟩, row, hplan ▸ hrow, canonicalBytes_eq hsha ((hsound'.digest row hrow).symm.trans hhash)⟩
    rcases hwhich with hbefore | ⟨-, hpending⟩
    · obtain ⟨-, row', hrow', -⟩ := hsound.bound card hbefore
      rcases h row' hrow' with ⟨card', hcard', hundecided⟩ | ⟨hnone, -⟩
      · rw [hbefore] at hcard'
        rw [Option.some.inj hcard']
        exact hundecided
      · rw [hbefore] at hnone
        cases hnone
    · simp [isUndecided, hpending]
  · refine hspec.wp.mono fun r w' hrecord e he hcause => ?_
    obtain ⟨row, hrow, hhash⟩ := hrecord.conflict e he hcause
    rcases h row hrow with ⟨card, hcard, hundecided⟩ | ⟨-, hsame⟩
    · refine ⟨card, hcard, hundecided, ?_⟩
      obtain ⟨-, row', hrow', hbound⟩ := hsound.bound card hcard
      rw [hrow] at hrow'
      rw [← hbound, ← Option.some.inj hrow']
      exact hhash
    · exact absurd hsame hhash

/-- An honest proposal starts where the note has no plan, or an undecided card, or no card for the plan. -/
theorem recordable_of_honestRecord (hregistered : w.workspaces.rows.get note.workspaceId = some true)
    (h : HonestRecord listing channel note plan w) : Recordable channel note plan w := by
  intro row hrow
  by_cases hhash : row.payloadHash = payloadHash channel.sha256 plan.data
  · cases hcard : w.approvals.get (channel.cardIdOf note) with
    | none => exact .inr ⟨rfl, hhash⟩
    | some card =>
      -- The card answers the proposal, so it is undecided.
      have hruns : wp (knowledgePorts listing) StoresProceed (channel.record note plan)
          (fun r w' => r = .ok (.ok ⟨channel.cardIdOf note, plan.planId, false⟩) ∧ w' = w) w := by
        refine wp_record hws hregistered (recordThenCard_again hplan hrow ?_)
        rw [if_pos hhash]
        exact cardOfPlan_found hplan hsound ⟨row, hrow, hhash⟩ hcard
      obtain ⟨r, w', hreceipt, hr, rfl⟩ := exists_of_wp ((h.receipt.mono_adm fun _ _ _ => trivial).and hruns)
      obtain ⟨⟨card', hcard', hundecided⟩, -⟩ := hreceipt _ hr
      rw [hcard] at hcard'
      exact .inl ⟨card', hcard', hundecided⟩
  · -- The proposal is refused for a conflict, so a card is undecided.
    have hruns : wp (knowledgePorts listing) StoresProceed (channel.record note plan) (fun r _ => r = .ok (.error planConflict)) w := by
      refine wp_record hws hregistered (recordThenCard_again hplan hrow ?_)
      rw [if_neg hhash]
      rfl
    obtain ⟨r, -, hconflict, hr⟩ := exists_of_wp ((h.conflict.mono_adm fun _ _ _ => trivial).and hruns)
    obtain ⟨card, hcard, hundecided, -⟩ := hconflict _ hr rfl
    exact .inl ⟨card, hcard, hundecided⟩

end

/-- After every history of a note, a proposal is answered as it should be if and only if the note has no plan yet, or
    its card is undecided, or it has no card and its plan is the one proposed. -/
theorem honestRecord_iff_recordable (hsha : channel.sha256.Law) (hschema : KeepsIds channel.dispatch.schema) (hw : Unproposed channel note w)
    (hhistory : KnowledgeHistory listing channel note w w') (hregistered : w'.workspaces.rows.get note.workspaceId = some true) :
    ∀ plan, channel.Proposes note plan → (HonestRecord listing channel note plan w' ↔ Recordable channel note plan w') := by
  intro plan hproposes
  obtain ⟨hplan, hws⟩ := ids_of_proposes hschema hproposes
  have hsound := noteSound_of_history hschema hw hhistory
  exact ⟨recordable_of_honestRecord hplan hws hsound hregistered, honestRecord_of_recordable hplan hws hsound hsha hregistered⟩

end iff

section alpha

def alphaPath : Path := str "projects/personal-business/alpha.md"

def alphaNote : ProposedNote := ⟨str "personal-business", alphaPath⟩

/-- The status of the project `alpha`, as the model proposes it. -/
def alphaIntent : Json :=
  .obj [(str "projectId", .str (str "alpha")), (str "title", .str (str "Alpha")), (str "lifecycleState", .str (str "active"))]

def alphaDeps : CopilotProposeKnowledgeDeps := ⟨str "personal-business", ⟨str "s1", none⟩, false⟩

/-- The digests of the plan's identity, of the plan, and of the identity of its card. -/
def alphaDigests : KnownDigests where
  entries :=
    [(utf8 (str "[\"sow.idem.v1\",\"copilot.propose.project\",[[\"notepath\",\"projects/personal-business/alpha.md\"]]]"),
        str "cf69c4da906b7cc949f585cc9e3a3503050b623bb0da7580b420d66cd5f45e6a"),
      (utf8 (str "\x7b\"confidence\":0.5,\"creates\":[\x7b\"body\":\"# Alpha — Status\\n\\n<!-- kw:region:project-status -->\\n**Proposed lifecycle:** active\\n<!-- /kw:region:project-status -->\\n\",\"frontmatter\":\x7b\"lifecycleState\":\"active\",\"projectId\":\"alpha\",\"provenanceOrigin\":\"copilot_propose\",\"title\":\"Alpha\",\"workspaceId\":\"personal-business\"\x7d,\"path\":\"projects/personal-business/alpha.md\",\"title\":\"Alpha\"\x7d],\"expectedProjectId\":\"alpha\",\"externalActionProposals\":[],\"frontmatterUpdates\":[],\"linkMutations\":[],\"patches\":[],\"planId\":\"idem_cf69c4da906b7cc949f585cc9e3a3503050b623bb0da7580b420d66cd5f45e6a\",\"provenanceOrigin\":\"copilot_propose\",\"requiresApproval\":true,\"sourceRefs\":[\x7b\"sourceId\":\"s1\"\x7d],\"workspaceId\":\"personal-business\"\x7d"),
        str "a1a9847fb23a73d5328558b8b7a9acea35f85c519ab4f287fa6a55c272fc4f51"),
      (utf8 (str "[\"sow.idem.v1\",\"approval.pending.knowledge\",[[\"planref\",\"idem_cf69c4da906b7cc949f585cc9e3a3503050b623bb0da7580b420d66cd5f45e6a\"],[\"workspace\",\"personal-business\"]]]"),
        str "6d450403fb88ab6a042b647a8462fc989a9302b1fefb07e2ec4c8bba26a2a669")]
  distinct := by decide +kernel
  digits := digits_of_all (by decide +kernel)

def alphaCandidate : Json :=
  proposalCandidate asciiTables (tabulated alphaDigests) alphaDeps (str "alpha") (str "Alpha") (str "active") none alphaPath

def alphaSource : sow.knowledge_writer.SourceRef := ⟨str "s1", none⟩

theorem alphaPath_ne_nil : alphaPath ≠ [] := by decide

theorem alphaTitle_ne_nil : some (str "Alpha") ≠ some [] := by decide

theorem alphaPlanId_ne_blank : trim (proposePlanId asciiTables (tabulated alphaDigests) alphaPath) ≠ [] := by
  unfold tabulated alphaPath
  simp only [alphaDigests]
  repeat rw [str_ofList]
  decide +kernel

theorem alphaWorkspace_slug : sow.knowledge_writer.isWorkspaceSlug (str "personal-business") = true := by decide

theorem alphaSources_ne_nil : [alphaSource] ≠ [] := List.cons_ne_nil _ _

def alphaPlan : KnowledgeMutationPlan where
  planId := proposePlanId asciiTables (tabulated alphaDigests) alphaPath
  workspaceId := str "personal-business"
  sourceRefs := [alphaSource]
  creates := [⟨alphaPath, some (str "Alpha"), composeProjectStatusNote (str "Alpha") (composeRegionBody (str "active") none),
    some (.ofList [(str "projectId", some (.str (str "alpha"))), (str "title", some (.str (str "Alpha"))),
      (str "workspaceId", some (.str (str "personal-business"))), (str "lifecycleState", some (.str (str "active"))),
      (str "provenanceOrigin", some (.str (str "copilot_propose")))]), alphaPath_ne_nil, alphaTitle_ne_nil⟩]
  patches := []
  linkMutations := []
  frontmatterUpdates := []
  data := alphaCandidate
  planId_ne_blank := alphaPlanId_ne_blank
  workspaceId_slug := alphaWorkspace_slug
  sourceRefs_ne_nil := alphaSources_ne_nil

/-- The schema that reads the plan for `alpha`, and nothing else. -/
def alphaSchema (candidate : Json) : Option KnowledgeMutationPlan := if candidate = alphaCandidate then some alphaPlan else none

theorem alphaSchema_candidate : alphaSchema alphaCandidate = some alphaPlan := by
  unfold alphaSchema
  rw [if_pos rfl]

def alphaChannel : KnowledgeChannel where
  tables := asciiTables
  sink := ⟨str "copilot", 86400000, fun now _ => now⟩
  dispatch := {
    commit := {
      deps := memoryDeps (tabulated alphaDigests) alphaPlan none
      actor := str "KnowledgeWriter"
      sourceEventRef := str "copilot.propose"
      workflowRunRef := ⟨str "wf-1", str "copilot_propose", str "running", str "wf-key", []⟩
      expectedBaseRevision := none }
    slugs := asciiSlugs
    schema := alphaSchema }

theorem alphaChannel_law : alphaChannel.sha256.Law := tabulated_law alphaDigests

theorem alphaChannel_keepsIds : KeepsIds alphaChannel.dispatch.schema := by
  intro fields plan h
  change alphaSchema (.obj fields) = some plan at h
  unfold alphaSchema at h
  split at h
  · next hsame =>
    obtain rfl := Option.some.inj h
    unfold alphaCandidate proposalCandidate at hsame
    rw [Json.obj.inj hsame]
    exact ⟨rfl, rfl⟩
  · cases h

theorem alphaChannel_proposes : alphaChannel.Proposes alphaNote alphaPlan := by
  refine ⟨alphaIntent, alphaDeps, rfl, ?_, ?_⟩
  · decide +kernel
  · have hid : trim (str "alpha") = str "alpha" := by decide
    have htitle : trim (str "Alpha") = str "Alpha" := by decide
    have hparsed : parseIntent alphaIntent = some ⟨str "alpha", str "Alpha", str "active", none⟩ := rfl
    refine derive_eq_ok hparsed ?_ ?_ (by decide) rfl (show _ = some alphaPath from ?_) ?_
    · rw [hid]
      decide
    · rw [htitle]
      decide
    · rw [hid]
      decide +kernel
    · rw [hid, htitle, show alphaChannel.dispatch.schema = alphaSchema from rfl]
      exact alphaSchema_candidate

/-- The workspace is registered, and nothing is proposed. -/
def alphaStart : KnowledgeWorld where
  kw := ⟨.empty, .empty, []⟩
  plans := .empty
  approvals := .empty
  workspaces := {
    rows := Map.empty.set (str "personal-business") true
    slug := by
      intro ws h
      rw [Map.get_set] at h
      split at h
      · next heq =>
        rw [← heq]
        decide
      · cases h }

theorem alphaStart_unproposed : Unproposed alphaChannel alphaNote alphaStart := ⟨rfl, rfl⟩

theorem honestRecord_iff_recordable_alpha :
    HonestRecord memoryListing alphaChannel alphaNote alphaPlan alphaStart ↔ Recordable alphaChannel alphaNote alphaPlan alphaStart :=
  honestRecord_iff_recordable alphaChannel_law alphaChannel_keepsIds alphaStart_unproposed .refl rfl alphaPlan
    alphaChannel_proposes

/-- The status is proposed and rejected; when it is proposed again, the answer refers to the rejected card. -/
theorem alpha_not_honestRecord :
    ∃ w, KnowledgeHistory memoryListing alphaChannel alphaNote alphaStart w ∧ ¬ HonestRecord memoryListing alphaChannel alphaNote alphaPlan w := by
  obtain ⟨hplan, hws⟩ := ids_of_proposes alphaChannel_keepsIds alphaChannel_proposes
  have hnew : wp (knowledgePorts memoryListing) StoresProceed (alphaChannel.record alphaNote alphaPlan)
      (fun _ => HoldsCard alphaChannel alphaNote alphaPlan) alphaStart :=
    wp_record hws rfl (recordThenCard_new hplan rfl rfl)
  obtain ⟨w, hleaves, card, hcard, hpending⟩ : ∃ w, Leaves (knowledgePorts memoryListing) (fun _ _ => True)
      (alphaChannel.record alphaNote alphaPlan) alphaStart w ∧
        ∃ card, w.approvals.get (alphaChannel.cardIdOf alphaNote) = some card ∧ card.status = .pending := by
    obtain ⟨card, hcard, hpending, -, -⟩ := hnew.run faultless_proceeds 0
    exact ⟨_, leaves_run (fun _ _ => trivial) 0, card, hcard, hpending⟩
  have hedge : approvalMachine.transition card.status .rejected = .ok .rejected := by
    rw [hpending]
    decide
  have hproposed : KnowledgeHistory memoryListing alphaChannel alphaNote alphaStart w := .single (.record alphaChannel_proposes hleaves)
  have hhistory := hproposed.tail (.decide (str "owner") .mac none hcard hedge)
  refine ⟨_, hhistory, fun h => ?_⟩
  have hsound := noteSound_of_history alphaChannel_keepsIds alphaStart_unproposed hhistory
  have hregistered : w.workspaces.rows.get alphaNote.workspaceId = some true := by
    rw [workspaces_of_leaves hleaves]
    rfl
  have hnow : (w.withCard (alphaChannel.cardIdOf alphaNote) (decidedCard card .rejected (str "owner") .mac none)).approvals.get
      (alphaChannel.cardIdOf alphaNote) = some (decidedCard card .rejected (str "owner") .mac none) := Map.get_set_self _ _ _
  obtain ⟨-, row, hrow, -⟩ := hsound.bound _ hnow
  rcases recordable_of_honestRecord hplan hws hsound hregistered h row hrow with ⟨card', hcard', hundecided⟩ | ⟨hnone, -⟩
  · rw [hnow] at hcard'
    rw [← Option.some.inj hcard'] at hundecided
    cases hundecided
  · rw [hnow] at hnone
    cases hnone

end alpha

end sow.copilot
