import Sow.Effect.Interleave
import Sow.Effect.Wp
import Sow.Worker.Composition.DispositionDurable

open sow.js sow.effect sow.db sow.contracts sow.workflows
open sow.knowledge_writer (Sha256 AuditRecord)

namespace sow.worker

/-- A source that is parked, and not yet decided on. -/
structure ParkedSource where
  row : SourceDispositionRow
  undecided : row.dispositionKey = none

/-- A run on a parked source. -/
structure TriageCall (parked : ParkedSource) where
  input : IngestionTriageInput
  on : input.disposition.sourceId = parked.row.sourceId

/-- Two decisions route alike. -/
def SameRouting (d d' : TriageDisposition) : Prop :=
  d'.workspaceId = d.workspaceId ∧ d'.projectId = d.projectId ∧ d'.sensitivity = d.sensitivity

section runs

variable (tables : CaseTables) (sha256 : Sha256) (deps : DurableDispositionStoreDeps) {parked : ParkedSource} (registry : Option (List JsString))
  {ι : Type} [DecidableEq ι] (calls : ι → TriageCall parked)

/-- Triage runs, concurrently. -/
abbrev TriagePool (ι : Type) := Pool ι TriageOp TriageOp.Ret DbError IngestionTriageOutcome TriageWorld

/-- The runs before any of them has moved. -/
def triageCalls : TriagePool ι := ⟨fun i => triage tables sha256 deps (calls i).input, ⟨parked.row, [], registry, []⟩⟩

/-- The runs after a schedule; a run that is not scheduled any more has crashed. -/
abbrev triageRun (es : List (ι × TriageChoice)) : TriagePool ι := (triageCalls tables sha256 deps registry calls).run triageDb es

/-- The key of the decision of a run. -/
abbrev callKey (i : ι) : JsString := dispositionKey tables sha256 (calls i).input.disposition

/-- The run is about to append its audit record. -/
def Appends (es : List (ι × TriageChoice)) (i : ι) : Prop :=
  ∃ record k, (triageRun tables sha256 deps registry calls es).thread i = .call (TriageOp.append record) k

/-- The run is about to record its decision. -/
def RecordsNow (es : List (ι × TriageChoice)) (i : ι) : Prop :=
  ∃ sourceId key auditRef recordedAt k, (triageRun tables sha256 deps registry calls es).thread i =
    .call (TriageOp.recordDisposition sourceId key auditRef recordedAt) k

/-- The statement is run, though its answer may be lost. -/
def TriageLands (d : TriageChoice) : Prop := ∀ cause, d.fault ≠ .failed cause

/-- The decision of the run is the one that has been recorded. -/
def Records (es : List (ι × TriageChoice)) (j : ι) : Prop :=
  ∃ es₁ d es₂, es = es₁ ++ (j, d) :: es₂ ∧ RecordsNow tables sha256 deps registry calls es₁ j ∧ TriageLands d ∧
    (triageRun tables sha256 deps registry calls es₁).world.row.dispositionKey = none

/-- A run without faults, whose re-entry is driven to its end. -/
def FaultFree (_ : TriageOp) (d : TriageChoice) : Prop := d.fault = .none ∧ ∃ reentered, d.outcome = .ok reentered

/-- A run that resolves. -/
def Resolves (r : Except DbError IngestionTriageOutcome) : Prop := ∃ outcome, r = .ok outcome ∧ outcome.resolved = true

/-- From a world, some decision for a registered workspace gets the source out of the inbox. -/
def CanResolve (parked : ParkedSource) (w : TriageWorld) : Prop :=
  ∃ (call : TriageCall parked) (ids : List JsString), w.registry = some ids ∧ call.input.disposition.workspaceId ∈ ids ∧
    wp triageDb FaultFree (triage tables sha256 deps call.input) (fun r _ => Resolves r) w

/-- One decision is recorded and audited, every run that resolves has applied it, and none is stranded. -/
structure Converges (schedule : List (ι × TriageChoice)) : Prop where
  once : ∀ es es' es'' key, schedule = es ++ es' ++ es'' → (triageRun tables sha256 deps registry calls es).world.row.dispositionKey = some key →
    (triageRun tables sha256 deps registry calls (es ++ es')).world.row.dispositionKey = some key
  reentered : ∀ i outcome, (triageRun tables sha256 deps registry calls schedule).thread i = .pure outcome → outcome.resolved = true →
    ∃ j, Records tables sha256 deps registry calls schedule j ∧
      outcome.context.reScopedSource = some (reScoped (calls j).input.disposition parked.row.sourceEnvelope) ∧
      (reScoped (calls j).input.disposition parked.row.sourceEnvelope, (calls i).input.run.idempotencyKey) ∈
        (triageRun tables sha256 deps registry calls schedule).world.reentered
  audited : (triageRun tables sha256 deps registry calls schedule).world.audit.length =
    if (triageRun tables sha256 deps registry calls schedule).world.row.dispositionKey.isSome then 1 else 0
  unstranded : (∀ i outcome, (triageRun tables sha256 deps registry calls schedule).thread i = .pure outcome → outcome.resolved = false) →
    (∃ ids, registry = some ids ∧ ids ≠ []) → CanResolve tables sha256 deps parked (triageRun tables sha256 deps registry calls schedule).world

/-- What the steps of runs meet that converge. -/
structure Careful (schedule : List (ι × TriageChoice)) : Prop where
  /-- A run that records names a registered workspace. -/
  registered : ∀ es i d es', schedule = es ++ (i, d) :: es' → RecordsNow tables sha256 deps registry calls es i →
    ∃ ids, registry = some ids ∧ (calls i).input.disposition.workspaceId ∈ ids
  /-- Only the first audit record is appended. -/
  first : ∀ es i d es', schedule = es ++ (i, d) :: es' → Appends tables sha256 deps registry calls es i → TriageLands d →
    (triageRun tables sha256 deps registry calls es).world.audit = []
  /-- A run that appends does not crash, or meet a fault, before it has recorded. -/
  followed : ∀ es i d es', schedule = es ++ (i, d) :: es' → Appends tables sha256 deps registry calls es i → TriageLands d →
    ∃ es₁ d' es₂, es' = es₁ ++ (i, d') :: es₂ ∧ RecordsNow tables sha256 deps registry calls (es ++ (i, d) :: es₁) i ∧ TriageLands d'
  /-- Decisions under one key route alike. -/
  apart : ∀ i j, callKey tables sha256 calls i = callKey tables sha256 calls j → SameRouting (calls i).input.disposition (calls j).input.disposition
  /-- The redaction gate lets the audit record of some decision for a registered workspace pass. -/
  admitted : ∀ ids, registry = some ids → ids ≠ [] → ∃ call : TriageCall parked, call.input.disposition.workspaceId ∈ ids ∧
    ∀ occurredAt, deps.isRedactionSafe (dispositionAuditRecord deps (dispositionKey tables sha256 call.input.disposition) call.input.disposition occurredAt) = true

end runs

section protocol

/-- How far a run has come: it has its audit record in the log, its decision is the recorded one, and then it
    has read the source, or the source has been driven through the pipeline. -/
inductive TriageState where
  | fresh
  | appended
  | settled (read : Option SourceEnvelope)
  | entered (source : SourceEnvelope)

variable (tables : CaseTables) (sha256 : Sha256)

def triageProtocol (input : IngestionTriageInput) : Protocol TriageOp TriageOp.Ret DbError TriageState where
  allows s
    | .append _ => s = .fresh
    | .recordDisposition sourceId key auditRef _ => s = .appended ∧ sourceId = input.disposition.sourceId ∧
        key = dispositionKey tables sha256 input.disposition ∧ auditRef = dispositionAuditRef key
    | .getByDispositionKey key => key = dispositionKey tables sha256 input.disposition
    | .reenter source idempotencyKey => idempotencyKey = input.run.idempotencyKey ∧
        ∃ src, s = .settled (some src) ∧ source = reScoped input.disposition src
    | _ => True
  next s
    | .append _, .ok _ => .appended
    | .recordDisposition _ _ _ _, .ok (.ok _) => .settled none
    | .getByDispositionKey _, .ok (some row) => if row.auditRef.isSome then .settled none else s
    | .getBySourceId _, .ok (some row) =>
      match s with
      | .settled _ => .settled (some row.sourceEnvelope)
      | s => s
    | .reenter source _, .ok (.ok _) => .entered source
    | _, _ => s

/-- A run that resolves has driven its source through the pipeline. -/
def Resolved (s : TriageState) (r : Except DbError IngestionTriageOutcome) : Prop :=
  ∀ outcome, r = .ok outcome → outcome.resolved = true → ∃ source, s = .entered source ∧ outcome.context.reScopedSource = some source

theorem resolved_error {s : TriageState} {e : DbError} : Resolved s (.error e) := by
  intro outcome houtcome
  cases houtcome

variable {tables sha256} {deps : DurableDispositionStoreDeps} {input : IngestionTriageInput} {s : TriageState} {α : Type}
  {Q : TriageState → Except DbError α → Prop}

/-- A store method answers with a value or with its error. -/
theorem keeps_storeMethod {op : TriageOp} {f : DbResult op.Ret → TriageM α} (hop : (triageProtocol tables sha256 input).allows s op)
    (hf : ∀ r, (triageProtocol tables sha256 input).Keeps Q (f r) ((triageProtocol tables sha256 input).next s op r)) :
    (triageProtocol tables sha256 input).Keeps Q (storeMethod op >>= f) s := by
  unfold storeMethod
  rw [Protocol.keeps_bind, Protocol.keeps_attempt, Protocol.keeps_perform]
  exact ⟨hop, hf⟩

/-- A key is there if the decision of the run has been recorded. -/
theorem getByKey_keeps : (triageProtocol tables sha256 input).Keeps
    (fun s' r => (∃ ref, r = .ok (some ref) ∧ s' = .settled none) ∨ r = .ok none ∧ s' = s)
    (getByKey (dispositionKey tables sha256 input.disposition)) s := by
  unfold getByKey
  refine keeps_storeMethod rfl fun r => ?_
  cases r with
  | error e => exact .inr ⟨rfl, rfl⟩
  | ok row =>
    cases row with
    | none => exact .inr ⟨rfl, rfl⟩
    | some row =>
      obtain ⟨sourceId, sourceEnvelope, idempotencyKey, state, key, auditRef, workspaceId, parkedAt, dispositionedAt⟩ := row
      cases auditRef with
      | none => exact .inr ⟨rfl, rfl⟩
      | some ref => exact .inl ⟨ref, rfl, rfl⟩

theorem recordAudited_keeps : (triageProtocol tables sha256 input).Keeps (fun s' r => ∀ ref, r = .ok (.ok ref) → s' = .settled none)
    (recordAudited (dispositionKey tables sha256 input.disposition) input.disposition) .appended := by
  unfold recordAudited
  refine Protocol.keeps_call trivial (fun recordedAt => ?_) fun e => nofun
  refine keeps_storeMethod ⟨rfl, rfl, rfl, rfl⟩ fun r => ?_
  cases r with
  | error e => exact nofun
  | ok recorded =>
    cases recorded with
    | error e => exact nofun
    | ok row => exact fun _ _ => rfl

theorem insertDisposition_keeps : (triageProtocol tables sha256 input).Keeps (fun s' r => ∀ ref, r = .ok (.ok ref) → s' = .settled none)
    (insertDisposition deps (dispositionKey tables sha256 input.disposition) input.disposition) .fresh := by
  unfold insertDisposition
  refine Protocol.keeps_call trivial (fun occurredAt => ?_) fun e => nofun
  dsimp only
  split_ifs
  · exact nofun
  · refine keeps_storeMethod rfl fun r => ?_
    cases r with
    | error e => exact nofun
    | ok answer => exact recordAudited_keeps

/-- A run whose decision counts as recorded goes on from the recorded decision. -/
theorem recordDisposition_keeps : (triageProtocol tables sha256 input).Keeps (fun s' r => ∀ outcome, r = .ok (.ok outcome) → s' = .settled none)
    (recordDisposition tables sha256 (createDurableDispositionStore deps) input.disposition) .fresh := by
  unfold recordDisposition createDurableDispositionStore isParked
  simp only [bind_assoc]
  refine keeps_storeMethod trivial fun r => ?_
  have hfresh : (triageProtocol tables sha256 input).next .fresh (.getBySourceId input.disposition.sourceId) r = .fresh := by
    cases r with
    | error e => rfl
    | ok row => cases row <;> rfl
  rw [hfresh]
  cases r with
  | error e => exact nofun
  | ok row =>
    simp only [pure_bind]
    split_ifs
    · exact nofun
    · rw [Protocol.keeps_bind]
      refine getByKey_keeps.mono fun s' r hr => ?_
      rcases hr with ⟨ref, rfl, rfl⟩ | ⟨rfl, rfl⟩
      · exact fun _ _ => rfl
      · dsimp only
        rw [Protocol.keeps_bind]
        refine insertDisposition_keeps.mono fun s' r hr => ?_
        cases r with
        | error e => exact nofun
        | ok inserted =>
          cases inserted with
          | ok ref => exact fun _ _ => hr ref rfl
          | error message =>
            dsimp only
            rw [Protocol.keeps_bind]
            refine getByKey_keeps.mono fun s'' r hr => ?_
            rcases hr with ⟨ref, rfl, rfl⟩ | ⟨rfl, rfl⟩
            · exact fun _ _ => rfl
            · exact nofun

/-- The source that a run re-enters is the parked one, under its decision. -/
theorem registryValidatedRescope_keeps : (triageProtocol tables sha256 input).Keeps
    (fun s' r => ∀ source, r = .ok (.ok source) → ∃ src, s' = .settled (some src) ∧ source = reScoped input.disposition src)
    (registryValidatedRescope input.disposition) (.settled none) := by
  unfold registryValidatedRescope resolveKnownWorkspace
  simp only [bind_assoc]
  refine keeps_storeMethod trivial fun r => ?_
  cases r with
  | error e => exact nofun
  | ok ids =>
    cases ids with
    | none => exact nofun
    | some ids =>
      simp only [pure_bind]
      split_ifs
      · exact nofun
      · unfold rescopeSource readParked
        simp only [bind_assoc]
        refine keeps_storeMethod trivial fun r => ?_
        cases r with
        | error e => exact nofun
        | ok row =>
          cases row with
          | none => exact nofun
          | some row =>
            intro source hsource
            exact ⟨row.sourceEnvelope, rfl, (Except.ok.inj (Except.ok.inj hsource)).symm⟩

theorem surfaceTriage_keeps {resolved : Except WorkflowRunError ResolveRunOutcome} {context : IngestionTriageContext} {phase : TriagePhase}
    {message auditRef : JsString} : (triageProtocol tables sha256 input).Keeps Resolved (surfaceTriage input resolved context phase message auditRef) s := by
  unfold surfaceTriage
  refine Protocol.keeps_call trivial (fun answer => ?_) fun e => resolved_error
  intro outcome houtcome hresolved
  rw [← Except.ok.inj houtcome] at hresolved
  cases hresolved

theorem rescopeTriage_keeps {resolved : Except WorkflowRunError ResolveRunOutcome} {recorded : RecordDispositionOutcome} {deps : IngestionTriageDeps}
    (hdeps : deps.rescope = registryValidatedRescope) :
    (triageProtocol tables sha256 input).Keeps Resolved (rescopeTriage input deps resolved recorded) (.settled none) := by
  unfold rescopeTriage
  rw [hdeps, Protocol.keeps_bind]
  refine registryValidatedRescope_keeps.mono fun s' r hr => ?_
  cases r with
  | error e => exact resolved_error
  | ok answer =>
    cases answer with
    | error e => exact surfaceTriage_keeps
    | ok source =>
      obtain ⟨src, rfl, rfl⟩ := hr source rfl
      dsimp only
      unfold reenterTriage
      refine Protocol.keeps_call ⟨rfl, src, rfl, rfl⟩ (fun ran => ?_) fun e => resolved_error
      cases ran with
      | error message => exact surfaceTriage_keeps
      | ok reentered =>
        intro outcome houtcome _
        rw [← Except.ok.inj houtcome]
        exact ⟨_, rfl, rfl⟩

theorem triage_keeps : (triageProtocol tables sha256 input).Keeps Resolved (triage tables sha256 deps input) .fresh := by
  unfold triage runIngestionTriage
  refine Protocol.keeps_call trivial (fun resolved => ?_) fun e => resolved_error
  rw [Protocol.keeps_bind]
  refine recordDisposition_keeps.mono fun s' r hr => ?_
  cases r with
  | error e => exact resolved_error
  | ok recorded =>
    cases recorded with
    | error e => exact surfaceTriage_keeps
    | ok outcome =>
      rw [hr outcome rfl]
      exact rescopeTriage_keeps rfl

end protocol

section step

variable {d : TriageChoice} {w : TriageWorld} {op : TriageOp}

/-- A decision stays, and the logs are appended to. -/
structure Grows (w w' : TriageWorld) : Prop where
  sourceId : w'.row.sourceId = w.row.sourceId
  source : w'.row.sourceEnvelope = w.row.sourceEnvelope
  decided : ∀ key, w.row.dispositionKey = some key → w'.row.dispositionKey = some key ∧ w'.row.auditRef = w.row.auditRef
  audit : ∃ more, w'.audit = w.audit ++ more
  registry : w'.registry = w.registry
  reentered : ∃ more, w'.reentered = w.reentered ++ more

theorem Grows.refl : Grows w w := ⟨rfl, rfl, fun _ h => ⟨h, rfl⟩, ⟨[], (List.append_nil _).symm⟩, rfl, ⟨[], (List.append_nil _).symm⟩⟩

theorem Grows.trans {w' w'' : TriageWorld} (h : Grows w w') (h' : Grows w' w'') : Grows w w'' where
  sourceId := h'.sourceId.trans h.sourceId
  source := h'.source.trans h.source
  decided key hkey := by
    obtain ⟨hkey', href⟩ := h.decided key hkey
    obtain ⟨hkey'', href'⟩ := h'.decided key hkey'
    exact ⟨hkey'', href'.trans href⟩
  audit := by
    obtain ⟨more, hmore⟩ := h.audit
    obtain ⟨more', hmore'⟩ := h'.audit
    exact ⟨more ++ more', by rw [hmore', hmore, List.append_assoc]⟩
  registry := h'.registry.trans h.registry
  reentered := by
    obtain ⟨more, hmore⟩ := h.reentered
    obtain ⟨more', hmore'⟩ := h'.reentered
    exact ⟨more ++ more', by rw [hmore', hmore, List.append_assoc]⟩

theorem grows_run : Grows w (runTriageOp d w op).2 := by
  cases op with
  | append record => exact ⟨rfl, rfl, fun _ h => ⟨h, rfl⟩, ⟨[record], rfl⟩, rfl, ⟨[], (List.append_nil _).symm⟩⟩
  | reenter source key => exact ⟨rfl, rfl, fun _ h => ⟨h, rfl⟩, ⟨[], (List.append_nil _).symm⟩, rfl, ⟨[(source, key)], rfl⟩⟩
  | recordDisposition sourceId key auditRef recordedAt =>
    dsimp only [runTriageOp]
    split_ifs with hsource hdecided
    · exact .refl
    · exact .refl
    · refine ⟨rfl, rfl, fun key' hkey => absurd ?_ hdecided, ⟨[], (List.append_nil _).symm⟩, rfl, ⟨[], (List.append_nil _).symm⟩⟩
      rw [hkey]
      rfl
  | _ => exact .refl

/-- A call is answered, or fails; then it may have run. -/
theorem exec_triage (d : TriageChoice) (w : TriageWorld) (op : TriageOp) :
    triageDb.exec w op d = (.ok (runTriageOp d w op).1, (runTriageOp d w op).2) ∧ TriageLands d ∨
      (∃ e, triageDb.exec w op d = (.error e, (runTriageOp d w op).2)) ∧ TriageLands d ∨
      ∃ e, triageDb.exec w op d = (.error e, w) ∧ d.fault = .failed e := by
  unfold triageDb TriageLands
  obtain ⟨resolved, reading, outcome, fault⟩ := d
  cases fault with
  | none => exact .inl ⟨rfl, nofun⟩
  | failed e => exact .inr (.inr ⟨e, rfl, rfl⟩)
  | unknown e => exact .inr (.inl ⟨⟨e, rfl⟩, nofun⟩)

theorem grows_exec : Grows w (triageDb.exec w op d).2 := by
  rcases exec_triage d w op with ⟨h, -⟩ | ⟨⟨e, h⟩, -⟩ | ⟨e, h, -⟩
  · rw [h]
    exact grows_run
  · rw [h]
    exact grows_run
  · rw [h]
    exact .refl

/-- A call that decides. -/
theorem decides_run (hw : w.row.dispositionKey = none) {key : JsString} (hkey : (runTriageOp d w op).2.row.dispositionKey = some key) :
    ∃ sourceId auditRef recordedAt, op = .recordDisposition sourceId key auditRef recordedAt ∧ (runTriageOp d w op).2.row.auditRef = some auditRef := by
  cases op with
  | recordDisposition sourceId key' auditRef recordedAt =>
    dsimp only [runTriageOp] at hkey ⊢
    split_ifs at hkey ⊢
    · rw [hw] at hkey
      cases hkey
    · rw [hw] at hkey
      cases hkey
    · obtain rfl := Option.some.inj hkey
      exact ⟨sourceId, auditRef, recordedAt, rfl, rfl⟩
  | _ =>
    exfalso
    change w.row.dispositionKey = some key at hkey
    rw [hw] at hkey
    cases hkey

/-- A decision was there, or the call decides. -/
theorem exec_decides {key : JsString} (hkey : (triageDb.exec w op d).2.row.dispositionKey = some key) :
    w.row.dispositionKey = some key ∨ w.row.dispositionKey = none ∧ TriageLands d ∧ ∃ sourceId auditRef recordedAt,
      op = .recordDisposition sourceId key auditRef recordedAt ∧ (triageDb.exec w op d).2.row.auditRef = some auditRef := by
  cases hw : w.row.dispositionKey with
  | some key' =>
    left
    have hstays := (grows_exec.decided key' hw).1.symm.trans hkey
    exact hstays
  | none =>
    right
    have hrun : ∀ r, triageDb.exec w op d = (r, (runTriageOp d w op).2) → ∃ sourceId auditRef recordedAt,
        op = .recordDisposition sourceId key auditRef recordedAt ∧ (triageDb.exec w op d).2.row.auditRef = some auditRef := by
      intro r h
      rw [h] at hkey ⊢
      exact decides_run hw hkey
    rcases exec_triage d w op with ⟨h, heffect⟩ | ⟨⟨e, h⟩, heffect⟩ | ⟨e, h, -⟩
    · exact ⟨rfl, heffect, hrun _ h⟩
    · exact ⟨rfl, heffect, hrun _ h⟩
    · rw [h, hw] at hkey
      cases hkey

end step

section run

variable {tables : CaseTables} {sha256 : Sha256} {deps : DurableDispositionStoreDeps} {parked : ParkedSource} {registry : Option (List JsString)}
  {ι : Type} [DecidableEq ι] {calls : ι → TriageCall parked} {es : List (ι × TriageChoice)} {s : ι → TriageState} {w : TriageWorld}

theorem grows_triageRun (es es' : List (ι × TriageChoice)) :
    Grows (triageRun tables sha256 deps registry calls es).world (triageRun tables sha256 deps registry calls (es ++ es')).world := by
  induction es' using List.reverseRecOn with
  | nil =>
    rw [List.append_nil]
    exact .refl
  | append_singleton es' e ih =>
    obtain ⟨i, d⟩ := e
    have hconcat : triageRun tables sha256 deps registry calls (es ++ es' ++ [(i, d)]) =
        (triageRun tables sha256 deps registry calls (es ++ es')).step triageDb (i, d) := Pool.run_concat _ _
    rw [← List.append_assoc, hconcat]
    rcases Pool.step_cases (h := triageDb) (triageRun tables sha256 deps registry calls (es ++ es')) i d with hidle | ⟨op, k, hcall, hmove⟩
    · rw [hidle]
      exact ih
    · rw [hmove]
      exact ih.trans grows_exec

theorem Records.append {j : ι} (h : Records tables sha256 deps registry calls es j) (es' : List (ι × TriageChoice)) :
    Records tables sha256 deps registry calls (es ++ es') j := by
  obtain ⟨es₁, d, es₂, hes, hrest⟩ := h
  exact ⟨es₁, d, es₂ ++ es', by rw [hes]; simp, hrest⟩

/-- What a run has come to is in the stores. -/
structure Placed (tables : CaseTables) (sha256 : Sha256) (call : TriageCall parked) (s : TriageState) (w : TriageWorld) : Prop where
  settled : ∀ read, s = .settled read → w.row.dispositionKey = some (dispositionKey tables sha256 call.input.disposition)
  read : ∀ src, s = .settled (some src) → src = parked.row.sourceEnvelope
  entered : ∀ source, s = .entered source → w.row.dispositionKey = some (dispositionKey tables sha256 call.input.disposition) ∧
    source = reScoped call.input.disposition parked.row.sourceEnvelope ∧ (source, call.input.run.idempotencyKey) ∈ w.reentered
  appended : s = .appended → w.audit ≠ []

theorem Placed.grows {call : TriageCall parked} {s : TriageState} {w' : TriageWorld} (h : Placed tables sha256 call s w) (hgrows : Grows w w') :
    Placed tables sha256 call s w' where
  settled read hs := (hgrows.decided _ (h.settled read hs)).1
  read := h.read
  entered source hs := by
    obtain ⟨hkey, hsource, hmem⟩ := h.entered source hs
    obtain ⟨more, hmore⟩ := hgrows.reentered
    refine ⟨(hgrows.decided _ hkey).1, hsource, ?_⟩
    rw [hmore]
    exact List.mem_append_left _ hmem
  appended hs := by
    obtain ⟨more, hmore⟩ := hgrows.audit
    rw [hmore]
    exact List.append_ne_nil_of_left_ne_nil (h.appended hs) more

/-- An answered call leaves its run in its place. -/
theorem Placed.answered {call : TriageCall parked} {s : TriageState} {op : TriageOp} (h : Placed tables sha256 call s w)
    (hparked : w.row.sourceEnvelope = parked.row.sourceEnvelope) (hallows : (triageProtocol tables sha256 call.input).allows s op) (d : TriageChoice) :
    Placed tables sha256 call ((triageProtocol tables sha256 call.input).next s op (.ok (runTriageOp d w op).1)) (runTriageOp d w op).2 := by
  have hgrows : Placed tables sha256 call s (runTriageOp d w op).2 := h.grows grows_run
  cases op with
  | resolveRun input => exact hgrows
  | now => exact hgrows
  | getRegistry => exact hgrows
  | surface failure => exact hgrows
  | append record =>
    refine ⟨nofun, nofun, nofun, fun _ => ?_⟩
    exact List.append_ne_nil_of_right_ne_nil _ (List.cons_ne_nil _ _)
  | getBySourceId sourceId =>
    by_cases hsource : sourceId = w.row.sourceId
    · have hanswer : (runTriageOp d w (.getBySourceId sourceId)).1 = some w.row := if_pos hsource
      rw [hanswer]
      cases s with
      | settled read =>
        refine ⟨fun _ _ => h.settled read rfl, fun src hsrc => ?_, nofun, nofun⟩
        cases hsrc
        exact hparked
      | fresh => exact hgrows
      | appended => exact hgrows
      | entered source => exact hgrows
    · have hanswer : (runTriageOp d w (.getBySourceId sourceId)).1 = none := if_neg hsource
      rw [hanswer]
      exact hgrows
  | getByDispositionKey key =>
    by_cases hkey : w.row.dispositionKey = some key
    · have hanswer : (runTriageOp d w (.getByDispositionKey key)).1 = some w.row := if_pos hkey
      rw [hanswer]
      change Placed tables sha256 call (if w.row.auditRef.isSome then .settled none else s) w
      split_ifs
      · refine ⟨fun _ _ => ?_, nofun, nofun, nofun⟩
        rw [hkey, show key = _ from hallows]
      · exact h
    · have hanswer : (runTriageOp d w (.getByDispositionKey key)).1 = none := if_neg hkey
      rw [hanswer]
      exact hgrows
  | recordDisposition sourceId key auditRef recordedAt =>
    obtain ⟨rfl, -, rfl, -⟩ := hallows
    dsimp only [runTriageOp]
    split_ifs
    · exact h
    · exact h
    · exact ⟨fun _ _ => rfl, nofun, nofun, nofun⟩
  | reenter source idempotencyKey =>
    obtain ⟨rfl, src, rfl, rfl⟩ := hallows
    dsimp only [runTriageOp] at hgrows ⊢
    cases d.outcome with
    | error message => exact hgrows
    | ok reentered =>
      refine ⟨nofun, nofun, fun source hsource => ?_, nofun⟩
      cases hsource
      refine ⟨h.settled _ rfl, ?_, List.mem_append_right _ (List.mem_singleton_self _)⟩
      rw [h.read src rfl]

theorem Placed.exec {call : TriageCall parked} {s : TriageState} {op : TriageOp} (h : Placed tables sha256 call s w)
    (hparked : w.row.sourceEnvelope = parked.row.sourceEnvelope) (hallows : (triageProtocol tables sha256 call.input).allows s op) (d : TriageChoice) :
    Placed tables sha256 call ((triageProtocol tables sha256 call.input).next s op (triageDb.exec w op d).1) (triageDb.exec w op d).2 := by
  have herror : ∀ e, (triageProtocol tables sha256 call.input).next s op (.error e) = s := by
    intro e
    cases op <;> rfl
  rcases exec_triage d w op with ⟨hexec, -⟩ | ⟨⟨e, hexec⟩, -⟩ | ⟨e, hexec, -⟩
  · rw [hexec]
    exact h.answered hparked hallows d
  · rw [hexec, herror]
    exact h.grows grows_run
  · rw [hexec, herror]
    exact h

/-- What the runs have come to is in the stores, and the recorded decision is one of theirs. -/
structure Tracked (tables : CaseTables) (sha256 : Sha256) (deps : DurableDispositionStoreDeps) (registry : Option (List JsString))
    (calls : ι → TriageCall parked) (es : List (ι × TriageChoice)) (s : ι → TriageState) (w : TriageWorld) : Prop where
  grows : Grows ⟨parked.row, [], registry, []⟩ w
  decided : ∀ key, w.row.dispositionKey = some key → ∃ j, Records tables sha256 deps registry calls es j ∧ key = callKey tables sha256 calls j ∧
    w.row.auditRef = some (dispositionAuditRef key)
  placed : ∀ i, Placed tables sha256 (calls i) (s i) w
  audited : w.row.dispositionKey.isSome → w.audit ≠ []

/-- The runs as they follow their protocols. -/
abbrev FollowsTriage (tables : CaseTables) (sha256 : Sha256) (calls : ι → TriageCall parked) (c : TriagePool ι) (s : ι → TriageState) : Prop :=
  c.Follows (fun i => triageProtocol tables sha256 (calls i).input) (fun _ => Resolved) s

theorem Tracked.idle (h : Tracked tables sha256 deps registry calls es s w) (e : ι × TriageChoice) :
    Tracked tables sha256 deps registry calls (es ++ [e]) s w where
  grows := h.grows
  decided key hkey := by
    obtain ⟨j, hj, hrest⟩ := h.decided key hkey
    exact ⟨j, hj.append [e], hrest⟩
  placed := h.placed
  audited := h.audited

theorem Tracked.step {i : ι} {d : TriageChoice} {op : TriageOp} {k : Except DbError op.Ret → TriageM IngestionTriageOutcome}
    (h : Tracked tables sha256 deps registry calls es s (triageRun tables sha256 deps registry calls es).world)
    (hcall : (triageRun tables sha256 deps registry calls es).thread i = .call op k)
    (hallows : (triageProtocol tables sha256 (calls i).input).allows (s i) op) :
    Tracked tables sha256 deps registry calls (es ++ [(i, d)])
      (Function.update s i ((triageProtocol tables sha256 (calls i).input).next (s i) op
        (triageDb.exec (triageRun tables sha256 deps registry calls es).world op d).1))
      (triageDb.exec (triageRun tables sha256 deps registry calls es).world op d).2 := by
  have hgrows : Grows (triageRun tables sha256 deps registry calls es).world (triageDb.exec (triageRun tables sha256 deps registry calls es).world op d).2 :=
    grows_exec
  refine ⟨h.grows.trans hgrows, fun key hkey => ?_, fun j => ?_, fun hsome => ?_⟩
  · rcases exec_decides hkey with hold | ⟨hnone, heffect, sourceId, auditRef, recordedAt, rfl, hauditRef⟩
    · obtain ⟨j, hj, hkeyj, href⟩ := h.decided key hold
      exact ⟨j, hj.append [(i, d)], hkeyj, (hgrows.decided key hold).2.trans href⟩
    · obtain ⟨-, -, hcallKey, href⟩ := hallows
      refine ⟨i, ⟨es, d, [], rfl, ⟨_, _, _, _, _, hcall⟩, heffect, hnone⟩, hcallKey, ?_⟩
      rw [hauditRef, href]
  · by_cases hj : j = i
    · subst hj
      rw [Function.update_self]
      exact (h.placed j).exec h.grows.source hallows d
    · rw [Function.update_of_ne hj]
      exact (h.placed j).grows hgrows
  · obtain ⟨key, hkey⟩ := Option.isSome_iff_exists.mp hsome
    obtain ⟨more, hmore⟩ := hgrows.audit
    rw [hmore]
    refine List.append_ne_nil_of_left_ne_nil ?_ more
    rcases exec_decides hkey with hold | ⟨-, -, sourceId, auditRef, recordedAt, rfl, -⟩
    · exact h.audited (by rw [hold]; rfl)
    · exact (h.placed i).appended hallows.1

theorem tracked_run (tables : CaseTables) (sha256 : Sha256) (deps : DurableDispositionStoreDeps) (registry : Option (List JsString))
    (calls : ι → TriageCall parked) (schedule : List (ι × TriageChoice)) :
    ∃ s, FollowsTriage tables sha256 calls (triageRun tables sha256 deps registry calls schedule) s ∧
      Tracked tables sha256 deps registry calls schedule s (triageRun tables sha256 deps registry calls schedule).world := by
  have hstart : FollowsTriage tables sha256 calls (triageCalls tables sha256 deps registry calls) fun _ => .fresh := fun i => triage_keeps
  refine hstart.history (Tracked tables sha256 deps registry calls) ⟨.refl, fun key hkey => ?_, fun i => ?_, fun hsome => ?_⟩ schedule
    (fun es e s w h => h.idle e) fun es i d s op k h hcall hallows => h.step hcall hallows
  · rw [triageCalls, parked.undecided] at hkey
    cases hkey
  · exact ⟨nofun, nofun, nofun, nofun⟩
  · rw [triageCalls, parked.undecided] at hsome
    cases hsome

end run

section resolves

variable {tables : CaseTables} {sha256 : Sha256} {deps : DurableDispositionStoreDeps} {w : TriageWorld} {op : TriageOp} {α : Type}
  {Q : Except DbError α → TriageWorld → Prop}

theorem exec_faultFree {d : TriageChoice} (hd : FaultFree op d) :
    triageDb.exec w op d = (.ok (runTriageOp d w op).1, (runTriageOp d w op).2) := by
  obtain ⟨resolved, reading, outcome, fault⟩ := d
  obtain ⟨rfl, -⟩ := hd
  rfl

theorem wp_operation {f : op.Ret → TriageM α}
    (hf : ∀ d, FaultFree op d → wp triageDb FaultFree (f (runTriageOp d w op).1) Q (runTriageOp d w op).2) :
    wp triageDb FaultFree (.perform op >>= f) Q w :=
  wp_call fun d hd => ⟨_, _, exec_faultFree hd, hf d hd⟩

theorem wp_storeMethod {f : DbResult op.Ret → TriageM α}
    (hf : ∀ d, FaultFree op d → wp triageDb FaultFree (f (.ok (runTriageOp d w op).1)) Q (runTriageOp d w op).2) :
    wp triageDb FaultFree (storeMethod op >>= f) Q w := by
  unfold storeMethod
  rw [wp_bind, wp_attempt, wp_perform]
  intro d hd
  rw [exec_faultFree hd]
  exact hf d hd

/-- A recorded decision for a registered workspace is driven through the pipeline. -/
theorem rescopeTriage_resolves {input : IngestionTriageInput} {triageDeps : IngestionTriageDeps} {resolved : Except WorkflowRunError ResolveRunOutcome}
    {recorded : RecordDispositionOutcome} {ids : List JsString} (hdeps : triageDeps.rescope = registryValidatedRescope)
    (hregistry : w.registry = some ids) (hregistered : input.disposition.workspaceId ∈ ids) (hsource : input.disposition.sourceId = w.row.sourceId) :
    wp triageDb FaultFree (rescopeTriage input triageDeps resolved recorded) (fun r _ => Resolves r) w := by
  unfold rescopeTriage
  rw [hdeps]
  unfold registryValidatedRescope resolveKnownWorkspace
  simp only [bind_assoc]
  refine wp_storeMethod fun d _ => ?_
  dsimp only [runTriageOp]
  rw [hregistry]
  have hany : ids.any (· = input.disposition.workspaceId) = true := List.any_eq_true.mpr ⟨_, hregistered, decide_eq_true rfl⟩
  simp only [pure_bind, hany]
  unfold rescopeSource readParked
  simp only [bind_assoc, Bool.not_true, Bool.false_eq_true, if_false]
  refine wp_storeMethod fun d _ => ?_
  dsimp only [runTriageOp]
  rw [if_pos hsource]
  simp only [pure_bind]
  unfold reenterTriage
  refine wp_operation fun d hd => ?_
  obtain ⟨-, reentered, houtcome⟩ := hd
  dsimp only [runTriageOp]
  rw [houtcome]
  exact ⟨_, rfl, rfl⟩

/-- The decision that has been recorded is made again. -/
theorem triage_resolves_recorded {input : IngestionTriageInput} {ids : List JsString} {auditRef : JsString} (hregistry : w.registry = some ids)
    (hregistered : input.disposition.workspaceId ∈ ids) (hsource : input.disposition.sourceId = w.row.sourceId)
    (hkey : w.row.dispositionKey = some (dispositionKey tables sha256 input.disposition)) (href : w.row.auditRef = some auditRef) :
    wp triageDb FaultFree (triage tables sha256 deps input) (fun r _ => Resolves r) w := by
  unfold triage runIngestionTriage
  refine wp_operation fun d _ => ?_
  unfold recordDisposition createDurableDispositionStore isParked getByKey
  simp only [bind_assoc]
  refine wp_storeMethod fun d _ => ?_
  dsimp only [runTriageOp]
  rw [if_pos hsource]
  simp only [pure_bind, Option.isSome_some, Bool.not_true, Bool.false_eq_true, if_false, bind_assoc]
  refine wp_storeMethod fun d _ => ?_
  dsimp only [runTriageOp]
  rw [if_pos hkey]
  simp only [pure_bind, Option.bind_some, href]
  exact rescopeTriage_resolves rfl hregistry hregistered hsource

/-- The first decision is made. -/
theorem triage_resolves_fresh {input : IngestionTriageInput} {ids : List JsString} (hregistry : w.registry = some ids)
    (hregistered : input.disposition.workspaceId ∈ ids) (hsource : input.disposition.sourceId = w.row.sourceId) (hkey : w.row.dispositionKey = none)
    (hsafe : ∀ occurredAt, deps.isRedactionSafe
      (dispositionAuditRecord deps (dispositionKey tables sha256 input.disposition) input.disposition occurredAt) = true) :
    wp triageDb FaultFree (triage tables sha256 deps input) (fun r _ => Resolves r) w := by
  unfold triage runIngestionTriage
  refine wp_operation fun d _ => ?_
  unfold recordDisposition createDurableDispositionStore isParked getByKey insertDisposition recordAudited
  simp only [bind_assoc]
  refine wp_storeMethod fun d _ => ?_
  dsimp only [runTriageOp]
  rw [if_pos hsource]
  simp only [pure_bind, Option.isSome_some, Bool.not_true, Bool.false_eq_true, if_false, bind_assoc]
  refine wp_storeMethod fun d _ => ?_
  dsimp only [runTriageOp]
  rw [hkey, if_neg nofun]
  simp only [pure_bind, Option.bind_none, bind_assoc]
  refine wp_operation fun d _ => ?_
  simp only [hsafe, Bool.not_true, Bool.false_eq_true, if_false, bind_assoc]
  refine wp_storeMethod fun d _ => ?_
  simp only [bind_assoc]
  refine wp_operation fun d _ => ?_
  refine wp_storeMethod fun d _ => ?_
  dsimp only [runTriageOp]
  rw [if_neg (not_not.mpr hsource), hkey, if_neg nofun]
  simp only [pure_bind]
  exact rescopeTriage_resolves rfl hregistry hregistered hsource

end resolves

section careful

variable {tables : CaseTables} {sha256 : Sha256} {deps : DurableDispositionStoreDeps} {parked : ParkedSource} {registry : Option (List JsString)}
  {ι : Type} [DecidableEq ι] {calls : ι → TriageCall parked} {es schedule : List (ι × TriageChoice)}

/-- The audit log is as it was, or the call appends to it. -/
theorem exec_audit (w : TriageWorld) (op : TriageOp) (d : TriageChoice) :
    (triageDb.exec w op d).2.audit = w.audit ∨ ∃ record, op = .append record ∧ TriageLands d ∧ (triageDb.exec w op d).2.audit = w.audit ++ [record] := by
  have hrun : (runTriageOp d w op).2.audit = w.audit ∨ ∃ record, op = .append record ∧ (runTriageOp d w op).2.audit = w.audit ++ [record] := by
    cases op with
    | append record => exact .inr ⟨record, rfl, rfl⟩
    | recordDisposition sourceId key auditRef recordedAt =>
      left
      dsimp only [runTriageOp]
      split_ifs <;> rfl
    | _ => exact .inl rfl
  rcases exec_triage d w op with ⟨h, heffect⟩ | ⟨⟨e, h⟩, heffect⟩ | ⟨e, h, -⟩
  · rw [h]
    exact hrun.imp id fun ⟨record, hop, haudit⟩ => ⟨record, hop, heffect, haudit⟩
  · rw [h]
    exact hrun.imp id fun ⟨record, hop, haudit⟩ => ⟨record, hop, heffect, haudit⟩
  · rw [h]
    exact .inl rfl

/-- A step leaves the audit log, or it appends a record of the run that moves. -/
theorem step_audit (es : List (ι × TriageChoice)) (i : ι) (d : TriageChoice) :
    (triageRun tables sha256 deps registry calls (es ++ [(i, d)])).world.audit = (triageRun tables sha256 deps registry calls es).world.audit ∨
      Appends tables sha256 deps registry calls es i ∧ TriageLands d ∧ ∃ record,
        (triageRun tables sha256 deps registry calls (es ++ [(i, d)])).world.audit = (triageRun tables sha256 deps registry calls es).world.audit ++ [record] := by
  have hconcat : triageRun tables sha256 deps registry calls (es ++ [(i, d)]) = (triageRun tables sha256 deps registry calls es).step triageDb (i, d) :=
    Pool.run_concat _ _
  rw [hconcat]
  rcases Pool.step_cases (h := triageDb) (triageRun tables sha256 deps registry calls es) i d with hidle | ⟨op, k, hcall, hmove⟩
  · rw [hidle]
    exact .inl rfl
  · rw [hmove]
    rcases exec_audit (triageRun tables sha256 deps registry calls es).world op d with hsame | ⟨record, rfl, heffect, happend⟩
    · exact .inl hsame
    · exact .inr ⟨⟨record, k, hcall⟩, heffect, record, happend⟩

/-- Where only the first record is appended there is one at most. -/
theorem Careful.audit_length_le (h : Careful tables sha256 deps registry calls schedule) {es' : List (ι × TriageChoice)} (hes : schedule = es ++ es') :
    (triageRun tables sha256 deps registry calls es).world.audit.length ≤ 1 := by
  induction es using List.reverseRecOn generalizing es' with
  | nil => exact Nat.zero_le 1
  | append_singleton es e ih =>
    obtain ⟨i, d⟩ := e
    have hsplit : schedule = es ++ (i, d) :: es' := by rw [hes, List.append_assoc, List.singleton_append]
    rcases step_audit es i d with hsame | ⟨happends, heffect, record, happend⟩
    · rw [hsame]
      exact ih hsplit
    · rw [happend, h.first es i d es' hsplit happends heffect]
      exact le_refl 1

/-- A record in the log was appended by a run. -/
theorem appended_of_audit (haudit : (triageRun tables sha256 deps registry calls es).world.audit ≠ []) :
    ∃ es₁ i d es₂, es = es₁ ++ (i, d) :: es₂ ∧ Appends tables sha256 deps registry calls es₁ i ∧ TriageLands d := by
  induction es using List.reverseRecOn with
  | nil => exact absurd rfl haudit
  | append_singleton es e ih =>
    obtain ⟨i, d⟩ := e
    rcases step_audit es i d with hsame | ⟨happends, heffect, -⟩
    · rw [hsame] at haudit
      obtain ⟨es₁, i', d', es₂, hes, hrest⟩ := ih haudit
      exact ⟨es₁, i', d', es₂ ++ [(i, d)], by rw [hes]; simp, hrest⟩
    · exact ⟨es, i, d, [], rfl, happends, heffect⟩

/-- A record that takes effect finds a decision, or makes one. -/
theorem decided_of_record {i : ι} {d : TriageChoice} (hrecords : RecordsNow tables sha256 deps registry calls es i) (heffect : TriageLands d) :
    (triageRun tables sha256 deps registry calls (es ++ [(i, d)])).world.row.dispositionKey.isSome := by
  obtain ⟨sourceId, key, auditRef, recordedAt, k, hcall⟩ := hrecords
  obtain ⟨s, hfollows, htracked⟩ := tracked_run tables sha256 deps registry calls es
  have hi := hfollows i
  rw [hcall] at hi
  obtain ⟨⟨-, hsource, -, -⟩, -⟩ := hi
  have hconcat : triageRun tables sha256 deps registry calls (es ++ [(i, d)]) = (triageRun tables sha256 deps registry calls es).step triageDb (i, d) :=
    Pool.run_concat _ _
  have hon : sourceId = (triageRun tables sha256 deps registry calls es).world.row.sourceId := by
    rw [hsource, (calls i).on]
    exact htracked.grows.sourceId.symm
  have hrun : (runTriageOp d (triageRun tables sha256 deps registry calls es).world
      (.recordDisposition sourceId key auditRef recordedAt)).2.row.dispositionKey.isSome := by
    dsimp only [runTriageOp]
    rw [if_neg (not_not.mpr hon)]
    split_ifs with hdecided
    · exact hdecided
    · rfl
  rw [hconcat, Pool.step_of_call hcall]
  rcases exec_triage d (triageRun tables sha256 deps registry calls es).world (.recordDisposition sourceId key auditRef recordedAt)
    with ⟨h, -⟩ | ⟨⟨e, h⟩, -⟩ | ⟨e, -, hfault⟩
  · rw [h]
    exact hrun
  · rw [h]
    exact hrun
  · exact absurd hfault (heffect e)

/-- Where the run that appends goes on to record, a record in the log is of a decision. -/
theorem Careful.decided_of_audit (h : Careful tables sha256 deps registry calls schedule)
    (haudit : (triageRun tables sha256 deps registry calls schedule).world.audit ≠ []) :
    (triageRun tables sha256 deps registry calls schedule).world.row.dispositionKey.isSome := by
  obtain ⟨es₁, i, d, es₂, hes, happends, heffect⟩ := appended_of_audit haudit
  obtain ⟨es₃, d', es₄, rfl, hrecords, heffect'⟩ := h.followed es₁ i d es₂ hes happends heffect
  obtain ⟨key, hkey⟩ := Option.isSome_iff_exists.mp (decided_of_record hrecords heffect')
  have hgrows : Grows (triageRun tables sha256 deps registry calls (es₁ ++ (i, d) :: es₃ ++ [(i, d')])).world
      (triageRun tables sha256 deps registry calls (es₁ ++ (i, d) :: es₃ ++ [(i, d')] ++ es₄)).world := grows_triageRun _ _
  have hstays := hgrows.decided key hkey
  have hsplit : schedule = es₁ ++ (i, d) :: es₃ ++ [(i, d')] ++ es₄ := by rw [hes]; simp
  rw [hsplit, hstays.1]
  rfl

end careful

/-- Triage runs on a parked source converge where only the first audit record is appended, and the run that
    appends it goes on to record its decision, for a registered workspace. -/
theorem careful_converges {ι : Type} [DecidableEq ι] {tables : CaseTables} {sha256 : Sha256} {deps : DurableDispositionStoreDeps} {parked : ParkedSource}
    {registry : Option (List JsString)} (calls : ι → TriageCall parked) (schedule : List (ι × TriageChoice))
    (h : Careful tables sha256 deps registry calls schedule) : Converges tables sha256 deps registry calls schedule := by
  obtain ⟨s, hfollows, htracked⟩ := tracked_run tables sha256 deps registry calls schedule
  refine ⟨fun es es' _ key _ hkey => ((grows_triageRun es es').decided key hkey).1, fun i outcome hpure hresolved => ?_, ?_, fun _ hregistry => ?_⟩
  · have hi := hfollows i
    rw [hpure] at hi
    obtain ⟨source, hentered, hscoped⟩ := hi outcome rfl hresolved
    obtain ⟨hkey, hsource, hmem⟩ := (htracked.placed i).entered source hentered
    obtain ⟨j, hrecords, hkeys, -⟩ := htracked.decided _ hkey
    have hsame : reScoped (calls j).input.disposition parked.row.sourceEnvelope = source := by
      obtain ⟨hworkspace, hproject, hsensitivity⟩ := h.apart i j hkeys
      rw [hsource]
      unfold reScoped
      rw [hworkspace, hproject, hsensitivity]
    exact ⟨j, hrecords, by rw [hsame, hscoped], by rw [hsame]; exact hmem⟩
  · have hle := h.audit_length_le (List.append_nil schedule).symm
    split_ifs with hdecided
    · have hpos := List.length_pos_iff.mpr (htracked.audited hdecided)
      omega
    · by_contra hlength
      exact hdecided (h.decided_of_audit fun hnil => hlength (by rw [hnil]; rfl))
  · obtain ⟨ids, hids, hne⟩ := hregistry
    have hworld : (triageRun tables sha256 deps registry calls schedule).world.registry = some ids := htracked.grows.registry.trans hids
    have hsourceId : ∀ call : TriageCall parked, call.input.disposition.sourceId = (triageRun tables sha256 deps registry calls schedule).world.row.sourceId :=
      fun call => call.on.trans htracked.grows.sourceId.symm
    cases hkey : (triageRun tables sha256 deps registry calls schedule).world.row.dispositionKey with
    | none =>
      obtain ⟨call, hregistered, hsafe⟩ := h.admitted ids hids hne
      exact ⟨call, ids, hworld, hregistered, triage_resolves_fresh hworld hregistered (hsourceId call) hkey hsafe⟩
    | some key =>
      obtain ⟨j, ⟨es₁, d, es₂, hes, hrecords, -, -⟩, rfl, href⟩ := htracked.decided key hkey
      obtain ⟨ids', hids', hregistered⟩ := h.registered es₁ j d es₂ hes hrecords
      obtain rfl := Option.some.inj (hids.symm.trans hids')
      exact ⟨calls j, ids, hworld, hregistered, triage_resolves_recorded hworld hregistered (hsourceId (calls j)) hkey href⟩

section crashed

def parkedNote : ParkedSource where
  row := {
    sourceId := str "s1"
    sourceEnvelope := ⟨str "s1", str "personal-business", str "telegram", str "h1", str "note", str "internal", .empty, none⟩
    idempotencyKey := str "k1"
    state := .queued_for_review
    dispositionKey := none
    auditRef := none
    workspaceId := none
    parkedAt := str "t0"
    dispositionedAt := none }
  undecided := rfl

/-- The decision to route the note to a workspace. -/
def noteCall (workspaceId : JsString) : TriageCall parkedNote where
  input := ⟨⟨str "w1", str "triage", str "k1", none⟩, ⟨str "s1", workspaceId, none, none, .mac⟩⟩
  on := rfl

def openGate : DurableDispositionStoreDeps := ⟨str "w1", fun _ => true⟩

def employerOnly : Option (List JsString) := some [str "employer-work"]

/-- Every call is answered. -/
def answered : TriageChoice := ⟨.error ⟨.persist_failed, [], none⟩, str "t1", .ok ⟨str "completed", false⟩, .none⟩

/-- The source is decided on by one run, which is driven to its end. -/
def soleSchedule : List (Unit × TriageChoice) := List.replicate 10 ((), answered)

abbrev soleRun (n : Nat) : TriagePool Unit :=
  triageRun asciiTables (fun _ => []) openGate employerOnly (fun _ : Unit => noteCall (str "employer-work")) (List.replicate n ((), answered))

def isAppend : TriageM IngestionTriageOutcome → Bool
  | .call (.append _) _ => true
  | _ => false

theorem soleRun_appends : ∀ n < 10, isAppend ((soleRun n).thread ()) = true → n = 4 := by decide

theorem soleSchedule_split {es es' : List (Unit × TriageChoice)} {i : Unit} {d : TriageChoice} (h : soleSchedule = es ++ (i, d) :: es') :
    ∃ n < 10, es = List.replicate n ((), answered) ∧ d = answered ∧ es' = List.replicate (9 - n) ((), answered) := by
  obtain ⟨hlength, hes, hrest⟩ := List.replicate_eq_append_iff.mp h
  rw [List.length_cons] at hlength
  have hmem := List.eq_replicate_iff.mp hrest
  refine ⟨es.length, by omega, hes, congrArg Prod.snd (hmem.2 _ List.mem_cons_self), ?_⟩
  refine List.eq_replicate_iff.mpr ⟨by omega, fun b hb => hmem.2 b (List.mem_cons_of_mem _ hb)⟩

theorem soleSchedule_converges :
    Converges asciiTables (fun _ => []) openGate employerOnly (fun _ : Unit => noteCall (str "employer-work")) soleSchedule := by
  have happends : ∀ es i d es', soleSchedule = es ++ (i, d) :: es' →
      Appends asciiTables (fun _ => []) openGate employerOnly (fun _ : Unit => noteCall (str "employer-work")) es i →
        es = List.replicate 4 ((), answered) ∧ d = answered ∧ es' = List.replicate 5 ((), answered) := by
    intro es i d es' hsplit ⟨record, k, hcall⟩
    obtain ⟨n, hn, rfl, rfl, rfl⟩ := soleSchedule_split hsplit
    obtain rfl := soleRun_appends n hn (by rw [soleRun, hcall]; rfl)
    exact ⟨rfl, rfl, rfl⟩
  refine careful_converges _ soleSchedule ⟨fun es i d es' _ _ => ⟨_, rfl, List.mem_cons_self⟩, fun es i d es' hsplit happend _ => ?_,
    fun es i d es' hsplit happend _ => ?_, fun i j _ => ⟨rfl, rfl, rfl⟩, fun ids hids _ => ?_⟩
  · obtain ⟨rfl, -, -⟩ := happends es i d es' hsplit happend
    rfl
  · obtain ⟨rfl, rfl, rfl⟩ := happends es i d es' hsplit happend
    exact ⟨List.replicate 1 ((), answered), answered, List.replicate 3 ((), answered), rfl, ⟨_, _, _, _, _, rfl⟩, nofun⟩
  · obtain rfl := Option.some.inj hids
    exact ⟨noteCall (str "employer-work"), List.mem_cons_self, fun _ => rfl⟩

/-- A run stops after its audit record, and a second one makes the same decision. -/
def crashedSchedule : List (Bool × TriageChoice) :=
  List.replicate 5 (false, answered) ++ List.replicate 10 (true, answered)

theorem crashedSchedule_diverges :
    ¬ Converges asciiTables (fun _ => []) openGate employerOnly (fun _ : Bool => noteCall (str "employer-work")) crashedSchedule := by
  intro h
  have htwice : (triageRun asciiTables (fun _ => []) openGate employerOnly (fun _ : Bool => noteCall (str "employer-work")) crashedSchedule).world.audit.length = 2 :=
    rfl
  have hdecided : (triageRun asciiTables (fun _ => []) openGate employerOnly (fun _ : Bool => noteCall (str "employer-work"))
      crashedSchedule).world.row.dispositionKey.isSome = true := rfl
  have haudited := h.audited
  rw [htwice, hdecided] at haudited
  cases haudited

end crashed

end sow.worker
