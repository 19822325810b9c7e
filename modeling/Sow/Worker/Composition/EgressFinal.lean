import Sow.Effect.Interleave
import Sow.Worker.Composition.WorkspaceCalls

open sow.js sow.effect sow.contracts sow.db

namespace sow.worker

/-- A call that writes workspaces. -/
inductive WorkspaceCall where
  | provision (schemas : WorkspaceSchemas) (spec : ProvisionWorkspaceSpec)
  | revoke (deps : EgressCommandDeps) (workspaceId : JsString)

inductive WorkspaceReply where
  | provisioned (r : Except ProvisionWorkspaceError ProvisionedWorkspace)
  | revoked (r : Except RevokeEgressAckError UiSafeEgressStatus)

def WorkspaceCall.program : WorkspaceCall → ConfigM WorkspaceReply
  | .provision schemas spec => do return .provisioned (← provisionWorkspace schemas spec)
  | .revoke deps workspaceId => do return .revoked (← revokeEgressAck deps workspaceId)

/-- The acknowledgment is off, and has no time. -/
def Revoked (ws : Workspace) : Prop :=
  ws.egressPolicy.employerRawEgressAcknowledged = false ∧ ws.egressPolicy.acknowledgedAt = none

/-- What fixes the class of a workspace. -/
def SameClass (ws ws' : Workspace) : Prop := ws'.id = ws.id ∧ ws'.type = ws.type ∧ ws'.dataOwner = ws.dataOwner

section spec

variable {ι : Type} [DecidableEq ι] (calls : ι → WorkspaceCall)

/-- Provisionings and revocations, concurrently. -/
abbrev WorkspacePool (ι : Type) := Pool ι ConfigOp ConfigOp.Ret DriverError WorkspaceReply ConfigWorld

/-- The calls before any of them has moved. -/
def workspaceCalls (w : ConfigWorld) : WorkspacePool ι := ⟨fun i => (calls i).program, w⟩

/-- The step is the upsert of a revocation of the id, and it takes effect. -/
def RevokesNow (c : WorkspacePool ι) (es : List (ι × ConfigChoice)) (i : ι) (d : ConfigChoice) (id : JsString) : Prop :=
  (∃ deps, calls i = .revoke deps id) ∧ (∃ ws k, (c.run configDb es).thread i = .call (ConfigOp.upsert ws) k) ∧ ∀ cause, d.fault ≠ .failed cause

/-- A revocation is final, the class of a workspace is fixed, and what is registered is configured. -/
structure EgressFinal (c : WorkspacePool ι) (schedule : List (ι × ConfigChoice)) : Prop where
  revoked : ∀ es i d es' es'' id, schedule = es ++ (i, d) :: es' ++ es'' → RevokesNow calls c es i d id →
    ∃ ws, (c.run configDb (es ++ (i, d) :: es')).world.config.get id = some ws ∧ Revoked ws
  fixed : ∀ es es' es'' id ws, schedule = es ++ es' ++ es'' → (c.run configDb es).world.config.get id = some ws →
    ∃ ws', (c.run configDb (es ++ es')).world.config.get id = some ws' ∧ ws'.type = ws.type ∧ ws'.dataOwner = ws.dataOwner
  coupled : ∀ es es' id ws, schedule = es ++ es' → (c.run configDb es).world.config.get id = some ws →
    (ws.egressPolicy.acknowledgedAt.isSome ↔ ws.egressPolicy.employerRawEgressAcknowledged = true)
  registered : ∀ es es' ids id, schedule = es ++ es' → (c.run configDb es).world.registry = some ids → id ∈ ids →
    ((c.run configDb es).world.config.get id).isSome

end spec

section protocol

/-- What a call has learned: rows that were stored under the ids it asked for, and ids that have a row. -/
structure Learned where
  rows : List (JsString × Workspace)
  ids : List JsString

/-- What the statements of a call are, by what it has learned. -/
def workspaceProtocol (wsId : JsString) : Protocol ConfigOp ConfigOp.Ret DriverError Learned where
  allows s
    | .upsert ws => Revoked ws ∧ ∃ row, (wsId, row) ∈ s.rows ∧ SameClass row ws
    | .insert ws => ws.egressPolicy.coupled = true
    | .putRegistry workspaceIds _ => ∀ id ∈ workspaceIds, id ∈ s.ids
    | _ => True
  next s
    | .select id, .ok rows => { s with rows := s.rows ++ rows.map fun row => (id, row) }
    | .insert ws, .ok (_ :: _) => { s with ids := s.ids ++ [ws.id] }
    | .updateFields id _, .ok (_ :: _) => { s with ids := s.ids ++ [id] }
    | .selectRegistry, .ok (some workspaceIds) => { s with ids := s.ids ++ workspaceIds }
    | _, _ => s

/-- Any outcome in any state. -/
abbrev Whatever {α : Type} : Learned → Except DriverError α → Prop := fun _ _ => True

variable {wsId : JsString} {s : Learned}

variable {α β : Type}

/-- A unit of work of one statement ends with the answer to it, or with its error. -/
theorem keeps_statement {op : ConfigOp} {g : op.Ret → DbResult β} {f : DbResult β → ConfigM α}
    (hop : (workspaceProtocol wsId).allows s op)
    (hok : ∀ answer, (workspaceProtocol wsId).Keeps Whatever (f (g answer)) ((workspaceProtocol wsId).next s op (.ok answer)))
    (herror : ∀ cause e, (workspaceProtocol wsId).Keeps Whatever (f (.error e)) ((workspaceProtocol wsId).next s op (.error cause))) :
    (workspaceProtocol wsId).Keeps Whatever (postgres.run (do let answer ← .perform op; pure (g answer)) >>= f) s := by
  unfold postgres.run
  rw [Protocol.keeps_bind, Protocol.keeps_tryCatch, Protocol.keeps_bind, Protocol.keeps_perform]
  refine ⟨hop, fun r => ?_⟩
  cases r with
  | ok answer => exact hok answer
  | error cause => exact herror cause _

theorem registerWorkspace_keeps {id rebuiltAt : JsString} (hid : id ∈ s.ids) :
    (workspaceProtocol wsId).Keeps Whatever (registerWorkspace id rebuiltAt) s := by
  have hput : ∀ (s : Learned) (prior : List JsString), id ∈ s.ids → (∀ id' ∈ prior, id' ∈ s.ids) →
      (workspaceProtocol wsId).Keeps Whatever (registerWorkspace.putUnion id rebuiltAt prior) s := by
    intro s prior hid hprior
    unfold registerWorkspace.putUnion readModels.putRegistry
    refine keeps_statement (fun id' hid' => ?_) (fun answer => trivial) fun cause e => trivial
    split_ifs at hid'
    · exact hprior id' hid'
    · rcases List.mem_append.mp hid' with hold | hnew
      · exact hprior id' hold
      · rw [List.mem_singleton.mp hnew]
        exact hid
  unfold registerWorkspace readModels.getRegistry
  refine keeps_statement trivial (fun answer => ?_) fun cause e => ?_
  · cases answer with
    | none => exact hput s [] hid nofun
    | some prior => exact hput _ prior (List.mem_append_left _ hid) fun id' hid' => List.mem_append_right _ hid'
  · dsimp only
    split_ifs
    · exact hput s [] hid nofun
    · trivial

theorem unionRegistry_keeps {spec : ProvisionWorkspaceSpec} {now : JsString} (hid : spec.id ∈ s.ids) :
    (workspaceProtocol wsId).Keeps Whatever (unionRegistry spec now) s := by
  unfold unionRegistry
  rw [Protocol.keeps_bind]
  refine (registerWorkspace_keeps hid).mono fun s' r _ => ?_
  cases r with
  | error cause => trivial
  | ok reg => cases reg <;> trivial

theorem overwriteSameType_keeps {schemas : WorkspaceSchemas} {spec : ProvisionWorkspaceSpec} {workspace : Workspace} {now : JsString} :
    (workspaceProtocol wsId).Keeps Whatever (overwriteSameType schemas spec workspace now) s := by
  unfold overwriteSameType workspaceConfig.updateProvisioningFields
  refine keeps_statement trivial (fun rows => ?_) fun cause e => ?_
  · cases rows with
    | nil =>
      dsimp only [rowOrNotFoundWorkspace, List.head?_nil]
      split_ifs <;> trivial
    | cons row rows =>
      dsimp only [rowOrNotFoundWorkspace, List.head?_cons, parseStoredWorkspace]
      split_ifs
      · exact unionRegistry_keeps (List.mem_append_right _ (List.mem_singleton_self _))
      · trivial
  · dsimp only
    split_ifs <;> trivial

theorem createWorkspace_keeps {spec : ProvisionWorkspaceSpec} {workspace : Workspace} {now : JsString} (hid : workspace.id = spec.id)
    (hcoupled : workspace.egressPolicy.coupled = true) :
    (workspaceProtocol wsId).Keeps Whatever (createWorkspace spec workspace now) s := by
  unfold createWorkspace workspaceConfig.insertIfAbsent
  refine keeps_statement hcoupled (fun rows => ?_) fun cause e => trivial
  cases rows with
  | nil => trivial
  | cons row rows =>
    refine unionRegistry_keeps ?_
    rw [← hid]
    exact List.mem_append_right _ (List.mem_singleton_self _)

/-- A seeded workspace is acknowledged if and only if it has a time. -/
theorem coupled_seed {workspace : Workspace} {now : JsString} (h : workspace.egressPolicy.coupled = true) :
    (seedCloudCopilotAllowlist workspace now).egressPolicy.coupled = true := by
  unfold seedCloudCopilotAllowlist
  cases workspace.type with
  | employer_work => rfl
  | personal_business => exact h
  | personal_life => exact h

theorem id_seed {workspace : Workspace} {now : JsString} : (seedCloudCopilotAllowlist workspace now).id = workspace.id := by
  unfold seedCloudCopilotAllowlist
  cases workspace.type <;> rfl

theorem provisionWorkspace_keeps (schemas : WorkspaceSchemas) (spec : ProvisionWorkspaceSpec) :
    (workspaceProtocol wsId).Keeps Whatever (provisionWorkspace schemas spec) s := by
  unfold provisionWorkspace
  refine Protocol.keeps_call trivial (fun now => ?_) fun cause => trivial
  unfold defaultWorkspace
  split_ifs
  · have hcreate : ∀ s', (workspaceProtocol wsId).Keeps Whatever
        (createWorkspace spec (seedCloudCopilotAllowlist (defaultAggregate ⟨spec.id, spec.name, spec.type, spec.vaultRoot, spec.gbrainBrainId, none, none⟩) now) now) s' :=
      fun s' => createWorkspace_keeps id_seed (coupled_seed rfl)
    unfold workspaceConfig.get
    refine keeps_statement trivial (fun rows => ?_) fun cause e => ?_
    · cases rowOrNotFoundWorkspace schemas spec.id rows with
      | error e =>
        dsimp only
        split_ifs
        · trivial
        · trivial
        · exact hcreate _
      | ok row =>
        dsimp only
        split_ifs
        · trivial
        · exact overwriteSameType_keeps
    · dsimp only
      split_ifs
      · trivial
      · trivial
      · exact hcreate _
  · trivial

theorem recordRevocation_keeps (deps : EgressCommandDeps) (ws : Workspace) :
    (workspaceProtocol wsId).Keeps Whatever (recordRevocation deps wsId ws) s := by
  unfold recordRevocation
  refine Protocol.keeps_call trivial (fun occurredAt => ?_) fun cause => trivial
  dsimp only
  split_ifs
  · trivial
  · unfold auditLog.append
    exact keeps_statement trivial (fun answer => trivial) fun cause e => trivial

/-- A revocation writes back the class that it has read. -/
theorem revokeEgressAck_keeps (deps : EgressCommandDeps) : (workspaceProtocol wsId).Keeps Whatever (revokeEgressAck deps wsId) s := by
  unfold revokeEgressAck
  rw [Protocol.keeps_tryCatch]
  refine Protocol.Keeps.mono (Q := Whatever) ?_ fun s' r _ => by cases r <;> trivial
  unfold workspaceConfig.get
  refine keeps_statement trivial (fun rows => ?_) fun cause e => ?_
  · cases rows with
    | nil =>
      dsimp only [rowOrNotFoundWorkspace, List.head?_nil]
      split_ifs <;> trivial
    | cons row rows =>
      dsimp only [rowOrNotFoundWorkspace, List.head?_cons, parseStoredWorkspace]
      split_ifs
      · unfold workspaceConfig.upsert
        refine keeps_statement ⟨⟨rfl, rfl⟩, row, ?_, rfl, rfl, rfl⟩ (fun answer => recordRevocation_keeps deps row) fun cause e => trivial
        exact List.mem_append_right _ (List.mem_cons_self ..)
      · dsimp only
        split_ifs <;> trivial
  · dsimp only
    split_ifs <;> trivial

/-- The id that a call is about. -/
def WorkspaceCall.workspaceId : WorkspaceCall → JsString
  | .provision _ spec => spec.id
  | .revoke _ workspaceId => workspaceId

theorem workspaceCall_keeps (call : WorkspaceCall) : (workspaceProtocol call.workspaceId).Keeps Whatever call.program s := by
  cases call with
  | provision schemas spec =>
    unfold WorkspaceCall.program
    rw [Protocol.keeps_bind]
    exact (provisionWorkspace_keeps schemas spec).mono fun s' r _ => by cases r <;> trivial
  | revoke deps wsId =>
    unfold WorkspaceCall.program
    rw [Protocol.keeps_bind]
    exact (revokeEgressAck_keeps deps).mono fun s' r _ => by cases r <;> trivial

end protocol

section step

variable {wsId : JsString} {s : Learned} {w : ConfigWorld} {op : ConfigOp}

/-- What a call has learned is so. -/
structure LearnedOf (s : Learned) (w : ConfigWorld) : Prop where
  rows : ∀ id row, (id, row) ∈ s.rows → ∃ row', w.config.get id = some row' ∧ SameClass row row' ∧ row.id = id
  ids : ∀ id ∈ s.ids, (w.config.get id).isSome

/-- The rows are kept under their ids and coupled, and what is registered has a row. -/
structure ConfigInvariant (w : ConfigWorld) : Prop where
  keyed : ∀ id row, w.config.get id = some row → row.id = id
  coupled : ∀ id row, w.config.get id = some row → row.egressPolicy.coupled = true
  registered : ∀ ids, w.registry = some ids → ∀ id ∈ ids, (w.config.get id).isSome

/-- Rows stay and keep their class, and a revoked one stays so. -/
def Persists (w w' : ConfigWorld) : Prop :=
  ∀ id row, w.config.get id = some row → ∃ row', w'.config.get id = some row' ∧ SameClass row row' ∧ (Revoked row → Revoked row')

theorem SameClass.refl (ws : Workspace) : SameClass ws ws := ⟨rfl, rfl, rfl⟩

theorem SameClass.trans {ws ws' ws'' : Workspace} (h : SameClass ws ws') (h' : SameClass ws' ws'') : SameClass ws ws'' :=
  ⟨h'.1.trans h.1, h'.2.1.trans h.2.1, h'.2.2.trans h.2.2⟩

theorem Persists.refl : Persists w w := fun _ row hrow => ⟨row, hrow, .refl row, id⟩

theorem Persists.trans {w' w'' : ConfigWorld} (h : Persists w w') (h' : Persists w' w'') : Persists w w'' := by
  intro id row hrow
  obtain ⟨row', hrow', hclass, hrevoked⟩ := h id row hrow
  obtain ⟨row'', hrow'', hclass', hrevoked'⟩ := h' id row' hrow'
  exact ⟨row'', hrow'', hclass.trans hclass', fun hr => hrevoked' (hrevoked hr)⟩

theorem Persists.isSome {w' : ConfigWorld} (h : Persists w w') {id : JsString} (hid : (w.config.get id).isSome) :
    (w'.config.get id).isSome := by
  obtain ⟨row, hrow⟩ := Option.isSome_iff_exists.mp hid
  obtain ⟨row', hrow', -⟩ := h id row hrow
  rw [hrow']
  rfl

theorem LearnedOf.persists {w' : ConfigWorld} (h : LearnedOf s w) (hw : Persists w w') : LearnedOf s w' where
  rows id row hmem := by
    obtain ⟨row₁, hrow₁, hclass, hid⟩ := h.rows id row hmem
    obtain ⟨row₂, hrow₂, hclass', -⟩ := hw id row₁ hrow₁
    exact ⟨row₂, hrow₂, hclass.trans hclass', hid⟩
  ids id hmem := hw.isSome (h.ids id hmem)

/-- A row written over one of its class, revoked if that was. -/
theorem persists_set {ws : Workspace} (h : ∀ row, w.config.get ws.id = some row → SameClass row ws ∧ (Revoked row → Revoked ws)) :
    Persists w { w with config := w.config.set ws.id ws } := by
  intro id row hrow
  by_cases hid : ws.id = id
  · subst hid
    exact ⟨ws, Map.get_set_self .., h row hrow⟩
  · exact ⟨row, (Map.get_set_of_ne _ _ hid).trans hrow, .refl row, fun hr => hr⟩

theorem ConfigInvariant.set (hw : ConfigInvariant w) {ws : Workspace} (hcoupled : ws.egressPolicy.coupled = true)
    (hpersists : Persists w { w with config := w.config.set ws.id ws }) :
    ConfigInvariant { w with config := w.config.set ws.id ws } := by
  have hget : ∀ id row, (w.config.set ws.id ws).get id = some row → row = ws ∧ id = ws.id ∨ w.config.get id = some row := by
    intro id row hrow
    by_cases hid : ws.id = id
    · subst hid
      rw [Map.get_set_self] at hrow
      exact .inl ⟨(Option.some.inj hrow).symm, rfl⟩
    · rw [Map.get_set_of_ne _ _ hid] at hrow
      exact .inr hrow
  constructor
  · intro id row hrow
    rcases hget id row hrow with ⟨rfl, rfl⟩ | hold
    · rfl
    · exact hw.keyed id row hold
  · intro id row hrow
    rcases hget id row hrow with ⟨rfl, -⟩ | hold
    · exact hcoupled
    · exact hw.coupled id row hold
  · exact fun ids hids id hid => hpersists.isSome (hw.registered ids hids id hid)

/-- What a statement of a call preserves, and what the call learns from it. -/
theorem exec_configDb (hw : ConfigInvariant w) (hs : LearnedOf s w) (hallows : (workspaceProtocol wsId).allows s op) (d : ConfigChoice) :
    Persists w (configDb.exec w op d).2 ∧ ConfigInvariant (configDb.exec w op d).2 ∧
      LearnedOf ((workspaceProtocol wsId).next s op (configDb.exec w op d).1) (configDb.exec w op d).2 := by
  have hrun : Persists w (runConfigOp d.reading w op).2 ∧ ConfigInvariant (runConfigOp d.reading w op).2 ∧
      LearnedOf ((workspaceProtocol wsId).next s op (.ok (runConfigOp d.reading w op).1)) (runConfigOp d.reading w op).2 := by
    cases op with
    | now => exact ⟨.refl, hw, hs⟩
    | select id =>
      refine ⟨.refl, hw, fun id' row hmem => ?_, hs.ids⟩
      rcases List.mem_append.mp hmem with hold | hnew
      · exact hs.rows id' row hold
      · obtain ⟨row', hrow', heq⟩ := List.mem_map.mp hnew
        obtain ⟨rfl, rfl⟩ := Prod.mk.inj heq
        have hstored := Option.mem_toList.mp hrow'
        exact ⟨row', hstored, .refl row', hw.keyed id row' hstored⟩
    | upsert ws =>
      obtain ⟨hrevoked, row, hrow, hclass⟩ := hallows
      obtain ⟨row', hrow', hclass', hid⟩ := hs.rows wsId row hrow
      have hws : ws.id = wsId := hclass.1.trans hid
      have hpersists : Persists w { w with config := w.config.set ws.id ws } := by
        refine persists_set fun stored hstored => ⟨?_, fun _ => hrevoked⟩
        rw [hws, hrow'] at hstored
        obtain rfl := Option.some.inj hstored
        exact ⟨hclass.1.trans hclass'.1.symm, hclass.2.1.trans hclass'.2.1.symm, hclass.2.2.trans hclass'.2.2.symm⟩
      refine ⟨hpersists, hw.set ?_ hpersists, hs.persists hpersists⟩
      unfold WorkspaceEgressPolicy.coupled
      rw [hrevoked.1, hrevoked.2]
      rfl
    | insert ws =>
      cases hget : w.config.get ws.id with
      | some row =>
        simp only [runConfigOp, hget]
        exact ⟨.refl, hw, hs⟩
      | none =>
        simp only [runConfigOp, hget]
        have hpersists : Persists w { w with config := w.config.set ws.id ws } := by
          refine persists_set fun stored hstored => ?_
          rw [hget] at hstored
          cases hstored
        refine ⟨hpersists, hw.set hallows hpersists, (hs.persists hpersists).rows, fun id hid => ?_⟩
        rcases List.mem_append.mp hid with hold | hnew
        · exact (hs.persists hpersists).ids id hold
        · rw [List.mem_singleton.mp hnew, Map.get_set_self]
          rfl
    | updateFields id fields =>
      cases hget : w.config.get id with
      | none =>
        simp only [runConfigOp, hget]
        exact ⟨.refl, hw, hs⟩
      | some row =>
        simp only [runConfigOp, hget]
        have hid : (fields.set row).id = id := hw.keyed id row hget
        have hpersists : Persists w { w with config := w.config.set (fields.set row).id (fields.set row) } := by
          refine persists_set fun stored hstored => ?_
          rw [hid, hget] at hstored
          obtain rfl := Option.some.inj hstored
          exact ⟨⟨rfl, rfl, rfl⟩, fun hr => hr⟩
        have hinvariant : ConfigInvariant { w with config := w.config.set (fields.set row).id (fields.set row) } :=
          hw.set (hw.coupled id row hget) hpersists
        rw [hid] at hpersists hinvariant
        refine ⟨hpersists, hinvariant, (hs.persists hpersists).rows, fun id' hid' => ?_⟩
        rcases List.mem_append.mp hid' with hold | hnew
        · exact (hs.persists hpersists).ids id' hold
        · rw [List.mem_singleton.mp hnew, Map.get_set_self]
          rfl
    | selectRegistry =>
      cases hregistry : w.registry with
      | none =>
        simp only [runConfigOp, hregistry]
        exact ⟨.refl, hw, hs⟩
      | some workspaceIds =>
        simp only [runConfigOp, hregistry]
        refine ⟨.refl, hw, hs.rows, fun id hid => ?_⟩
        rcases List.mem_append.mp hid with hold | hnew
        · exact hs.ids id hold
        · exact hw.registered workspaceIds hregistry id hnew
    | putRegistry workspaceIds rebuiltAt =>
      refine ⟨fun id row hrow => ⟨row, hrow, .refl row, fun hr => hr⟩, ⟨hw.keyed, hw.coupled, fun ids hids id hid => ?_⟩, hs.rows, hs.ids⟩
      obtain rfl := Option.some.inj hids
      exact hs.ids id (hallows id hid)
    | append record =>
      exact ⟨fun id row hrow => ⟨row, hrow, .refl row, fun hr => hr⟩, ⟨hw.keyed, hw.coupled, hw.registered⟩, hs.rows, hs.ids⟩
  have hfault : ∀ cause, (workspaceProtocol wsId).next s op (.error cause) = s := by
    intro cause
    cases op <;> rfl
  rcases faulty_cases (runConfigOp d.reading) w op d.fault with hok | ⟨cause, w', herror, rfl | rfl⟩
  · unfold configDb
    dsimp only
    rw [hok]
    exact hrun
  · unfold configDb
    dsimp only
    rw [herror, hfault]
    exact ⟨.refl, hw, hs⟩
  · unfold configDb
    dsimp only
    rw [herror, hfault]
    exact ⟨hrun.1, hrun.2.1, hs.persists hrun.1⟩

end step

section run

variable {ι : Type} [DecidableEq ι] {calls : ι → WorkspaceCall}

/-- What holds between the statements: the invariant, and that the calls have learned what is so. -/
structure Settled (s : ι → Learned) (w : ConfigWorld) : Prop where
  world : ConfigInvariant w
  learned : ∀ i, LearnedOf (s i) w

/-- The calls follow their protocols. -/
abbrev FollowsCalls (calls : ι → WorkspaceCall) (c : WorkspacePool ι) (s : ι → Learned) : Prop :=
  c.Follows (fun i => workspaceProtocol (calls i).workspaceId) (fun _ => Whatever) s

theorem Settled.step {s : ι → Learned} {w : ConfigWorld} {i : ι} {op : ConfigOp} (h : Settled s w)
    (hallows : (workspaceProtocol (calls i).workspaceId).allows (s i) op) (d : ConfigChoice) :
    Persists w (configDb.exec w op d).2 ∧
      Settled (Function.update s i ((workspaceProtocol (calls i).workspaceId).next (s i) op (configDb.exec w op d).1)) (configDb.exec w op d).2 := by
  obtain ⟨hpersists, hinvariant, hlearned⟩ := exec_configDb h.world (h.learned i) hallows d
  refine ⟨hpersists, hinvariant, fun j => ?_⟩
  by_cases hj : j = i
  · subst hj
    rw [Function.update_self]
    exact hlearned
  · rw [Function.update_of_ne hj]
    exact (h.learned j).persists hpersists

/-- A run of calls keeps what holds between the statements, and the rows that are there. -/
theorem Settled.run {c : WorkspacePool ι} {s : ι → Learned} (hc : FollowsCalls calls c s) (hs : Settled s c.world) (es : List (ι × ConfigChoice)) :
    ∃ s', FollowsCalls calls (c.run configDb es) s' ∧ Settled s' (c.run configDb es).world ∧ Persists c.world (c.run configDb es).world := by
  refine Pool.invariant hc (fun _ _ _ _ _ => True) (fun s w => Settled s w ∧ Persists c.world w) ⟨hs, .refl⟩ ?_ es fun _ _ _ _ _ _ _ _ _ _ => trivial
  intro s w i op d hI hallows _
  obtain ⟨hpersists, hsettled⟩ := hI.1.step hallows d
  exact ⟨hsettled, hI.2.trans hpersists⟩

/-- The calls have learned nothing before they start, and there is nothing to know. -/
theorem settled_empty (calls : ι → WorkspaceCall) (es : List (ι × ConfigChoice)) :
    ∃ s, FollowsCalls calls ((workspaceCalls calls .empty).run configDb es) s ∧
      Settled s ((workspaceCalls calls .empty).run configDb es).world := by
  have hstart : FollowsCalls calls (workspaceCalls calls .empty) fun _ => ⟨[], []⟩ := fun i => workspaceCall_keeps (calls i)
  have hempty : Settled (fun _ : ι => (⟨[], []⟩ : Learned)) ConfigWorld.empty := by
    refine ⟨⟨fun id row hrow => ?_, fun id row hrow => ?_, nofun⟩, fun i => ⟨nofun, nofun⟩⟩
    · exact absurd hrow (by simp [ConfigWorld.empty])
    · exact absurd hrow (by simp [ConfigWorld.empty])
  obtain ⟨s, hfollows, hsettled, -⟩ := hempty.run hstart es
  exact ⟨s, hfollows, hsettled⟩

/-- What is stored after some steps stays, in its class, through further ones. -/
theorem persists_run (calls : ι → WorkspaceCall) (es es' : List (ι × ConfigChoice)) :
    Persists ((workspaceCalls calls .empty).run configDb es).world ((workspaceCalls calls .empty).run configDb (es ++ es')).world := by
  obtain ⟨s, hfollows, hsettled⟩ := settled_empty calls es
  obtain ⟨-, -, -, hpersists⟩ := hsettled.run hfollows es'
  rw [Pool.run_append]
  exact hpersists

/-- An upsert that has run has stored its row, also where its reply is lost. -/
theorem exec_upsert {w : ConfigWorld} {ws : Workspace} {d : ConfigChoice} (h : ∀ cause, d.fault ≠ .failed cause) :
    (configDb.exec w (ConfigOp.upsert ws) d).2.config.get ws.id = some ws := by
  obtain ⟨reading, fault⟩ := d
  cases fault with
  | none => exact Map.get_set_self w.config ws.id ws
  | failed cause => exact absurd rfl (h cause)
  | unknown cause => exact Map.get_set_self w.config ws.id ws

/-- The upsert of a revocation of an id leaves the row of the id revoked. -/
theorem revoked_upsert {es : List (ι × ConfigChoice)} {i : ι} {d : ConfigChoice} {id : JsString}
    (h : RevokesNow calls (workspaceCalls calls .empty) es i d id) :
    ∃ ws, ((workspaceCalls calls .empty).run configDb (es ++ [(i, d)])).world.config.get id = some ws ∧ Revoked ws := by
  obtain ⟨⟨deps, hcall⟩, ⟨ws, k, hthread⟩, hfault⟩ := h
  obtain ⟨s, hfollows, hsettled⟩ := settled_empty calls es
  have hi := hfollows i
  rw [hthread] at hi
  obtain ⟨⟨hrevoked, row, hrow, hclass⟩, -⟩ := hi
  obtain ⟨row', hrow', hclass', hid⟩ := (hsettled.learned i).rows _ _ hrow
  have hws : ws.id = id := by
    rw [hclass.1, hid, hcall]
    rfl
  refine ⟨ws, ?_, hrevoked⟩
  rw [Pool.run_concat, Pool.step_of_call hthread]
  rw [← hws]
  exact exec_upsert hfault

/-- A revocation of the egress acknowledgment of a workspace is final under every interleaving
    of provisionings and revocations, and the class of a workspace is fixed by its first row. -/
theorem egressFinal (calls : ι → WorkspaceCall) (schedule : List (ι × ConfigChoice)) :
    EgressFinal calls (workspaceCalls calls .empty) schedule where
  revoked es i d es' es'' id _ h := by
    obtain ⟨ws, hws, hrevoked⟩ := revoked_upsert h
    obtain ⟨ws', hws', -, hstays⟩ := persists_run calls (es ++ [(i, d)]) es' id ws hws
    rw [List.append_assoc, List.singleton_append] at hws'
    exact ⟨ws', hws', hstays hrevoked⟩
  fixed es es' es'' id ws _ hws := by
    obtain ⟨ws', hws', hclass, -⟩ := persists_run calls es es' id ws hws
    exact ⟨ws', hws', hclass.2⟩
  coupled es es' id ws _ hws := by
    obtain ⟨s, -, hsettled⟩ := settled_empty calls es
    have hcoupled := hsettled.world.coupled id ws hws
    unfold WorkspaceEgressPolicy.coupled at hcoupled
    rw [of_decide_eq_true hcoupled]
  registered es es' ids id _ hids hid := by
    obtain ⟨s, -, hsettled⟩ := settled_empty calls es
    exact hsettled.world.registered ids hids id hid

end run

end sow.worker
