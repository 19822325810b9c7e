import Sow.Effect.Interleave
import Sow.Integrations.Tools.ToolModel

open sow.js sow.effect sow.contracts sow.db

namespace sow.tools

/-- A call of `dispatchExternalWrite`. -/
structure DispatchCall (Time Payload : Type) where
  deps : ExternalWriteDeps Payload
  env : ExternalWriteEnvelope
  action : ProposedAction Payload
  opts : DispatchOptions Time

variable {Time Payload : Type}

def DispatchCall.object (call : DispatchCall Time Payload) : ObjectKey := (call.env.targetSystem, call.env.canonicalObjectKey)

/-- How many objects the vendor holds for an external identity. -/
def ToolWorld.objects (w : ToolWorld Time Payload) (object : ObjectKey) : Nat :=
  (w.preexisting object).toList.length + w.calls.countP fun c => c.creates && c.landed && c.object = object

theorem ToolWorld.objects_eq_zero {w : ToolWorld Time Payload} {object : ObjectKey} (h : w.holds object = false) :
    w.objects object = 0 := by
  unfold ToolWorld.holds at h
  rw [Bool.or_eq_false_iff] at h
  obtain ⟨hpre, hcalls⟩ := h
  unfold ToolWorld.objects
  rw [Option.isSome_eq_false_iff, Option.isNone_iff_eq_none] at hpre
  rw [hpre, List.countP_eq_zero.mpr]
  · rfl
  · intro c hc
    exact List.any_eq_false.mp hcalls c hc

/-- A call on the vendor makes one object more at most. -/
theorem objects_vendorCall (d : Choice Time) (w : ToolWorld Time Payload) (creates : Bool) (env : ExternalWriteEnvelope)
    (payload : Payload) (object : ObjectKey) :
    (vendorCall d w creates env payload).objects object ≤ w.objects object + 1 := by
  unfold ToolWorld.objects vendorCall
  rw [List.countP_append, ← Nat.add_assoc]
  exact Nat.add_le_add_left (List.countP_le_length ..) _

/-- Where a dispatch is in the creation of its object. -/
inductive CreateState where
  | outside
  /-- It has been granted the reservation, and creates the object next. -/
  | granted
  /-- Its create was reported as failed, and it gives the reservation back. -/
  | faulted
  deriving DecidableEq

/-- The calls of a dispatch that neither begin nor continue a creation. -/
def ToolOp.isApart : ToolOp Time Payload → Prop
  | .getByIdempotencyKey _ => True
  | .getByCanonicalObjectKey _ => True
  | .put _ => True
  | .recordApplication _ => True
  | .getApplication _ => True
  | .existenceCheck _ _ => True
  | .update _ _ _ _ => True
  | .isApproved _ => True
  | .recordPendingApproval _ _ => True
  | .getSecret _ => True
  | .audit _ => True
  | .clock => True
  | _ => False

/-- Reserve the object, create it, and give the reservation back if that failed. -/
def createProtocol (object : ObjectKey) : Protocol (ToolOp Time Payload) ToolOp.Ret Cause CreateState where
  allows
    | .outside, .reserve key => key = object
    | .outside, op => op.isApart
    | .granted, .create env _ _ => (env.targetSystem, env.canonicalObjectKey) = object
    | .granted, _ => False
    | .faulted, .release key => key = object
    | .faulted, _ => False
  next
    | .outside, .reserve _, .ok (.ok .reserved) => .granted
    | .granted, .create _ _ _, .ok (.ok _) => .outside
    | .granted, .create _ _ _, _ => .faulted
    | .faulted, .release _, _ => .outside
    | s, _, _ => s

theorem createProtocol_apart (object : ObjectKey) (op : ToolOp Time Payload) (hop : op.isApart) :
    (createProtocol object).allows .outside op ∧ ∀ r, (createProtocol object).next .outside op r = .outside := by
  cases op with
  | reserve key => exact hop.elim
  | create env payload ctx => exact hop.elim
  | release key => exact hop.elim
  | _ => exact ⟨hop, fun _ => rfl⟩

/-- Outside of a creation a dispatch may reserve its object, and nothing else of a creation. -/
theorem allows_outside {object : ObjectKey} {op : ToolOp Time Payload} (h : (createProtocol object).allows .outside op) :
    op = .reserve object ∨ op.isApart := by
  cases op with
  | reserve key =>
    obtain rfl : key = object := h
    exact .inl rfl
  | create env payload ctx => exact h.elim
  | release key => exact h.elim
  | _ => exact .inr h

/-- Only a granted reservation begins a creation. -/
theorem next_reserve_of_ne {object key : ObjectKey} {r : Except Cause (DbResult (ReserveOutcome Time))}
    (h : r ≠ .ok (.ok .reserved)) :
    (createProtocol object : Protocol (ToolOp Time Payload) ToolOp.Ret Cause CreateState).next .outside (ToolOp.reserve key) r =
      .outside := by
  cases r with
  | error e => rfl
  | ok answer =>
    cases answer with
    | error e => rfl
    | ok outcome =>
      cases outcome with
      | reserved => exact absurd rfl h
      | in_progress => rfl
      | committed row => rfl

/-- A dispatch creates its object once for a reservation. -/
theorem next_create_ne_granted {object : ObjectKey} {env : ExternalWriteEnvelope} {payload : Payload} {ctx : AdapterCallContext}
    {r : Except Cause (Except AdapterError (WriteReceipt Time))} :
    (createProtocol object).next .granted (ToolOp.create env payload ctx) r ≠ .granted := by
  cases r with
  | error e => exact CreateState.noConfusion
  | ok answer =>
    cases answer with
    | error e => exact CreateState.noConfusion
    | ok receipt => exact CreateState.noConfusion

section protocol

/-! The parts of a dispatch that are not about creation. -/

theorem recordReceipt_apart (env : ExternalWriteEnvelope) (receipt : WriteReceipt Time) :
    Program.Within ToolOp.isApart (recordReceipt env receipt : ToolM Time Payload Unit) := by
  unfold recordReceipt
  refine (Program.within_perform trivial).bind fun _ => ?_
  refine Program.Within.bind ?_ fun _ => ?_
  · exact (Program.within_perform trivial).bind fun _ => trivial
  · exact (Program.within_perform trivial).bind fun _ => trivial

theorem emitCommitDiagnostics_apart (env : ExternalWriteEnvelope) (receipt : WriteReceipt Time) :
    Program.Within ToolOp.isApart (emitCommitDiagnostics env receipt : ToolM Time Payload Unit) := by
  unfold emitCommitDiagnostics
  refine (Program.within_perform trivial).bind fun _ => ?_
  refine (Program.within_perform trivial).bind fun _ => ?_
  exact Program.within_perform trivial

theorem resolveExisting_apart (env : ExternalWriteEnvelope) (ctx : AdapterCallContext) :
    Program.Within ToolOp.isApart (resolveExisting env ctx : ToolM Time Payload (ExistenceOutcome Time)) := by
  unfold resolveExisting
  refine ((Program.within_perform trivial).map _).bind fun ledger => ?_
  cases ledger with
  | fault code => trivial
  | hit record => trivial
  | miss =>
    refine ((Program.within_perform trivial).map _).bind fun byKey => ?_
    cases byKey with
    | fault code => trivial
    | hit record => trivial
    | miss =>
      refine ((Program.within_perform trivial).map _).bind fun byObject => ?_
      cases byObject with
      | fault code => trivial
      | hit record => trivial
      | miss =>
        refine (Program.within_perform trivial).bind fun live => ?_
        cases live with
        | error e => trivial
        | ok seen =>
          cases seen with
          | none => trivial
          | some object => trivial

/-- The credential seam only reads a secret. -/
theorem resolveWriteCredentialFault_within (targetSystem : TargetSystem) (workspaceId : Option JsString) :
    Program.Within (fun op => ∃ ref, op = .getSecret ref)
      (resolveWriteCredentialFault targetSystem workspaceId : ToolM Time Payload (Option WriteCredentialFault)) := by
  unfold resolveWriteCredentialFault
  cases workspaceId with
  | none => trivial
  | some workspaceId =>
    simp only
    split_ifs
    · trivial
    · refine Program.Within.tryCatch ?_ fun _ => trivial
      refine (Program.within_perform ⟨_, rfl⟩).bind fun secret => ?_
      cases secret with
      | error reason => trivial
      | ok token =>
        simp only
        split_ifs
        · trivial
        · trivial

theorem resolveWriteCredentialFault_apart (targetSystem : TargetSystem) (workspaceId : Option JsString) :
    Program.Within ToolOp.isApart
      (resolveWriteCredentialFault targetSystem workspaceId : ToolM Time Payload (Option WriteCredentialFault)) := by
  apply (resolveWriteCredentialFault_within targetSystem workspaceId).mono
  rintro op ⟨ref, rfl⟩
  trivial

theorem dispatchLive_apart (env : ExternalWriteEnvelope) (object : ExistingObject) :
    Program.Within ToolOp.isApart (dispatchLive env object : ToolM Time Payload (ExternalWriteResult Time)) := by
  unfold dispatchLive recordAdoptedObject
  refine (Program.within_perform trivial).bind fun _ => ?_
  refine Program.Within.bind ?_ fun _ => trivial
  refine (Program.within_perform trivial).bind fun _ => ?_
  exact (Program.within_perform trivial).bind fun _ => trivial

variable [LinearOrder Time]

theorem dispatchStored_apart (env : ExternalWriteEnvelope) (action : ProposedAction Payload)
    (opts : DispatchOptions Time) (ctx : AdapterCallContext) (current : ReceiptRecord Time) :
    Program.Within ToolOp.isApart (dispatchStored env action opts ctx current) := by
  unfold dispatchStored
  split_ifs
  · trivial
  · trivial
  · refine Program.Within.bind ?_ fun authored => ?_
    · refine ((Program.within_perform trivial).map _).bind fun ledger => ?_
      cases ledger with
      | hit record => trivial
      | miss => trivial
      | fault code => trivial
    · split_ifs
      · trivial
      · refine (Program.within_perform trivial).bind fun updated => ?_
        cases updated with
        | error e => trivial
        | ok receipt =>
          refine (recordReceipt_apart env receipt).bind fun _ => ?_
          exact (emitCommitDiagnostics_apart env receipt).bind fun _ => trivial

end protocol

section create

variable {env : ExternalWriteEnvelope}

/-- Any outcome in any state. -/
abbrev Anyhow {α : Type} : CreateState → Except Cause α → Prop := fun _ _ => True

/-- A part that is not about creation keeps the protocol, and so does what follows. -/
theorem keeps_apart_bind {α β : Type} {object : ObjectKey} {p : ToolM Time Payload β} {f : β → ToolM Time Payload α}
    (hp : Program.Within ToolOp.isApart p) (hf : ∀ b, (createProtocol object).Keeps Anyhow (f b) .outside) :
    (createProtocol object).Keeps Anyhow (p >>= f) .outside := by
  rw [Protocol.keeps_bind]
  refine Protocol.Keeps.mono (Protocol.keeps_of_within hp (createProtocol_apart object)) fun s r hs => ?_
  subst hs
  cases r with
  | error e => trivial
  | ok b => exact hf b

theorem keeps_apart {α : Type} {object : ObjectKey} {p : ToolM Time Payload α} (hp : Program.Within ToolOp.isApart p) :
    (createProtocol object).Keeps Anyhow p .outside :=
  Protocol.Keeps.mono (Protocol.keeps_of_within hp (createProtocol_apart object)) fun _ _ _ => trivial

/-- A dispatch that reserves its object creates it next, and releases it only if that failed. -/
theorem dispatchCreate_keeps (env : ExternalWriteEnvelope) (action : ProposedAction Payload) (ctx : AdapterCallContext) :
    (createProtocol (env.targetSystem, env.canonicalObjectKey)).Keeps Anyhow
      (dispatchCreate env action ctx : ToolM Time Payload (ExternalWriteResult Time)) .outside := by
  unfold dispatchCreate ReceiptStore.reserve
  rw [bind_map_left]
  refine Protocol.keeps_call rfl (fun answer => ?_) fun _ => trivial
  cases answer with
  | error e => exact keeps_apart trivial
  | ok outcome =>
    cases outcome with
    | in_progress => exact keeps_apart trivial
    | committed row =>
      dsimp only [reservationOf]
      cases rowToReceiptRecord row with
      | none => exact keeps_apart trivial
      | some record => exact keeps_apart trivial
    | reserved =>
      refine Protocol.keeps_call rfl (fun created => ?_) fun _ => trivial
      cases created with
      | ok receipt =>
        refine keeps_apart_bind (recordReceipt_apart env receipt) fun _ => ?_
        exact keeps_apart_bind (emitCommitDiagnostics_apart env receipt) fun _ => trivial
      | error e =>
        unfold ReceiptStore.release
        dsimp only
        rw [bind_assoc]
        exact Protocol.keeps_call rfl (fun _ => trivial) fun _ => trivial

variable [LinearOrder Time]

theorem dispatchWrite_keeps (env : ExternalWriteEnvelope) (action : ProposedAction Payload) (opts : DispatchOptions Time) :
    (createProtocol (env.targetSystem, env.canonicalObjectKey)).Keeps Anyhow (dispatchWrite env action opts) .outside := by
  unfold dispatchWrite
  refine keeps_apart_bind (resolveExisting_apart env _) fun existing => ?_
  cases existing with
  | replay receipt => trivial
  | stored current => exact keeps_apart (dispatchStored_apart env action opts _ current)
  | live object => exact keeps_apart (dispatchLive_apart env object)
  | error e => trivial
  | none => exact dispatchCreate_keeps env action _

theorem dispatchApproved_keeps (deps : ExternalWriteDeps Payload) (env : ExternalWriteEnvelope)
    (action : ProposedAction Payload) (opts : DispatchOptions Time) :
    (createProtocol (env.targetSystem, env.canonicalObjectKey)).Keeps Anyhow (dispatchApproved deps env action opts)
      .outside := by
  unfold dispatchApproved
  split_ifs
  · refine keeps_apart_bind (resolveWriteCredentialFault_apart env.targetSystem opts.workspaceId) fun fault => ?_
    cases fault with
    | some fault => trivial
    | none => exact dispatchWrite_keeps env action opts
  · exact dispatchWrite_keeps env action opts

theorem dispatchExternalWrite_keeps (deps : ExternalWriteDeps Payload) (env : ExternalWriteEnvelope)
    (action : ProposedAction Payload) (opts : DispatchOptions Time) :
    (createProtocol (env.targetSystem, env.canonicalObjectKey)).Keeps Anyhow (dispatchExternalWrite deps env action opts)
      .outside := by
  unfold dispatchExternalWrite
  cases admitExternalWriteEnvelope deps.schemaViolation env action with
  | some message => trivial
  | none =>
    simp only
    split_ifs
    · refine keeps_apart_bind (Program.within_perform trivial) fun approved => ?_
      split_ifs
      · exact dispatchApproved_keeps deps env action opts
      · refine keeps_apart_bind (Program.within_perform trivial) fun _ => trivial
    · exact dispatchApproved_keeps deps env action opts

end create

section step

variable {epoch : Time} {w : ToolWorld Time Payload} {object : ObjectKey}

/-- Nothing is created for the object, and its row is not deleted. -/
structure LeavesObject (object : ObjectKey) (w w' : ToolWorld Time Payload) : Prop where
  row : (w.receipts.get object).isSome → (w'.receipts.get object).isSome
  objects : w'.objects object = w.objects object
  holds : w'.holds object = w.holds object

theorem LeavesObject.refl : LeavesObject object w w := ⟨id, rfl, rfl⟩

theorem get_set_isSome {rows : Map ObjectKey (WriteReceiptRow Time)} (key : ObjectKey) (row : WriteReceiptRow Time)
    (h : (rows.get object).isSome) : ((rows.set key row).get object).isSome := by
  rw [Map.get_set]
  split_ifs
  · rfl
  · exact h

/-- A store operation ends in the world before it or in the one after it. -/
theorem stored_snd {α : Type} {P : ToolWorld Time Payload → Prop} (d : Choice Time) {w w' : ToolWorld Time Payload}
    (answer : DbResult α) (hw : P w) (hw' : P w') : P (stored d w w' answer).2 := by
  unfold stored
  cases d.fault with
  | none => exact hw'
  | some e =>
    dsimp only
    split_ifs
    · exact hw'
    · exact hw

/-- What a store operation does, if it is not about the object, and if it fails. -/
theorem LeavesObject.stored {α : Type} (d : Choice Time) {w' : ToolWorld Time Payload} (answer : DbResult α)
    (h : LeavesObject object w w') : LeavesObject object w (stored d w w' answer).2 :=
  stored_snd d answer .refl h

theorem leavesObject_put (row : WriteReceiptRow Time) :
    LeavesObject object w { w with receipts := (tables.put w.receipts row).2 } := by
  refine ⟨fun h => ?_, rfl, rfl⟩
  unfold tables.put
  dsimp only
  split_ifs
  · exact h
  · exact get_set_isSome _ row h

theorem leavesObject_reserve (key : ObjectKey) :
    LeavesObject object w { w with receipts := (tables.reserve epoch w.receipts key).2 } := by
  refine ⟨fun h => ?_, rfl, rfl⟩
  unfold tables.reserve
  dsimp only
  cases w.receipts.get key with
  | none => exact get_set_isSome key _ h
  | some row => exact h

variable {ι : Type}

/-- One dispatch at most is creating the object, and the row of the object keeps the others out. -/
structure OneCreator (object : ObjectKey) (s : ι → CreateState) (w : ToolWorld Time Payload) : Prop where
  one : ∀ i j, s i ≠ .outside → s j ≠ .outside → i = j
  row : ∀ i, s i ≠ .outside → (w.receipts.get object).isSome
  fresh : ∀ i, s i = .granted → w.holds object = false
  objects : w.objects object ≤ 1

/-- A step that leaves the object alone and begins no creation. -/
theorem OneCreator.leaves {s : ι → CreateState} {w' : ToolWorld Time Payload} (h : OneCreator object s w)
    (hw : LeavesObject object w w') : OneCreator object s w' := by
  constructor
  · exact h.one
  · exact fun i hi => hw.row (h.row i hi)
  · exact fun i hi => hw.holds.trans (h.fresh i hi)
  · exact hw.objects.trans_le h.objects

theorem OneCreator.others {s : ι → CreateState} (h : OneCreator object s w) {i : ι} (hi : s i ≠ .outside) :
    ∀ j, j ≠ i → s j = .outside := by
  intro j hji
  by_contra hj
  exact hji (h.one j i hj hi)

variable [DecidableEq ι]

/-- A step of the only dispatch that is, or was, about to create the object. -/
theorem OneCreator.alone {s : ι → CreateState} {i : ι} {t : CreateState} (hothers : ∀ j, j ≠ i → s j = .outside)
    (hrow : t ≠ .outside → (w.receipts.get object).isSome) (hfresh : t = .granted → w.holds object = false)
    (hobjects : w.objects object ≤ 1) : OneCreator object (Function.update s i t) w := by
  have hupdate : ∀ j, Function.update s i t j ≠ .outside → j = i := by
    intro j hj
    by_contra hji
    rw [Function.update_of_ne hji] at hj
    exact hj (hothers j hji)
  constructor
  · intro j k hj hk
    rw [hupdate j hj, hupdate k hk]
  · intro j hj
    obtain rfl := hupdate j hj
    rw [Function.update_self] at hj
    exact hrow hj
  · intro j hj
    obtain rfl := hupdate j (by rw [hj]; decide)
    rw [Function.update_self] at hj
    exact hfresh hj
  · exact hobjects

variable [LinearOrder Time]

/-- The calls that are not about creation leave the object alone. -/
theorem exec_apart {op : ToolOp Time Payload} (hop : op.isApart) (d : Choice Time) :
    LeavesObject object w ((toolHandler epoch).exec w op d).2 := by
  cases op with
  | reserve key => exact hop.elim
  | create env payload ctx => exact hop.elim
  | release key => exact hop.elim
  | put row => exact (leavesObject_put row).stored d _
  | update env payload expectedPrecondition ctx =>
    constructor
    · exact id
    · simp [toolHandler, vendorCall, ToolWorld.objects]
    · simp [toolHandler, vendorCall, ToolWorld.holds]
  | getByIdempotencyKey k => exact LeavesObject.refl.stored d _
  | getByCanonicalObjectKey key => exact LeavesObject.refl.stored d _
  | recordApplication row => exact LeavesObject.stored d _ ⟨id, rfl, rfl⟩
  | getApplication k => exact LeavesObject.refl.stored d _
  | existenceCheck env ctx => exact .refl
  | isApproved env => exact .refl
  | recordPendingApproval action env => exact .refl
  | getSecret ref => exact .refl
  | audit record => exact .refl
  | clock => exact ⟨id, rfl, rfl⟩
  | _ => exact hop.elim

/-- The reservation is granted on an object without a row, and gives it one. -/
theorem exec_reserve (d : Choice Time) :
    ((toolHandler epoch).exec w (ToolOp.reserve object) d).1 ≠ .ok (.ok .reserved) ∨
      d.fault = none ∧ w.receipts.get object = none ∧
        (((toolHandler epoch).exec w (ToolOp.reserve object) d).2.receipts.get object).isSome := by
  simp only [toolHandler, stored]
  cases d.fault with
  | some e => exact .inl (by simp)
  | none =>
    unfold tables.reserve
    cases w.receipts.get object with
    | none => exact .inr ⟨rfl, rfl, by simp⟩
    | some row =>
      left
      dsimp only
      split_ifs <;> simp

/-- What keeps the creations of an object apart is kept by every step, if no
    reservation is granted while the vendor holds the object. -/
theorem OneCreator.step {s : ι → CreateState} (h : OneCreator object s w) {i : ι} {op : ToolOp Time Payload}
    (hallows : (createProtocol object).allows (s i) op) (d : Choice Time)
    (hgrant : op = .reserve object → d.fault = none → w.receipts.get object = none → w.holds object = false) :
    OneCreator object
      (Function.update s i ((createProtocol object).next (s i) op ((toolHandler epoch).exec w op d).1))
      ((toolHandler epoch).exec w op d).2 := by
  cases hs : s i with
  | outside =>
    rw [hs] at hallows
    have hstays : Function.update s i .outside = s := by rw [← hs, Function.update_eq_self]
    rcases allows_outside hallows with rfl | hapart
    · have hleaves : LeavesObject object w ((toolHandler epoch).exec w (ToolOp.reserve object) d).2 :=
        (leavesObject_reserve object).stored d _
      by_cases hgranted : ((toolHandler epoch).exec w (ToolOp.reserve object) d).1 = .ok (.ok .reserved)
      · obtain ⟨hfault, hrow, hrow'⟩ := (exec_reserve d).resolve_left (not_not_intro hgranted)
        rw [hgranted]
        refine OneCreator.alone (fun j _ => ?_) (fun _ => hrow') (fun _ => ?_) (hleaves.objects.trans_le h.objects)
        · by_contra hj
          have hpresent := h.row j hj
          rw [hrow] at hpresent
          cases hpresent
        · exact hleaves.holds.trans (hgrant rfl hfault hrow)
      · rw [next_reserve_of_ne hgranted, hstays]
        exact h.leaves hleaves
    · rw [(createProtocol_apart object op hapart).2, hstays]
      exact h.leaves (exec_apart hapart d)
  | granted =>
    rw [hs] at hallows
    have hinside : s i ≠ .outside := by simp [hs]
    cases op with
    | create env payload ctx =>
      refine OneCreator.alone (h.others hinside) (fun _ => h.row i hinside) (fun hagain => ?_) ?_
      · exact absurd hagain next_create_ne_granted
      · have hnone := ToolWorld.objects_eq_zero (h.fresh i hs)
        have hone := objects_vendorCall d w true env payload object
        exact hone.trans_eq (by rw [hnone])
    | _ => exact hallows.elim
  | faulted =>
    rw [hs] at hallows
    have hinside : s i ≠ .outside := by simp [hs]
    cases op with
    | release key =>
      refine OneCreator.alone (h.others hinside) (fun hne => absurd rfl hne) (fun hagain => ?_) ?_
      · cases hagain
      · exact stored_snd (P := fun w => w.objects object ≤ 1) d _ h.objects h.objects
    | _ => exact hallows.elim

end step

/-- Dispatches that run concurrently on the same stores and vendors. -/
abbrev DispatchPool (ι Time Payload : Type) :=
  Pool ι (ToolOp Time Payload) ToolOp.Ret Cause (ExternalWriteResult Time) (ToolWorld Time Payload)

section run

variable [LinearOrder Time] {ι : Type} [DecidableEq ι]

/-- The dispatches before any of them has moved; a later re-drive is one that moves later. -/
def dispatches (calls : ι → DispatchCall Time Payload) (w : ToolWorld Time Payload) : DispatchPool ι Time Payload :=
  ⟨fun i => dispatchExternalWrite (calls i).deps (calls i).env (calls i).action (calls i).opts, w⟩

/-- At no point of the schedule does the vendor hold two objects for the identity. -/
def AtMostOneObject (epoch : Time) (object : ObjectKey) (c : DispatchPool ι Time Payload)
    (schedule : List (ι × Choice Time)) : Prop :=
  ∀ es es', schedule = es ++ es' → (c.run (toolHandler epoch) es).world.objects object ≤ 1

/-- Whenever the reservation is granted, the vendor does not hold the object. -/
def GrantsFresh (epoch : Time) (object : ObjectKey) (c : DispatchPool ι Time Payload)
    (schedule : List (ι × Choice Time)) : Prop :=
  ∀ es i d es' k, schedule = es ++ (i, d) :: es' →
    (c.run (toolHandler epoch) es).thread i = .call (ToolOp.reserve object) k → d.fault = none →
    (c.run (toolHandler epoch) es).world.receipts.get object = none →
    (c.run (toolHandler epoch) es).world.holds object = false

/-- Dispatches that share an external identity never make two objects of it, in any
    interleaving and with any faults, if no reservation is granted too late. -/
theorem dispatchExternalWrite_atMostOneObject (epoch : Time) (object : ObjectKey) (calls : ι → DispatchCall Time Payload)
    (hshared : ∀ i, (calls i).object = object) (w : ToolWorld Time Payload) (hw : w.objects object ≤ 1)
    (schedule : List (ι × Choice Time)) (hgrant : GrantsFresh epoch object (dispatches calls w) schedule) :
    AtMostOneObject epoch object (dispatches calls w) schedule := by
  intro es es' hes
  have hkeeps : (dispatches calls w).Follows (fun _ => createProtocol object) (fun _ => Anyhow) fun _ => .outside := by
    intro i
    rw [← hshared i]
    exact dispatchExternalWrite_keeps (calls i).deps (calls i).env (calls i).action (calls i).opts
  have hstart : OneCreator object (fun _ : ι => .outside) w :=
    ⟨fun _ _ h => absurd rfl h, fun _ h => absurd rfl h, fun _ h => (by cases h), hw⟩
  obtain ⟨s, -, hinv⟩ := Pool.invariant (h := toolHandler epoch) hkeeps
    (fun _ w _ op d => op = .reserve object → d.fault = none → w.receipts.get object = none → w.holds object = false)
    (OneCreator object) hstart (fun s w i op d h hallows hfresh => h.step hallows d hfresh) es (by
      rintro es₁ i d es₂ rfl s op k - hcall rfl hfault hrow
      exact hgrant es₁ i d (es₂ ++ es') k (by rw [hes]; simp) hcall hfault hrow)
  exact hinv.objects

end run

section duplicate

/-- Two envelopes for one task; they are admitted and need no approval. -/
def taskCalls (second : Bool) : DispatchCall Nat Unit where
  deps := ⟨fun _ => none, fun _ => false, false⟩
  env := ⟨str "a1", .todoist, str "t1", if second then str "k2" else str "k1", [], str "h1"⟩
  action := ⟨str "a1", .todoist, str "t1", (), str "p", if second then str "k2" else str "k1"⟩
  opts := ⟨none, some (str "w1")⟩

def noTasks : ToolWorld Nat Unit where
  outbox := []
  receipts := .empty
  applications := .empty
  preexisting := fun _ => none
  calls := []
  now := 0

/-- Nothing but the vendor fails, and it tells exactly what it holds; a create that
    took effect may be reported as `unreachable`. -/
structure Choice.Honest (d : Choice Time) : Prop where
  stores : d.fault = none
  probe : ∃ object, d.probe = .exact object
  approved : d.approved = true
  vendor : d.landed = true → ∀ e, d.adapter = .error e → e.code = .unreachable

/-- The vendor takes the write and answers, or takes it and drops the connection. -/
def vendorAnswers (answered : Bool) : Choice Nat where
  fault := none
  landed := true
  adapter := if answered then .ok ⟨str "x1", none, 0, none⟩ else .error ⟨.unreachable, str "timeout"⟩
  probe := .exact ⟨str "x1", none, none⟩
  approved := true
  secret := .ok (.ok (str "token"))
  sink := .ok ()
  time := 0
  id := str "o1"

/-- Both probe; the first reserves, creates, is told of a timeout and releases; then
    the second reserves and creates. -/
def lateReservation : List (Bool × Choice Nat) :=
  List.replicate 4 (false, vendorAnswers true) ++ List.replicate 4 (true, vendorAnswers true) ++
    List.replicate 3 (false, vendorAnswers false) ++ List.replicate 2 (true, vendorAnswers true)

theorem vendorAnswers_honest (answered : Bool) : (vendorAnswers answered).Honest := by
  refine ⟨rfl, ⟨_, rfl⟩, rfl, fun _ e he => ?_⟩
  cases answered with
  | true => cases he
  | false =>
    obtain rfl := Except.error.inj he
    rfl

theorem dispatchExternalWrite_creates_twice :
    ¬ ∀ schedule : List (Bool × Choice Nat), (∀ e ∈ schedule, e.2.Honest) →
      AtMostOneObject 0 (.todoist, str "t1") (dispatches taskCalls noTasks) schedule := by
  intro h
  have hhonest : ∀ e ∈ lateReservation, e.2.Honest := by
    intro e he
    simp only [lateReservation, List.mem_append, List.mem_replicate] at he
    rcases he with ((⟨-, rfl⟩ | ⟨-, rfl⟩) | ⟨-, rfl⟩) | ⟨-, rfl⟩ <;> exact vendorAnswers_honest _
  have htwo := h lateReservation hhonest lateReservation [] (by simp)
  revert htwo
  decide

theorem dispatchExternalWrite_atMostOneObject_taskCalls :
    AtMostOneObject 0 (.todoist, str "t1") (dispatches taskCalls noTasks)
      (List.replicate 12 (false, vendorAnswers true)) := by
  refine dispatchExternalWrite_atMostOneObject 0 (.todoist, str "t1") taskCalls (fun _ => rfl) noTasks (by decide) _ ?_
  intro es i d es' k hes hcall hfault hrow
  obtain ⟨hlen, hreplicate, -⟩ := List.append_eq_replicate_iff.mp hes.symm
  rw [hreplicate] at hcall hrow ⊢
  have hbound : es.length < 12 := by
    rw [List.length_cons] at hlen
    omega
  -- The first dispatch reserves at its fifth call; the second does not move.
  generalize es.length = n at hbound hcall hrow ⊢
  cases i with
  | true => interval_cases n <;> cases hcall
  | false => interval_cases n <;> first | rfl | cases hcall

end duplicate

end sow.tools
