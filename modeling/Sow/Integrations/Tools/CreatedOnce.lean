import Sow.Effect.Wp
import Sow.Integrations.Tools.AtMostOneObject

open sow.js sow.effect sow.contracts sow.db

namespace sow.tools

variable {Time Payload : Type}

/-- How often the vendor has taken a create of the envelope. -/
def ToolWorld.created (w : ToolWorld Time Payload) (env : ExternalWriteEnvelope) : Nat :=
  w.calls.countP fun c => c.creates && c.landed && c.env = env

/-- An existence check that reports no object is right about it. -/
def Sighted (op : ToolOp Time Payload) (d : Choice Time) : Prop :=
  ∀ env ctx, op = .existenceCheck env ctx → d.probe ≠ .reports (.ok none)

def ToolOp.isCreate : ToolOp Time Payload → Prop
  | .create _ _ _ => True
  | _ => False

/-- The vendor has taken no further create. -/
structure SameCreations (w w' : ToolWorld Time Payload) : Prop where
  calls : w'.calls.filter (fun c => c.creates && c.landed) = w.calls.filter fun c => c.creates && c.landed
  preexisting : w'.preexisting = w.preexisting

/-- What has been created once has not been created again. -/
def CreatesOnce (w w' : ToolWorld Time Payload) : Prop := ∀ env, w.created env ≤ 1 → w'.created env ≤ 1

section creations

variable {w w' w'' : ToolWorld Time Payload} {env : ExternalWriteEnvelope}

theorem SameCreations.refl : SameCreations w w := ⟨rfl, rfl⟩

theorem SameCreations.trans (h : SameCreations w w') (h' : SameCreations w' w'') : SameCreations w w'' :=
  ⟨h'.calls.trans h.calls, h'.preexisting.trans h.preexisting⟩

theorem ToolWorld.created_eq (w : ToolWorld Time Payload) (env : ExternalWriteEnvelope) :
    w.created env = (w.calls.filter fun c => c.creates && c.landed).countP fun c => c.env = env := by
  unfold ToolWorld.created
  rw [List.countP_filter]
  refine List.countP_congr fun c _ => ?_
  rw [Bool.and_comm]

theorem SameCreations.created (h : SameCreations w w') : w'.created env = w.created env := by
  rw [ToolWorld.created_eq, ToolWorld.created_eq, h.calls]

theorem SameCreations.createsOnce (h : SameCreations w w') : CreatesOnce w w' := fun _ hone => h.created.trans_le hone

theorem CreatesOnce.of_same (h' : CreatesOnce w' w'') (h : SameCreations w w') : CreatesOnce w w'' :=
  fun env hone => h' env (h.created.trans_le hone)

theorem ToolWorld.holds_eq (w : ToolWorld Time Payload) (object : ObjectKey) :
    w.holds object = ((w.preexisting object).isSome || (w.calls.filter fun c => c.creates && c.landed).any fun c => c.object = object) := by
  unfold ToolWorld.holds
  rw [List.any_filter]

theorem SameCreations.holds (h : SameCreations w w') (object : ObjectKey) : w'.holds object = w.holds object := by
  rw [ToolWorld.holds_eq, ToolWorld.holds_eq, h.calls, h.preexisting]

/-- Nothing was created of an object that the vendor does not hold. -/
theorem ToolWorld.created_eq_zero (h : w.holds (env.targetSystem, env.canonicalObjectKey) = false) : w.created env = 0 := by
  unfold ToolWorld.created
  unfold ToolWorld.holds at h
  rw [Bool.or_eq_false_iff] at h
  rw [List.countP_eq_zero]
  intro c hc hcreated
  rw [Bool.and_eq_true, decide_eq_true_iff] at hcreated
  obtain ⟨hlanded, rfl⟩ := hcreated
  have hother := List.any_eq_false.mp h.2 c hc
  rw [hlanded] at hother
  exact hother (decide_eq_true rfl)

/-- A create of an object that the vendor does not hold is its first. -/
theorem createsOnce_vendorCall (d : Choice Time) (payload : Payload) (h : w.holds (env.targetSystem, env.canonicalObjectKey) = false) :
    CreatesOnce w (vendorCall d w true env payload) := by
  intro env' hone
  unfold ToolWorld.created vendorCall
  rw [List.countP_append]
  by_cases henv : env = env'
  · subst henv
    have hnone := ToolWorld.created_eq_zero h
    unfold ToolWorld.created at hnone
    rw [hnone, Nat.zero_add]
    exact List.countP_le_length
  · have hnone : [(⟨true, env, payload, d.adapter.isOk || d.landed, d.adapter.isOk⟩ : VendorCall Payload)].countP
        (fun c => c.creates && c.landed && c.env = env') = 0 := by
      simp [henv]
    rw [hnone, Nat.add_zero]
    exact hone

end creations

section step

variable [LinearOrder Time] {epoch : Time} {w : ToolWorld Time Payload}

omit [LinearOrder Time] in
theorem SameCreations.stored {α : Type} (d : Choice Time) {w' : ToolWorld Time Payload} (answer : DbResult α)
    (h : SameCreations w w') : SameCreations w (stored d w w' answer).2 :=
  stored_snd d answer .refl h

/-- Only a create is taken as one. -/
theorem exec_sameCreations {op : ToolOp Time Payload} (hop : ¬ op.isCreate) (d : Choice Time) :
    SameCreations w ((toolHandler epoch).exec w op d).2 := by
  cases op with
  | create env payload ctx => exact absurd trivial hop
  | update env payload expectedPrecondition ctx => exact ⟨by simp [toolHandler, vendorCall], rfl⟩
  | existenceCheck env ctx => exact .refl
  | isApproved env => exact .refl
  | recordPendingApproval action env => exact .refl
  | getSecret ref => exact .refl
  | audit record => exact .refl
  | health probe => exact .refl
  | outboxId => exact .refl
  | clock => exact ⟨rfl, rfl⟩
  | _ => exact SameCreations.stored d _ ⟨rfl, rfl⟩

omit [LinearOrder Time] in
theorem not_isCreate_of_isApart {op : ToolOp Time Payload} (hop : op.isApart) : ¬ op.isCreate := by
  cases op with
  | create env payload ctx => exact hop.elim
  | _ => exact id

theorem wp_sameCreations {α : Type} {p : ToolM Time Payload α} (hp : p.Within fun op => ¬ op.isCreate) :
    wp (toolHandler epoch) Sighted p (fun _ w' => SameCreations w w') w :=
  wp_of_within hp .refl fun _ _ d hop _ hsame => hsame.trans (exec_sameCreations hop d)

/-- A part of a dispatch that is apart from creation. -/
theorem wp_apart {α : Type} {p : ToolM Time Payload α} (hp : p.Within ToolOp.isApart) :
    wp (toolHandler epoch) Sighted p (fun _ w' => SameCreations w w') w :=
  wp_sameCreations (hp.mono fun _ => not_isCreate_of_isApart)

theorem wp_apart_bind {α β : Type} {p : ToolM Time Payload β} {f : β → ToolM Time Payload α} (hp : p.Within ToolOp.isApart)
    (hf : ∀ b w', SameCreations w w' → wp (toolHandler epoch) Sighted (f b) (fun _ w'' => CreatesOnce w' w'') w') :
    wp (toolHandler epoch) Sighted (p >>= f) (fun _ w' => CreatesOnce w w') w := by
  rw [wp_bind]
  refine (wp_apart hp).mono fun r w' hsame => ?_
  cases r with
  | error e => exact hsame.createsOnce
  | ok b => exact (hf b w' hsame).mono fun _ _ honce => honce.of_same hsame

omit [LinearOrder Time] in
theorem stored_reads {α : Type} (d : Choice Time) (w : ToolWorld Time Payload) (answer : DbResult α) : ∃ r, stored d w w answer = (.ok r, w) := by
  obtain ⟨r, w₁, hrun, ⟨-, rfl⟩ | ⟨e, -, rfl | rfl⟩⟩ := stored_answers d w w answer
  · exact ⟨r, hrun⟩
  · exact ⟨r, hrun⟩
  · exact ⟨r, hrun⟩

omit [LinearOrder Time] in
theorem report_none {probe : Probe} {object : ObjectKey} (h : probe ≠ .reports (.ok none)) (hnone : probe.report w object = .ok none) :
    w.holds object = false := by
  unfold Probe.report at hnone
  cases probe with
  | exact seen =>
    by_contra hholds
    rw [Bool.not_eq_false] at hholds
    simp [hholds] at hnone
  | reports report => exact absurd (congrArg Probe.reports hnone) h

/-- When the existence check finds nothing, the vendor does not hold the object. -/
theorem wp_resolveExisting_sighted (env : ExternalWriteEnvelope) (ctx : AdapterCallContext) :
    wp (toolHandler epoch) Sighted (resolveExisting env ctx)
      (fun r w' => SameCreations w w' ∧ (r = .ok .none → w'.holds (env.targetSystem, env.canonicalObjectKey) = false)) w := by
  unfold resolveExisting ReceiptStore.getApplication ReceiptStore.getByIdempotencyKeyChecked
    ReceiptStore.getByCanonicalObjectKeyChecked
  simp only [bind_map_left]
  refine wp_call fun d _ => ?_
  obtain ⟨r, hrun⟩ := stored_reads d w (tables.getApplication w.applications env.idempotencyKey)
  refine ⟨r, w, hrun, ?_⟩
  cases applicationLookup r with
  | fault code => exact ⟨.refl, nofun⟩
  | hit record => exact ⟨.refl, nofun⟩
  | miss =>
    refine wp_call fun d _ => ?_
    obtain ⟨r, hrun⟩ := stored_reads d w (tables.getByIdempotencyKey w.receipts env.idempotencyKey)
    refine ⟨r, w, hrun, ?_⟩
    cases checkedLookup r with
    | fault code => exact ⟨.refl, nofun⟩
    | hit record => exact ⟨.refl, nofun⟩
    | miss =>
      refine wp_call fun d _ => ?_
      obtain ⟨r, hrun⟩ := stored_reads d w (tables.getByCanonicalObjectKey w.receipts (env.targetSystem, env.canonicalObjectKey))
      refine ⟨r, w, hrun, ?_⟩
      cases checkedLookup r with
      | fault code => exact ⟨.refl, nofun⟩
      | hit record => exact ⟨.refl, nofun⟩
      | miss =>
        refine wp_call fun d hsighted => ⟨_, w, rfl, ?_⟩
        cases hprobe : d.probe.report w (env.targetSystem, env.canonicalObjectKey) with
        | error e => exact ⟨.refl, nofun⟩
        | ok seen =>
          cases seen with
          | some object => exact ⟨.refl, nofun⟩
          | none => exact ⟨.refl, fun _ => report_none (hsighted env ctx rfl) hprobe⟩

theorem wp_dispatchCreate_once (env : ExternalWriteEnvelope) (action : ProposedAction Payload) (ctx : AdapterCallContext)
    (hfresh : w.holds (env.targetSystem, env.canonicalObjectKey) = false) :
    wp (toolHandler epoch) Sighted (dispatchCreate env action ctx) (fun _ w' => CreatesOnce w w') w := by
  unfold dispatchCreate ReceiptStore.reserve
  rw [bind_map_left]
  refine wp_call fun d _ => ?_
  obtain ⟨r, w₁, hrun, -⟩ := stored_answers d w
    { w with receipts := (tables.reserve epoch w.receipts (env.targetSystem, env.canonicalObjectKey)).2 }
    (.ok (tables.reserve epoch w.receipts (env.targetSystem, env.canonicalObjectKey)).1)
  have hsame : SameCreations w w₁ := by
    have hexec : SameCreations w ((toolHandler epoch).exec w (ToolOp.reserve (env.targetSystem, env.canonicalObjectKey)) d).2 :=
      exec_sameCreations id d
    simp only [toolHandler, hrun] at hexec
    exact hexec
  refine ⟨r, w₁, hrun, ?_⟩
  cases reservationOf r with
  | in_progress => exact hsame.createsOnce
  | committed record => exact hsame.createsOnce
  | reserved =>
    refine wp_call fun d' _ => ⟨_, _, rfl, ?_⟩
    have hcreated : CreatesOnce w (vendorCall d' w₁ true env action.payload) :=
      (createsOnce_vendorCall d' action.payload ((hsame.holds _).trans hfresh)).of_same hsame
    have hrest : ∀ {p : ToolM Time Payload (ExternalWriteResult Time)}, p.Within (fun op => ¬ op.isCreate) →
        wp (toolHandler epoch) Sighted p (fun _ w' => CreatesOnce w w') (vendorCall d' w₁ true env action.payload) := fun hp =>
      (wp_sameCreations hp).mono fun _ _ hsame' env' hone => hsame'.createsOnce env' (hcreated env' hone)
    cases d'.adapter with
    | ok receipt =>
      refine hrest (Program.Within.mono ?_ fun _ => not_isCreate_of_isApart)
      refine (recordReceipt_apart env receipt).bind fun _ => ?_
      exact (emitCommitDiagnostics_apart env receipt).bind fun _ => trivial
    | error e =>
      apply hrest
      unfold ReceiptStore.release
      refine Program.Within.bind ?_ fun _ => trivial
      exact (Program.within_perform id).bind fun _ => trivial

theorem wp_dispatchWrite_once (env : ExternalWriteEnvelope) (action : ProposedAction Payload) (opts : DispatchOptions Time) :
    wp (toolHandler epoch) Sighted (dispatchWrite env action opts) (fun _ w' => CreatesOnce w w') w := by
  unfold dispatchWrite
  rw [wp_bind]
  refine (wp_resolveExisting_sighted env _).mono fun r w' hresolved => ?_
  obtain ⟨hsame, hnone⟩ := hresolved
  cases r with
  | error e => exact hsame.createsOnce
  | ok existing =>
    have hapart : ∀ {p : ToolM Time Payload (ExternalWriteResult Time)}, p.Within ToolOp.isApart →
        wp (toolHandler epoch) Sighted p (fun _ w'' => CreatesOnce w w'') w' := fun hp =>
      (wp_apart hp).mono fun _ _ hsame' => (hsame.trans hsame').createsOnce
    cases existing with
    | replay receipt => exact hapart trivial
    | stored current => exact hapart (dispatchStored_apart env action opts _ current)
    | live object => exact hapart (dispatchLive_apart env object)
    | error e => exact hapart trivial
    | none => exact (wp_dispatchCreate_once env action _ (hnone rfl)).mono fun _ _ honce => honce.of_same hsame

theorem wp_dispatchApproved_once (deps : ExternalWriteDeps Payload) (env : ExternalWriteEnvelope) (action : ProposedAction Payload)
    (opts : DispatchOptions Time) :
    wp (toolHandler epoch) Sighted (dispatchApproved deps env action opts) (fun _ w' => CreatesOnce w w') w := by
  unfold dispatchApproved
  split_ifs
  · refine wp_apart_bind (resolveWriteCredentialFault_apart env.targetSystem opts.workspaceId) fun fault w' hsame => ?_
    cases fault with
    | some fault => exact fun _ hone => hone
    | none => exact wp_dispatchWrite_once env action opts
  · exact wp_dispatchWrite_once env action opts

/-- A dispatch creates an envelope only if the vendor does not hold its object. -/
theorem wp_dispatchExternalWrite_once (deps : ExternalWriteDeps Payload) (env : ExternalWriteEnvelope) (action : ProposedAction Payload)
    (opts : DispatchOptions Time) :
    wp (toolHandler epoch) Sighted (dispatchExternalWrite deps env action opts) (fun _ w' => CreatesOnce w w') w := by
  unfold dispatchExternalWrite
  cases admitExternalWriteEnvelope deps.schemaViolation env action with
  | some message => exact fun _ hone => hone
  | none =>
    dsimp only
    split_ifs
    · refine wp_apart_bind (Program.within_perform trivial) fun approved w' hsame => ?_
      split_ifs
      · exact wp_dispatchApproved_once deps env action opts
      · refine (wp_apart ?_).mono fun _ _ hsame' => hsame'.createsOnce
        exact (Program.within_perform trivial).bind fun _ => trivial
    · exact wp_dispatchApproved_once deps env action opts

end step

end sow.tools
