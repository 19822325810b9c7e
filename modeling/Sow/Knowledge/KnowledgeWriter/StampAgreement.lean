import Sow.Knowledge.KnowledgeWriter.FrontmatterCodec
import Sow.Knowledge.KnowledgeWriter.WriterAtomicity

open sow.js sow.effect sow.markdown_vault

namespace sow.knowledge_writer

section embedding

variable {content : JsString} {stamp : SignedProvenanceStamp}

private theorem serializeStampFieldValue_eq (stamp : SignedProvenanceStamp) :
    serializeStampFieldValue stamp = unit '{' :: (Json.stringifyFields (Json.stringFields stamp.fields) ++ [unit '}']) := by
  simp [serializeStampFieldValue, serializeScalar, SignedProvenanceStamp.toJson, Json.stringify, str, unit]

/-- The stamp is written without control characters. -/
theorem le_of_mem_serializeStampFieldValue {c : UInt16} (h : c ∈ serializeStampFieldValue stamp) : 32 ≤ c.toNat :=
  Json.le_of_mem_stringify_stringFields h

/-- The stamp takes one well-formed line of the frontmatter. -/
theorem isEntry_stamp (stamp : SignedProvenanceStamp) :
    IsEntry (KW_STAMP_FRONTMATTER_KEY, serializeStampFieldValue stamp) where
  key_line := (by decide : unit '\n' ∉ KW_STAMP_FRONTMATTER_KEY)
  key_colon := (by decide : unit ':' ∉ KW_STAMP_FRONTMATTER_KEY)
  key_trimmed := (by decide : Trimmed KW_STAMP_FRONTMATTER_KEY)
  value_line := fun h => absurd (le_of_mem_serializeStampFieldValue h) (by decide)
  value_trimmed := by
    rw [serializeStampFieldValue_eq, Trimmed, List.head?_cons, ← List.cons_append, List.getLast?_concat]
    have hopen : isSpace (unit '{') = false := by decide
    have hclose : isSpace (unit '}') = false := by decide
    exact ⟨fun c hc => Option.mem_some.mp hc ▸ hopen, fun c hc => Option.mem_some.mp hc ▸ hclose⟩

/-- A stamped note is read as the note with the stamp set in its frontmatter,
    whatever the text that follows. -/
theorem parseNote_embedStamp (content : JsString) (stamp : SignedProvenanceStamp) (suffix : JsString) :
    parseNote (embedStamp content stamp ++ suffix) =
      ⟨(parseNote content).frontmatter.set KW_STAMP_FRONTMATTER_KEY (serializeStampFieldValue stamp),
        (parseNote content).body ++ suffix⟩ := by
  rw [embedStamp, composeNote_eq, List.append_assoc, ← composeNote_eq]
  exact parseNote_composeNote (size_set_ne_zero _ _ _) (isEntry_of_mem_set isEntry_of_mem_parseNote (isEntry_stamp stamp)) _

private theorem notMem_join {c : UInt16} {lines : List JsString} (hc : c ≠ unit '\n') (h : ∀ l ∈ lines, c ∉ l) :
    c ∉ join (str "\n") lines := by
  induction lines with
  | nil => simp [join]
  | cons l ls ih =>
    have hl := h l (List.mem_cons_self ..)
    have hls := ih fun l' hl' => h l' (List.mem_cons_of_mem _ hl')
    cases ls with
    | nil => rwa [join_singleton]
    | cons l' ls =>
      rw [join_cons_cons, List.mem_append, List.mem_append, not_or, not_or]
      exact ⟨hl, by simpa [str, unit] using hc, hls⟩

theorem cr_notMem_embedStamp (hcr : unit '\r' ∉ content) (stamp : SignedProvenanceStamp) :
    unit '\r' ∉ embedStamp content stamp := by
  have hfm : ∀ e ∈ ((parseNote content).frontmatter.set KW_STAMP_FRONTMATTER_KEY (serializeStampFieldValue stamp)).entries,
      unit '\r' ∉ entryLine e := by
    rintro ⟨k, v⟩ he
    have hget := Map.get_eq_some_iff.mpr he
    rw [Map.get_set] at hget
    simp only [entryLine, List.mem_append, not_or]
    split at hget
    · next hk =>
      obtain rfl := Option.some.inj hget
      obtain rfl := hk
      exact ⟨⟨by decide, by decide⟩, fun h => absurd (le_of_mem_serializeStampFieldValue h) (by decide)⟩
    · have hmem := Map.get_eq_some_iff.mp hget
      exact ⟨⟨fun h => hcr (mem_of_parseNote (.inl ⟨_, hmem, .inl h⟩)), by decide⟩,
        fun h => hcr (mem_of_parseNote (.inl ⟨_, hmem, .inr h⟩))⟩
  rw [embedStamp, composeNote_fenced (size_set_ne_zero _ _ _), fenced]
  simp only [List.mem_append, not_or]
  refine ⟨by decide, notMem_join (by decide) fun l hl => ?_, by decide, fun h => hcr (mem_of_parseNote (.inr h))⟩
  obtain ⟨e, he, rfl⟩ := List.mem_map.mp hl
  exact hfm e he

/-- Reading a field of a stamped note: the stamp under its own key, and under any
    other what the note as it was parsed held. -/
theorem readFrontmatterField_embedStamp (hcr : unit '\r' ∉ content) (stamp : SignedProvenanceStamp) (key : JsString) :
    readFrontmatterField (embedStamp content stamp) key =
      (((parseNote content).frontmatter.set KW_STAMP_FRONTMATTER_KEY (serializeStampFieldValue stamp)).get key).map
        deserializeScalar := by
  have hbom : (embedStamp content stamp).head? ≠ some 0xFEFF := by
    rw [embedStamp, composeNote_fenced (size_set_ne_zero _ _ _)]
    intro h
    exact absurd (Option.some.inj h : unit '-' = 0xFEFF) (by decide)
  obtain ⟨suffix, hsuffix⟩ := normalizeNote_eq_append (cr_notMem_embedStamp hcr stamp) hbom
  rw [readFrontmatterField, hsuffix, parseNote_embedStamp]

/-- A stamp that the schema accepts is read back from the note it was embedded in. -/
theorem readStampField_embedStamp {kit : StampKit} (hcr : unit '\r' ∉ content)
    (haccepts : SignedProvenanceStampSchema.accepts kit stamp = true) :
    readStampField kit (embedStamp content stamp) = some stamp := by
  have hraw : deserializeScalar (serializeStampFieldValue stamp) = serializeStampFieldValue stamp := by
    rw [deserializeScalar, if_pos]
    right; left
    rw [serializeStampFieldValue_eq]
    exact fun h => absurd (Option.some.inj h : unit '{' = unit '"') (by decide)
  have hparse : Json.parse (serializeStampFieldValue stamp) = some stamp.toJson :=
    Json.parse_stringify_stringFields (by simp [SignedProvenanceStamp.fields])
      (by simp only [SignedProvenanceStamp.fields, List.map_cons, List.map_nil]; decide)
  have hfield : readFrontmatterField (embedStamp content stamp) KW_STAMP_FRONTMATTER_KEY =
      some (serializeStampFieldValue stamp) := by
    rw [readFrontmatterField_embedStamp hcr, Map.get_set_self, Option.map_some, hraw]
  have hkeys : (Json.stringFields stamp.fields).all (fun f => decide (f.1 ∈ stampKeys)) = true := by
    simp [Json.stringFields, SignedProvenanceStamp.fields, stampKeys]
  simp only [readStampField, hfield, hparse]
  change (if (_ && _) = true then some stamp else none) = some stamp
  rw [if_pos]
  rw [Bool.and_eq_true]
  exact ⟨hkeys, haccepts⟩

/-- A page's provenance does not see its stamp. -/
theorem computePageProvenance_embedStamp (sha256 : Sha256) (path : Path) (content : JsString)
    (stamp : SignedProvenanceStamp) :
    gbrain.computePageProvenance sha256 path (embedStamp content stamp) = gbrain.computePageProvenance sha256 path content := by
  have hnote := parseNote_embedStamp content stamp []
  rw [List.append_nil, List.append_nil] at hnote
  generalize serializeStampFieldValue stamp = value at hnote
  have hslug : ∀ fm : Map JsString JsString, gbrain.pageSlug path (fm.set KW_STAMP_FRONTMATTER_KEY value) =
      gbrain.pageSlug path fm := fun fm => by
    rw [gbrain.pageSlug, gbrain.pageSlug, Map.get_set_of_ne _ _ (by decide)]
  have hmeta : ∀ fm : Map JsString JsString, gbrain.scalarMeta (fm.set KW_STAMP_FRONTMATTER_KEY value) =
      gbrain.scalarMeta fm := fun fm => Map.filter_entries_set fm _ fun v => by simp [gbrain.isScalarMeta]
  simp only [gbrain.computePageProvenance, gbrain.parseNote_eq, hnote, hslug, hmeta]

end embedding

/-- What the stamper relies on of its HMAC: 64 lower-case hexadecimal digits. -/
def StampKit.Law (kit : StampKit) : Prop :=
  ∀ key bytes, (kit.hmac key bytes).length = 64 ∧ ∀ c ∈ kit.hmac key bytes, isHexDigit c = true

/-- A secrets port whose signing key is `key`. -/
def keyPort (key : SigningKey) : Handler SecretsOp SecretsOp.Ret Cause Unit Unit where
  exec _ op _ := match op with
    | .resolveSigningKey _ => (.ok (.ok key), ())

section signing

private theorem constantTimeHexEqual_self {s : JsString} (hlen : 2 ≤ s.length) (hhex : ∀ c ∈ s, isHexDigit c = true) :
    constantTimeHexEqual s s = true := by
  have hvalue : ∀ c, isHexDigit c = true → ∃ v, Json.hexValue c = some v := by
    intro c hc
    simp only [isHexDigit, Json.isDigit, Bool.or_eq_true, Bool.and_eq_true, decide_eq_true_eq] at hc
    rcases hc with hc | hc
    · exact ⟨_, if_pos (by simpa using hc)⟩
    · refine ⟨_, (if_neg ?_).trans (if_pos (by simpa using hc))⟩
      simp only [Bool.and_eq_true, decide_eq_true_eq]
      omega
  obtain ⟨a, s', rfl⟩ := List.exists_cons_of_length_pos (by omega : 0 < s.length)
  obtain ⟨b, t, rfl⟩ := List.exists_cons_of_length_pos (Nat.lt_of_succ_lt_succ hlen : 0 < s'.length)
  obtain ⟨x, hx⟩ := hvalue a (hhex a (by simp))
  obtain ⟨y, hy⟩ := hvalue b (hhex b (by simp))
  have hne : (hexBytes (a :: b :: t)).length ≠ 0 := by simp [hexBytes, hx, hy]
  simp [constantTimeHexEqual, hne]

/-- Under the key that signed it, the signature of a tuple verifies. -/
theorem verifyProvenanceStamp_sign {signing : StamperDeps} (hkit : signing.kit.Law) (key : SigningKey)
    (inputs : VerifyInputs) (hsig : inputs.stamp.sig = sign signing.kit key inputs.toSignedTuple) :
    ((keyPort key).eval (verifyProvenanceStamp inputs signing) ()).1 = .ok (.ok true) := by
  have heq : constantTimeHexEqual (sign signing.kit key inputs.toSignedTuple) inputs.stamp.sig = true := by
    rw [hsig, sign]
    obtain ⟨hlen, hhex⟩ := hkit key (utf8 (signingPreimage inputs.toSignedTuple))
    exact constantTimeHexEqual_self (by omega) hhex
  rw [← heq]
  rfl

variable {listing : Listing} {choose : Nat → KwOp → KwChoice} {plan : KnowledgeMutationPlan} {path : Path}
  {page : gbrain.PageProvenance} {signing : StamperDeps} {m : StampMeta} {w : World × Nat} {stamp : SignedProvenanceStamp}

/-- Reading the clock changes nothing. -/
theorem now_wp {Q : Except Cause JsString → World × Nat → Prop} (hok : ∀ clock, Q (.ok clock) (w.1, w.2 + 1))
    (herr : ∀ cause, Q (.error cause) (w.1, w.2 + 1)) :
    wp (scriptedPorts listing choose) (fun _ _ => True) (callPort .now) Q w := by
  rw [wp_perform]
  intro _ _
  simp only [Handler.scripted, kwPorts]
  cases (choose w.2 .now).outcome with
  | proceed => exact hok _
  | fault cause residue => exact herr cause

/-- A key that is resolved is the one that the environment chose. -/
theorem resolveSigningKey_wp {α : Type} {ref : SecretRef} {k : Except Cause (Except SecretUnresolved SigningKey) → KwM α}
    {Q : Except Cause α → World × Nat → Prop}
    (hp : ∀ r, (∀ key, r = .ok (.ok key) → (choose w.2 (.secrets (.resolveSigningKey ref))).key = .ok key) →
      wp (scriptedPorts listing choose) (fun _ _ => True) (k r) Q (w.1, w.2 + 1)) :
    wp (scriptedPorts listing choose) (fun _ _ => True) (.call (.secrets (.resolveSigningKey ref)) k) Q w := by
  intro _ _
  refine hp _ fun key hkey => ?_
  simp only [Handler.scripted, kwPorts] at hkey
  cases houtcome : (choose w.2 (.secrets (.resolveSigningKey ref))).outcome with
  | proceed =>
    rw [houtcome] at hkey
    exact Except.ok.inj hkey
  | fault cause residue =>
    rw [houtcome] at hkey
    cases hkey

/-- What a minted stamp is: the signature of the page's tuple under the key that the
    call after the clock's resolved, in a record that the schema accepts. -/
theorem mintStamp_ok (h : ((scriptedPorts listing choose).eval (mintStamp plan path page signing m) w).1 = .ok (.ok stamp)) :
    ∃ committedAt key,
      (choose (w.2 + 1) (.secrets (.resolveSigningKey signing.signingKeyRef))).key = .ok key ∧
      stamp = stampOf (stampInputs plan path page m committedAt)
        (sign signing.kit key (stampInputs plan path page m committedAt).toSignedTuple) ∧
      SignedProvenanceStampSchema.accepts signing.kit stamp = true := by
  have hwp : wp (scriptedPorts listing choose) (fun _ _ => True) (mintStamp plan path page signing m)
      (fun r _ => ∀ stamp, r = .ok (.ok stamp) → ∃ committedAt key,
        (choose (w.2 + 1) (.secrets (.resolveSigningKey signing.signingKeyRef))).key = .ok key ∧
        stamp = stampOf (stampInputs plan path page m committedAt)
          (sign signing.kit key (stampInputs plan path page m committedAt).toSignedTuple) ∧
        SignedProvenanceStampSchema.accepts signing.kit stamp = true) w := by
    rw [mintStamp, wp_bind]
    refine now_wp (fun committedAt => ?_) fun cause stamp h => by cases h
    refine resolveSigningKey_wp fun r hr => ?_
    rcases r with cause | e | key
    · exact fun stamp h => by cases h
    · exact fun stamp h => by cases h
    · simp only [Except.map, Program.bind, Program.attempt, Program.ofExcept, pure]
      split
      · next haccepts =>
        rintro stamp h
        obtain rfl := Except.ok.inj (Except.ok.inj h)
        exact ⟨committedAt, key, hr key rfl, rfl, haccepts⟩
      · rintro stamp h
        cases Except.ok.inj h
  exact wp_eval_iff.mp hwp stamp h

end signing

private theorem computePageProvenance_of_pageToStamp {sha256 : Sha256} {snapshot : VaultSnapshot} {path : Path}
    {content : JsString} {page : gbrain.PageProvenance} (h : pageToStamp sha256 snapshot path content = some page) :
    gbrain.computePageProvenance sha256 path content = some page := by
  rw [pageToStamp] at h
  split at h
  · cases h
  · split at h
    · cases h
    · exact h

/-- The bytes of a stamped note re-derive the page that was signed, and the stamp
    read back from them verifies over it. -/
structure StampAgrees (deps : KnowledgeWriterDeps) (signing : StamperDeps) (workspaceId : JsString) (path : Path)
    (content bytes : JsString) (stamp : SignedProvenanceStamp) (key : SigningKey) : Prop where
  read : readStampField signing.kit bytes = some stamp
  page : gbrain.computePageProvenance deps.sha256 path bytes = gbrain.computePageProvenance deps.sha256 path content
  verified : ∃ page, gbrain.computePageProvenance deps.sha256 path bytes = some page ∧
    ((keyPort key).eval (verifyProvenanceStamp ⟨⟨workspaceId, page.pageIdentity, path, page.pageSha⟩, stamp⟩ signing) ()).1 =
      .ok (.ok true)

/-- Write time and serve time agree: of every changed page without carriage returns
    whose stamp was minted, the committed bytes give back the minted stamp and the
    page's provenance, and the stamp verifies, under the key it was minted with, over
    the tuple that these bytes give. -/
theorem applyPlan_stampAgrees (listing : Listing) (command : KnowledgeWriteCommand) (deps : KnowledgeWriterDeps)
    (signing : StamperDeps) (hsigning : deps.signing = some signing) (hkit : signing.kit.Law)
    (choose : Nat → KwOp → KwChoice) (w : World) :
    let out := (kwPorts listing).run choose 0 (applyPlan command deps) w
    let m : StampMeta := ⟨command.sourceEventRef, command.expectedBaseRevision⟩
    ∀ id, durableRevision out.1 = some id → ∃ plan snapshot committed,
      IsCommit listing choose command deps w plan snapshot committed id out.2.files ∧
      ∀ p content page, (projectPlan snapshot plan).get p = some content →
        pageToStamp deps.sha256 snapshot p content = some page → unit '\r' ∉ content →
        ∃ w' bytes, MintsAt listing choose (applyPlan command deps) (w, 0) (mintStamp plan p page signing m) w' ∧
          committed.get p = some bytes ∧
          ((∀ q ∈ plannedPaths plan, ¬ IsStaging q) → out.2.files.get p = some bytes) ∧
          ∀ stamp, ((scriptedPorts listing choose).eval (mintStamp plan p page signing m) w').1 = .ok (.ok stamp) →
            ∃ key, (choose (w'.2 + 1) (.secrets (.resolveSigningKey signing.signingKeyRef))).key = .ok key ∧
              StampAgrees deps signing plan.workspaceId p content bytes stamp key := by
  intro out m id hid
  have hout : Outcome listing choose command deps w out.1 out.2 := applyPlan_outcome listing command deps choose w
  obtain ⟨plan, snapshot, committed, h⟩ := hout.commits hid
  refine ⟨plan, snapshot, committed, h, fun p content page hp hpage hcr => ?_⟩
  obtain ⟨bytes, hbytes, hcommitted⟩ := h.projected p content hp
  rw [CommittedBytes, hsigning] at hcommitted
  simp only [StampOutcome, hpage] at hcommitted
  obtain ⟨w', hmint, rfl⟩ := hcommitted
  refine ⟨w', _, hmint, hbytes, fun hstaged => (h.inPlace hstaged).holds p _ hbytes, fun stamp hstamp => ?_⟩
  obtain ⟨committedAt, key, hkey, hsigned, haccepts⟩ := mintStamp_ok hstamp
  refine ⟨key, hkey, ?_⟩
  rw [hstamp, stampedBytes]
  have hsame := computePageProvenance_embedStamp deps.sha256 p content stamp
  refine ⟨readStampField_embedStamp hcr haccepts, hsame, page, ?_, ?_⟩
  · rw [hsame, computePageProvenance_of_pageToStamp hpage]
  · exact verifyProvenanceStamp_sign hkit key _ (by rw [hsigned]; rfl)

/-- The stamp of the note of `notePlan`. -/
def noteStamp : SignedProvenanceStamp where
  kwRevision := str "rev:e3b0c44298fc1c149afbf4c8996fb92427ae41e4649b934ca495991b7852b855"
  originPath := str "a.md"
  mdContentSha := str "f5fd4e11421940d37f2c0d0146950628b472b1e0f58d26816c673a1382ff5c84"
  writerActor := str "KnowledgeWriter"
  sourceEventRef := str "evt-1"
  committedAt := str "2026-01-01T00:00:00Z"
  sig := str "531a38a2c38ca2988056840b10324f5c527063474240c73761a1a15fbcf088bd"

/-- The digests that a signed commit of `notePlan` computes. -/
def stampedDigests : KnownDigests where
  entries :=
    [(utf8 [], str "e3b0c44298fc1c149afbf4c8996fb92427ae41e4649b934ca495991b7852b855"),
      (utf8 (str "page" ++ [0] ++ str "a" ++ [0] ++ str "hi" ++ [0]),
        str "f5fd4e11421940d37f2c0d0146950628b472b1e0f58d26816c673a1382ff5c84"),
      (utf8 notePlan.data.stringify, str "db50a578618cb29218e1366fa4252dadd4598bc906895b9d771e3c380a368f12"),
      (utf8 (embedStamp (str "hi") noteStamp),
        str "14617a04fcfea8348741348e97f540ee74b7721aeb1a1cab1a1dee449e441071"),
      (utf8 (str "a.md" ++ [0] ++ str "14617a04fcfea8348741348e97f540ee74b7721aeb1a1cab1a1dee449e441071"),
        str "0efa40b480689c4c1b69631457f8cab7b64773c92ef8bf733cfc44b29ed03edd")]
  distinct := by decide +kernel
  digits := digits_of_all (by decide +kernel)

/-- The stamper's kit where the one message signed is that of the page of `notePlan`. -/
def noteKit : StampKit where
  hmac key bytes :=
    if key = [107] ∧ bytes = utf8 (signingPreimage ⟨str "ws", str "page:a", noteStamp.originPath, noteStamp.mdContentSha⟩)
    then noteStamp.sig
    else List.replicate 64 (unit '0')
  isDatetime s := s = str "2026-01-01T00:00:00Z"
  issues _ := []
  refusalSignal _ := ⟨[], [], [], [], [], []⟩
  errorName cause := cause

theorem noteKit_law : noteKit.Law := by
  intro key bytes
  simp only [noteKit]
  split
  · exact digest_of_all (by decide +kernel)
  · exact digest_of_all (by decide +kernel)

abbrev stampedCommand : KnowledgeWriteCommand := commandOf (tabulated stampedDigests) .empty notePlan (str "k1")

abbrev stampedDeps : KnowledgeWriterDeps := memoryDeps (tabulated stampedDigests) notePlan (some ⟨noteKit, str "kw"⟩)

abbrev stampedChoices : Nat → KwOp → KwChoice := faultFree (str "2026-01-01T00:00:00Z") (.ok [107])

/-- The fault-free, signed run of `notePlan` on an empty vault. -/
def stampedRun : Except Cause (Except WriteFailure WriteSuccess) × World :=
  (kwPorts memoryListing).run stampedChoices 0 (applyPlan stampedCommand stampedDeps) ⟨.empty, .empty, []⟩

theorem applyPlan_stampAgrees_note : ∃ w' bytes, stampedRun.2.files.get (str "a.md") = some bytes ∧
    ∀ stamp, ((scriptedPorts memoryListing stampedChoices).eval (mintStamp notePlan (str "a.md")
        ⟨str "a", str "page:a", str "f5fd4e11421940d37f2c0d0146950628b472b1e0f58d26816c673a1382ff5c84"⟩
        ⟨noteKit, str "kw"⟩ ⟨stampedCommand.sourceEventRef, stampedCommand.expectedBaseRevision⟩) w').1 = .ok (.ok stamp) →
      ∃ key, StampAgrees stampedDeps ⟨noteKit, str "kw"⟩ (str "ws") (str "a.md") (str "hi") bytes stamp key := by
  have hrun : durableRevision stampedRun.1 =
      some (str "rev:0efa40b480689c4c1b69631457f8cab7b64773c92ef8bf733cfc44b29ed03edd") := by
    unfold stampedRun stampedCommand stampedDeps tabulated
    simp only [stampedDigests, noteStamp]
    repeat rw [str_ofList]
    decide +kernel
  have hall := applyPlan_stampAgrees memoryListing stampedCommand stampedDeps ⟨noteKit, str "kw"⟩ rfl noteKit_law
    stampedChoices ⟨.empty, .empty, []⟩
  rw [show (kwPorts memoryListing).run stampedChoices 0 (applyPlan stampedCommand stampedDeps) ⟨.empty, .empty, []⟩ =
    stampedRun from rfl] at hall
  obtain ⟨plan, snapshot, committed, hcommit, hpages⟩ := hall _ hrun
  obtain rfl : notePlan = plan := Except.ok.inj ((rfl : runGate stampedDeps.gate stampedCommand.plan = .ok notePlan).symm.trans hcommit.gated)
  obtain rfl : snapshot = .empty := by
    refine Map.ext (List.eq_nil_iff_forall_not_mem.mpr fun e he => ?_)
    have hget := Map.get_eq_some_iff.mpr he
    rw [hcommit.base e.1] at hget
    split at hget <;> cases hget
  obtain ⟨w', bytes, -, -, hfiles, hstamp⟩ := hpages (str "a.md") (str "hi")
    ⟨str "a", str "page:a", str "f5fd4e11421940d37f2c0d0146950628b472b1e0f58d26816c673a1382ff5c84"⟩
    (by decide +kernel) (by decide +kernel) (by decide)
  have hstaged : ∀ q ∈ plannedPaths notePlan, ¬ IsStaging q := by decide
  refine ⟨w', bytes, hfiles hstaged, fun stamp h => ?_⟩
  obtain ⟨key, -, hagrees⟩ := hstamp stamp h
  exact ⟨key, hagrees⟩

end sow.knowledge_writer
