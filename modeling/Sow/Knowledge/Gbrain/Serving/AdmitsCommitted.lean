import Sow.Knowledge.Gbrain.Derive.PageFacts
import Sow.Knowledge.Gbrain.Serving.RehydrationGate
import Sow.Knowledge.KnowledgeWriter.StampAgreement

open sow.js sow.contracts sow.effect sow.markdown_vault
open sow.knowledge_writer (Sha256 SecretsOp SecretUnresolved SigningKey SignedProvenanceStamp SignedTuple StampKit StamperDeps
  VerifyInputs computeSig sign constantTimeHexEqual verifyProvenanceStamp readStampField embedStamp noteStamp noteKit
  stampedDigests tabulated tabulated_law)

namespace sow.gbrain

/-- What the secrets port answers, for as long as one request takes. -/
abbrev SecretsAnswer : Type := (op : SecretsOp) → Except Cause op.Ret

section resolve

variable (answer : SecretsAnswer) (deps : StamperDeps)

/-- The key of the stamper, or why it cannot be had; a port that throws has none. -/
def resolvedKey : Except SecretUnresolved SigningKey :=
  match answer (.resolveSigningKey deps.signingKeyRef) with
  | .error cause => .error ⟨deps.signingKeyRef, some (deps.kit.errorName cause)⟩
  | .ok resolved => resolved

theorem answered_computeSig (tuple : SignedTuple) :
    (computeSig tuple deps).answered answer = .ok ((resolvedKey answer deps).map fun key => sign deps.kit key tuple) := by
  unfold computeSig resolvedKey
  rw [Program.answered_bind, Program.answered_attempt, Program.answered_perform]
  cases answer (.resolveSigningKey deps.signingKeyRef) with
  | error cause => rfl
  | ok resolved => cases resolved <;> rfl

theorem answered_verify (inputs : VerifyInputs) :
    (verifyProvenanceStamp inputs deps).answered answer =
      .ok ((resolvedKey answer deps).map fun key =>
        constantTimeHexEqual (sign deps.kit key inputs.toSignedTuple) inputs.stamp.sig) := by
  unfold verifyProvenanceStamp
  rw [Program.answered_bind, answered_computeSig]
  cases resolvedKey answer deps <;> rfl

end resolve

section checks

variable {sha256 : Sha256} {kit : StampKit} {snapshot : CanonicalVaultSnapshot} {allowSet : CanonicalFactSet}
  {deps : StamperDeps} {answer : SecretsAnswer} {req : ServingRequest} {id content : JsString}

/-- The first pointer to each identity that has not been seen. -/
def firsts : List JsString → List DbPointer → List DbPointer
  | _, [] => []
  | seen, p :: pointers =>
    if p.factIdentity ∈ seen then firsts seen pointers
    else p :: firsts (seen ++ [p.factIdentity]) pointers

theorem firsts_sublist (seen : List JsString) (pointers : List DbPointer) : (firsts seen pointers).Sublist pointers := by
  induction pointers generalizing seen with
  | nil => exact List.Sublist.refl _
  | cons p pointers ih =>
    unfold firsts
    split
    · exact (ih seen).cons p
    · exact (ih _).cons_cons p

/-- The identities of the first pointers are those of all, each once, in the order of first occurrence. -/
theorem map_firsts (seen : List JsString) (pointers : List DbPointer) :
    (firsts seen pointers).map (·.factIdentity) = unique ((pointers.map (·.factIdentity)).filter (· ∉ seen)) := by
  induction pointers generalizing seen with
  | nil => rfl
  | cons p pointers ih =>
    unfold firsts
    by_cases hseen : p.factIdentity ∈ seen
    · rw [if_pos hseen, ih, List.map_cons, List.filter_cons_of_neg (by simpa using hseen)]
    · rw [if_neg hseen, List.map_cons, ih, List.map_cons, List.filter_cons_of_pos (by simpa using hseen)]
      rw [unique_cons, List.filter_filter]
      congr 2
      apply List.filter_congr
      intro s _
      simp [and_comm]

/-- What the four checks say of an identity; nothing where the key could not be had. -/
def admissionOf (answer : SecretsAnswer) (req : ServingRequest) (deps : StamperDeps) (id : JsString) : Option Admission :=
  match (admitOne req deps id).answered answer with
  | .ok (.ok admission) => some admission
  | _ => none

def admittedFact (p : DbPointer) : Admission → Option AdmittedFact
  | .withhold _ => none
  | .admitted content mdContentSha => some ⟨p.factIdentity, content, mdContentSha, p.score⟩

def withheldFact (p : DbPointer) : Admission → Option WithheldFact
  | .withhold reason => some ⟨p.factIdentity, reason⟩
  | .admitted _ _ => none

/-- The checks come to an end; only the key can stop them. -/
theorem answered_admitOne (id : JsString) :
    (∃ admission, (admitOne req deps id).answered answer = .ok (.ok admission)) ∨
      ∃ e, (admitOne req deps id).answered answer = .ok (.error e) ∧ resolvedKey answer deps = .error e := by
  unfold admitOne
  split
  · exact .inl ⟨_, rfl⟩
  · split
    · exact .inl ⟨_, rfl⟩
    · split
      · exact .inl ⟨_, rfl⟩
      · split
        · exact .inl ⟨_, rfl⟩
        · split
          · exact .inl ⟨_, rfl⟩
          · unfold verifyFact
            rw [Program.answered_bind, answered_verify]
            cases hkey : resolvedKey answer deps with
            | error e => exact .inr ⟨e, rfl, rfl⟩
            | ok key =>
              simp only [Except.map, Except.bind]
              generalize constantTimeHexEqual _ _ = verified
              cases verified with
              | false => exact .inl ⟨_, rfl⟩
              | true => exact .inl ⟨_, rfl⟩

/-- What the loop gathers: of each first pointer what the checks say, unless the key stops them. -/
theorem answered_admitPointers (pointers : List DbPointer) (g : Gathered) :
    (∃ e, (admitPointers req deps pointers g).answered answer = .ok (.error e) ∧ resolvedKey answer deps = .error e) ∨
      ∃ g', (admitPointers req deps pointers g).answered answer = .ok (.ok g') ∧
        g'.admitted = g.admitted ++ (firsts g.seen pointers).filterMap (fun p =>
          (admissionOf answer req deps p.factIdentity).bind (admittedFact p)) ∧
        g'.withheld = g.withheld ++ (firsts g.seen pointers).filterMap (fun p =>
          (admissionOf answer req deps p.factIdentity).bind (withheldFact p)) ∧
        ∀ p ∈ firsts g.seen pointers, (admissionOf answer req deps p.factIdentity).isSome = true := by
  induction pointers generalizing g with
  | nil => exact .inr ⟨g, rfl, by simp [firsts], by simp [firsts], by simp [firsts]⟩
  | cons p pointers ih =>
    unfold admitPointers firsts
    by_cases hseen : p.factIdentity ∈ g.seen
    · rw [if_pos hseen, if_pos hseen]
      exact ih g
    · rw [if_neg hseen, if_neg hseen, Program.answered_bind]
      rcases @answered_admitOne deps answer req p.factIdentity with ⟨admission, hone⟩ | ⟨e, hone, hkey⟩
      · rw [hone]
        have houtcome : admissionOf answer req deps p.factIdentity = some admission := by
          unfold admissionOf
          rw [hone]
        have hadd : (g.add p admission).seen = g.seen ++ [p.factIdentity] ∧
            (g.add p admission).admitted = g.admitted ++ (admittedFact p admission).toList ∧
            (g.add p admission).withheld = g.withheld ++ (withheldFact p admission).toList := by
          cases admission with
          | withhold reason => exact ⟨rfl, by simp [Gathered.add, admittedFact], rfl⟩
          | admitted content sha => exact ⟨rfl, rfl, by simp [Gathered.add, withheldFact]⟩
        obtain ⟨hadded, hadmitted, hwithheld⟩ := hadd
        rcases ih (g.add p admission) with hstop | ⟨g', hrun, ha, hw, hall⟩
        · exact .inl hstop
        · rw [hadded] at ha hw hall
          refine .inr ⟨g', hrun, ?_, ?_, ?_⟩
          · rw [ha, hadmitted, List.filterMap_cons, houtcome, Option.bind_some]
            cases admittedFact p admission <;> simp
          · rw [hw, hwithheld, List.filterMap_cons, houtcome, Option.bind_some]
            cases withheldFact p admission <;> simp
          · intro q hq
            rcases List.mem_cons.mp hq with rfl | hq
            · rw [houtcome]
              rfl
            · exact hall q hq
      · rw [hone]
        exact .inl ⟨e, rfl, hkey⟩

/-- The page fact of a committed note whose stamp signs it under `key`, with the bytes of the note. -/
def ServablePage (sha256 : Sha256) (kit : StampKit) (snapshot : CanonicalVaultSnapshot) (allowSet : CanonicalFactSet)
    (key : SigningKey) (id content : JsString) : Prop :=
  ∃ df ∈ allowSet.facts, df.fact.factIdentity = id ∧ df.fact.factKind = .page ∧
    snapshot.files.get df.provenance.originPath = some content ∧
    (∃ page, computePageProvenance sha256 df.provenance.originPath content = some page ∧ page.pageIdentity = id) ∧
    ∃ stamp, readStampField kit content = some stamp ∧
      constantTimeHexEqual
        (sign kit key ⟨df.fact.workspaceId, df.fact.factIdentity, df.provenance.originPath, df.fact.mdContentSha⟩)
        stamp.sig = true

theorem byIdCanonical_get {df : DerivedFact} :
    (byIdCanonical allowSet).get id = some df ↔ df ∈ allowSet.facts ∧ df.fact.factIdentity = id := by
  have hnodup : ((allowSet.facts.map fun df => (df.fact.factIdentity, df)).map Prod.fst).Nodup := by
    rw [List.map_map]
    exact allowSet.nodup
  unfold byIdCanonical
  rw [Map.get_ofList_iff hnodup]
  constructor
  · intro hmem
    obtain ⟨df', hdf', heq⟩ := List.mem_map.mp hmem
    obtain ⟨hid, rfl⟩ := Prod.mk.inj heq
    exact ⟨hdf', hid⟩
  · rintro ⟨hmem, rfl⟩
    exact List.mem_map.mpr ⟨df, hmem, rfl⟩

/-- Where a fact of the allow-set comes from: its note is committed and hashed, and it is the
    page fact of that note or digests a text of another kind. -/
theorem provenance_of_derive (hderive : deriveCanonicalFacts sha256 snapshot = .ok allowSet.facts) {df : DerivedFact}
    (hdf : df ∈ allowSet.facts) :
    df.provenance.originPath ≠ [] ∧ ∃ content page, snapshot.files.get df.provenance.originPath = some content ∧
      computePageProvenance sha256 df.provenance.originPath content = some page ∧
      ((df.fact.factKind = .page ∧ df.fact.factIdentity = page.pageIdentity ∧ df.fact.mdContentSha = page.pageSha) ∨
        (df.fact.factKind ≠ .page ∧ OtherDigest sha256 df.fact.mdContentSha)) := by
  obtain ⟨c, ⟨path, content, page, hfile, hpage, hc⟩, rfl, hvalid⟩ := derivedFrom_of_derive hderive hdf
  obtain ⟨⟨-, hpath, -⟩, hkind⟩ := pageCandidates_cases hc
  dsimp only
  refine ⟨?_, content, page, ?_, ?_, hkind⟩
  · intro hnil
    unfold isFactProvenance at hvalid
    simp [hnil] at hvalid
  · rw [hpath]
    exact hfile
  · rw [hpath]
    exact hpage

/-- Among the facts of a note the page fact is the one that carries the digest of the page. -/
theorem isPage_iff (hsha : sha256.Law) (hderive : deriveCanonicalFacts sha256 snapshot = .ok allowSet.facts) {df : DerivedFact}
    (hdf : df ∈ allowSet.facts) {page : PageProvenance} (hfile : snapshot.files.get df.provenance.originPath = some content)
    (hpage : computePageProvenance sha256 df.provenance.originPath content = some page) :
    page.pageSha = df.fact.mdContentSha ↔ df.fact.factKind = .page ∧ page.pageIdentity = df.fact.factIdentity := by
  obtain ⟨-, content', page', hfile', hpage', hkind⟩ := provenance_of_derive hderive hdf
  obtain rfl := Option.some.inj (hfile.symm.trans hfile')
  obtain rfl := Option.some.inj (hpage.symm.trans hpage')
  rcases hkind with ⟨hkind, hid, hequal⟩ | ⟨hkind, hother⟩
  · exact iff_of_true hequal.symm ⟨hkind, hid.symm⟩
  · refine iff_of_false (fun hequal => ?_) fun h => hkind h.1
    rw [← hequal] at hother
    exact pageSha_not_other hsha hpage hother

/-- The request over a vault: its notes are read from the snapshot that the allow-set was derived from. -/
def vaultRequest (sha256 : Sha256) (kit : StampKit) (snapshot : CanonicalVaultSnapshot) (allowSet : CanonicalFactSet)
    (records : List QuarantineRecord) (coverage : ServingCoverage) (pointers : List DbPointer) : ServingRequest where
  workspaceId := snapshot.workspaceId
  revisionId := snapshot.revisionId
  pointers := pointers
  allowSet := allowSet
  rehydrate := createVaultRehydrate sha256 kit snapshot.files.get allowSet
  quarantine := createQuarantineLedger records
  coverage := coverage

variable {records : List QuarantineRecord} {coverage : ServingCoverage} {pointers : List DbPointer}

/-- What the rehydration of a fact of the allow-set gives. -/
theorem createVaultRehydrate_ok (kit : StampKit) (hderive : deriveCanonicalFacts sha256 snapshot = .ok allowSet.facts) {df : DerivedFact}
    (hdf : df ∈ allowSet.facts) {page : PageProvenance} (hfile : snapshot.files.get df.provenance.originPath = some content)
    (hpage : computePageProvenance sha256 df.provenance.originPath content = some page) :
    createVaultRehydrate sha256 kit snapshot.files.get allowSet df.fact.factIdentity =
      match readStampField kit content with
      | none => rehydrateFailed df.fact.factIdentity (str "no_stamp")
      | some stamp => .ok ⟨df.fact.factIdentity, content, page.pageSha, stamp⟩ := by
  unfold createVaultRehydrate
  rw [byIdCanonical_get.mpr ⟨hdf, rfl⟩]
  dsimp only
  rw [if_neg (provenance_of_derive hderive hdf).1, hfile]
  dsimp only
  cases readStampField kit content with
  | none => simp only [hpage]
  | some stamp => simp only [hpage]

/-- The checks on a stamped fact whose note digests to what the allow-set says. -/
theorem admissionOf_stamped (hderive : deriveCanonicalFacts sha256 snapshot = .ok allowSet.facts) {df : DerivedFact}
    (hdf : df ∈ allowSet.facts) {page : PageProvenance} {stamp : SignedProvenanceStamp}
    (hfile : snapshot.files.get df.provenance.originPath = some content)
    (hpage : computePageProvenance sha256 df.provenance.originPath content = some page)
    (hstamp : readStampField deps.kit content = some stamp) (hpageSha : page.pageSha = df.fact.mdContentSha)
    (hfree : (createQuarantineLedger records).isQuarantined snapshot.workspaceId df.fact.factIdentity = false) :
    admissionOf answer (vaultRequest sha256 deps.kit snapshot allowSet records coverage pointers) deps df.fact.factIdentity =
      (resolvedKey answer deps).toOption.map fun key =>
        if constantTimeHexEqual
            (sign deps.kit key ⟨df.fact.workspaceId, df.fact.factIdentity, df.provenance.originPath, df.fact.mdContentSha⟩)
            stamp.sig = true
        then .admitted content df.fact.mdContentSha else .withhold .signature_invalid := by
  have hget : (byIdCanonical allowSet).get df.fact.factIdentity = some df := byIdCanonical_get.mpr ⟨hdf, rfl⟩
  have hrehydrate := createVaultRehydrate_ok deps.kit hderive hdf hfile hpage
  rw [hstamp] at hrehydrate
  unfold admissionOf admitOne vaultRequest
  dsimp only
  rw [hget]
  dsimp only
  rw [hfree, if_neg Bool.false_ne_true, hrehydrate]
  dsimp only
  rw [if_neg (not_not_intro hpageSha), if_neg (provenance_of_derive hderive hdf).1]
  unfold verifyFact
  rw [Program.answered_bind, answered_verify]
  cases resolvedKey answer deps with
  | error e => rfl
  | ok key =>
    simp only [Except.map, Except.bind, Except.toOption, Option.map_some]
    generalize constantTimeHexEqual _ _ = verified
    cases verified with
    | false => rfl
    | true => rfl

/-- What is admitted went through every check. -/
theorem admit_cases (hderive : deriveCanonicalFacts sha256 snapshot = .ok allowSet.facts) {sha : JsString}
    (h : admissionOf answer (vaultRequest sha256 deps.kit snapshot allowSet records coverage pointers) deps id =
      some (.admitted content sha)) :
    (createQuarantineLedger records).isQuarantined snapshot.workspaceId id = false ∧
      ∃ df ∈ allowSet.facts, df.fact.factIdentity = id ∧ ∃ content' page stamp,
        snapshot.files.get df.provenance.originPath = some content' ∧
        computePageProvenance sha256 df.provenance.originPath content' = some page ∧
        readStampField deps.kit content' = some stamp ∧ page.pageSha = df.fact.mdContentSha := by
  unfold admissionOf admitOne vaultRequest at h
  dsimp only at h
  cases hget : (byIdCanonical allowSet).get id with
  | none =>
    rw [hget] at h
    cases h
  | some df =>
    obtain ⟨hdf, rfl⟩ := byIdCanonical_get.mp hget
    obtain ⟨hpath, content', page, hfile, hpage, -⟩ := provenance_of_derive hderive hdf
    have hrehydrate := createVaultRehydrate_ok deps.kit hderive hdf hfile hpage
    rw [hget] at h
    dsimp only at h
    cases hfree : (createQuarantineLedger records).isQuarantined snapshot.workspaceId df.fact.factIdentity with
    | true =>
      rw [hfree, if_pos rfl] at h
      cases h
    | false =>
      rw [hfree, if_neg Bool.false_ne_true, hrehydrate] at h
      cases hstamp : readStampField deps.kit content' with
      | none =>
        rw [hstamp] at h
        cases h
      | some stamp =>
        rw [hstamp] at h
        dsimp only at h
        by_cases hpageSha : page.pageSha = df.fact.mdContentSha
        · exact ⟨rfl, df, hdf, rfl, content', page, stamp, hfile, hpage, hstamp, hpageSha⟩
        · rw [if_pos hpageSha] at h
          cases h

/-- An identity passes the checks just where it names a servable page that is not quarantined. -/
theorem admissionOf_admit_iff (hsha : sha256.Law) (hws : isWorkspaceId snapshot.workspaceId = true)
    (hderive : deriveCanonicalFacts sha256 snapshot = .ok allowSet.facts) :
    (∃ sha, admissionOf answer (vaultRequest sha256 deps.kit snapshot allowSet records coverage pointers) deps id =
        some (.admitted content sha)) ↔
      ¬ ActivelyQuarantined records snapshot.workspaceId id ∧
        ∃ key, resolvedKey answer deps = .ok key ∧ ServablePage sha256 deps.kit snapshot allowSet key id content := by
  rw [← isQuarantined_iff hws, Bool.not_eq_true]
  constructor
  · rintro ⟨sha, h⟩
    obtain ⟨hfree, df, hdf, rfl, content', page, stamp, hfile, hpage, hstamp, hpageSha⟩ := admit_cases hderive h
    refine ⟨hfree, ?_⟩
    rw [admissionOf_stamped hderive hdf hfile hpage hstamp hpageSha hfree] at h
    cases hkey : resolvedKey answer deps with
    | error e =>
      rw [hkey] at h
      cases h
    | ok key =>
      rw [hkey] at h
      simp only [Except.toOption, Option.map_some, Option.some.injEq] at h
      split at h
      · next hverified =>
        obtain ⟨rfl, -⟩ := Admission.admitted.inj h
        obtain ⟨hkind, hid⟩ := (isPage_iff hsha hderive hdf hfile hpage).mp hpageSha
        exact ⟨key, rfl, df, hdf, rfl, hkind, hfile, ⟨page, hpage, hid⟩, stamp, hstamp, hverified⟩
      · cases h
  · rintro ⟨hfree, key, hkey, df, hdf, rfl, hkind, hfile, ⟨page, hpage, hpageId⟩, stamp, hstamp, hverified⟩
    have hpageSha : page.pageSha = df.fact.mdContentSha :=
      (isPage_iff hsha hderive hdf hfile hpage).mpr ⟨hkind, hpageId⟩
    refine ⟨df.fact.mdContentSha, ?_⟩
    rw [admissionOf_stamped hderive hdf hfile hpage hstamp hpageSha hfree, hkey]
    simp only [Except.toOption, Option.map_some]
    rw [if_pos hverified]

/-- The outcome of a request: degraded, or gathered from the first pointers. -/
theorem answered_admitForServing (hws : allowSet.workspaceId = snapshot.workspaceId)
    (hrev : allowSet.revisionId = snapshot.revisionId) :
    ∃ result, (admitForServing (vaultRequest sha256 deps.kit snapshot allowSet records coverage pointers) deps).answered
        answer = .ok (.ok result) ∧
      ((isDegradedCoverage coverage = true ∧ result = degraded pointers .degraded_coverage) ∨
        ((∃ e, resolvedKey answer deps = .error e) ∧ result = degraded pointers .signing_key_unresolved) ∨
        (isDegradedCoverage coverage = false ∧
          result.admitted = (firsts [] pointers).filterMap (fun p =>
            (admissionOf answer (vaultRequest sha256 deps.kit snapshot allowSet records coverage pointers) deps
              p.factIdentity).bind (admittedFact p)) ∧
          result.withheld = (firsts [] pointers).filterMap (fun p =>
            (admissionOf answer (vaultRequest sha256 deps.kit snapshot allowSet records coverage pointers) deps
              p.factIdentity).bind (withheldFact p)) ∧
          ∀ p ∈ firsts [] pointers, (admissionOf answer (vaultRequest sha256 deps.kit snapshot allowSet records coverage pointers)
            deps p.factIdentity).isSome = true)) := by
  generalize hreq : vaultRequest sha256 deps.kit snapshot allowSet records coverage pointers = req
  have hfields : req.workspaceId = req.allowSet.workspaceId ∧ req.revisionId = req.allowSet.revisionId ∧
      req.coverage = coverage ∧ req.pointers = pointers := by
    rw [← hreq]
    exact ⟨hws.symm, hrev.symm, rfl, rfl⟩
  obtain ⟨hreqWs, hreqRev, hcoverage, hpointers⟩ := hfields
  unfold admitForServing
  rw [if_neg (not_not_intro hreqWs), if_neg (not_not_intro hreqRev), hcoverage, hpointers]
  cases hdegraded : isDegradedCoverage coverage with
  | true => exact ⟨_, rfl, .inl ⟨rfl, rfl⟩⟩
  | false =>
    rw [if_neg Bool.false_ne_true, Program.answered_bind]
    rcases @answered_admitPointers deps answer req pointers ⟨[], [], []⟩ with ⟨e, hrun, hkey⟩ | ⟨g, hrun, hadmitted, hwithheld, hall⟩
    · rw [hrun]
      exact ⟨_, rfl, .inr (.inl ⟨⟨e, hkey⟩, rfl⟩)⟩
    · rw [hrun]
      exact ⟨_, rfl, .inr (.inr ⟨rfl, hadmitted, hwithheld, hall⟩)⟩

theorem admittedFact_some {p : DbPointer} {admission : Admission} {a : AdmittedFact} (h : admittedFact p admission = some a) :
    a.factIdentity = p.factIdentity ∧ ∃ sha, admission = .admitted a.content sha := by
  cases admission with
  | withhold reason => cases h
  | admitted content sha =>
    rw [← Option.some.inj h]
    exact ⟨rfl, sha, rfl⟩

/-- What a serving result keeps to. -/
structure ServesCommitted (sha256 : Sha256) (snapshot : CanonicalVaultSnapshot) (allowSet : CanonicalFactSet)
    (records : List QuarantineRecord) (coverage : ServingCoverage) (deps : StamperDeps) (answer : SecretsAnswer)
    (pointers : List DbPointer) (result : ServingResult) : Prop where
  /-- Each identity at most once, in the order of first occurrence. -/
  order : (result.admitted.map (·.factIdentity)).Sublist (unique (pointers.map (·.factIdentity)))
  admits : ∀ id, id ∈ result.admitted.map (·.factIdentity) ↔ id ∈ pointers.map (·.factIdentity) ∧
    isDegradedCoverage coverage = false ∧ ¬ ActivelyQuarantined records snapshot.workspaceId id ∧
    ∃ key, resolvedKey answer deps = .ok key ∧ ∃ content, ServablePage sha256 deps.kit snapshot allowSet key id content
  content : ∀ a ∈ result.admitted, ∃ df ∈ allowSet.facts, df.fact.factIdentity = a.factIdentity ∧
    snapshot.files.get df.provenance.originPath = some a.content
  accounted : ∀ p ∈ pointers, p.factIdentity ∈ result.admitted.map (·.factIdentity) ∨
    p.factIdentity ∈ result.withheld.map (·.factIdentity)
  pages : ∀ a ∈ result.admitted, ∀ kind, kind ≠ .page → startsWith a.factIdentity (FACT_KIND_IDENTITY_PREFIX kind) = false

/-- A degraded result withholds every pointer, where the coverage or the key leaves nothing to admit. -/
theorem servesCommitted_degraded (reason : WithholdReason)
    (h : isDegradedCoverage coverage = true ∨ ∃ e, resolvedKey answer deps = .error e) :
    ServesCommitted sha256 snapshot allowSet records coverage deps answer pointers (degraded pointers reason) where
  order := List.nil_sublist _
  admits := by
    intro id
    refine iff_of_false List.not_mem_nil ?_
    rintro ⟨-, hgreen, -, key, hkey, -⟩
    rcases h with hdegraded | ⟨e, hunresolved⟩
    · rw [hdegraded] at hgreen
      cases hgreen
    · rw [hunresolved] at hkey
      cases hkey
  content := fun a ha => absurd ha List.not_mem_nil
  accounted := by
    intro p hp
    refine .inr (List.mem_map.mpr ⟨⟨p.factIdentity, reason⟩, ?_, rfl⟩)
    exact List.mem_map.mpr ⟨p, hp, rfl⟩
  pages := fun a ha => absurd ha List.not_mem_nil

theorem mem_firsts_iff : id ∈ (firsts [] pointers).map (·.factIdentity) ↔ id ∈ pointers.map (·.factIdentity) := by
  rw [map_firsts, mem_unique]
  simp

private theorem filterMap_sublist_map {α β : Type} {f : α → Option β} {g : α → β} (h : ∀ a b, f a = some b → b = g a)
    (l : List α) : (l.filterMap f).Sublist (l.map g) := by
  induction l with
  | nil => exact List.Sublist.refl _
  | cons a l ih =>
    cases hf : f a with
    | none =>
      rw [List.filterMap_cons_none hf]
      exact ih.cons _
    | some b =>
      rw [List.filterMap_cons_some hf, h a b hf]
      exact ih.cons_cons _

theorem pageIdentity_text {path : Path} {page : PageProvenance} (h : computePageProvenance sha256 path content = some page) :
    ∃ slug, page.pageIdentity = str "page:" ++ slug := by
  unfold computePageProvenance at h
  dsimp only at h
  split at h
  · cases h
  · exact ⟨_, by rw [← Option.some.inj h]; rfl⟩

/-- A gathered result admits what passes the checks. -/
theorem servesCommitted_gathered (hsha : sha256.Law) (hws : isWorkspaceId snapshot.workspaceId = true)
    (hderive : deriveCanonicalFacts sha256 snapshot = .ok allowSet.facts) (hgreen : isDegradedCoverage coverage = false)
    {result : ServingResult}
    (hadmitted : result.admitted = (firsts [] pointers).filterMap (fun p =>
      (admissionOf answer (vaultRequest sha256 deps.kit snapshot allowSet records coverage pointers) deps
        p.factIdentity).bind (admittedFact p)))
    (hwithheld : result.withheld = (firsts [] pointers).filterMap (fun p =>
      (admissionOf answer (vaultRequest sha256 deps.kit snapshot allowSet records coverage pointers) deps
        p.factIdentity).bind (withheldFact p)))
    (hall : ∀ p ∈ firsts [] pointers, (admissionOf answer
      (vaultRequest sha256 deps.kit snapshot allowSet records coverage pointers) deps p.factIdentity).isSome = true) :
    ServesCommitted sha256 snapshot allowSet records coverage deps answer pointers result := by
  have hmem : ∀ a, a ∈ result.admitted ↔ ∃ p ∈ firsts [] pointers, ∃ admission,
      admissionOf answer (vaultRequest sha256 deps.kit snapshot allowSet records coverage pointers) deps p.factIdentity =
        some admission ∧ admittedFact p admission = some a := by
    intro a
    rw [hadmitted, List.mem_filterMap]
    simp only [Option.bind_eq_some_iff]
  have hservable : ∀ a ∈ result.admitted, ¬ ActivelyQuarantined records snapshot.workspaceId a.factIdentity ∧
      ∃ key, resolvedKey answer deps = .ok key ∧ ServablePage sha256 deps.kit snapshot allowSet key a.factIdentity a.content := by
    intro a ha
    obtain ⟨p, -, admission, houtcome, hfact⟩ := (hmem a).mp ha
    obtain ⟨hid, sha, rfl⟩ := admittedFact_some hfact
    rw [hid]
    exact (admissionOf_admit_iff hsha hws hderive).mp ⟨sha, houtcome⟩
  refine ⟨?_, ?_, ?_, ?_, ?_⟩
  · have hids : unique (pointers.map (·.factIdentity)) = (firsts [] pointers).map (·.factIdentity) := by
      rw [map_firsts]
      simp
    rw [hids, hadmitted, List.map_filterMap]
    apply filterMap_sublist_map
    intro p id hid
    obtain ⟨a, ha, rfl⟩ := Option.map_eq_some_iff.mp hid
    obtain ⟨admission, -, hfact⟩ := Option.bind_eq_some_iff.mp ha
    exact (admittedFact_some hfact).1
  · intro id
    constructor
    · intro hid
      obtain ⟨a, ha, rfl⟩ := List.mem_map.mp hid
      obtain ⟨p, hp, admission, -, hfact⟩ := (hmem a).mp ha
      obtain ⟨hfree, key, hkey, hpage⟩ := hservable a ha
      refine ⟨?_, hgreen, hfree, key, hkey, a.content, hpage⟩
      rw [← mem_firsts_iff, (admittedFact_some hfact).1]
      exact List.mem_map_of_mem hp
    · rintro ⟨hpointer, -, hfree, key, hkey, content, hpage⟩
      obtain ⟨p, hp, rfl⟩ := List.mem_map.mp (mem_firsts_iff.mpr hpointer)
      have hadmit : ∃ sha, admissionOf answer (vaultRequest sha256 deps.kit snapshot allowSet records coverage pointers) deps
          p.factIdentity = some (.admitted content sha) :=
        (admissionOf_admit_iff hsha hws hderive).mpr ⟨hfree, key, hkey, hpage⟩
      obtain ⟨sha, houtcome⟩ := hadmit
      exact List.mem_map.mpr ⟨_, (hmem _).mpr ⟨p, hp, _, houtcome, rfl⟩, rfl⟩
  · intro a ha
    obtain ⟨-, key, -, df, hdf, hid, -, hfile, -⟩ := hservable a ha
    exact ⟨df, hdf, hid, hfile⟩
  · intro p hp
    obtain ⟨first, hfirst, hid⟩ := List.mem_map.mp (mem_firsts_iff.mpr (List.mem_map_of_mem (f := (·.factIdentity)) hp))
    obtain ⟨admission, houtcome⟩ := Option.isSome_iff_exists.mp (hall first hfirst)
    rw [← hid]
    cases admission with
    | admitted content sha => exact .inl (List.mem_map.mpr ⟨_, (hmem _).mpr ⟨first, hfirst, _, houtcome, rfl⟩, rfl⟩)
    | withhold reason =>
      refine .inr (List.mem_map.mpr ⟨⟨first.factIdentity, reason⟩, ?_, rfl⟩)
      rw [hwithheld]
      exact List.mem_filterMap.mpr ⟨first, hfirst, Option.bind_eq_some_iff.mpr ⟨_, houtcome, rfl⟩⟩
  · intro a ha kind hkind
    obtain ⟨-, key, -, df, -, -, -, -, ⟨page, hpage, hid⟩, -⟩ := hservable a ha
    obtain ⟨slug, hslug⟩ := pageIdentity_text hpage
    rw [← hid, hslug]
    cases kind with
    | page => exact absurd rfl hkind
    | link => rfl
    | timeline => rfl
    | tag => rfl

/-- No check reads what the database would have served. -/
theorem admitPointers_congr {pointers' : List DbPointer} {req' : ServingRequest}
    (hone : ∀ id, admitOne req' deps id = admitOne req deps id)
    (h : pointers'.map (fun p => (p.factIdentity, p.score)) = pointers.map fun p => (p.factIdentity, p.score)) (g : Gathered) :
    admitPointers req' deps pointers' g = admitPointers req deps pointers g := by
  induction pointers generalizing pointers' g with
  | nil =>
    rw [List.map_nil, List.map_eq_nil_iff] at h
    rw [h]
    rfl
  | cons p pointers ih =>
    cases pointers' with
    | nil => cases h
    | cons p' pointers' =>
      obtain ⟨hp, hrest⟩ := List.cons.inj h
      obtain ⟨hid, hscore⟩ := Prod.mk.inj hp
      have hadd : ∀ admission, g.add p' admission = g.add p admission := fun admission => by
        cases admission with
        | withhold reason => simp only [Gathered.add, hid]
        | admitted content sha => simp only [Gathered.add, hid, hscore]
      unfold admitPointers
      rw [hid, hone, ih hrest g]
      simp only [hadd, ih hrest]

theorem admitForServing_dbBody {pointers' : List DbPointer}
    (h : pointers'.map (fun p => (p.factIdentity, p.score)) = pointers.map fun p => (p.factIdentity, p.score)) :
    admitForServing (vaultRequest sha256 kit snapshot allowSet records coverage pointers') deps =
      admitForServing (vaultRequest sha256 kit snapshot allowSet records coverage pointers) deps := by
  have hids : pointers'.map (·.factIdentity) = pointers.map (·.factIdentity) := by
    have hfst := congrArg (List.map Prod.fst) h
    rw [List.map_map, List.map_map] at hfst
    exact hfst
  have hdegraded : ∀ reason, degraded pointers' reason = degraded pointers reason := fun reason => by
    have hmap : ∀ l : List DbPointer, l.map (fun p => (⟨p.factIdentity, reason⟩ : WithheldFact)) =
        (l.map (·.factIdentity)).map fun id => ⟨id, reason⟩ := fun l => by
      rw [List.map_map]
      rfl
    unfold degraded
    rw [hmap, hmap, hids]
  have hloop : admitPointers (vaultRequest sha256 kit snapshot allowSet records coverage pointers') deps pointers' ⟨[], [], []⟩ =
      admitPointers (vaultRequest sha256 kit snapshot allowSet records coverage pointers) deps pointers ⟨[], [], []⟩ := by
    apply admitPointers_congr
    · intro id
      rfl
    · exact h
  unfold admitForServing
  dsimp only [vaultRequest] at hloop ⊢
  simp only [hdegraded, hloop]
  rfl

/-- Serving admits only verified committed Markdown. -/
theorem admitForServing_servesCommitted (hsha : sha256.Law) (hws : allowSet.workspaceId = snapshot.workspaceId)
    (hrev : allowSet.revisionId = snapshot.revisionId)
    (hderive : deriveCanonicalFacts sha256 snapshot = .ok allowSet.facts) (records : List QuarantineRecord)
    (coverage : ServingCoverage) (deps : StamperDeps) (answer : SecretsAnswer) (pointers : List DbPointer) :
    ∃ result, ServesCommitted sha256 snapshot allowSet records coverage deps answer pointers result ∧
      ∀ pointers' : List DbPointer,
        pointers'.map (fun p => (p.factIdentity, p.score)) = pointers.map (fun p => (p.factIdentity, p.score)) →
          (admitForServing (vaultRequest sha256 deps.kit snapshot allowSet records coverage pointers') deps).answered answer =
            .ok (.ok result) := by
  obtain ⟨result, hrun, hcases⟩ := @answered_admitForServing sha256 snapshot allowSet deps answer records coverage pointers hws hrev
  refine ⟨result, ?_, fun pointers' h => by rw [admitForServing_dbBody h, hrun]⟩
  rcases hcases with ⟨hdegraded, rfl⟩ | ⟨hunresolved, rfl⟩ | ⟨hgreen, hadmitted, hwithheld, hall⟩
  · exact servesCommitted_degraded _ (.inl hdegraded)
  · exact servesCommitted_degraded _ (.inr hunresolved)
  · have hvalid : isWorkspaceId snapshot.workspaceId = true := by
      rw [← hws]
      exact allowSet.workspaceId_valid
    exact servesCommitted_gathered hsha hvalid hderive hgreen hadmitted hwithheld hall

end checks

section stampedNote

/-- A vault of one signed note. -/
def stampedVault : CanonicalVaultSnapshot :=
  ⟨str "ws", noteStamp.kwRevision, .ofList [(str "a.md", embedStamp (str "hi") noteStamp)]⟩

def stampedFact : DerivedFact where
  fact := ⟨str "page:a", .page, str "ws", noteStamp.mdContentSha, noteStamp.kwRevision⟩
  provenance := ⟨.markdown, noteStamp.kwRevision, str "a.md", noteStamp.mdContentSha, none⟩

def stampedAllowSet : CanonicalFactSet where
  workspaceId := str "ws"
  revisionId := noteStamp.kwRevision
  facts := [stampedFact]
  workspaceId_valid := by decide +kernel
  revisionId_valid := by decide +kernel
  facts_valid := by decide +kernel
  nodup := List.nodup_singleton _

theorem derive_stampedVault : deriveCanonicalFacts (tabulated stampedDigests) stampedVault = .ok stampedAllowSet.facts := by
  unfold tabulated stampedVault stampedAllowSet stampedFact
  simp only [stampedDigests, noteStamp]
  repeat rw [str_ofList]
  decide +kernel

theorem admitForServing_servesCommitted_stampedNote :
    ∃ result, ServesCommitted (tabulated stampedDigests) stampedVault stampedAllowSet [] ⟨true, true, true, true⟩
        ⟨noteKit, str "kw"⟩ (fun _ => .ok (.ok [107])) [⟨str "page:a", 1, some (str "stale")⟩] result ∧
      ∀ pointers' : List DbPointer, pointers'.map (fun p => (p.factIdentity, p.score)) = [(str "page:a", 1)] →
        (admitForServing (vaultRequest (tabulated stampedDigests) noteKit stampedVault stampedAllowSet []
          ⟨true, true, true, true⟩ pointers') ⟨noteKit, str "kw"⟩).answered (fun _ => .ok (.ok [107])) = .ok (.ok result) :=
  admitForServing_servesCommitted (tabulated_law stampedDigests) rfl rfl derive_stampedVault [] ⟨true, true, true, true⟩
    ⟨noteKit, str "kw"⟩ (fun _ => .ok (.ok [107])) [⟨str "page:a", 1, some (str "stale")⟩]

end stampedNote

end sow.gbrain
