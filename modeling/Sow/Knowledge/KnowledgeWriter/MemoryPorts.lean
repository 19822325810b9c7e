import Sow.Knowledge.KnowledgeWriter.WriterModel

open sow.js sow.effect sow.markdown_vault

namespace sow.knowledge_writer

section digest

/-- Two lower-case hexadecimal digits of a byte. -/
def hexByte (b : UInt8) : JsString := [Json.hexDigit (b.toNat / 16), Json.hexDigit (b.toNat % 16)]

private theorem hexDigit_injective : ∀ i j : Fin 16, Json.hexDigit i = Json.hexDigit j → i = j := by decide

private theorem hexByte_injective {a b : UInt8} (h : hexByte a = hexByte b) : a = b := by
  have ha := a.toNat_lt_size
  have hb := b.toNat_lt_size
  simp only [UInt8.size] at ha hb
  simp only [hexByte, List.cons.injEq, and_true] at h
  have hhigh := congrArg Fin.val (hexDigit_injective ⟨a.toNat / 16, by omega⟩ ⟨b.toNat / 16, by omega⟩ h.1)
  have hlow := congrArg Fin.val (hexDigit_injective ⟨a.toNat % 16, by omega⟩ ⟨b.toNat % 16, by omega⟩ h.2)
  exact UInt8.toNat_inj.mp (by simp only at hhigh hlow; omega)

private theorem flatMap_hexByte_injective {l l' : List UInt8} (h : l.flatMap hexByte = l'.flatMap hexByte) : l = l' := by
  induction l generalizing l' with
  | nil =>
    cases l' with
    | nil => rfl
    | cons b l' => simp [hexByte] at h
  | cons a l ih =>
    cases l' with
    | nil => simp [hexByte] at h
    | cons b l' =>
      rw [List.flatMap_cons, List.flatMap_cons] at h
      obtain ⟨hab, hrest⟩ := List.append_inj h rfl
      rw [hexByte_injective hab, ih hrest]

/-- A digest of more than 64 digits that spells its input out. -/
def spelled (bytes : List UInt8) : JsString := List.replicate 65 (unit 'f') ++ bytes.flatMap hexByte

/-- Known digests, of 64 digits each. -/
structure KnownDigests where
  entries : List (List UInt8 × JsString)
  distinct : (entries.map Prod.snd).Nodup
  digits : ∀ e ∈ entries, e.2.length = 64 ∧ ∀ c ∈ e.2, isHexDigit c = true

/-- A text is a digest when a run over its digits says so. -/
theorem digest_of_all {d : JsString} (h : (d.length == 64 && d.all isHexDigit) = true) :
    d.length = 64 ∧ ∀ c ∈ d, isHexDigit c = true := by
  rw [Bool.and_eq_true, beq_iff_eq, List.all_eq_true] at h
  exact h

theorem digits_of_all {entries : List (List UInt8 × JsString)}
    (h : entries.all (fun e => e.2.length == 64 && e.2.all isHexDigit) = true) :
    ∀ e ∈ entries, e.2.length = 64 ∧ ∀ c ∈ e.2, isHexDigit c = true :=
  fun e he => digest_of_all (List.all_eq_true.mp h e he)

/-- The digest that agrees with the known ones and spells every other input out. -/
def tabulated (known : KnownDigests) : Sha256 := fun bytes => (Map.getEntry bytes known.entries).getD (spelled bytes)

private theorem mem_of_getEntry {l : List (List UInt8 × JsString)} {k : List UInt8} {v : JsString}
    (h : Map.getEntry k l = some v) : (k, v) ∈ l := by
  induction l with
  | nil => cases h
  | cons e l ih =>
    rw [Map.getEntry] at h
    split at h
    · next heq =>
      cases h
      exact heq ▸ List.mem_cons_self ..
    · exact List.mem_cons_of_mem _ (ih h)

/-- A digest is a known one of 64 digits, or the longer spelling of its input. -/
private theorem tabulated_cases (known : KnownDigests) (bytes : List UInt8) :
    (bytes, tabulated known bytes) ∈ known.entries ∨ tabulated known bytes = spelled bytes := by
  rw [tabulated]
  cases h : Map.getEntry bytes known.entries with
  | none => exact .inr rfl
  | some v => exact .inl (mem_of_getEntry h)

theorem tabulated_hex (known : KnownDigests) (bytes : List UInt8) : ∀ c ∈ tabulated known bytes, isHexDigit c = true := by
  intro c hc
  rcases tabulated_cases known bytes with h | h
  · exact (known.digits _ h).2 c hc
  · rw [h, spelled] at hc
    rcases List.mem_append.mp hc with hc | hc
    · rw [List.eq_of_mem_replicate hc]
      decide
    · obtain ⟨b, -, hb⟩ := List.mem_flatMap.mp hc
      have hdigit : ∀ i : Fin 16, isHexDigit (Json.hexDigit i) = true := by decide
      have hlt := b.toNat_lt_size
      simp only [UInt8.size] at hlt
      simp only [hexByte, List.mem_cons, List.not_mem_nil, or_false] at hb
      rcases hb with rfl | rfl
      · exact hdigit ⟨b.toNat / 16, by omega⟩
      · exact hdigit ⟨b.toNat % 16, by omega⟩

theorem tabulated_law (known : KnownDigests) : (tabulated known).Law where
  hex := tabulated_hex known
  injective := by
    intro a b h
    have hlen : ∀ bytes, 64 < (spelled bytes).length := fun bytes => by simp [spelled]
    rcases tabulated_cases known a with ha | ha <;> rcases tabulated_cases known b with hb | hb
    · have := List.inj_on_of_nodup_map known.distinct ha hb h
      exact congrArg Prod.fst this
    · have h64 := (known.digits _ ha).1
      simp only [h, hb] at h64
      exact absurd h64 (hlen b).ne'
    · have h64 := (known.digits _ hb).1
      simp only [← h, ha] at h64
      exact absurd h64 (hlen a).ne'
    · rw [ha, hb] at h
      exact flatMap_hexByte_injective (List.append_cancel_left h)

end digest

/-- The vault lists its Markdown files. -/
def memoryListing : Listing where
  listed p := endsWith p (str ".md") && !p.contains 0 && isWellFormed p
  list fs := fs.keys.filter fun p => endsWith p (str ".md") && !p.contains 0 && isWellFormed p
  mem_list fs p := by simp [and_comm]
  nodup_list fs := fs.nodup.filter _
  live_of_listed p h := by
    simp only [Bool.and_eq_true] at h
    exact not_isStaging_of_md h.1.1
  nulFree_of_listed p h := by
    simp only [Bool.and_eq_true, Bool.not_eq_true'] at h
    simpa using h.1.2
  wellFormed_of_listed p h := by
    simp only [Bool.and_eq_true] at h
    exact h.2

/-- No port faults; the clock and the signing key are constant. -/
def faultFree (clock : JsString) (key : Except SecretUnresolved SigningKey) (_ : Nat) (_ : KwOp) : KwChoice :=
  ⟨.proceed, true, clock, key⟩

theorem faultFree_restoring (clock : JsString) (key : Except SecretUnresolved SigningKey) (n : Nat) (op : KwOp) :
    KwRestoring op (faultFree clock key n op) := by
  cases op with
  | vault op => cases op <;> simp [KwRestoring, Restoring, faultFree]
  | _ => trivial

/-- An object without its undefined members. -/
def objectOf (fields : List (JsString × Option Json)) : Json :=
  .obj (fields.filterMap fun f => f.2.map fun v => (f.1, v))

def NoteCreate.toJson (create : NoteCreate) : Json :=
  objectOf [(str "path", some (.str create.path)), (str "title", create.title.map .str),
    (str "body", some (.str create.body)), (str "frontmatter", create.frontmatter.map fun fm => objectOf fm.entries)]

def NotePatch.toJson (patch : NotePatch) : Json :=
  objectOf [(str "path", some (.str patch.path)), (str "regionId", some (.str patch.regionId)),
    (str "newBody", some (.str patch.newBody))]

def LinkMutation.toJson (link : LinkMutation) : Json :=
  let op := match link.op with
    | .add => str "add"
    | .remove => str "remove"
  objectOf [(str "op", some (.str op)), (str "srcPath", some (.str link.srcPath)),
    (str "dstSlug", some (.str link.dstSlug))]

def FrontmatterPatch.toJson (patch : FrontmatterPatch) : Json :=
  objectOf [(str "path", some (.str patch.path)), (str "key", some (.str patch.key)), (str "value", patch.value)]

/-- A plan of the workspace `ws` with the given mutations. -/
def planOf (creates : List NoteCreate) (patches : List NotePatch) (linkMutations : List LinkMutation)
    (frontmatterUpdates : List FrontmatterPatch) : KnowledgeMutationPlan where
  planId := str "p1"
  workspaceId := str "ws"
  sourceRefs := [⟨str "s1", none⟩]
  creates := creates
  patches := patches
  linkMutations := linkMutations
  frontmatterUpdates := frontmatterUpdates
  data := objectOf
    [(str "planId", some (.str (str "p1"))), (str "workspaceId", some (.str (str "ws"))),
      (str "sourceRefs", some (.arr [objectOf [(str "sourceId", some (.str (str "s1")))]])),
      (str "creates", some (.arr (creates.map (·.toJson)))), (str "patches", some (.arr (patches.map (·.toJson)))),
      (str "linkMutations", some (.arr (linkMutations.map (·.toJson)))),
      (str "frontmatterUpdates", some (.arr (frontmatterUpdates.map (·.toJson)))),
      (str "externalActionProposals", some (.arr [])), (str "confidence", some (.num (str "1"))),
      (str "requiresApproval", some (.bool false)), (str "provenanceOrigin", some (.str (str "ingestion")))]
  planId_ne_blank := by decide
  workspaceId_slug := by decide
  sourceRefs_ne_nil := by decide

/-- The gate that reads a candidate as `plan`. -/
def acceptingGate (plan : KnowledgeMutationPlan) : Gate where
  validate _ := .ok ()
  safeParse _ := .ok plan
  kwSchemaRejectedSignal _ _ := ⟨[], [], [], [], [], []⟩

/-- The writer with its default ownership check, no secret, no fence and no foreign path. -/
def memoryDeps (sha256 : Sha256) (plan : KnowledgeMutationPlan) (signing : Option StamperDeps) : KnowledgeWriterDeps where
  sha256 := sha256
  gate := acceptingGate plan
  contentContainsSecret _ := false
  isRedactionSafe _ := true
  workspacePathCheck _ _ := .ok ()
  writeFence := none
  ownershipCheck := none
  secretScan := none
  signing := signing

/-- The command that applies `plan` to a vault with the given files. -/
def commandOf (sha256 : Sha256) (files : VaultSnapshot) (plan : KnowledgeMutationPlan) (idempotencyKey : JsString) :
    KnowledgeWriteCommand where
  plan := plan.data
  expectedBaseRevision := computeRevisionId sha256 files
  actor := str "KnowledgeWriter"
  sourceEventRef := str "evt-1"
  workflowRunRef := ⟨str "wf-1", str "manual", str "running", str "wf-key", []⟩
  idempotencyKey := idempotencyKey

end sow.knowledge_writer
