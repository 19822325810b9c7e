import Sow.Js.Json
import Sow.Js.Sort
import Sow.Knowledge.MarkdownVault.AtomicWrite

open sow.js sow.markdown_vault

namespace sow.knowledge_writer

/-- Opaque content-addressed revision identifier. -/
abbrev RevisionId := JsString

/-- Full vault state: vault-relative path to complete file content. -/
abbrev VaultSnapshot := Map Path JsString

/-- `createHash("sha256").update(input, "utf8").digest("hex")`, over the bytes of its input. -/
abbrev Sha256 := List UInt8 → JsString

def Sha256.text (sha256 : Sha256) (input : JsString) : JsString := sha256 (utf8 input)

/-- The line of one file: its path, a NUL, and the digest of its content. -/
def revisionLine (sha256 : Sha256) (entry : Path × JsString) : JsString :=
  entry.1 ++ [0] ++ sha256.text entry.2

def computeRevisionId (sha256 : Sha256) (snapshot : VaultSnapshot) : RevisionId :=
  let lines := sort (snapshot.entries.map (revisionLine sha256))
  str "rev:" ++ sha256.text (join (str "\n") lines)

def compareRevision (a b : RevisionId) : Bool := a = b

/-- A letter or digit of ASCII. -/
def isAlphanumeric (c : UInt16) : Bool :=
  Json.isDigit c || (65 ≤ c.toNat && c.toNat ≤ 90) || (97 ≤ c.toNat && c.toNat ≤ 122)

/-- Staging-token form of a revision id. -/
def tokenOf (revisionId : RevisionId) : JsString := revisionId.filter isAlphanumeric

structure WorkflowRunRef where
  workflowId : JsString
  trigger : JsString
  state : JsString
  idempotencyKey : JsString
  auditRefs : List JsString
  deriving DecidableEq

structure AuditRecord where
  actor : JsString
  event : JsString
  refs : List JsString
  payloadHash : JsString
  beforeSummary : JsString
  afterSummary : JsString
  occurredAt : JsString
  workspaceId : Option JsString
  deriving DecidableEq

structure CommittedRevision where
  revisionId : RevisionId
  baseRevisionId : RevisionId
  idempotencyKey : JsString
  planId : JsString
  actor : JsString
  sourceEventRef : JsString
  workflowRunRef : WorkflowRunRef
  auditRecord : AuditRecord
  committedAt : JsString
  deriving DecidableEq

structure AuditRecordInput where
  actor : JsString
  sourceEventRef : JsString
  workflowRunRef : WorkflowRunRef
  idempotencyKey : JsString
  planId : JsString
  baseRevisionId : RevisionId
  newRevisionId : RevisionId
  beforeSummary : JsString
  afterSummary : JsString
  payloadHash : JsString
  occurredAt : JsString
  workspaceId : Option JsString

def buildCommitAuditRecord (input : AuditRecordInput) : AuditRecord where
  actor := input.actor
  event := str "knowledge_writer.commit"
  refs := [input.sourceEventRef, input.workflowRunRef.workflowId, input.idempotencyKey, input.planId,
    input.newRevisionId]
  payloadHash := input.payloadHash
  beforeSummary := input.beforeSummary
  afterSummary := input.afterSummary
  occurredAt := input.occurredAt
  workspaceId := input.workspaceId

def hashPayload (sha256 : Sha256) (value : Json) : JsString := sha256.text value.stringify

/-- A lower-case hexadecimal digit. -/
def isHexDigit (c : UInt16) : Bool := Json.isDigit c || (97 ≤ c.toNat && c.toNat ≤ 102)

/-- What the writer relies on of the digest: no two inputs share one, and it is
    written in lower-case hexadecimal digits. -/
structure Sha256.Law (sha256 : Sha256) : Prop where
  injective : Function.Injective sha256
  hex : ∀ bytes, ∀ c ∈ sha256 bytes, isHexDigit c = true

/-- What tells the files of a snapshot apart in its revision: paths without NUL,
    and text that survives its encoding. -/
def Legible (m : VaultSnapshot) : Prop :=
  ∀ p content, m.get p = some content → 0 ∉ p ∧ isWellFormed p = true ∧ isWellFormed content = true

section identity

variable {sha256 : Sha256} {m m' : VaultSnapshot}

/-- The revision id sees a snapshot only through its lookups. -/
theorem computeRevisionId_congr (h : ∀ p, m.get p = m'.get p) :
    computeRevisionId sha256 m = computeRevisionId sha256 m' := by
  have hperm : m.entries.Perm m'.entries := by
    refine (List.perm_ext_iff_of_nodup (m.nodup.of_map _) (m'.nodup.of_map _)).mpr fun ⟨p, content⟩ => ?_
    rw [← Map.get_eq_some_iff, ← Map.get_eq_some_iff, h]
  rw [computeRevisionId, computeRevisionId, sort_eq_of_perm (hperm.map _)]

theorem isWellFormed_text (hsha : sha256.Law) (s : JsString) : isWellFormed (sha256.text s) = true := by
  refine isWellFormed_of_lt fun c hc => ?_
  have hhex := hsha.hex _ c hc
  simp only [isHexDigit, Json.isDigit, Bool.or_eq_true, Bool.and_eq_true, decide_eq_true_eq] at hhex
  omega

/-- A path without NUL, a NUL, and hexadecimal digits. -/
def IsLine (line : JsString) : Prop :=
  ∃ p digest, 0 ∉ p ∧ (∀ c ∈ digest, isHexDigit c = true) ∧ line = p ++ 0 :: digest

theorem isLine_revisionLine (hsha : sha256.Law) {e : Path × JsString} (hp : 0 ∉ e.1) :
    IsLine (revisionLine sha256 e) :=
  ⟨e.1, sha256.text e.2, hp, hsha.hex _, by simp [revisionLine]⟩

/-- What follows a line in the joined text: nothing, or a line break and the rest. -/
private def joinTail : List JsString → JsString
  | [] => []
  | lines => unit '\n' :: join (str "\n") lines

private theorem join_cons_eq (line : JsString) (lines : List JsString) :
    join (str "\n") (line :: lines) = line ++ joinTail lines := by
  cases lines with
  | nil => rw [join_singleton, joinTail, List.append_nil]
  | cons l ls => exact join_cons_cons ..

private theorem hex_append_joinTail_inj {a b : JsString} {l l' : List JsString}
    (ha : ∀ c ∈ a, isHexDigit c = true) (hb : ∀ c ∈ b, isHexDigit c = true)
    (h : a ++ joinTail l = b ++ joinTail l') : a = b ∧ joinTail l = joinTail l' := by
  have htail : ∀ l, (joinTail l).takeWhile isHexDigit = [] := fun l => by
    cases l with
    | nil => rfl
    | cons x xs => rfl
  have htake : ∀ (a : JsString) (l : List JsString), (∀ c ∈ a, isHexDigit c = true) →
      (a ++ joinTail l).takeWhile isHexDigit = a := fun a l ha => by
    rw [List.takeWhile_append_of_pos ha, htail, List.append_nil]
  have hab : a = b := by rw [← htake a l ha, h, htake b l' hb]
  subst hab
  exact ⟨rfl, List.append_cancel_left h⟩

theorem join_lines_inj {l l' : List JsString} (hl : ∀ x ∈ l, IsLine x) (hl' : ∀ x ∈ l', IsLine x)
    (h : join (str "\n") l = join (str "\n") l') : l = l' := by
  have hne : ∀ (x : JsString) (xs : List JsString), IsLine x → join (str "\n") (x :: xs) ≠ [] := by
    rintro x xs ⟨p, digest, -, -, rfl⟩
    simp [join_cons_eq]
  induction l generalizing l' with
  | nil =>
    cases l' with
    | nil => rfl
    | cons y ys => exact absurd h.symm (hne y ys (hl' y (List.mem_cons_self ..)))
  | cons x xs ih =>
    cases l' with
    | nil => exact absurd h (hne x xs (hl x (List.mem_cons_self ..)))
    | cons y ys =>
      obtain ⟨p, digest, hp, hdigest, rfl⟩ := hl x (List.mem_cons_self ..)
      obtain ⟨p', digest', hp', hdigest', rfl⟩ := hl' y (List.mem_cons_self ..)
      rw [join_cons_eq, join_cons_eq, List.append_assoc, List.append_assoc, List.cons_append,
        List.cons_append] at h
      obtain ⟨rfl, hrest⟩ := field_inj hp hp' h
      obtain ⟨rfl, htail⟩ := hex_append_joinTail_inj hdigest hdigest' hrest
      have hxs : xs = ys := by
        cases xs with
        | nil =>
          cases ys with
          | nil => rfl
          | cons b bs => simp [joinTail] at htail
        | cons a as =>
          cases ys with
          | nil => simp [joinTail] at htail
          | cons b bs =>
            refine ih (fun z hz => hl z (List.mem_cons_of_mem _ hz))
              (fun z hz => hl' z (List.mem_cons_of_mem _ hz)) ?_
            exact (List.cons.inj htail).2
      rw [hxs]

private theorem legible_line (hsha : sha256.Law) (hm : Legible m) {line : JsString}
    (h : line ∈ sort (m.entries.map (revisionLine sha256))) : IsLine line ∧ isWellFormed line = true := by
  obtain ⟨⟨p, content⟩, he, rfl⟩ := List.mem_map.mp ((sort_perm _).mem_iff.mp h)
  obtain ⟨hnul, hwf, -⟩ := hm p content (Map.get_eq_some_iff.mpr he)
  refine ⟨isLine_revisionLine hsha hnul, ?_⟩
  exact isWellFormed_append (isWellFormed_append hwf (by decide)) (isWellFormed_text hsha _)

private theorem isWellFormed_join {l : List JsString} (h : ∀ x ∈ l, isWellFormed x = true) :
    isWellFormed (join (str "\n") l) = true := by
  induction l with
  | nil => rfl
  | cons x xs ih =>
    have hx := h x (List.mem_cons_self ..)
    have hxs := ih fun y hy => h y (List.mem_cons_of_mem _ hy)
    rw [join_cons_eq]
    refine isWellFormed_append hx ?_
    cases xs with
    | nil => rfl
    | cons y ys => exact isWellFormed_append (s := str "\n") (by decide) hxs

private theorem get_of_line_mem (hsha : sha256.Law) (hm : Legible m) (hm' : Legible m')
    (hlines : ∀ line ∈ m.entries.map (revisionLine sha256), line ∈ m'.entries.map (revisionLine sha256))
    {p : Path} {content : JsString} (h : m.get p = some content) : m'.get p = some content := by
  obtain ⟨hnul, -, hwf⟩ := hm p content h
  have hmem := hlines _ (List.mem_map_of_mem (Map.get_eq_some_iff.mp h))
  obtain ⟨⟨p', content'⟩, he', hline⟩ := List.mem_map.mp hmem
  have hget' := Map.get_eq_some_iff.mpr he'
  obtain ⟨hnul', -, hwf'⟩ := hm' p' content' hget'
  simp only [revisionLine, List.append_assoc, List.singleton_append] at hline
  obtain ⟨rfl, hdigest⟩ := field_inj hnul' hnul hline
  rw [← utf8_injective hwf' hwf (hsha.injective hdigest)]
  exact hget'

/-- Revision ids identify vaults. -/
theorem get_eq_of_computeRevisionId_eq (hsha : sha256.Law) (hm : Legible m) (hm' : Legible m')
    (h : computeRevisionId sha256 m = computeRevisionId sha256 m') (p : Path) : m.get p = m'.get p := by
  have htext := List.append_cancel_left h
  have hjoin := utf8_injective (isWellFormed_join fun x hx => (legible_line hsha hm hx).2)
    (isWellFormed_join fun x hx => (legible_line hsha hm' hx).2) (hsha.injective htext)
  have hsorted := join_lines_inj (fun x hx => (legible_line hsha hm hx).1)
    (fun x hx => (legible_line hsha hm' hx).1) hjoin
  have hperm : (m.entries.map (revisionLine sha256)).Perm (m'.entries.map (revisionLine sha256)) :=
    (sort_perm _).symm.trans (hsorted ▸ sort_perm _)
  ext content
  exact ⟨get_of_line_mem hsha hm hm' fun _ hl => hperm.mem_iff.mp hl,
    get_of_line_mem hsha hm' hm fun _ hl => hperm.mem_iff.mpr hl⟩

end identity

end sow.knowledge_writer
