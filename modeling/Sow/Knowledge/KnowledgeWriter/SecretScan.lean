import Sow.Knowledge.KnowledgeWriter.Writer
import Sow.Policy.AuditSignal

open sow.js
open sow.domain (CREDENTIAL_PREFIX SENSITIVE_KEYWORD URL_USERINFO_CREDENTIAL stripMarkers)
open sow.policy (HasKeyword isRedactionSafe looksUnsafe looksUnsafe_iff)

namespace sow.knowledge_writer

def SECRET_SCAN_REJECTED_EVENT : JsString := str "knowledge.precommit_scan.rejected"

def PROBE_HASH : JsString := str "sha256:scan"

def CONTENT_CREDENTIAL_NETS : List (JsString → Bool) := [CREDENTIAL_PREFIX, URL_USERINFO_CREDENTIAL]

def contentContainsSecret (value : JsString) : Bool := CONTENT_CREDENTIAL_NETS.any fun net => net value

def buildSecretScanRejectionAudit (found : SecretFound) : policy.AuditSignal :=
  let pathRef := if contentContainsSecret found.path then str "path:<elided>" else str "path:" ++ found.path
  { actor := str "KnowledgeWriter"
    event := SECRET_SCAN_REJECTED_EVENT
    refs := [pathRef, str "kind:" ++ found.kind.getD SECRET_SCAN_KIND]
    payloadHash := PROBE_HASH
    beforeSummary := str "pre-commit scan"
    afterSummary := str "commit rejected"
    denialCode := none
    healthSignalClass := none }

section spec

variable {path : markdown_vault.Path}

theorem credentialPrefix_path (s : JsString) : CREDENTIAL_PREFIX (str "path:" ++ s) = CREDENTIAL_PREFIX s := by
  have hwall := @domain.credentialPrefix_wall (unit ':') (by decide) (str "path") s
  have hlead : CREDENTIAL_PREFIX (str "path") = false := by decide
  rwa [hlead, Bool.false_or] at hwall

theorem sensitiveKeyword_path (s : JsString) : SENSITIVE_KEYWORD (str "path:" ++ s) = SENSITIVE_KEYWORD s := by
  have hwall := @domain.sensitiveKeyword_wall (unit ':') (by decide) (by decide) (str "path") s
  have hlead : SENSITIVE_KEYWORD (str "path") = false := by decide
  rwa [hlead, Bool.false_or] at hwall

theorem urlUserinfo_path {s : JsString} (h : URL_USERINFO_CREDENTIAL (str "path:" ++ s) = true) : URL_USERINFO_CREDENTIAL s = true := by
  obtain ⟨a, u, p, b, hs, hu, hp, huser, hpass⟩ := domain.urlUserinfo_iff.mp h
  apply domain.urlUserinfo_iff.mpr
  rcases List.append_eq_append_iff.mp hs with ⟨a', -, hrest⟩ | ⟨w, hw, htail⟩
  · exact ⟨a', u, p, b, hrest, hu, hp, huser, hpass⟩
  · -- The slashes are no part of `path:`.
    cases w with
    | nil => exact ⟨[], u, p, b, by simpa using htail.symm, hu, hp, huser, hpass⟩
    | cons c w =>
      have hslash : unit '/' ∈ str "path:" := by
        rw [hw, ← (List.cons.inj htail).1]
        exact List.mem_append_right _ (List.mem_cons_self ..)
      exact absurd hslash (by decide)

theorem hasKeyword_path (s : JsString) : HasKeyword (str "path:" ++ s) ↔ HasKeyword s := by
  unfold HasKeyword
  rw [domain.stripMarkers_lead (by decide), domain.stripMarkers_lead (by decide), sensitiveKeyword_path, sensitiveKeyword_path,
    sensitiveKeyword_path]

/-- The audit of a rejection is safe for every path in which no sensitive keyword stands. -/
theorem buildSecretScanRejectionAudit_safe (h : ¬ HasKeyword path) :
    isRedactionSafe (buildSecretScanRejectionAudit ⟨path, some SECRET_SCAN_KIND⟩) = true := by
  have hfixed : ∀ field ∈ [str "KnowledgeWriter", SECRET_SCAN_REJECTED_EVENT, PROBE_HASH, str "pre-commit scan", str "commit rejected",
      str "path:<elided>", str "kind:" ++ SECRET_SCAN_KIND], looksUnsafe field = false := by decide +kernel
  have hpath : looksUnsafe (if contentContainsSecret path then str "path:<elided>" else str "path:" ++ path) = false := by
    split
    · exact hfixed _ (by decide)
    · next hshape =>
      rw [← Bool.not_eq_true, looksUnsafe_iff]
      simp only [contentContainsSecret, CONTENT_CREDENTIAL_NETS, List.any_cons, List.any_nil, Bool.or_false, Bool.or_eq_true,
        not_or] at hshape
      rintro (hnet | hurl | hkeyword)
      · exact hshape.1 (credentialPrefix_path path ▸ hnet)
      · exact hshape.2 (urlUserinfo_path hurl)
      · exact h ((hasKeyword_path path).mp hkeyword)
  unfold isRedactionSafe
  rw [List.all_eq_true]
  intro field hfield
  simp only [policy.scanned, buildSecretScanRejectionAudit, List.cons_append, List.nil_append, List.mem_cons, List.not_mem_nil,
    or_false] at hfield
  have hsafe : looksUnsafe field = false := by
    rcases hfield with rfl | rfl | rfl | rfl | rfl | rfl | rfl
    · exact hfixed _ (by decide)
    · exact hfixed _ (by decide)
    · exact hfixed _ (by decide)
    · exact hfixed _ (by decide)
    · exact hfixed _ (by decide)
    · exact hpath
    · exact hfixed _ (by decide)
  rw [hsafe]
  rfl

end spec

end sow.knowledge_writer
