import Sow.Domain.BlankedMarkers
import Sow.Policy.Egress

open sow.js
open sow.domain (CREDENTIAL_PREFIX SENSITIVE_KEYWORD URL_USERINFO_CREDENTIAL SPAN_PRESERVING_FILLER LEGACY_SPACE_FILLER stripMarkers)

namespace sow.policy

/-- The nets are copies of the domain's own. -/
def looksUnsafe (s : JsString) : Bool :=
  domain.looksUnsafe s || CREDENTIAL_PREFIX s || SENSITIVE_KEYWORD s || URL_USERINFO_CREDENTIAL s

/-- The fields that are scanned; codes and classes are not. -/
def scanned (signal : AuditSignal) : List JsString :=
  [signal.actor, signal.event, signal.payloadHash, signal.beforeSummary, signal.afterSummary] ++ signal.refs

def isRedactionSafe (signal : AuditSignal) : Bool := (scanned signal).all fun field => !looksUnsafe field

/-- A sensitive keyword stands in the text, as it is or with its redaction markers blanked. -/
def HasKeyword (s : JsString) : Prop :=
  SENSITIVE_KEYWORD s = true ∨ SENSITIVE_KEYWORD (stripMarkers s SPAN_PRESERVING_FILLER) = true ∨
    SENSITIVE_KEYWORD (stripMarkers s LEGACY_SPACE_FILLER) = true

instance (s : JsString) : Decidable (HasKeyword s) := inferInstanceAs (Decidable (_ ∨ _ ∨ _))

/-- Blanking the markers matters to the keywords only. -/
theorem looksUnsafe_iff {s : JsString} :
    looksUnsafe s = true ↔ CREDENTIAL_PREFIX s = true ∨ URL_USERINFO_CREDENTIAL s = true ∨ HasKeyword s := by
  have hprefix : CREDENTIAL_PREFIX (stripMarkers s SPAN_PRESERVING_FILLER) = true ∨
      CREDENTIAL_PREFIX (stripMarkers s LEGACY_SPACE_FILLER) = true → CREDENTIAL_PREFIX s = true := by
    rintro (h | h)
    · exact domain.credentialPrefix_of_stripped (by decide) h
    · exact domain.credentialPrefix_of_stripped (by decide) h
  have hurl : URL_USERINFO_CREDENTIAL (stripMarkers s SPAN_PRESERVING_FILLER) = true ∨
      URL_USERINFO_CREDENTIAL (stripMarkers s LEGACY_SPACE_FILLER) = true → URL_USERINFO_CREDENTIAL s = true := by
    rintro (h | h)
    · exact domain.urlUserinfo_of_stripped (by decide) h
    · exact domain.urlUserinfo_of_stripped (by decide) h
  simp only [looksUnsafe, domain.looksUnsafe, domain.CREDENTIAL_NETS, List.any_cons, List.any_nil, Bool.or_false, Bool.or_eq_true,
    HasKeyword]
  tauto

end sow.policy
