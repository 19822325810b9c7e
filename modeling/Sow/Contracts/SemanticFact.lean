import Mathlib.Data.Rat.Defs
import Sow.Js.String

open sow.js

namespace sow.contracts

/-- Not one of the characters at which `.` stops. -/
def isDot (c : UInt16) : Bool := c ≠ 0x0A && c ≠ 0x0D && c ≠ 0x2028 && c ≠ 0x2029

/-- `.+:.+`, on a text without line terminators. -/
def hasInnerColon (s : JsString) : Bool :=
  (List.range s.length).any fun j => 1 ≤ j && j + 1 < s.length && startsWith (s.drop j) (str ":")

/-- `.+->.+:.+`, on a text without line terminators. -/
def hasInnerArrow (s : JsString) : Bool :=
  (List.range s.length).any fun i => 1 ≤ i && startsWith (s.drop i) (str "->") && hasInnerColon (s.drop (i + 2))

/-- `/^(?:page:.+|link:.+->.+:.+|timeline:.+:.+|tag:.+:.+)$/` -/
def isFactIdentity (s : JsString) : Bool :=
  s.all isDot &&
    ((stripLit (str "page:") s).any (0 < ·.length) || (stripLit (str "link:") s).any hasInnerArrow ||
      (stripLit (str "timeline:") s).any hasInnerColon || (stripLit (str "tag:") s).any hasInnerColon)

def isLowerHex (c : UInt16) : Bool := (48 ≤ c.toNat && c.toNat ≤ 57) || (97 ≤ c.toNat && c.toNat ≤ 102)

/-- `/^[0-9a-f]{64}$/` -/
def isMdContentSha (s : JsString) : Bool := s.length = 64 && s.all isLowerHex

def isSlugChar (c : UInt16) : Bool := (48 ≤ c.toNat && c.toNat ≤ 57) || (97 ≤ c.toNat && c.toNat ≤ 122)

/-- `/^[a-z0-9]([a-z0-9-]*[a-z0-9])?$/`, of at most 64 characters. -/
def isWorkspaceId (s : JsString) : Bool :=
  1 ≤ s.length && s.length ≤ 64 && s.head?.any isSlugChar && s.getLast?.any isSlugChar &&
    s.all fun c => isSlugChar c || c = unit '-'

/-- A brand of the generic factory: not empty, and not blank. -/
def isBrandedId (s : JsString) : Bool := 0 < (trim s).length

inductive FactKind where
  | page
  | link
  | timeline
  | tag
  deriving DecidableEq

inductive FactProvenanceOrigin where
  | markdown
  | frontmatter
  deriving DecidableEq

inductive GbrainLinkSource where
  | markdown
  | frontmatter
  deriving DecidableEq

structure SemanticFact where
  factIdentity : JsString
  factKind : FactKind
  workspaceId : JsString
  mdContentSha : JsString
  revisionId : JsString
  deriving DecidableEq

structure FactProvenance where
  origin : FactProvenanceOrigin
  kwRevision : JsString
  originPath : JsString
  mdContentSha : JsString
  gbrainLinkSource : Option GbrainLinkSource
  deriving DecidableEq

def FACT_KIND_IDENTITY_PREFIX : FactKind → JsString
  | .page => str "page:"
  | .link => str "link:"
  | .timeline => str "timeline:"
  | .tag => str "tag:"

/-- `SemanticFactSchema` accepts the fact. -/
def isSemanticFact (fact : SemanticFact) : Bool :=
  isFactIdentity fact.factIdentity && isWorkspaceId fact.workspaceId && isMdContentSha fact.mdContentSha &&
    isBrandedId fact.revisionId && startsWith fact.factIdentity (FACT_KIND_IDENTITY_PREFIX fact.factKind)

/-- `FactProvenanceSchema` accepts the provenance. -/
def isFactProvenance (provenance : FactProvenance) : Bool :=
  isBrandedId provenance.kwRevision && 0 < provenance.originPath.length && isMdContentSha provenance.mdContentSha

inductive DivergenceClass where
  | db_only
  | unstamped
  | content_mismatch
  | md_only
  | edge_db_only
  | edge_md_only
  | stale_revision
  deriving DecidableEq

inductive SeverityFloor where
  | hard
  | soft
  deriving DecidableEq

inductive Remediation where
  | resync
  | materialize
  | purge
  | review
  deriving DecidableEq

/-- One fact on which the Markdown and the database disagree. -/
structure Divergence where
  factIdentity : JsString
  divergenceClass : DivergenceClass
  severityFloor : SeverityFloor
  mdContentSha : Option JsString
  dbContentHash : Option JsString
  remediation : Remediation
  deriving DecidableEq

/-- `DivergenceSchema` accepts the divergence. -/
def isDivergence (d : Divergence) : Bool :=
  isFactIdentity d.factIdentity && d.mdContentSha.all isMdContentSha && d.dbContentHash.all (0 < ·.length) &&
    (!(d.divergenceClass = .db_only || d.divergenceClass = .unstamped) || d.severityFloor = .hard)

structure ParityReport where
  reportId : JsString
  workspaceId : JsString
  reconciledAtRevision : JsString
  gbrainSchemaVersion : ℚ
  canonicalFactCount : Nat
  dbFactCount : Nat
  oracleFactCount : Option Nat
  divergences : List Divergence
  cleanForServing : Bool
  coverageComplete : Bool
  deriving DecidableEq

/-- `ParityReportSchema` accepts the report. -/
def isParityReport (r : ParityReport) : Bool :=
  isBrandedId r.reportId && isWorkspaceId r.workspaceId && isBrandedId r.reconciledAtRevision && r.divergences.all isDivergence &&
    (!r.cleanForServing || !r.divergences.any (·.severityFloor = .hard))

end sow.contracts
