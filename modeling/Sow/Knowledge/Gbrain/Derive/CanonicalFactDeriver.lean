import Sow.Contracts.SemanticFact
import Sow.Js.Case
import Sow.Js.Number
import Sow.Js.Regex
import Sow.Js.Sort
import Sow.Knowledge.KnowledgeWriter.Frontmatter
import Sow.Knowledge.KnowledgeWriter.Revision

open sow.js sow.markdown_vault sow.contracts
open sow.knowledge_writer (Sha256 ParsedNote KW_STAMP_FRONTMATTER_KEY RevisionId VaultSnapshot)

namespace sow.gbrain

def NUL : JsString := [0]

def isBracket (c : UInt16) : Bool := c == unit '[' || c == unit ']'

/-- The anchored matcher of `WIKILINK_RE`; its group stops at the first bracket. -/
def wikilinkAt (s : JsString) : Option (Nat × JsString) := do
  let rest ← stripLit (str "[[") s
  let target := rest.takeWhile fun c => !isBracket c
  let _ ← stripLit (str "]]") (rest.dropWhile fun c => !isBracket c)
  if target = [] then none else some (target.length + 4, target)

/-- `/\[\[([^[\]]+)\]\]/g` -/
def WIKILINK_RE : Regex JsString := ⟨wikilinkAt⟩

def FM_FENCE : JsString := str "---"

def isBlank (c : UInt16) : Bool := c == unit ' ' || c == unit '\t'

/-- Each line without its trailing blanks, and no empty lines at either end. -/
def normalizeText (text : JsString) : JsString :=
  let lines := (split (unit '\n') text).map fun l => l.rdropWhile isBlank
  join (str "\n") ((lines.dropWhile (· = [])).rdropWhile (· = []))

/-- The deriver's own copy of the writer's note format. -/
def parseNote (content : JsString) : ParsedNote :=
  if startsWith content (FM_FENCE ++ str "\n") then
    match indexOfFrom (str "\n" ++ FM_FENCE ++ str "\n") content FM_FENCE.length with
    | none => ⟨.empty, content⟩
    | some closeIdx =>
      let block := slice content (FM_FENCE.length + 1) closeIdx
      let frontmatter := (split (unit '\n') block).foldl (fun (fm : Map JsString JsString) line =>
        match indexOf (str ":") line with
        | none => fm
        | some sep => fm.set (trim (slice line 0 sep)) (trim (line.drop (sep + 1)))) .empty
      ⟨frontmatter, content.drop (closeIdx + FM_FENCE.length + 2)⟩
  else ⟨.empty, content⟩

/-- Last path segment with a trailing `.md` stripped. -/
def basenameSlug (path : Path) : JsString :=
  let base := (split (unit '/') path).getLast?.getD []
  if endsWith (base.map foldCase) (str ".md") then base.take (base.length - 3) else base

/-- All distinct wikilink targets in a text, in first-seen order. -/
def wikilinkTargets (text : JsString) : List JsString :=
  (((WIKILINK_RE.matchAll text).map fun m => trim m.groups).filter (· ≠ [])).eraseDups

structure PageProvenance where
  slug : JsString
  pageIdentity : JsString
  pageSha : JsString
  deriving DecidableEq

/-- The identity of a page fact. -/
def factIdentityPage (slug : JsString) : JsString := str "page:" ++ slug

/-- The entries of the frontmatter that are plain page metadata. -/
def isScalarMeta (entry : JsString × JsString) : Bool :=
  entry.1 ≠ str "slug" && entry.1 ≠ str "tags" && entry.1 ≠ KW_STAMP_FRONTMATTER_KEY &&
    (wikilinkTargets entry.2).length = 0

def scalarMeta (frontmatter : Map JsString JsString) : List (JsString × JsString) :=
  frontmatter.entries.filter isScalarMeta

def pageSlug (path : Path) (frontmatter : Map JsString JsString) : JsString :=
  match frontmatter.get (str "slug") with
  | some fmSlug => if fmSlug.length > 0 then fmSlug else basenameSlug path
  | none => basenameSlug path

def computePageProvenance (sha256 : Sha256) (path : Path) (content : JsString) : Option PageProvenance :=
  let note := parseNote content
  let slug := pageSlug path note.frontmatter
  if slug.length = 0 then none
  else
    let metaPreimage := join (str "\n")
      ((sortBy Prod.fst (scalarMeta note.frontmatter)).map fun e => e.1 ++ str "=" ++ e.2)
    let pageSha := sha256.text (str "page" ++ NUL ++ slug ++ NUL ++ normalizeText note.body ++ NUL ++ metaPreimage)
    some ⟨slug, factIdentityPage slug, pageSha⟩

/-- The deriver and the writer agree on where frontmatter ends and body begins. -/
theorem parseNote_eq (content : JsString) : parseNote content = knowledge_writer.parseNote content := by
  have hline : ∀ (fm : Map JsString JsString) (line : JsString),
      (match indexOf (str ":") line with
        | none => fm
        | some sep => fm.set (trim (slice line 0 sep)) (trim (line.drop (sep + 1)))) =
      knowledge_writer.setLine fm line := by
    intro fm line
    rw [knowledge_writer.setLine, knowledge_writer.parseLine]
    cases indexOf (str ":") line <;> rfl
  simp only [parseNote, knowledge_writer.parseNote, knowledge_writer.parseLines, hline]
  rfl

/-- Committed Markdown at a pinned revision. -/
structure CanonicalVaultSnapshot where
  workspaceId : JsString
  revisionId : RevisionId
  files : VaultSnapshot

/-- A fact with where it came from. -/
structure DerivedFact where
  fact : SemanticFact
  provenance : FactProvenance
  deriving DecidableEq

inductive DeriveError where
  | duplicate_fact_identity (factIdentity : JsString) (paths : List Path)
  | invalid_page_path (path : Path)
  | schema_invalid (factIdentity : JsString)
  deriving DecidableEq

def DeriveError.code : DeriveError → JsString
  | .duplicate_fact_identity _ _ => str "duplicate_fact_identity"
  | .invalid_page_path _ => str "invalid_page_path"
  | .schema_invalid _ => str "schema_invalid"

/-- One to six `#` and a blank: the rest of a heading, from that blank on. -/
def headingRest (line : JsString) : Option JsString :=
  let level := (line.takeWhile (· = unit '#')).length
  let rest := line.drop level
  if 1 ≤ level && level ≤ 6 && rest.head?.any isSpace then some rest else none

/-- `/^#{1,6}\s/` -/
def isHeading (line : JsString) : Bool := (headingRest line).isSome

def isWordChar (c : UInt16) : Bool :=
  (48 ≤ c.toNat && c.toNat ≤ 57) || (65 ≤ c.toNat && c.toNat ≤ 90) || (97 ≤ c.toNat && c.toNat ≤ 122) || c = unit '_'

/-- `/^#{1,6}\s+timeline\b/i` -/
def isTimelineHeading (line : JsString) : Bool :=
  ((headingRest line).bind fun rest => stripLitAscii (str "timeline") (rest.dropWhile isSpace)).any fun after =>
    !after.head?.any isWordChar

/-- The group of `/^\s*[-*]\s+(.*)$/`. -/
def listItem (line : JsString) : Option JsString :=
  match line.dropWhile isSpace with
  | [] => none
  | bullet :: rest =>
    if (bullet = unit '-' || bullet = unit '*') && rest.head?.any isSpace then
      let item := rest.dropWhile isSpace
      if item.all isDot then some item else none
    else none

/-- The items of a section, up to the next heading. -/
def sectionItems (lines : List JsString) : List JsString :=
  (lines.takeWhile fun line => isTimelineHeading line || !isHeading line).filterMap fun line =>
    if isTimelineHeading line then none else (listItem line).map trim

/-- Ordered timeline entry texts under the first `Timeline` heading, if any. -/
def timelineEntries (body : JsString) : List JsString :=
  sectionItems ((split (unit '\n') body).dropWhile fun line => !isTimelineHeading line)

/-- The distinct tags of a `tags:` value, split on commas and blanks. -/
def parseTags (value : JsString) : List JsString :=
  ((value.splitOnP fun c => c = unit ',' || isSpace c).filterMap fun raw =>
    let t := trim ((stripLit (str "#") raw).getD raw)
    if t.length > 0 then some t else none).eraseDups

def factIdentityLink (src dst field : JsString) : JsString := str "link:" ++ src ++ str "->" ++ dst ++ str ":" ++ field

def factIdentityTimeline (page : JsString) (seq : Nat) : JsString := str "timeline:" ++ page ++ str ":" ++ decimal seq

def factIdentityTag (page tag : JsString) : JsString := str "tag:" ++ page ++ str ":" ++ tag

/-- A fact of a page before the schemas have seen it. -/
structure FactCandidate where
  identity : JsString
  path : Path
  fact : SemanticFact
  provenance : FactProvenance
  deriving DecidableEq

section derive

variable (sha256 : Sha256) (snapshot : CanonicalVaultSnapshot)

/-- A candidate of a page; its fact and its provenance carry one digest and one revision. -/
def candidateOf (path : Path) (identity : JsString) (kind : FactKind) (sha : JsString) (origin : FactProvenanceOrigin)
    (linkSource : Option GbrainLinkSource) : FactCandidate where
  identity := identity
  path := path
  fact := ⟨identity, kind, snapshot.workspaceId, sha, snapshot.revisionId⟩
  provenance := ⟨origin, snapshot.revisionId, path, sha, linkSource⟩

/-- The candidates of one page, in the order in which they are pushed. -/
def pageCandidates (path : Path) (content : JsString) (page : PageProvenance) : List FactCandidate :=
  let note := parseNote content
  let slug := page.slug
  let bodyLinks := (wikilinkTargets note.body).map fun dst =>
    candidateOf snapshot path (factIdentityLink slug dst (str "body")) .link
      (sha256.text (str "link" ++ NUL ++ slug ++ NUL ++ dst ++ NUL ++ str "body" ++ NUL ++ str "markdown")) .markdown (some .markdown)
  let frontmatterLinks := (note.frontmatter.entries.filter fun e =>
      e.1 ≠ str "slug" && e.1 ≠ str "tags" && e.1 ≠ KW_STAMP_FRONTMATTER_KEY).flatMap fun e =>
    (wikilinkTargets e.2).map fun dst =>
      candidateOf snapshot path (factIdentityLink slug dst e.1) .link
        (sha256.text (str "link" ++ NUL ++ slug ++ NUL ++ dst ++ NUL ++ e.1 ++ NUL ++ str "frontmatter")) .frontmatter (some .frontmatter)
  let tags := ((note.frontmatter.get (str "tags")).map parseTags).getD [] |>.map fun tag =>
    candidateOf snapshot path (factIdentityTag slug tag) .tag
      (sha256.text (str "tag" ++ NUL ++ slug ++ NUL ++ tag)) .frontmatter none
  let timeline := (timelineEntries note.body).zipIdx.map fun e =>
    candidateOf snapshot path (factIdentityTimeline slug e.2) .timeline
      (sha256.text (str "timeline" ++ NUL ++ slug ++ NUL ++ decimal e.2 ++ NUL ++ normalizeText e.1)) .markdown none
  candidateOf snapshot path page.pageIdentity .page page.pageSha .markdown none ::
    (bodyLinks ++ frontmatterLinks ++ tags ++ timeline)

/-- `/\.md$/iu.test(path)` -/
def isMarkdownPath (path : Path) : Bool := endsWith (path.map foldCase) (str ".md")

/-- The candidates of every page, by path; a page without a slug ends the derivation. -/
def collectCandidates : List Path → Except DeriveError (List FactCandidate)
  | [] => .ok []
  | path :: paths =>
    match snapshot.files.get path with
    | none => collectCandidates paths
    | some content =>
      if isMarkdownPath path then
        match computePageProvenance sha256 path content with
        | none => .error (.invalid_page_path path)
        | some page => (collectCandidates paths).map (pageCandidates sha256 snapshot path content page ++ ·)
      else collectCandidates paths

/-- Each identity once; two pages with one identity end the derivation. -/
def dedupe (byIdentity : Map JsString FactCandidate) : List FactCandidate → Except DeriveError (Map JsString FactCandidate)
  | [] => .ok byIdentity
  | c :: candidates =>
    match byIdentity.get c.identity with
    | none => dedupe (byIdentity.set c.identity c) candidates
    | some existing =>
      if existing.path = c.path then dedupe byIdentity candidates
      else .error (.duplicate_fact_identity c.identity (sort [existing.path, c.path]))

def validate (c : FactCandidate) : Except DeriveError DerivedFact :=
  if isSemanticFact c.fact && isFactProvenance c.provenance then .ok ⟨c.fact, c.provenance⟩
  else .error (.schema_invalid c.identity)

/-- The facts of a snapshot, ordered by identity. -/
def deriveCanonicalFacts : Except DeriveError (List DerivedFact) := do
  let candidates ← collectCandidates sha256 snapshot (sort snapshot.files.keys)
  let byIdentity ← dedupe .empty candidates
  (sortBy FactCandidate.identity (byIdentity.entries.map Prod.snd)).mapM validate

end derive

end sow.gbrain
