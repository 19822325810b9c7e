import Sow.Js.Case
import Sow.Js.Sort
import Sow.Js.Value
import Sow.Knowledge.KnowledgeWriter.WorkspacePathGuard
import Sow.Knowledge.MarkdownVault.Sections
import Sow.Workflows.Activities.Projections.NoteSlug

open sow.js sow.markdown_vault
open sow.workflows (SlugTables hyphenate isHyphen slash_not_mem_hyphenate)
open sow.knowledge_writer (NoteCreate hasNoTraversalSegments isStructuralSurface LinkMutation)

namespace sow.synthesis

/-- What the match keys read of Unicode. -/
structure MatchTables where
  slugs : SlugTables
  cases : CaseTables
  nfc : JsString → JsString

section keys

variable (tables : MatchTables)

/-- An em or en dash becomes a hyphen. -/
def foldDash (c : UInt16) : UInt16 := if c.toNat = 0x2013 || c.toNat = 0x2014 then unit '-' else c

/-- The key of a faithful match; blanks stay blanks. -/
def faithfulKey (raw : JsString) : JsString := tables.cases.toLowerCase (trim ((tables.nfc raw).map foldDash))

/-- A slug under which different names may collide. -/
def entitySlug (raw : JsString) : JsString :=
  let joined := ((hyphenate tables.slugs (tables.slugs.nfkd raw)).dropWhile isHyphen).rdropWhile isHyphen
  ((tables.cases.toLowerCase joined).take 120).rdropWhile isHyphen

/-- The slug of a row, its title and its aliases. -/
def identifiers (slug : JsString) (row : Value) : Except Raised (List JsString) := do
  let title ← row.get (str "title")
  let aliases ← row.get (str "aliases")
  pure (slug :: title.text?.toList ++ (aliases.items?.getD []).filterMap Value.text?)

variable {tables}

theorem lowerAscii_eq_slash (c : UInt16) : lowerAscii c = unit '/' ↔ c = unit '/' := by
  unfold lowerAscii
  constructor
  · intro h
    split at h
    · next hcapital =>
      rw [Bool.and_eq_true, decide_eq_true_eq, decide_eq_true_eq] at hcapital
      have hsum := congrArg UInt16.toNat h
      rw [UInt16.toNat_add] at hsum
      change (c.toNat + 32) % 65536 = 47 at hsum
      omega
    · exact h
  · rintro rfl
    decide

/-- A slug is one segment of a path. -/
theorem slash_not_mem_entitySlug (raw : JsString) : unit '/' ∉ entitySlug tables raw := by
  intro h
  unfold entitySlug at h
  have hlower := List.mem_of_mem_take ((List.rdropWhile_prefix _ _).subset h)
  have hplain : CaseTables.IsPlain (unit '/') := by decide
  unfold CaseTables.toLowerCase at hlower
  rw [← List.count_pos_iff, tables.cases.count_lowerFrom hplain lowerAscii_eq_slash, List.count_pos_iff] at hlower
  exact slash_not_mem_hyphenate _ ((List.dropWhile_sublist _).subset ((List.rdropWhile_prefix _ _).subset hlower))

end keys

inductive GroundedPathRefusal where
  | structural_surface
  | unsafe_shape
  deriving DecidableEq

/-- A control character or a backslash. -/
def isControlOrBackslash (c : UInt16) : Bool := c.toNat < 32 || c.toNat = 127 || c = unit '\\'

/-- `/^[A-Za-z]:/` -/
def hasDriveLetter (path : JsString) : Bool :=
  (path.head?.any fun c => 97 ≤ (lowerAscii c).toNat && (lowerAscii c).toNat ≤ 122) && path[1]? = some (unit ':')

/-- A path that may be written to, as it is. -/
def admitGroundedPath (tables : CaseTables) (path : JsString) : Except GroundedPathRefusal JsString :=
  if path.length = 0 || 1024 < path.length || trim path ≠ path then .error .unsafe_shape
  else if path.any isControlOrBackslash then .error .unsafe_shape
  else if startsWith path (str "/") then .error .unsafe_shape
  else if hasDriveLetter path then .error .unsafe_shape
  else if !hasNoTraversalSegments path then .error .unsafe_shape
  else if !endsWith (tables.toLowerCase path) (str ".md") then .error .unsafe_shape
  else if isStructuralSurface tables path then .error .structural_surface
  else .ok path

/-- A reference to an entity; its kind is not trusted. -/
structure EntityRef where
  name : JsString
  kind : Option JsString

/-- A note that a reader has found. -/
structure EntityCandidate where
  path : JsString
  slug : JsString
  row : Value
  path_ne_nil : path ≠ []
  slug_ne_nil : slug ≠ []

structure EntityReadFault where
  code : JsString

/-- The reader of the notes of a workspace, as one call finds it. -/
structure EntityGbrainReadPort where
  workspaceId : JsString
  findCandidates : EntityRef → Except Raised (Except EntityReadFault Value)

inductive WithheldReason where
  | ambiguous
  | lossy_match
  | gbrain_unavailable
  | malformed_entity
  | ws_scope_mismatch
  | refused (refusal : GroundedPathRefusal)
  deriving DecidableEq

inductive EntityResolution where
  | resolved (path : JsString)
  | create_stub (proposedSlug : JsString)
  | withheld (reason : WithheldReason)

def ENTITY_NAMESPACES : List (JsString × JsString) :=
  [(str "person", str "people/"), (str "project", str "projects/"), (str "concept", str "concepts/")]

def FALLBACK_NAMESPACE : JsString := str "entities/"

def entityNamespace (kind : Option JsString) : JsString := (ENTITY_NAMESPACES.lookup (kind.getD [])).getD FALLBACK_NAMESPACE

/-- Where the stub of an entity goes, if it has one. -/
def stubNotePathFor (resolution : EntityResolution) (kind : Option JsString) : Option Path :=
  match resolution with
  | .create_stub slug => if slug.length = 0 then none else some (entityNamespace kind ++ slug ++ str ".md")
  | _ => none

theorem stubNotePathFor_eq_some {resolution : EntityResolution} {kind : Option JsString} {path : Path} (h : stubNotePathFor resolution kind = some path) :
    ∃ slug, resolution = .create_stub slug ∧ slug ≠ [] ∧ path = entityNamespace kind ++ slug ++ str ".md" := by
  cases resolution with
  | create_stub slug =>
    unfold stubNotePathFor at h
    dsimp only at h
    split_ifs at h with hslug
    exact ⟨slug, rfl, fun hnil => hslug (by rw [hnil]; rfl), (Option.some.inj h).symm⟩
  | resolved path => cases h
  | withheld reason => cases h

theorem stubNotePathFor_ne_nil {resolution : EntityResolution} {kind : Option JsString} {path : Path} (h : stubNotePathFor resolution kind = some path) :
    path ≠ [] := by
  obtain ⟨slug, -, -, rfl⟩ := stubNotePathFor_eq_some h
  exact List.append_ne_nil_of_right_ne_nil _ (by decide)

/-- The note of a stub. -/
def mintEntityStub (resolution : EntityResolution) (kind : Option JsString) : Option NoteCreate :=
  (stubNotePathFor resolution kind).pmap
    (fun path hpath => ⟨path, none, renderGeneratedRegion (str "stub") [], none, hpath, nofun⟩)
    fun _ hpath => stubNotePathFor_ne_nil hpath

theorem mintEntityStub_eq_some {resolution : EntityResolution} {kind : Option JsString} {stub : NoteCreate} (h : mintEntityStub resolution kind = some stub) :
    stubNotePathFor resolution kind = some stub.path := by
  unfold mintEntityStub at h
  rw [Option.pmap_eq_some_iff] at h
  obtain ⟨path, hpath, hstub, rfl⟩ := h
  exact hstub

/-- A row of the workspace with a path and a slug. -/
def readCandidate (workspaceId : JsString) (row : Value) : Except Raised (Option EntityCandidate) := do
  if row.isNullish then return none
  match (← row.get (str "path")).nonEmpty? with
  | none => pure none
  | some path =>
    match (← row.get (str "slug")).nonEmpty? with
    | none => pure none
    | some slug =>
      let owner ← row.get (str "workspaceId")
      pure (if owner.text? = some workspaceId then some ⟨path.1, slug.1, row, Value.nonEmpty_ne_nil path, Value.nonEmpty_ne_nil slug⟩ else none)

/-- The candidates, each with its identifiers. -/
def identified (candidates : List EntityCandidate) : Except Raised (List (EntityCandidate × List JsString)) :=
  candidates.mapM fun c => do pure (c, ← identifiers c.slug c.row)

section resolver

variable (tables : MatchTables)

/-- The candidates that a key is an identifier of. -/
def faithfulMatches (key : JsString) (named : List (EntityCandidate × List JsString)) : List EntityCandidate :=
  (named.filter fun e => e.2.any fun id => faithfulKey tables id = key).map Prod.fst

/-- A candidate has an identifier with this slug. -/
def collides (slug : JsString) (named : List (EntityCandidate × List JsString)) : Bool :=
  named.any fun e => e.2.any fun id => entitySlug tables id = slug

def matchCandidates (proposedSlug key : JsString) (named : List (EntityCandidate × List JsString)) : EntityResolution :=
  match unique ((faithfulMatches tables key named).map (·.path)) with
  | [path] =>
    match admitGroundedPath tables.cases path with
    | .ok path => .resolved path
    | .error refusal => .withheld (.refused refusal)
  | _ :: _ :: _ => .withheld .ambiguous
  | [] => if collides tables proposedSlug named then .withheld .lossy_match else .create_stub proposedSlug

/-- The answer of the reader is matched; what is thrown is caught by the caller. -/
def readEntity (entityRef : EntityRef) (workspaceId : JsString) (gbrain : EntityGbrainReadPort) : Except Raised EntityResolution := do
  match ← gbrain.findCandidates entityRef with
  | .error _ => pure (.withheld .gbrain_unavailable)
  | .ok value =>
    match value.items? with
    | none => pure (.withheld .gbrain_unavailable)
    | some rows =>
      let valid ← rows.mapM (readCandidate workspaceId)
      pure (matchCandidates tables (entitySlug tables entityRef.name) (faithfulKey tables entityRef.name) (← identified valid.reduceOption))

def resolveEntity (entityRef : EntityRef) (workspaceId : JsString) (gbrain : EntityGbrainReadPort) : EntityResolution :=
  if gbrain.workspaceId ≠ workspaceId then .withheld .ws_scope_mismatch
  else if entitySlug tables entityRef.name = [] || faithfulKey tables entityRef.name = [] then .withheld .malformed_entity
  else
    match readEntity tables entityRef workspaceId gbrain with
    | .ok resolution => resolution
    | .error _ => .withheld .gbrain_unavailable

end resolver

inductive LinkWithheldReason where
  | ambiguous
  | lossy_match
  | no_candidate
  | malformed_ref
  deriving DecidableEq

inductive LinkHeal where
  | healed (mutation : LinkMutation)
  | withheld (ref : JsString) (reason : LinkWithheldReason)

/-- The title of a reference, if it has one that can be read. -/
def readTitle (r : Value) : Option JsString :=
  if r.isNullish then none else ((r.get (str "title")).toOption.bind Value.text?)

/-- A row that cannot be read is none. -/
def safeCandidate (workspaceId : JsString) (row : Value) : Option EntityCandidate := (readCandidate workspaceId row).toOption.join

section healer

variable (tables : MatchTables)

/-- The slug that a title stands for, if it is faithful to one only. -/
def healTarget (valid : List EntityCandidate) (title : JsString) : Except Raised (Except LinkWithheldReason { slug : JsString // slug ≠ [] }) := do
  let key := faithfulKey tables title
  if key = [] then return .error .malformed_ref
  let named ← identified valid
  let matching := faithfulMatches tables key named
  match unique (matching.map fun c => (⟨c.slug, c.slug_ne_nil⟩ : { slug : JsString // slug ≠ [] })) with
  | [slug] => pure (.ok slug)
  | _ :: _ :: _ => pure (.error .ambiguous)
  | [] =>
    let refSlug := entitySlug tables title
    pure (.error (if refSlug ≠ [] && collides tables refSlug named then .lossy_match else .no_candidate))

/-- Each slug is linked to once; a reference that fails is skipped. -/
def healRefs (srcPath : { path : Path // path ≠ [] }) (valid : List EntityCandidate) : List Value → List JsString → List LinkHeal
  | [], _ => []
  | r :: refs, emitted =>
    match readTitle r with
    | none => healRefs srcPath valid refs emitted
    | some title =>
      match healTarget tables valid title with
      | .error _ => healRefs srcPath valid refs emitted
      | .ok (.error reason) => .withheld title reason :: healRefs srcPath valid refs emitted
      | .ok (.ok slug) =>
        if slug.1 ∈ emitted then healRefs srcPath valid refs emitted
        else .healed ⟨.add, srcPath.1, slug.1, srcPath.2, slug.2⟩ :: healRefs srcPath valid refs (slug.1 :: emitted)

def healLinks (srcPath : { path : Path // path ≠ [] }) (refs candidates : List Value) (workspaceId : JsString) : List LinkHeal :=
  healRefs tables srcPath (candidates.filterMap (safeCandidate workspaceId)) refs []

end healer

end sow.synthesis
