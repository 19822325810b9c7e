import Sow.Workflows.Activities.Projections.NoteSlug

open sow.js sow.markdown_vault

namespace sow.workflows

def TBD : Json := .str (str "TBD")

/-- What the projections read of a validated field. -/
structure ExtractionField where
  value : Json

abbrev ExtractionFields : Type := Map JsString ExtractionField

def isTbd : Json → Bool
  | .str s => s = str "TBD"
  | _ => false

/-- The field carries a value to stamp. -/
def isConcrete (field : Option ExtractionField) : Bool := field.any fun f => !isTbd f.value

def frontmatterValue : Option ExtractionField → Json
  | none => TBD
  | some f => f.value

/-- A note as a projection drafts it; the schema of the plan checks it later. -/
structure NoteDraft where
  path : Path
  title : JsString
  body : JsString
  frontmatter : List (JsString × Json)

/-- A first write drafts a note, a later one a patch of its region. -/
inductive ProjectNoteMutation where
  | create (note : NoteDraft)
  | patch (path : Path) (regionId newBody : JsString)

def ProjectNoteMutation.path : ProjectNoteMutation → Path
  | .create note => note.path
  | .patch path _ _ => path

inductive BuildOutputsFailureCode where
  | unmappable_extraction
  | build_failed
  deriving DecidableEq

structure BuildOutputsFailure where
  code : BuildOutputsFailureCode
  message : JsString
  deriving DecidableEq

def NOTE_FRONTMATTER_FIELDS : List JsString := [str "title", str "attendees", str "decisions", str "owner", str "dueDate"]

def TITLE_FIELD : JsString := str "title"

/-- A list as one bullet a line; anything else as text. -/
def render : Json → JsString
  | .arr items => join (str "\n") (items.map fun v => str "- " ++ toText v)
  | v => toText v

def composeMeetingRegionBody (fields : ExtractionFields) : JsString :=
  neutralizeRegionMarkers (join (str "\n") [
    str "# " ++ toText (frontmatterValue (fields.get TITLE_FIELD)),
    [],
    str "## Attendees",
    render (frontmatterValue (fields.get (str "attendees"))),
    [],
    str "## Decisions",
    render (frontmatterValue (fields.get (str "decisions"))),
    []])

section projection

variable (tables : SlugTables) (fields : ExtractionFields) (workspaceId : JsString)

def meetingFrontmatter : List (JsString × Json) :=
  NOTE_FRONTMATTER_FIELDS.map fun name => (name, neutralizeFrontmatterValue (frontmatterValue (fields.get name)))

/-- The title as the frontmatter has it. -/
def meetingTitle : JsString := toText (neutralizeFrontmatterValue (frontmatterValue (fields.get TITLE_FIELD)))

/-- The note of a meeting, as `meetingOutputsProjection` derives it. -/
def projectMeetingNote (noteExists : Bool) : Except BuildOutputsFailure ProjectNoteMutation :=
  if !isConcrete (fields.get TITLE_FIELD) then
    .error ⟨.unmappable_extraction,
      str "meeting.close projection: no concrete `title` field to anchor the meeting note (fail-closed, never a guessed note)"⟩
  else
    match meetingNotePath tables workspaceId (meetingTitle fields) with
    | none => .error ⟨.unmappable_extraction,
        str "meeting.close projection: `title` has no path-safe characters to anchor the note filename (fail-closed, never a traversal-shaped path)"⟩
    | some path =>
      let regionBody := composeMeetingRegionBody fields
      .ok (if noteExists then .patch path MEETING_OUTPUTS_REGION regionBody
        else .create ⟨path, meetingTitle fields, composeMeetingNote regionBody, meetingFrontmatter fields⟩)

/-- The path that the build probes for an existing note. -/
def probedNotePath : Option Path :=
  if isConcrete (fields.get TITLE_FIELD) then
    meetingNotePath tables workspaceId (toText (frontmatterValue (fields.get TITLE_FIELD)))
  else none

end projection

mutual

/-- Neutralizing a value puts backslashes into its text, and does nothing else to it. -/
theorem escapes_toText (p : Bool) (v : Json) : Escapes p (toText v) (toText (neutralizeFrontmatterValue v)) := by
  cases v with
  | null => exact .refl _ _
  | bool b => exact .refl _ _
  | num text => exact .refl _ _
  | obj fields => exact .refl _ _
  | str s =>
    simp only [neutralizeFrontmatterValue, toText]
    exact escapes_neutralizeRegionMarkers p s
  | arr items =>
    simp only [neutralizeFrontmatterValue, toText]
    exact escapes_joinItems p items

theorem escapes_joinItems (p : Bool) (items : List Json) : Escapes p (joinItems items) (joinItems (neutralizeItems items)) := by
  match items with
  | [] => exact .refl _ _
  | [v] =>
    simp only [neutralizeItems, joinItems]
    exact escapes_itemText p v
  | v :: w :: rest =>
    have hrest := fun q => escapes_joinItems q (w :: rest)
    simp only [neutralizeItems, joinItems] at hrest ⊢
    exact ((escapes_itemText p v).append fun q => .refl q _).append hrest

theorem escapes_itemText (p : Bool) (v : Json) : Escapes p (itemText v) (itemText (neutralizeFrontmatterValue v)) := by
  cases v with
  | null => exact .refl _ _
  | bool b => exact .refl _ _
  | num text => exact .refl _ _
  | obj fields => exact .refl _ _
  | str s =>
    simp only [neutralizeFrontmatterValue, itemText]
    exact escapes_neutralizeRegionMarkers p s
  | arr items =>
    simp only [neutralizeFrontmatterValue, itemText]
    exact escapes_joinItems p items

end

section spec

variable {tables : SlugTables} {fields : ExtractionFields} {workspaceId : JsString} {noteExists : Bool} {mutation : ProjectNoteMutation}

/-- Marker text in a title does not change where its note is. -/
theorem meetingNotePath_meetingTitle :
    meetingNotePath tables workspaceId (meetingTitle fields) =
      meetingNotePath tables workspaceId (toText (frontmatterValue (fields.get TITLE_FIELD))) := by
  unfold meetingNotePath workspaceNotePath meetingTitle
  rw [safeNoteSlug_escapes (escapes_toText false _)]

/-- The note that is built is at the path that was probed. -/
theorem probedNotePath_of_ok (h : projectMeetingNote tables fields workspaceId noteExists = .ok mutation) :
    probedNotePath tables fields workspaceId = some mutation.path := by
  unfold projectMeetingNote at h
  split at h
  · cases h
  · next hconcrete =>
    split at h
    · cases h
    · next path hpath =>
      have hmutation : mutation.path = path := by
        rw [← Except.ok.inj h]
        cases noteExists <;> rfl
      unfold probedNotePath
      rw [if_pos (by simpa using hconcrete), ← meetingNotePath_meetingTitle, hpath, hmutation]

end spec

end sow.workflows
