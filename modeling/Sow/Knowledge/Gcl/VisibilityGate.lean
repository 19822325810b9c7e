import Sow.Contracts.GclProjection
import Sow.Policy.Visibility

open sow.js sow.contracts sow.policy

namespace sow.knowledge.gcl

/-- Why a candidate is not admitted; the issues that the two schemas raise, and the audits, are left out. -/
inductive GclGateError where
  | ajv_rejected
  | zod_rejected
  | visibility_exceeds_source (declaredLevel sourceDefault : VisibilityLevel) (message : JsString)
  | visibility_type_mismatch (declaredLevel : VisibilityLevel) (message : JsString)
  | malformed_policy_input (message : JsString)

def denialToGateError (reason : DenialReason) (message : JsString) (projection : GclProjection) (sourceWorkspace : Workspace) : GclGateError :=
  match reason with
  | .VISIBILITY_EXCEEDS_SOURCE => .visibility_exceeds_source projection.visibilityLevel sourceWorkspace.defaultVisibility message
  | .VISIBILITY_TYPE_MISMATCH => .visibility_type_mismatch projection.visibilityLevel message
  | _ => .malformed_policy_input message

/-- `ajv` is whether the structural stage passes the candidate. -/
def admitProjection (tables : CaseTables) (ajv : Json → Bool) (candidate : Json) (sourceWorkspace : Workspace)
    (taxonomy : ProjectionTypeVisibilityTaxonomy) : Except GclGateError GclProjection :=
  if !ajv candidate then .error .ajv_rejected
  else
    match parseGclProjection tables candidate with
    | none => .error .zod_rejected
    | some projection =>
      match validateProjectionVisibility projection sourceWorkspace taxonomy with
      | .deny reason message _ => .error (denialToGateError reason message projection sourceWorkspace)
      | .allow value _ => .ok value

section spec

def refStrings (ref : GclSourceRef) : List JsString := ref.sourceId :: ref.span.toList

/-- Every string of a projection that another workspace can read. -/
def readableStrings (p : GclProjection) : List JsString :=
  fieldStrings p.sanitizedPayload ++ (fieldKeys p.sanitizedPayload ++ ([p.projectionType] ++ p.sourceRefs.flatMap refStrings))

/-- Two objects with the same own properties. -/
def SameProperties (fields fields' : List (JsString × Json)) : Prop := ∀ key, ownProperty fields key = ownProperty fields' key

/-- The reference is what the value says. -/
def SameRef (ref : GclSourceRef) (v : Json) : Prop :=
  ∃ fields, v = .obj fields ∧ SameProperties fields ((str "sourceId", .str ref.sourceId) :: ref.span.toList.map fun s => (str "span", .str s))

/-- The projection is what the candidate says, and all that it says. -/
structure SameProjection (p : GclProjection) (fields payload : List (JsString × Json)) (refs : List Json) : Prop where
  keys : ∀ key, (ownProperty fields key).isSome = true → key ∈
    [str "workspaceId", str "visibilityLevel", str "projectionType", str "sanitizedPayload", str "sourceRefs"]
  workspaceId : ownProperty fields (str "workspaceId") = some (.str p.workspaceId)
  visibilityLevel : ownProperty fields (str "visibilityLevel") = some (.str p.visibilityLevel.text)
  projectionType : ownProperty fields (str "projectionType") = some (.str p.projectionType)
  sanitizedPayload : ownProperty fields (str "sanitizedPayload") = some (.obj payload) ∧ SameProperties payload p.sanitizedPayload
  sourceRefs : ownProperty fields (str "sourceRefs") = some (.arr refs) ∧ List.Forall₂ SameRef p.sourceRefs refs

/-- An admitted projection carries nothing but summaries. -/
structure NoRawText (tables : CaseTables) (candidate : Json) (sourceWorkspace : Workspace) (p : GclProjection) : Prop where
  same : ∃ fields payload refs, candidate = .obj fields ∧ SameProjection p fields payload refs
  workspace : p.workspaceId = sourceWorkspace.id
  level : visibilityRank p.visibilityLevel ≤ visibilityRank sourceWorkspace.defaultVisibility
  strings : ∀ s ∈ readableStrings p, IsSummary s
  keys : ∀ key ∈ fieldKeys p.sanitizedPayload, tables.toLowerCase key ∉ RAW_CONTENT_SHAPED_KEYS

/-- The source ids and the spans of the references of a candidate. -/
def refsStrings : Json → List JsString
  | .arr refs => refs.flatMap fun
    | .obj ref => ((ownProperty ref (str "sourceId")).toList ++ (ownProperty ref (str "span")).toList).flatMap valueStrings
    | _ => []
  | _ => []

/-- The strings of a candidate that the scan does not measure. -/
def unscanned (fields : List (JsString × Json)) : List JsString :=
  ((ownProperty fields (str "sanitizedPayload")).map valueKeys).getD [] ++
    (((ownProperty fields (str "projectionType")).map valueStrings).getD [] ++
      ((ownProperty fields (str "sourceRefs")).map refsStrings).getD [])

/-- The unscanned strings are summaries, and the payload has no key that is lost. -/
def OnlySummaries : Json → Prop
  | .obj fields => (∀ s ∈ unscanned fields, IsSummary s) ∧
      ∀ payload, ownProperty fields (str "sanitizedPayload") = some (.obj payload) → ownProperty payload (str "__proto__") = none
  | _ => True

theorem ownProperty_none_of_strict {shape : List JsString} {fields : List (JsString × Json)} (h : isStrict shape fields = true) {key : JsString}
    (hkey : key ∉ shape) : ownProperty fields key = none := by
  unfold ownProperty
  rw [Option.map_eq_none_iff, List.find?_eq_none]
  intro f hf heq
  have hmem := List.all_eq_true.mp h f hf
  rw [List.contains_iff_mem, of_decide_eq_true heq] at hmem
  exact hkey hmem

theorem nonEmptyText_eq_some {v : Json} {s : JsString} (h : nonEmptyText v = some s) : v = .str s := by
  cases v with
  | str t =>
    simp only [nonEmptyText] at h
    split at h
    · cases h
    · rw [Option.some.inj h]
  | _ => cases h

theorem brandedText_eq_some {v : Json} {s : JsString} (h : brandedText v = some s) : v = .str s := by
  cases v with
  | str t =>
    simp only [brandedText] at h
    split at h
    · rw [Option.some.inj h]
    · cases h
  | _ => cases h

theorem parseWorkspaceId_eq_some {v : Json} {s : JsString} (h : parseWorkspaceId v = some s) : v = .str s := by
  cases v with
  | str t =>
    simp only [parseWorkspaceId] at h
    split at h
    · rw [Option.some.inj h]
    · cases h
  | _ => cases h

theorem parseLevel_eq_some {v : Json} {level : VisibilityLevel} (h : parseLevel v = some level) : v = .str level.text := by
  cases v with
  | str t =>
    have htext : level.text = t := by simpa using List.find?_some h
    rw [htext]
  | _ => cases h

/-- A reference that passes its schema is what the value says. -/
theorem parseSourceRef_spec {v : Json} {ref : GclSourceRef} (h : parseSourceRef v = some ref) :
    ∃ fields, v = .obj fields ∧ isStrict [str "sourceId", str "span"] fields = true ∧
      ownProperty fields (str "sourceId") = some (.str ref.sourceId) ∧
        ownProperty fields (str "span") = ref.span.map .str := by
  cases v with
  | obj fields =>
    simp only [parseSourceRef] at h
    split at h
    · next hstrict =>
      refine ⟨fields, rfl, hstrict, ?_⟩
      cases hid : ownProperty fields (str "sourceId") with
      | none =>
        rw [hid] at h
        cases h
      | some idValue =>
        cases hbranded : brandedText idValue with
        | none =>
          rw [hid, Option.bind_some, hbranded] at h
          cases h
        | some sourceId =>
          rw [hid, Option.bind_some, hbranded] at h
          cases hspan : ownProperty fields (str "span") with
          | none =>
            rw [hspan] at h
            obtain rfl := Option.some.inj h
            rw [brandedText_eq_some hbranded]
            exact ⟨rfl, rfl⟩
          | some span =>
            rw [hspan] at h
            obtain ⟨s, hs, rfl⟩ := Option.map_eq_some_iff.mp h
            rw [brandedText_eq_some hbranded, nonEmptyText_eq_some hs]
            exact ⟨rfl, rfl⟩
    · cases h
  | _ => cases h

theorem sameRef_of_parse {v : Json} {ref : GclSourceRef} (h : parseSourceRef v = some ref) : SameRef ref v := by
  obtain ⟨fields, rfl, hstrict, hid, hspan⟩ := parseSourceRef_spec h
  refine ⟨fields, rfl, fun key => ?_⟩
  by_cases hkey : key = str "sourceId"
  · rw [hkey, hid]
    rfl
  · by_cases hkey' : key = str "span"
    · rw [hkey', hspan]
      cases ref.span <;> rfl
    · rw [ownProperty_none_of_strict hstrict (by simp [hkey, hkey'])]
      have hidKey : ¬ str "sourceId" = key := Ne.symm hkey
      have hspanKey : ¬ str "span" = key := Ne.symm hkey'
      cases ref.span <;> simp [ownProperty, hidKey, hspanKey]

theorem refStrings_of_parse {v : Json} {ref : GclSourceRef} (h : parseSourceRef v = some ref) : refsStrings (.arr [v]) = refStrings ref := by
  obtain ⟨fields, rfl, -, hid, hspan⟩ := parseSourceRef_spec h
  simp only [refsStrings, List.flatMap_cons, List.flatMap_nil, List.append_nil, hid, hspan, refStrings]
  cases ref.span <;> simp [valueStrings]

theorem parseSourceRefs_spec {refs : List Json} {out : List GclSourceRef} (h : refs.mapM parseSourceRef = some out) :
    List.Forall₂ SameRef out refs ∧ refsStrings (.arr refs) = out.flatMap refStrings := by
  induction refs generalizing out with
  | nil =>
    rw [List.mapM_nil] at h
    obtain rfl := Option.some.inj h
    exact ⟨.nil, rfl⟩
  | cons v refs ih =>
    rw [List.mapM_cons] at h
    cases hv : parseSourceRef v with
    | none =>
      rw [hv] at h
      cases h
    | some ref =>
      cases hrest : refs.mapM parseSourceRef with
      | none =>
        rw [hv, hrest] at h
        cases h
      | some rest =>
        rw [hv, hrest] at h
        obtain rfl := Option.some.inj h
        obtain ⟨hsame, hstrings⟩ := ih hrest
        refine ⟨.cons (sameRef_of_parse hv) hsame, ?_⟩
        rw [List.flatMap_cons, ← hstrings, ← refStrings_of_parse hv]
        simp only [refsStrings, List.flatMap_cons, List.flatMap_nil, List.append_nil]

/-- What a candidate says that passes the schema. -/
theorem parseGclProjection_spec {tables : CaseTables} {candidate : Json} {p : GclProjection} (h : parseGclProjection tables candidate = some p) :
    ∃ fields payload refs, candidate = .obj fields ∧ ownProperty fields (str "workspaceId") = some (.str p.workspaceId) ∧
      ownProperty fields (str "visibilityLevel") = some (.str p.visibilityLevel.text) ∧
      ownProperty fields (str "projectionType") = some (.str p.projectionType) ∧
      (ownProperty fields (str "sanitizedPayload") = some (.obj payload) ∧ p.sanitizedPayload = payload.filter fun f => f.1 ≠ str "__proto__") ∧
      (ownProperty fields (str "sourceRefs") = some (.arr refs) ∧ refs.mapM parseSourceRef = some p.sourceRefs) ∧
      carriesRawContent tables p.sanitizedPayload = false ∧
      isStrict [str "workspaceId", str "visibilityLevel", str "projectionType", str "sanitizedPayload", str "sourceRefs"] fields = true := by
  cases candidate with
  | obj fields =>
    simp only [parseGclProjection] at h
    split at h
    · next hstrict =>
      simp only [Option.bind_eq_bind, Option.bind_eq_some_iff] at h
      obtain ⟨workspaceId, ⟨v1, h1, h1'⟩, level, ⟨v2, h2, h2'⟩, projectionType, ⟨v3, h3, h3'⟩, payload, ⟨v4, h4, h4'⟩, sourceRefs,
        ⟨v5, h5, h5'⟩, h⟩ := h
      split at h
      · cases h
      · next hraw =>
        obtain rfl := Option.some.inj h
        rw [parseWorkspaceId_eq_some h1'] at h1
        rw [parseLevel_eq_some h2'] at h2
        rw [nonEmptyText_eq_some h3'] at h3
        cases v4 with
        | obj payload' =>
          cases v5 with
          | arr refs =>
            exact ⟨fields, payload', refs, rfl, h1, h2, h3, ⟨h4, (Option.some.inj h4').symm⟩, ⟨h5, h5'⟩, Bool.not_eq_true _ ▸ hraw, hstrict⟩
          | _ => cases h5'
        | _ => cases h4'
    · cases h
  | _ => cases h

theorem filter_of_kept {payload : List (JsString × Json)} (h : ownProperty payload (str "__proto__") = none) :
    payload.filter (fun f => f.1 ≠ str "__proto__") = payload := by
  rw [List.filter_eq_self]
  intro f hf
  unfold ownProperty at h
  rw [Option.map_eq_none_iff, List.find?_eq_none] at h
  simpa using h f hf

/-- A payload keeps its properties if and only if none of them is lost. -/
theorem sameProperties_filter_iff (payload : List (JsString × Json)) :
    SameProperties payload (payload.filter fun f => f.1 ≠ str "__proto__") ↔ ownProperty payload (str "__proto__") = none := by
  constructor
  · intro h
    rw [h]
    unfold ownProperty
    rw [Option.map_eq_none_iff, List.find?_eq_none]
    intro f hf
    simpa using List.of_mem_filter hf
  · intro h key
    rw [filter_of_kept h]

/-- An admitted projection carries nothing but summaries if and only if the strings that the scan does
    not measure are summaries, and no key of the payload is lost. -/
theorem admitProjection_noRawText_iff {tables : CaseTables} {ajv : Json → Bool} {candidate : Json} {sourceWorkspace : Workspace}
    {taxonomy : ProjectionTypeVisibilityTaxonomy} {p : GclProjection} (h : admitProjection tables ajv candidate sourceWorkspace taxonomy = .ok p) :
    NoRawText tables candidate sourceWorkspace p ↔ OnlySummaries candidate := by
  unfold admitProjection at h
  split at h
  · cases h
  · cases hparse : parseGclProjection tables candidate with
    | none =>
      rw [hparse] at h
      cases h
    | some projection =>
      rw [hparse] at h
      dsimp only at h
      cases hdecision : validateProjectionVisibility projection sourceWorkspace taxonomy with
      | deny reason message audit =>
        rw [hdecision] at h
        cases h
      | allow value audit =>
        rw [hdecision] at h
        obtain rfl := Except.ok.inj h
        obtain ⟨rfl, hworkspace, hlevel⟩ := validateProjectionVisibility_allow hdecision
        obtain ⟨fields, payload, refs, rfl, h1, h2, h3, ⟨h4, hpayload⟩, ⟨h5, hrefs⟩, hraw, hstrict⟩ := parseGclProjection_spec hparse
        obtain ⟨hsame, hrefStrings⟩ := parseSourceRefs_spec hrefs
        obtain ⟨hvalues, hkeys⟩ := (isRawContentShaped_eq_false_iff tables _).mp hraw
        have hunscanned : unscanned fields = fieldKeys payload ++ ([value.projectionType] ++ value.sourceRefs.flatMap refStrings) := by
          unfold unscanned
          rw [h3, h4, h5, Option.map_some, Option.map_some, Option.map_some, Option.getD_some, Option.getD_some, Option.getD_some, hrefStrings]
          rfl
        constructor
        · rintro ⟨⟨fields', payload', refs', heq, hprojection⟩, -, -, hstrings, -⟩
          obtain rfl := Json.obj.inj heq
          have hpayload' : payload' = payload := Json.obj.inj (Option.some.inj (hprojection.sanitizedPayload.1.symm.trans h4))
          have hkept : ownProperty payload (str "__proto__") = none := by
            have hproperties := hprojection.sanitizedPayload.2
            rw [hpayload', hpayload] at hproperties
            exact (sameProperties_filter_iff payload).mp hproperties
          refine ⟨fun s hs => ?_, fun other hother => ?_⟩
          · rw [hunscanned] at hs
            unfold readableStrings at hstrings
            rw [hpayload, filter_of_kept hkept] at hstrings
            exact hstrings s (List.mem_append_right _ hs)
          · rw [Json.obj.inj (Option.some.inj (hother.symm.trans h4))]
            exact hkept
        · rintro ⟨hsummaries, hlost⟩
          have hkept := hlost payload h4
          refine ⟨⟨fields, payload, refs, rfl, ⟨fun key hkey => ?_, h1, h2, h3, ⟨h4, ?_⟩, h5, hsame⟩⟩, hworkspace, hlevel, fun s hs => ?_, fun key hkey => ?_⟩
          · by_contra hnot
            rw [ownProperty_none_of_strict hstrict hnot] at hkey
            cases hkey
          · rw [hpayload]
            exact (sameProperties_filter_iff payload).mpr hkept
          · unfold readableStrings at hs
            rcases List.mem_append.mp hs with hvalue | hrest
            · exact hvalues s hvalue
            · rw [hpayload, filter_of_kept hkept, ← hunscanned] at hrest
              exact hsummaries s hrest
          · have hnot := hkeys key hkey
            unfold isRawKey at hnot
            rw [List.contains_eq_mem, decide_eq_false_iff_not] at hnot
            exact hnot

section notes

/-- A projection with one entry in its payload. -/
def noteCandidate (key : JsString) : Json :=
  .obj [(str "workspaceId", .str (str "employer-work")), (str "visibilityLevel", .str (str "sanitized")),
    (str "projectionType", .str (str "status")), (str "sanitizedPayload", .obj [(key, .bool true)]), (str "sourceRefs", .arr [])]

def noteProjection (key : JsString) : GclProjection := ⟨str "employer-work", .sanitized, str "status", [(key, .bool true)], []⟩

def noteWorkspace : Workspace where
  id := str "employer-work"
  name := str "Work"
  type := .employer_work
  dataOwner := .employer
  markdownRepoPath := str "/vaults/work"
  gbrainBrainId := str "work"
  defaultVisibility := .sanitized
  egressPolicy := ⟨str "employer-work", [], [], false, none⟩
  providerMatrix := ⟨str "employer-work", [], [], false, none⟩

/-- A key of two lines crosses the gate. -/
theorem note_crosses : ¬ ∀ (tables : CaseTables) (ajv : Json → Bool) (candidate : Json) (sourceWorkspace : Workspace)
    (taxonomy : ProjectionTypeVisibilityTaxonomy) (p : GclProjection),
    admitProjection tables ajv candidate sourceWorkspace taxonomy = .ok p → NoRawText tables candidate sourceWorkspace p := by
  intro h
  have hraw := h asciiTables (fun _ => true) (noteCandidate (str "Payroll is late.\nTell nobody.")) noteWorkspace (fun _ => none)
    (noteProjection (str "Payroll is late.\nTell nobody.")) rfl
  have hsummary := hraw.strings (str "Payroll is late.\nTell nobody.") (by decide)
  exact absurd (hsummary.2 (unit '\n') (by decide)) (by decide)

theorem note_admitted : NoRawText asciiTables (noteCandidate (str "late")) noteWorkspace (noteProjection (str "late")) ↔
    OnlySummaries (noteCandidate (str "late")) :=
  @admitProjection_noRawText_iff asciiTables (fun _ => true) _ _ (fun _ => none) _ rfl

end notes

end spec

end sow.knowledge.gcl
