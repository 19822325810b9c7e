import Sow.Contracts.Models
import Sow.Contracts.SemanticFact
import Sow.Js.Case
import Sow.Js.Json

open sow.js

namespace sow.contracts

def GCL_PROJECTION_SCHEMA_ID : JsString := str "sow:gcl-projection"

def MAX_SUMMARY_VALUE_LEN : Nat := 1024

def RAW_CONTENT_SHAPED_KEYS : List JsString :=
  [str "rawcontent", str "raw", str "body", str "content", str "text", str "transcript",
    str "markdown", str "html", str "note", str "notes", str "message", str "email", str "prompt", str "payload"]

def isLineBreak (c : UInt16) : Bool := c = 0x0D || c = 0x0A

section raw

variable (tables : CaseTables)

/-- The check of a key on its own. -/
def isRawKey (key : JsString) : Bool := RAW_CONTENT_SHAPED_KEYS.contains (tables.toLowerCase key)

mutual

/-- `isRawContentShaped` of a value; the key that it stands under is checked beside it. -/
def isRawContentShaped : Json → Bool
  | .str s => MAX_SUMMARY_VALUE_LEN < s.length || s.any isLineBreak
  | .arr items => isRawItems items
  | .obj fields => isRawFields fields
  | _ => false

def isRawItems : List Json → Bool
  | [] => false
  | v :: items => isRawContentShaped v || isRawItems items

def isRawFields : List (JsString × Json) → Bool
  | [] => false
  | (key, v) :: fields => isRawKey tables key || isRawContentShaped v || isRawFields fields

end

def carriesRawContent (payload : List (JsString × Json)) : Bool := isRawContentShaped tables (.obj payload)

end raw

/-- A reference to a source, as the projection carries it. -/
structure GclSourceRef where
  sourceId : JsString
  span : Option JsString

structure GclProjection where
  workspaceId : JsString
  visibilityLevel : VisibilityLevel
  projectionType : JsString
  sanitizedPayload : List (JsString × Json)
  sourceRefs : List GclSourceRef

/-- The own property of an object. -/
def ownProperty (fields : List (JsString × Json)) (key : JsString) : Option Json :=
  (fields.find? fun f => f.1 = key).map Prod.snd

/-- A strict object has no keys but those of its shape. -/
def isStrict (shape : List JsString) (fields : List (JsString × Json)) : Bool := fields.all fun f => shape.contains f.1

/-- `z.string().min(1)` -/
def nonEmptyText : Json → Option JsString
  | .str s => if s = [] then none else some s
  | _ => none

def brandedText : Json → Option JsString
  | .str s => if isBrandedId s then some s else none
  | _ => none

/-- `SourceRefSchema.safeParse` -/
def parseSourceRef : Json → Option GclSourceRef
  | .obj fields =>
    if isStrict [str "sourceId", str "span"] fields then do
      let sourceId ← (ownProperty fields (str "sourceId")).bind brandedText
      match ownProperty fields (str "span") with
      | none => some ⟨sourceId, none⟩
      | some span => (nonEmptyText span).map fun s => ⟨sourceId, some s⟩
    else none
  | _ => none

/-- `z.record(z.string(), z.unknown())`: the result is put together anew, and has no `__proto__`. -/
def parsePayload : Json → Option (List (JsString × Json))
  | .obj fields => some (fields.filter fun f => f.1 ≠ str "__proto__")
  | _ => none

def parseWorkspaceId : Json → Option JsString
  | .str s => if isWorkspaceId s then some s else none
  | _ => none

def parseLevel : Json → Option VisibilityLevel
  | .str s => isVisibilityLevel s
  | _ => none

def parseSourceRefs : Json → Option (List GclSourceRef)
  | .arr refs => refs.mapM parseSourceRef
  | _ => none

/-- `GclProjectionSchema.safeParse`; what a refusal says is left out. -/
def parseGclProjection (tables : CaseTables) : Json → Option GclProjection
  | .obj fields =>
    if isStrict [str "workspaceId", str "visibilityLevel", str "projectionType", str "sanitizedPayload", str "sourceRefs"] fields then do
      let workspaceId ← (ownProperty fields (str "workspaceId")).bind parseWorkspaceId
      let visibilityLevel ← (ownProperty fields (str "visibilityLevel")).bind parseLevel
      let projectionType ← (ownProperty fields (str "projectionType")).bind nonEmptyText
      let sanitizedPayload ← (ownProperty fields (str "sanitizedPayload")).bind parsePayload
      let sourceRefs ← (ownProperty fields (str "sourceRefs")).bind parseSourceRefs
      if carriesRawContent tables sanitizedPayload then none
      else some ⟨workspaceId, visibilityLevel, projectionType, sanitizedPayload, sourceRefs⟩
    else none
  | _ => none

section strings

mutual

/-- The strings among the values of a JSON value, at every depth. -/
def valueStrings : Json → List JsString
  | .str s => [s]
  | .arr items => itemStrings items
  | .obj fields => fieldStrings fields
  | _ => []

def itemStrings : List Json → List JsString
  | [] => []
  | v :: items => valueStrings v ++ itemStrings items

def fieldStrings : List (JsString × Json) → List JsString
  | [] => []
  | (_, v) :: fields => valueStrings v ++ fieldStrings fields

end

mutual

/-- The keys of the objects in a JSON value, at every depth. -/
def valueKeys : Json → List JsString
  | .arr items => itemKeys items
  | .obj fields => fieldKeys fields
  | _ => []

def itemKeys : List Json → List JsString
  | [] => []
  | v :: items => valueKeys v ++ itemKeys items

def fieldKeys : List (JsString × Json) → List JsString
  | [] => []
  | (key, v) :: fields => key :: (valueKeys v ++ fieldKeys fields)

end

/-- At most as long as a summary, and on one line. -/
def IsSummary (s : JsString) : Prop := s.length ≤ MAX_SUMMARY_VALUE_LEN ∧ ∀ c ∈ s, isLineBreak c = false

variable (tables : CaseTables)

mutual

/-- The scan passes where each string among the values is a summary and no key is named for raw content. -/
theorem isRawContentShaped_eq_false_iff (v : Json) : isRawContentShaped tables v = false ↔
    (∀ s ∈ valueStrings v, IsSummary s) ∧ ∀ key ∈ valueKeys v, isRawKey tables key = false := by
  cases v with
  | null => simp [isRawContentShaped, valueStrings, valueKeys]
  | bool b => simp [isRawContentShaped, valueStrings, valueKeys]
  | num text => simp [isRawContentShaped, valueStrings, valueKeys]
  | str s =>
    simp only [isRawContentShaped, valueStrings, valueKeys, Bool.or_eq_false_iff, decide_eq_false_iff_not, Nat.not_lt, List.any_eq_false,
      Bool.not_eq_true, List.mem_singleton, forall_eq, List.not_mem_nil, false_implies, implies_true, and_true]
    rfl
  | arr items =>
    rw [isRawContentShaped, valueStrings, valueKeys]
    exact isRawItems_eq_false_iff items
  | obj fields =>
    rw [isRawContentShaped, valueStrings, valueKeys]
    exact isRawFields_eq_false_iff fields

theorem isRawItems_eq_false_iff (items : List Json) : isRawItems tables items = false ↔
    (∀ s ∈ itemStrings items, IsSummary s) ∧ ∀ key ∈ itemKeys items, isRawKey tables key = false := by
  cases items with
  | nil => simp [isRawItems, itemStrings, itemKeys]
  | cons v items =>
    rw [isRawItems, itemStrings, itemKeys, Bool.or_eq_false_iff, isRawContentShaped_eq_false_iff v, isRawItems_eq_false_iff items]
    simp only [List.forall_mem_append]
    exact and_and_and_comm

theorem isRawFields_eq_false_iff (fields : List (JsString × Json)) : isRawFields tables fields = false ↔
    (∀ s ∈ fieldStrings fields, IsSummary s) ∧ ∀ key ∈ fieldKeys fields, isRawKey tables key = false := by
  cases fields with
  | nil => simp [isRawFields, fieldStrings, fieldKeys]
  | cons f fields =>
    obtain ⟨key, v⟩ := f
    rw [isRawFields, fieldStrings, fieldKeys, Bool.or_eq_false_iff, Bool.or_eq_false_iff, isRawContentShaped_eq_false_iff v,
      isRawFields_eq_false_iff fields]
    simp only [List.forall_mem_append, List.forall_mem_cons]
    constructor
    · rintro ⟨⟨hkey, hv, hvk⟩, hf, hfk⟩
      exact ⟨⟨hv, hf⟩, hkey, hvk, hfk⟩
    · rintro ⟨⟨hv, hf⟩, hkey, hvk, hfk⟩
      exact ⟨⟨hkey, hv, hvk⟩, hf, hfk⟩

end

end strings

end sow.contracts
