import Sow.Js.Lexicon

open sow.js

namespace sow.markdown_vault

/-- The two families of writer-owned region markers. -/
inductive AssistantFamily where
  | kwRegion
  | generated
  deriving DecidableEq

def AssistantFamily.label : AssistantFamily → JsString
  | .kwRegion => str "kw:region"
  | .generated => str "@generated"

/-- What a marker names: an assistant region of either family, or a user span. -/
inductive MarkerTag where
  | region (family : AssistantFamily) (id : JsString)
  | user
  deriving DecidableEq

structure Marker where
  close : Bool
  tag : MarkerTag
  deriving DecidableEq

/-- The units of a region id, `[^\s>]`. -/
def isIdUnit (c : UInt16) : Bool := !isSpace c && c != unit '>'

/-- The branch `(kw:region|@generated):([^\s>]+) -->` of `MARKER_RE` for one family. -/
def regionTagAt (family : AssistantFamily) (s : JsString) : Option (MarkerTag × JsString) := do
  let rest ← stripLit (family.label ++ str ":") s
  let id := rest.takeWhile isIdUnit
  let rest ← stripLit (str " -->") (rest.dropWhile isIdUnit)
  if id = [] then none else some (.region family id, rest)

/-- The branch `(@user) -->`. -/
def userTagAt (s : JsString) : Option (MarkerTag × JsString) :=
  (stripLit (str "@user -->") s).map fun rest => (.user, rest)

def markerTagAt (s : JsString) : Option (MarkerTag × JsString) :=
  regionTagAt .kwRegion s <|> regionTagAt .generated s <|> userTagAt s

/-- The anchored matcher of `MARKER_RE`. A run of id units ends at white space or
    `>`, so the greedy id admits no backtracking. -/
def markerAt (s : JsString) : Option (Nat × Marker) := do
  let rest ← stripLit (str "<!-- ") s
  let (close, rest) := match stripLit (str "/") rest with
    | some rest => (true, rest)
    | none => (false, rest)
  let (tag, rest) ← markerTagAt rest
  some (s.length - rest.length, ⟨close, tag⟩)

/-- `/<!-- (\/?)(?:(kw:region|@generated):([^\s>]+)|(@user)) -->/gu` -/
def MARKER_RE : Regex Marker := ⟨markerAt⟩

def stripLitFold (lit s : JsString) : Option JsString :=
  if lit.isPrefixOf (s.map foldCase) then some (s.drop lit.length) else none

/-- The end `\s*-->` of `REGION_MARKER_RE`. -/
def stripEnd (s : JsString) : Option JsString := stripLit (str "-->") (s.dropWhile isSpace)

/-- The end `[^\s>]*\s*-->`: the whole run of id units, or, where `>` ends the
    run, all of it but the `--` before. -/
def stripIdEnd (s : JsString) : Option JsString :=
  stripEnd (s.dropWhile isIdUnit) <|>
    if endsWith (s.takeWhile isIdUnit) (str "--") then stripLit (str ">") (s.dropWhile isIdUnit) else none

def regionMarkerAt (s : JsString) : Option (Nat × Unit) := do
  let rest ← stripLit (str "<!--") s
  let rest := rest.dropWhile fun c => isSpace c || c == unit '/'
  let rest ←
    (stripLitFold (str "kw:region:") rest).bind stripIdEnd <|>
    (stripLitFold (str "@generated:") rest).bind stripIdEnd <|>
    (stripLitFold (str "@user") rest).bind stripEnd
  some (s.length - rest.length, ())

/-- `/<!--[\s/]*(?:kw:region:[^\s>]*|@generated:[^\s>]*|@user)\s*-->/giu` -/
def REGION_MARKER_RE : Regex Unit := ⟨regionMarkerAt⟩

/-- One pass: escape every `<!--` of every match. -/
def escapeMarkers (s : JsString) : JsString :=
  REGION_MARKER_RE.replace (fun marker => replaceAll marker (str "<!--") (str "<\\!--")) s

/-- Repeat the pass until it changes nothing, at most `fuel` times. -/
def neutralizeFrom : Nat → JsString → JsString
  | 0, s => s
  | fuel + 1, s => if escapeMarkers s = s then s else neutralizeFrom fuel (escapeMarkers s)

/-- Every pass that changes the text removes a `<!--`, so the length bounds the passes. -/
def neutralizeRegionMarkers (content : JsString) : JsString := neutralizeFrom (content.length + 1) content

def regionOpenMarker (id : JsString) : JsString := str "<!-- kw:region:" ++ id ++ str " -->"
def regionCloseMarker (id : JsString) : JsString := str "<!-- /kw:region:" ++ id ++ str " -->"

def renderRegion (id body : JsString) : JsString :=
  regionOpenMarker id ++ str "\n" ++ body ++ str "\n" ++ regionCloseMarker id

def generatedOpenMarker (id : JsString) : JsString := str "<!-- @generated:" ++ id ++ str " -->"
def generatedCloseMarker (id : JsString) : JsString := str "<!-- /@generated:" ++ id ++ str " -->"

def renderGeneratedRegion (id body : JsString) : JsString :=
  generatedOpenMarker id ++ str "\n" ++ body ++ str "\n" ++ generatedCloseMarker id

structure HumanSection where
  text : JsString
  start : Nat
  stop : Nat
  deriving DecidableEq

structure AssistantSection where
  regionId : JsString
  /-- Body between the markers, with the framing newlines stripped. -/
  body : JsString
  /-- Exact marker-to-marker slice. -/
  raw : JsString
  start : Nat
  stop : Nat
  deriving DecidableEq

inductive Section where
  | human (s : HumanSection)
  | assistant (s : AssistantSection)
  deriving DecidableEq

inductive SectionParseReason where
  | unclosed_region
  | unexpected_close
  | nested_region
  | mismatched_close
  | duplicate_region_id
  deriving DecidableEq

def SectionParseReason.text : SectionParseReason → JsString
  | .unclosed_region => str "unclosed_region"
  | .unexpected_close => str "unexpected_close"
  | .nested_region => str "nested_region"
  | .mismatched_close => str "mismatched_close"
  | .duplicate_region_id => str "duplicate_region_id"

structure SectionParseError where
  reason : SectionParseReason
  regionId : JsString
  offset : Nat
  deriving DecidableEq

inductive Family where
  | assistant
  | user
  deriving DecidableEq

def MarkerTag.family : MarkerTag → Family
  | .region _ _ => .assistant
  | .user => .user

/-- The id of a marker; user spans share a fixed sentinel. -/
def MarkerTag.id : MarkerTag → JsString
  | .region _ id => id
  | .user => str "@user"

structure OpenRegion where
  family : Family
  id : JsString
  markerStart : Nat
  innerStart : Nat

structure ParseState where
  sections : List Section
  seen : List JsString
  cursor : Nat
  opened : Option OpenRegion

/-- `inner.replace(/^\n/u, "")` -/
def dropLeadingNewline : JsString → JsString
  | [] => []
  | c :: s => if c = unit '\n' then s else c :: s

/-- `inner.replace(/\n$/u, "")` -/
def dropTrailingNewline (s : JsString) : JsString :=
  if s.getLast? = some (unit '\n') then s.dropLast else s

/-- The text between two offsets as a human section, when there is any. -/
def humanBetween (content : JsString) (start stop : Nat) : List Section :=
  if start < stop then [.human ⟨slice content start stop, start, stop⟩] else []

/-- One marker of the loop of `parseSections`. -/
def parseMarker (content : JsString) (st : ParseState) (m : Match Marker) :
    Except SectionParseError ParseState :=
  let family := m.groups.tag.family
  let id := m.groups.tag.id
  let mEnd := m.index + m.length
  if m.groups.close = false then
    match st.opened with
    | some _ => .error ⟨.nested_region, id, m.index⟩
    | none =>
      if family = .assistant ∧ id ∈ st.seen then .error ⟨.duplicate_region_id, id, m.index⟩
      else .ok { st with
        sections := st.sections ++ humanBetween content st.cursor m.index
        opened := some ⟨family, id, m.index, mEnd⟩ }
  else
    match st.opened with
    | none => .error ⟨.unexpected_close, id, m.index⟩
    | some o =>
      if o.family ≠ family ∨ o.id ≠ id then .error ⟨.mismatched_close, id, m.index⟩
      else
        let raw := slice content o.markerStart mEnd
        match family with
        | .user => .ok {
            sections := st.sections ++ [.human ⟨raw, o.markerStart, mEnd⟩]
            seen := st.seen
            cursor := mEnd
            opened := none }
        | .assistant =>
          let inner := slice content o.innerStart m.index
          .ok {
            sections := st.sections ++
              [.assistant ⟨id, dropTrailingNewline (dropLeadingNewline inner), raw, o.markerStart, mEnd⟩]
            seen := id :: st.seen
            cursor := mEnd
            opened := none }

def parseMarkers (content : JsString) : ParseState → List (Match Marker) → Except SectionParseError ParseState
  | st, [] => .ok st
  | st, m :: rest => do
    let st ← parseMarker content st m
    parseMarkers content st rest

def parseSections (content : JsString) : Except SectionParseError (List Section) := do
  let st ← parseMarkers content ⟨[], [], 0, none⟩ (MARKER_RE.matchAll content)
  match st.opened with
  | some o => .error ⟨.unclosed_region, o.id, o.markerStart⟩
  | none => .ok (st.sections ++ humanBetween content st.cursor content.length)

/-- The assistant sections of a parse, in document order. -/
def assistants (sections : List Section) : List AssistantSection :=
  sections.filterMap fun
    | .assistant s => some s
    | .human _ => none

/-- The human sections of a parse, in document order. -/
def humans (sections : List Section) : List HumanSection :=
  sections.filterMap fun
    | .human s => some s
    | .assistant _ => none

def listRegionIds (content : JsString) : Except SectionParseError (List JsString) := do
  let sections ← parseSections content
  return (assistants sections).map (·.regionId)

def getRegion (content id : JsString) : Option AssistantSection :=
  match parseSections content with
  | .error _ => none
  | .ok sections => (assistants sections).find? (·.regionId = id)

/-- Concatenation of the human-owned segments only. -/
def humanOwnedText (sections : List Section) : JsString := join [] ((humans sections).map (·.text))

/-- One section of a create body, its region markers kept and all other text neutralized. -/
def neutralizeSection : Section → JsString
  | .human s => neutralizeRegionMarkers s.text
  | .assistant s =>
    let safeInner := neutralizeRegionMarkers s.body
    if startsWith s.raw (generatedOpenMarker s.regionId) then renderGeneratedRegion s.regionId safeInner
    else renderRegion s.regionId safeInner

def neutralizeNoteBody (body : JsString) : JsString :=
  match parseSections body with
  | .error _ => neutralizeRegionMarkers body
  | .ok sections => join [] (sections.map neutralizeSection)

end sow.markdown_vault
