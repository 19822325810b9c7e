import Sow.Effect.Program
import Sow.Js.Json
import Sow.Js.Map
import Sow.Js.Number
import Sow.Js.Path
import Sow.Js.Sort
import Sow.Knowledge.KnowledgeWriter.Revision

open sow.js sow.effect
open sow.knowledge_writer (Sha256)

namespace sow.integrations

/-- An array index: the decimal text of an integer below 2^32 - 1. -/
def isArrayIndex (key : JsString) : Bool :=
  key ≠ [] && key.all Json.isDigit && decimal (toNumber key) = key && toNumber key < 2 ^ 32 - 1

/-- The fields of an object in the order in which JavaScript lists them: array indices
    first, by value, and then the others as they were set. -/
def ownKeyOrder (fields : List (JsString × Json)) : List (JsString × Json) :=
  (fields.filter fun e => isArrayIndex e.1).insertionSort (fun a b => toNumber a.1 ≤ toNumber b.1) ++
    fields.filter fun e => !isArrayIndex e.1

mutual

/-- The value with the keys of every object sorted. -/
def canonicalize : Json → Json
  | .null => .null
  | .bool b => .bool b
  | .num text => .num text
  | .str s => .str s
  | .arr items => .arr (canonicalizeItems items)
  | .obj fields => .obj (ownKeyOrder (sortBy Prod.fst (canonicalizeFields fields)))

def canonicalizeItems : List Json → List Json
  | [] => []
  | item :: items => canonicalize item :: canonicalizeItems items

def canonicalizeFields : List (JsString × Json) → List (JsString × Json)
  | [] => []
  | (key, value) :: fields => (key, canonicalize value) :: canonicalizeFields fields

end

/-- The replay-stable digest of a payload. -/
def payloadHash (sha256 : Sha256) (payload : Json) : JsString :=
  str "sha256:" ++ sha256.text (Json.stringify (canonicalize payload))

/-- A thrown error, with its message and errno code where it has them. -/
structure Thrown where
  message : Option JsString
  code : Option JsString

/-- What is read of a file; a text that is no string is left out. -/
structure ExtractedFile where
  path : JsString
  filename : Option JsString
  mime : Option JsString
  text : Option JsString

inductive FileExtractCode where
  | unreachable
  | empty_content
  | unknown
  deriving DecidableEq

inductive FileExtractResult where
  | file (file : ExtractedFile)
  | failed (code : FileExtractCode) (message : JsString)

structure FileExtractError where
  code : FileExtractCode
  message : JsString

structure ExtractFileInput where
  sourceId : JsString
  workspaceId : JsString
  path : JsString
  mime : Option JsString
  sensitivity : JsString

structure RegisterSourceInput where
  sourceId : JsString
  workspaceId : JsString
  origin : JsString
  contentHash : JsString
  type : JsString
  sensitivity : JsString
  routingHints : Map JsString Json

/-- The dedupe key of a file: its path and its text. -/
def fileContentHash (sha256 : Sha256) (path text : JsString) : JsString :=
  payloadHash sha256 (.obj [(str "path", .str path), (str "text", .str text)])

/-- The hints that a file has. -/
def fileRoutingHints (file : ExtractedFile) : Map JsString Json :=
  let named := (file.filename.map fun name => Map.empty.set (str "filename") (Json.str name)).getD .empty
  (file.mime.map fun mime => named.set (str "mime") (Json.str mime)).getD named

/-- The candidate of a file whose text is not blank. -/
def fileCandidate (sha256 : Sha256) (input : ExtractFileInput) (file : ExtractedFile) : Except FileExtractError RegisterSourceInput :=
  match file.text with
  | none => .error ⟨.empty_content, str "file extraction returned empty or malformed extracted text"⟩
  | some text =>
    if trim text = [] then .error ⟨.empty_content, str "file extraction returned empty or malformed extracted text"⟩
    else .ok {
      sourceId := input.sourceId
      workspaceId := input.workspaceId
      origin := file.path
      contentHash := fileContentHash sha256 file.path text
      type := str "file"
      sensitivity := input.sensitivity
      routingHints := fileRoutingHints file }

def extractFileSource {Op : Type} {Ret : Op → Type} (sha256 : Sha256) (transport : JsString → Option JsString → Program Op Ret Thrown FileExtractResult)
    (input : ExtractFileInput) : Program Op Ret Thrown (Except FileExtractError RegisterSourceInput) :=
  Program.tryCatch (do
    match ← transport input.path input.mime with
    | .failed code message => pure (.error ⟨code, message⟩)
    | .file file => pure (fileCandidate sha256 input file))
  fun e => pure (.error ⟨.unknown, e.message.getD (str "transport threw")⟩)

/-- The root itself, or under it. -/
def isContainedUnder (realRoot realTarget : JsString) : Bool :=
  if realTarget = realRoot then true
  else
    let rootWithSep := if endsWith realRoot (str "/") then realRoot else realRoot ++ str "/"
    startsWith realTarget rootWithSep

/-- A candidate comes from a text that was read. -/
theorem fileCandidate_ok {sha256 : Sha256} {input : ExtractFileInput} {file : ExtractedFile} {c : RegisterSourceInput}
    (h : fileCandidate sha256 input file = .ok c) :
    ∃ text, file.text = some text ∧ c.origin = file.path ∧ c.contentHash = fileContentHash sha256 file.path text := by
  unfold fileCandidate at h
  cases htext : file.text with
  | none =>
    rw [htext] at h
    cases h
  | some text =>
    rw [htext] at h
    dsimp only at h
    split_ifs at h
    obtain rfl := Except.ok.inj h
    exact ⟨text, rfl, rfl, rfl⟩

end sow.integrations
