import Sow.Effect.Program
import Sow.Js.Json
import Sow.Js.Utf8
import Sow.Knowledge.KnowledgeWriter.Frontmatter
import Sow.Knowledge.KnowledgeWriter.Plan

open sow.js sow.effect sow.markdown_vault

namespace sow.knowledge_writer

abbrev SecretRef := JsString

/-- A resolved signing key. -/
abbrev SigningKey := List UInt8

structure SecretUnresolved where
  ref : SecretRef
  reason : Option JsString
  deriving DecidableEq

/-- The `SecretsPort`. -/
inductive SecretsOp where
  | resolveSigningKey (ref : SecretRef)
  deriving DecidableEq

abbrev SecretsOp.Ret : SecretsOp → Type
  | .resolveSigningKey _ => Except SecretUnresolved SigningKey

abbrev SecretsM := Program SecretsOp SecretsOp.Ret Cause

structure SignedProvenanceStamp where
  kwRevision : JsString
  originPath : JsString
  mdContentSha : JsString
  writerActor : JsString
  sourceEventRef : JsString
  committedAt : JsString
  sig : JsString
  deriving DecidableEq

/-- What the stamper takes from outside: HMAC-SHA256 in hexadecimal, the date-time
    test of the schema library, its issues with a rejected stamp and the signal
    built from them, and the name of a thrown error. -/
structure StampKit where
  hmac : SigningKey → List UInt8 → JsString
  isDatetime : JsString → Bool
  issues : SignedProvenanceStamp → List RefusalIssue
  refusalSignal : List RefusalIssue → AuditSignal
  errorName : Cause → JsString

structure StamperDeps where
  kit : StampKit
  /-- Opaque Keychain reference to the provenance-signing key. -/
  signingKeyRef : SecretRef

/-- The four content-binding fields the signature covers. -/
structure SignedTuple where
  workspaceId : JsString
  factIdentity : JsString
  originPath : JsString
  mdContentSha : JsString

structure StampInputs extends SignedTuple where
  kwRevision : JsString
  sourceEventRef : JsString
  committedAt : JsString

structure VerifyInputs extends SignedTuple where
  stamp : SignedProvenanceStamp

inductive StampError where
  | secret_unresolved (e : SecretUnresolved)
  | stamp_invalid (issues : List RefusalIssue) (audit : AuditSignal)
  deriving DecidableEq

def PREIMAGE_SCHEME : JsString := str "sow:provenance-stamp:v2"
def FIELD_SEP : JsString := [0]

/-- `String(n)` for a natural number. -/
def natToString (n : Nat) : JsString := (Nat.toDigits 10 n).map fun c => unit c

def signingPreimage (t : SignedTuple) : JsString :=
  let fields := [PREIMAGE_SCHEME, t.workspaceId, t.factIdentity, t.originPath, t.mdContentSha]
  join FIELD_SEP (fields.map fun f => natToString (utf8 f).length ++ str ":" ++ f)

/-- The hexadecimal signature of a tuple under a key. -/
def sign (kit : StampKit) (key : SigningKey) (tuple : SignedTuple) : JsString :=
  kit.hmac key (utf8 (signingPreimage tuple))

def computeSig (tuple : SignedTuple) (deps : StamperDeps) : SecretsM (Except SecretUnresolved JsString) := do
  match ← (Program.perform (SecretsOp.resolveSigningKey deps.signingKeyRef)).attempt with
  | .error cause => pure (.error ⟨deps.signingKeyRef, some (deps.kit.errorName cause)⟩)
  | .ok (.error e) => pure (.error e)
  | .ok (.ok key) => pure (.ok (sign deps.kit key tuple))

def isMdContentSha (s : JsString) : Bool :=
  s.length = 64 && s.all fun c => Json.isDigit c || (97 ≤ c.toNat && c.toNat ≤ 102)

/-- The field checks of `SignedProvenanceStampSchema`. -/
def SignedProvenanceStampSchema.accepts (kit : StampKit) (stamp : SignedProvenanceStamp) : Bool :=
  trim stamp.kwRevision ≠ [] && stamp.originPath ≠ [] && isMdContentSha stamp.mdContentSha &&
    stamp.writerActor = str "KnowledgeWriter" && stamp.sourceEventRef ≠ [] &&
    kit.isDatetime stamp.committedAt && stamp.sig ≠ []

/-- The fields of a stamp, in the order in which it is built and parsed. -/
def SignedProvenanceStamp.fields (stamp : SignedProvenanceStamp) : List (JsString × JsString) :=
  [(str "kwRevision", stamp.kwRevision), (str "originPath", stamp.originPath),
    (str "mdContentSha", stamp.mdContentSha), (str "writerActor", stamp.writerActor),
    (str "sourceEventRef", stamp.sourceEventRef), (str "committedAt", stamp.committedAt), (str "sig", stamp.sig)]

def SignedProvenanceStamp.toJson (stamp : SignedProvenanceStamp) : Json := .obj (Json.stringFields stamp.fields)

/-- The string under a key of an object. -/
def stringField (fields : List (JsString × Json)) (key : JsString) : Option JsString :=
  match Map.getEntry key fields with
  | some (.str s) => some s
  | _ => none

/-- The keys of the strict object. -/
def stampKeys : List JsString :=
  [str "kwRevision", str "originPath", str "mdContentSha", str "writerActor", str "sourceEventRef",
    str "committedAt", str "sig"]

def SignedProvenanceStampSchema.safeParse (kit : StampKit) : Json → Option SignedProvenanceStamp
  | .obj fields => do
    let kwRevision ← stringField fields (str "kwRevision")
    let originPath ← stringField fields (str "originPath")
    let mdContentSha ← stringField fields (str "mdContentSha")
    let writerActor ← stringField fields (str "writerActor")
    let sourceEventRef ← stringField fields (str "sourceEventRef")
    let committedAt ← stringField fields (str "committedAt")
    let sig ← stringField fields (str "sig")
    let stamp : SignedProvenanceStamp :=
      ⟨kwRevision, originPath, mdContentSha, writerActor, sourceEventRef, committedAt, sig⟩
    if fields.all (fun f => f.1 ∈ stampKeys) && SignedProvenanceStampSchema.accepts kit stamp then some stamp
    else none
  | _ => none

/-- The record that a signature completes. -/
def stampOf (inputs : StampInputs) (sig : JsString) : SignedProvenanceStamp where
  kwRevision := inputs.kwRevision
  originPath := inputs.originPath
  mdContentSha := inputs.mdContentSha
  writerActor := str "KnowledgeWriter"
  sourceEventRef := inputs.sourceEventRef
  committedAt := inputs.committedAt
  sig := sig

def stampProvenance (inputs : StampInputs) (deps : StamperDeps) :
    SecretsM (Except StampError SignedProvenanceStamp) := do
  match ← computeSig inputs.toSignedTuple deps with
  | .error e => pure (.error (.secret_unresolved e))
  | .ok sig =>
    let candidate := stampOf inputs sig
    if SignedProvenanceStampSchema.accepts deps.kit candidate then pure (.ok candidate)
    else
      let issues := deps.kit.issues candidate
      pure (.error (.stamp_invalid issues (deps.kit.refusalSignal issues)))

/-- `Buffer.from(s, "hex")`: whole bytes up to the first pair that is not hexadecimal. -/
def hexBytes : JsString → List Nat
  | a :: b :: s =>
    match Json.hexValue a, Json.hexValue b with
    | some x, some y => (x * 16 + y) :: hexBytes s
    | _, _ => []
  | _ => []

def constantTimeHexEqual (a b : JsString) : Bool :=
  if a.length ≠ b.length then false
  else
    let bufA := hexBytes a
    let bufB := hexBytes b
    if bufA.length ≠ bufB.length ∨ bufA.length = 0 then false else bufA = bufB

def verifyProvenanceStamp (inputs : VerifyInputs) (deps : StamperDeps) :
    SecretsM (Except SecretUnresolved Bool) := do
  match ← computeSig inputs.toSignedTuple deps with
  | .error e => pure (.error e)
  | .ok expected => pure (.ok (constantTimeHexEqual expected inputs.stamp.sig))

def serializeStampFieldValue (stamp : SignedProvenanceStamp) : JsString := serializeScalar (some stamp.toJson)

def readStampField (kit : StampKit) (content : JsString) : Option SignedProvenanceStamp :=
  match readFrontmatterField content KW_STAMP_FRONTMATTER_KEY with
  | none => none
  | some raw =>
    match Json.parse raw with
    | none => none
    | some parsed => SignedProvenanceStampSchema.safeParse kit parsed

end sow.knowledge_writer
