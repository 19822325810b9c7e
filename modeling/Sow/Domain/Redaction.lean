import Sow.Js.Regex

open sow.js

namespace sow.domain

def REDACTED_CREDENTIAL : JsString := str "[REDACTED:credential]"

def REDACTED_RAW : JsString := str "[REDACTED:raw]"

def REDACTED_FIELD : JsString := str "[REDACTED:field-dropped]"

def MARKER_LITERALS : List JsString := [REDACTED_CREDENTIAL, REDACTED_RAW, REDACTED_FIELD]

def SPAN_PRESERVING_FILLER : JsString := str "^"

def LEGACY_SPACE_FILLER : JsString := str " "

/-- `out.split(m).join(filler)` for each marker in turn. -/
def stripMarkers (s filler : JsString) : JsString := MARKER_LITERALS.foldl (fun out m => replaceAll out m filler) s

def isDigit (c : UInt16) : Bool := 48 ≤ c.toNat && c.toNat ≤ 57

def isUpper (c : UInt16) : Bool := 65 ≤ c.toNat && c.toNat ≤ 90

def isLower (c : UInt16) : Bool := 97 ≤ c.toNat && c.toNat ≤ 122

def isAlnum (c : UInt16) : Bool := isDigit c || isUpper c || isLower c

/-- `\w` -/
def isWord (c : UInt16) : Bool := isAlnum c || c == unit '_'

/-- `[A-Za-z0-9_-]` -/
def isKeyUnit (c : UInt16) : Bool := isWord c || c == unit '-'

/-- Case folding under the flag `i` alone, for patterns of ASCII. -/
def foldAscii (c : UInt16) : UInt16 := if isUpper c then c + 32 else c

/-- Whether a matcher succeeds at some place of a string; it sees the unit before. -/
def searchFrom (net : Option UInt16 → JsString → Bool) : Option UInt16 → JsString → Bool
  | before, [] => net before []
  | before, c :: s => net before (c :: s) || searchFrom net (some c) s

attribute [grind =] searchFrom

def search (net : Option UInt16 → JsString → Bool) (s : JsString) : Bool := searchFrom net none s

/-- `\b` in front of a word unit. -/
def atBoundary (before : Option UInt16) : Bool := !(before.any isWord)

/-- The shapes of `CREDENTIAL_PREFIX` that may stand anywhere, in lower case. -/
def CREDENTIAL_SHAPES : List (List Piece) :=
  [[.lit (str "sk_live")], [.lit (str "sk_test")],
    [.lit (str "xox"), .times (fun c => (str "baprs").contains c) 1, .lit (str "-")],
    [.lit (str "gh"), .times (fun c => (str "pousr").contains c) 1, .lit (str "_")],
    [.lit (str "akia"), .times (fun c => isDigit c || isLower c) 16],
    [.lit (str "-----begin")],
    [.lit (str "eyj"), .run (fun c => isDigit c || isLower c || c == unit '_' || c == unit '-') 10, .lit (str ".")]]

/-- The shape of `CREDENTIAL_PREFIX` that stands behind `\b`. -/
def SK_SHAPE : List Piece := [.lit (str "sk-"), .times (fun c => isDigit c || isLower c) 1]

def credentialPrefixAt (before : Option UInt16) (s : JsString) : Bool :=
  let folded := s.map foldAscii
  (atBoundary before && (Piece.exec SK_SHAPE folded).isSome) || CREDENTIAL_SHAPES.any fun shape => (Piece.exec shape folded).isSome

def CREDENTIAL_PREFIX (s : JsString) : Bool := search credentialPrefixAt s

/-- The words of `SENSITIVE_KEYWORD`. -/
def SENSITIVE_WORDS : List JsString :=
  [str "password", str "passwd", str "secret", str "apikey", str "api_key", str "api-key", str "bearer", str "credential",
    str "privatekey", str "private_key", str "private key", str "private-key", str "passphrase"]

def sensitiveKeywordAt (before : Option UInt16) (s : JsString) : Bool :=
  atBoundary before && SENSITIVE_WORDS.any fun word =>
    match stripLit word (s.map foldAscii) with
    | none => false
    | some rest => !(rest.head?.any isWord)

def SENSITIVE_KEYWORD (s : JsString) : Bool := search sensitiveKeywordAt s

/-- `[^/\s:@]` -/
def isUserUnit (c : UInt16) : Bool := c != unit '/' && !isSpace c && c != unit ':' && c != unit '@'

/-- `[^/\s@]` -/
def isPassUnit (c : UInt16) : Bool := c != unit '/' && !isSpace c && c != unit '@'

/-- A userinfo and its `@`, as it stands after `//`. -/
def USERINFO : List Piece := [.run isUserUnit 1, .lit (str ":"), .run isPassUnit 1, .lit (str "@")]

/-- `/(\/\/)[^/\s:@]+:[^/\s@]+@/g` -/
def URL_USERINFO_SEGMENT : Regex Unit := alternatives [.lit (str "//") :: USERINFO]

def URL_USERINFO_CREDENTIAL (s : JsString) : Bool := search (fun _ s => (URL_USERINFO_SEGMENT.exec s).isSome) s

def CREDENTIAL_NETS : List (JsString → Bool) := [CREDENTIAL_PREFIX, SENSITIVE_KEYWORD, URL_USERINFO_CREDENTIAL]

def looksUnsafe (s : JsString) : Bool :=
  let spanPreserving := stripMarkers s SPAN_PRESERVING_FILLER
  let legacy := stripMarkers s LEGACY_SPACE_FILLER
  (CREDENTIAL_NETS.any fun net => net spanPreserving) || CREDENTIAL_NETS.any fun net => net legacy

/-- `-----END[^-]*-----` -/
def PEM_END : List Piece := [.lit (str "-----END"), .run (fun c => c != unit '-') 0, .lit (str "-----")]

/-- What follows `-----BEGIN`: the fewest units up to an end. -/
def pemRest : JsString → Option Nat
  | [] => none
  | c :: s =>
    match Piece.exec PEM_END (c :: s) with
    | some n => some n
    | none => (pemRest s).map (· + 1)

/-- `/-----BEGIN[\s\S]*?-----END[^-]*-----/g` -/
def PEM_BLOCK : Regex Unit where
  exec s := (stripLit (str "-----BEGIN") s).bind fun rest => (pemRest rest).map fun n => ((str "-----BEGIN").length + n, ())

/-- The shapes of `CREDENTIAL_TOKEN`, in the order of its alternatives. -/
def TOKEN_SHAPES : List (List Piece) :=
  [[.lit (str "sk-"), .times isAlnum 1, .run isKeyUnit 6],
    [.lit (str "sk_live_"), .run isAlnum 6], [.lit (str "sk_test_"), .run isAlnum 6],
    [.lit (str "xox"), .times (fun c => (str "baprs").contains c) 1, .lit (str "-"), .run (fun c => isAlnum c || c == unit '-') 6],
    [.lit (str "gh"), .times (fun c => (str "pousr").contains c) 1, .lit (str "_"), .run isAlnum 20],
    [.lit (str "AKIA"), .times (fun c => isDigit c || isUpper c) 16],
    [.lit (str "eyJ"), .run isKeyUnit 6, .lit (str "."), .run isKeyUnit 6, .lit (str "."), .run isKeyUnit 1],
    [.lit (str "eyJ"), .run isKeyUnit 6, .lit (str "."), .run isKeyUnit 6]]

def CREDENTIAL_TOKEN : Regex Unit := alternatives TOKEN_SHAPES

def isRedactionSafe (value : JsString) : Bool := !looksUnsafe value

def replacePem (s : JsString) : JsString := PEM_BLOCK.replace (fun _ => REDACTED_CREDENTIAL) s

/-- `s.replace(URL_USERINFO_SEGMENT, "$1" + REDACTED_CREDENTIAL + "@")` -/
def replaceUserinfo (s : JsString) : JsString := URL_USERINFO_SEGMENT.replace (fun _ => str "//" ++ REDACTED_CREDENTIAL ++ str "@") s

def replaceTokens (s : JsString) : JsString := CREDENTIAL_TOKEN.replace (fun _ => REDACTED_CREDENTIAL) s

/-- The value with every recognized shape replaced. -/
def scrub (value : JsString) : JsString := replaceTokens (replaceUserinfo (replacePem value))

def redactString (value : JsString) : JsString :=
  let scrubbed := scrub value
  if looksUnsafe scrubbed then REDACTED_FIELD else scrubbed

end sow.domain
