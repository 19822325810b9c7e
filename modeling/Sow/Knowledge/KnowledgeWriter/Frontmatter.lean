import Sow.Js.Json
import Sow.Js.Map

open sow.js

namespace sow.knowledge_writer

def FM_FENCE : JsString := str "---"

/-- The reserved key that holds a note's provenance stamp. -/
def KW_STAMP_FRONTMATTER_KEY : JsString := str "kwStamp"

def isLetter (c : UInt16) : Bool := (65 ≤ c.toNat && c.toNat ≤ 90) || (97 ≤ c.toNat && c.toNat ≤ 122)

/-- A word character, a blank, or one of `.`, `/` and `-`. -/
def isPlainUnit (c : UInt16) : Bool :=
  isLetter c || Json.isDigit c || c == unit '_' || c == unit ' ' || c == unit '.' || c == unit '/' || c == unit '-'

/-- A letter, then only word characters, blanks and inert punctuation. -/
def isSafePlain : JsString → Bool
  | [] => false
  | c :: s => isLetter c && s.all isPlainUnit

/-- The words that YAML would type as a boolean or as null. -/
def typedWords : List JsString :=
  [str "y", str "yes", str "n", str "no", str "true", str "false", str "on", str "off", str "null"]

def needsYamlQuoting (s : JsString) : Bool :=
  if s = [] then true
  else if s ≠ trim s then true
  else if !isSafePlain s then true
  else typedWords.contains (s.map foldCase)

/-- An upper-case hexadecimal digit. -/
def upperHexDigit (n : Nat) : UInt16 := UInt16.ofNat (if n < 10 then 48 + n else 55 + n)

/-- The units that `yamlDoubleQuote` writes as a numeric escape. -/
def isUnprintable (c : UInt16) : Bool :=
  let n := c.toNat
  n ≤ 8 || n == 11 || n == 12 || (14 ≤ n && n ≤ 31) || (127 ≤ n && n ≤ 159) || n == 0x2028 || n == 0x2029

def numericEscape (c : UInt16) : JsString :=
  let n := c.toNat
  if n ≤ 255 then str "\\x" ++ [upperHexDigit (n / 16 % 16), upperHexDigit (n % 16)]
  else str "\\u" ++ [upperHexDigit (n / 4096 % 16), upperHexDigit (n / 256 % 16), upperHexDigit (n / 16 % 16),
    upperHexDigit (n % 16)]

/-- The replacements of `yamlDoubleQuote` on one unit; none of them writes a unit
    that a later one rewrites. -/
def yamlEscapeUnit (c : UInt16) : JsString :=
  if c = unit '\\' then str "\\\\"
  else if c = unit '"' then str "\\\""
  else if c = unit '\n' then str "\\n"
  else if c = unit '\r' then str "\\r"
  else if c = unit '\t' then str "\\t"
  else if isUnprintable c then numericEscape c
  else [c]

def yamlDoubleQuote (s : JsString) : JsString := str "\"" ++ s.flatMap yamlEscapeUnit ++ str "\""

/-- The text a value takes in a note; an undefined one is interpolated by its name. -/
def serializeScalar : Option Json → JsString
  | none => str "undefined"
  | some (.str s) => if needsYamlQuoting s then yamlDoubleQuote s else s
  | some value => value.stringify

/-- The value of `n` hexadecimal digits at the start of a string. -/
def hexPrefixed (n : Nat) (s : JsString) : Option UInt16 :=
  let digits := s.take n
  if digits.length = n then
    (digits.mapM Json.hexValue).map fun values => UInt16.ofNat (values.foldl (fun acc v => acc * 16 + v) 0)
  else none

/-- What follows a backslash inside a double-quoted scalar: the unit it stands for
    and the units it takes, or nothing for an escape the serializer never writes. -/
def scalarEscapeAt : JsString → Option (UInt16 × Nat)
  | [] => none
  | n :: s =>
    if n = unit '\\' then some (unit '\\', 1)
    else if n = unit '"' then some (unit '"', 1)
    else if n = unit 'n' then some (unit '\n', 1)
    else if n = unit 'r' then some (unit '\r', 1)
    else if n = unit 't' then some (unit '\t', 1)
    else if n = unit 'x' then (hexPrefixed 2 s).map fun v => (v, 3)
    else if n = unit 'u' then (hexPrefixed 4 s).map fun v => (v, 5)
    else none

/-- The loop of `deserializeScalar`, with `skip` units of the last escape to pass. -/
def decodeScalar : Nat → JsString → JsString
  | _, [] => []
  | skip + 1, _ :: s => decodeScalar skip s
  | 0, c :: s =>
    if c ≠ unit '\\' then c :: decodeScalar 0 s
    else
      match scalarEscapeAt s with
      | some (v, n) => v :: decodeScalar n s
      | none => c :: decodeScalar 0 s

def deserializeScalar (raw : JsString) : JsString :=
  if raw.length < 2 ∨ raw.head? ≠ some (unit '"') ∨ raw.getLast? ≠ some (unit '"') then raw
  else decodeScalar 0 (slice raw 1 (raw.length - 1))

structure ParsedNote where
  frontmatter : Map JsString JsString
  body : JsString
  deriving DecidableEq

/-- The entry of one line of the block: the text around its first `:`, trimmed. -/
def parseLine (line : JsString) : Option (JsString × JsString) :=
  (indexOf (str ":") line).map fun sep => (trim (slice line 0 sep), trim (line.drop (sep + 1)))

/-- `frontmatter.set` for a line that has a `:`; other lines are passed over. -/
def setLine (fm : Map JsString JsString) (line : JsString) : Map JsString JsString :=
  match parseLine line with
  | none => fm
  | some (key, value) => fm.set key value

def parseLines (lines : List JsString) : Map JsString JsString := lines.foldl setLine .empty

def parseNote (content : JsString) : ParsedNote :=
  if startsWith content (FM_FENCE ++ str "\n") then
    match indexOfFrom (str "\n" ++ FM_FENCE ++ str "\n") content FM_FENCE.length with
    | none => ⟨.empty, content⟩
    | some closeIdx =>
      let block := slice content (FM_FENCE.length + 1) closeIdx
      ⟨parseLines (split (unit '\n') block), content.drop (closeIdx + FM_FENCE.length + 2)⟩
  else ⟨.empty, content⟩

/-- The line of one entry. -/
def entryLine (entry : JsString × JsString) : JsString := entry.1 ++ str ": " ++ entry.2

def composeNote (frontmatter : Map JsString JsString) (body : JsString) : JsString :=
  if frontmatter.size = 0 then body
  else
    let lines := join (str "\n") (frontmatter.entries.map entryLine)
    FM_FENCE ++ str "\n" ++ lines ++ str "\n" ++ FM_FENCE ++ str "\n" ++ body

/-- `s.replace(/\r\n/gu, "\n")` -/
def foldCrLf : JsString → JsString
  | [] => []
  | [c] => [c]
  | c :: d :: s => if c = unit '\r' ∧ d = unit '\n' then d :: foldCrLf s else c :: foldCrLf (d :: s)

/-- `s.replace(/\r/gu, "\n")` -/
def foldCr (s : JsString) : JsString := s.map fun c => if c = unit '\r' then unit '\n' else c

/-- The reader's normalization of a note framed by another tool. -/
def normalizeNote (content : JsString) : JsString :=
  let stripped := if content.head? = some 0xFEFF then content.drop 1 else content
  let lf := foldCr (foldCrLf stripped)
  if endsWith lf (str "\n") then lf else lf ++ str "\n"

def readFrontmatterField (content key : JsString) : Option JsString :=
  ((parseNote (normalizeNote content)).frontmatter.get key).map deserializeScalar

end sow.knowledge_writer
