import Sow.Js.Map
import Sow.Js.Utf8

namespace sow.js

/-- A JSON value; a number is carried as its JSON text. -/
inductive Json where
  | null
  | bool (b : Bool)
  | num (text : JsString)
  | str (s : JsString)
  | arr (items : List Json)
  | obj (fields : List (JsString × Json))

namespace Json

/-- The lower-case hexadecimal digit of a value below sixteen. -/
def hexDigit (n : Nat) : UInt16 := UInt16.ofNat (if n < 10 then 48 + n else 87 + n)

/-- Four hexadecimal digits of a code unit. -/
def hex4 (c : UInt16) : JsString :=
  let n := c.toNat
  [hexDigit (n / 4096 % 16), hexDigit (n / 256 % 16), hexDigit (n / 16 % 16), hexDigit (n % 16)]

def unicodeEscape (c : UInt16) : JsString := js.str "\\u" ++ hex4 c

/-- A unit outside a surrogate pair, as `JSON.stringify` writes it. -/
def quoteUnit (c : UInt16) : JsString :=
  if c = unit '"' then js.str "\\\""
  else if c = unit '\\' then js.str "\\\\"
  else if c = 8 then js.str "\\b"
  else if c = 9 then js.str "\\t"
  else if c = 10 then js.str "\\n"
  else if c = 12 then js.str "\\f"
  else if c = 13 then js.str "\\r"
  else if c.toNat < 32 || isSurrogate c then unicodeEscape c
  else [c]

/-- The inside of a quoted string; a surrogate pair is written as it is. -/
def quoteUnits : JsString → JsString
  | [] => []
  | [c] => quoteUnit c
  | c :: d :: s =>
    if isHighSurrogate c && isLowSurrogate d then c :: d :: quoteUnits s
    else quoteUnit c ++ quoteUnits (d :: s)

def quote (s : JsString) : JsString := unit '"' :: quoteUnits s ++ [unit '"']

mutual

/-- `JSON.stringify(value)` without indentation. -/
def stringify : Json → JsString
  | .null => js.str "null"
  | .bool true => js.str "true"
  | .bool false => js.str "false"
  | .num text => text
  | .str s => quote s
  | .arr items => js.str "[" ++ stringifyItems items ++ js.str "]"
  | .obj fields => js.str "\x7b" ++ stringifyFields fields ++ js.str "\x7d"

def stringifyItems : List Json → JsString
  | [] => []
  | [v] => stringify v
  | v :: w :: rest => stringify v ++ js.str "," ++ stringifyItems (w :: rest)

def stringifyFields : List (JsString × Json) → JsString
  | [] => []
  | [(k, v)] => quote k ++ js.str ":" ++ stringify v
  | (k, v) :: f :: rest => quote k ++ js.str ":" ++ stringify v ++ js.str "," ++ stringifyFields (f :: rest)

end

/-- White space of the JSON grammar. -/
def isJsonSpace (c : UInt16) : Bool := c == 32 || c == 9 || c == 10 || c == 13

def skipSpace (s : JsString) : JsString := s.dropWhile isJsonSpace

def hexValue (c : UInt16) : Option Nat :=
  let n := c.toNat
  if 48 ≤ n && n ≤ 57 then some (n - 48)
  else if 97 ≤ n && n ≤ 102 then some (n - 87)
  else if 65 ≤ n && n ≤ 70 then some (n - 55)
  else none

/-- The unit that a one-letter escape stands for. -/
def simpleEscape (c : UInt16) : Option UInt16 :=
  if c = unit '"' then some (unit '"')
  else if c = unit '\\' then some (unit '\\')
  else if c = unit '/' then some (unit '/')
  else if c = unit 'b' then some 8
  else if c = unit 'f' then some 12
  else if c = unit 'n' then some 10
  else if c = unit 'r' then some 13
  else if c = unit 't' then some 9
  else none

/-- What follows the backslash of an escape: the unit it stands for, and its length. -/
def unescape : JsString → Option (UInt16 × Nat)
  | [] => none
  | e :: s =>
    if e = unit 'u' then
      match s with
      | a :: b :: c :: d :: _ => do
        let a ← hexValue a
        let b ← hexValue b
        let c ← hexValue c
        let d ← hexValue d
        some (UInt16.ofNat (a * 4096 + b * 256 + c * 16 + d), 5)
      | _ => none
    else (simpleEscape e).map fun v => (v, 1)

/-- The rest of a string literal after its opening quote, and what follows it.
    `skip` units of the last escape are still to pass. -/
def scanString (acc : JsString) : Nat → JsString → Option (JsString × JsString)
  | _, [] => none
  | skip + 1, _ :: s => scanString acc skip s
  | 0, c :: s =>
    if c = unit '"' then some (acc, s)
    else if c = unit '\\' then
      match unescape s with
      | some (v, n) => scanString (acc ++ [v]) n s
      | none => none
    else if c.toNat < 32 then none
    else scanString (acc ++ [c]) 0 s

def isDigit (c : UInt16) : Bool := 48 ≤ c.toNat && c.toNat ≤ 57

/-- One or more digits. -/
def scanDigits (s : JsString) : Option (JsString × JsString) :=
  let digits := s.takeWhile isDigit
  if digits = [] then none else some (digits, s.dropWhile isDigit)

/-- A number of the JSON grammar. -/
def scanNumber (s : JsString) : Option (JsString × JsString) := do
  let (sign, s) := match s with
    | c :: s' => if c = unit '-' then ([c], s') else ([], s)
    | [] => ([], s)
  let (whole, s) ← match s with
    | c :: s' => if c = unit '0' then some ([c], s') else scanDigits s
    | [] => none
  let (fraction, s) ← match s with
    | c :: s' =>
      if c = unit '.' then (scanDigits s').map fun (digits, rest) => (c :: digits, rest) else some ([], s)
    | [] => some ([], s)
  let (exponent, s) ← match s with
    | c :: s' =>
      if c = unit 'e' || c = unit 'E' then
        match s' with
        | d :: s'' =>
          if d = unit '+' || d = unit '-' then
            (scanDigits s'').map fun (digits, rest) => (c :: d :: digits, rest)
          else (scanDigits s').map fun (digits, rest) => (c :: digits, rest)
        | [] => none
      else some ([], s)
    | [] => some ([], s)
  some (sign ++ whole ++ fraction ++ exponent, s)

def scanLiteral (lit s : JsString) (v : Json) : Option (Json × JsString) :=
  if lit.isPrefixOf s then some (v, s.drop lit.length) else none

mutual

/-- One value with no white space before it. -/
def parseValue : Nat → JsString → Option (Json × JsString)
  | 0, _ => none
  | _ + 1, [] => none
  | fuel + 1, c :: s =>
    if c = unit '{' then parseFields fuel .empty (skipSpace s)
    else if c = unit '[' then
      match skipSpace s with
      | [] => none
      | d :: s' => if d = unit ']' then some (.arr [], s') else parseItems fuel [] (d :: s')
    else if c = unit '"' then (scanString [] 0 s).map fun (v, rest) => (.str v, rest)
    else if c = unit 't' then scanLiteral (js.str "true") (c :: s) (.bool true)
    else if c = unit 'f' then scanLiteral (js.str "false") (c :: s) (.bool false)
    else if c = unit 'n' then scanLiteral (js.str "null") (c :: s) .null
    else (scanNumber (c :: s)).map fun (text, rest) => (.num text, rest)

/-- The items of an array from one that must be there. -/
def parseItems : Nat → List Json → JsString → Option (Json × JsString)
  | 0, _, _ => none
  | fuel + 1, acc, s =>
    match parseValue fuel s with
    | none => none
    | some (v, rest) =>
      match skipSpace rest with
      | [] => none
      | d :: rest =>
        if d = unit ']' then some (.arr (acc ++ [v]), rest)
        else if d = unit ',' then parseItems fuel (acc ++ [v]) (skipSpace rest)
        else none

/-- The fields of an object, or its end when it has none so far; a later field of
    a name overwrites an earlier one. -/
def parseFields : Nat → Map JsString Json → JsString → Option (Json × JsString)
  | 0, _, _ => none
  | _ + 1, _, [] => none
  | fuel + 1, acc, c :: s =>
    if c = unit '}' && acc.entries.isEmpty then some (.obj [], s)
    else if c = unit '"' then
      match scanString [] 0 s with
      | none => none
      | some (key, rest) =>
        match skipSpace rest with
        | [] => none
        | d :: rest =>
          if d = unit ':' then
            match parseValue fuel (skipSpace rest) with
            | none => none
            | some (v, rest) =>
              match skipSpace rest with
              | [] => none
              | e :: rest =>
                if e = unit '}' then some (.obj (acc.set key v).entries, rest)
                else if e = unit ',' then parseFields fuel (acc.set key v) (skipSpace rest)
                else none
          else none
    else none

end

/-- `JSON.parse(text)`, with `none` for a syntax error. Of two nested calls one
    consumes a unit, so twice the length bounds the depth. -/
def parse (text : JsString) : Option Json :=
  match parseValue (2 * text.length + 2) (skipSpace text) with
  | some (v, rest) => if skipSpace rest = [] then some v else none
  | none => none

theorem scanString_skip (acc : JsString) (n : Nat) (s : JsString) :
    scanString acc n s = scanString acc 0 (s.drop n) := by
  induction n generalizing s with
  | zero => rfl
  | succ n ih =>
    cases s with
    | nil => rfl
    | cons c s => rw [scanString, ih, List.drop_succ_cons]

private theorem hexValue_hexDigit {n : Nat} (h : n < 16) : hexValue (hexDigit n) = some n := by
  interval_cases n <;> decide

private theorem hex4_value (c : UInt16) :
    UInt16.ofNat (c.toNat / 4096 % 16 * 4096 + c.toNat / 256 % 16 * 256 + c.toNat / 16 % 16 * 16 + c.toNat % 16) = c := by
  have hlt := c.toNat_lt
  have hsum : c.toNat / 4096 % 16 * 4096 + c.toNat / 256 % 16 * 256 + c.toNat / 16 % 16 * 16 + c.toNat % 16 = c.toNat := by
    omega
  rw [hsum, UInt16.ofNat_toNat]

private theorem scanString_escape (acc : JsString) {v : UInt16} {n : Nat} {s : JsString}
    (h : unescape s = some (v, n)) : scanString acc 0 (unit '\\' :: s) = scanString (acc ++ [v]) 0 (s.drop n) := by
  rw [scanString, if_neg (by decide), if_pos rfl, h]
  exact scanString_skip _ _ _

private theorem scanString_unicodeEscape (acc : JsString) (c : UInt16) (t : JsString) :
    scanString acc 0 (unicodeEscape c ++ t) = scanString (acc ++ [c]) 0 t := by
  have hmod : ∀ n, n % 16 < 16 := fun n => Nat.mod_lt _ (by decide)
  refine scanString_escape acc (s := unit 'u' :: (hex4 c ++ t)) (n := 5) ?_
  simp only [unescape, hex4, List.cons_append, List.nil_append, if_true, hexValue_hexDigit (hmod _),
    Option.bind_eq_bind, Option.bind_some, hex4_value]

private theorem scanString_plain (acc : JsString) {c : UInt16} (t : JsString) (hq : c ≠ unit '"')
    (hb : c ≠ unit '\\') (hc : ¬ c.toNat < 32) : scanString acc 0 (c :: t) = scanString (acc ++ [c]) 0 t := by
  rw [scanString, if_neg hq, if_neg hb, if_neg hc]

/-- A unit is read back as it was written. -/
theorem scanString_quoteUnit (acc : JsString) (c : UInt16) (t : JsString) :
    scanString acc 0 (quoteUnit c ++ t) = scanString (acc ++ [c]) 0 t := by
  rw [quoteUnit]
  split_ifs with h₁ h₂ h₃ h₄ h₅ h₆ h₇ h₈
  · exact h₁ ▸ scanString_escape acc (n := 1) rfl
  · exact h₂ ▸ scanString_escape acc (n := 1) rfl
  · exact h₃ ▸ scanString_escape acc (n := 1) rfl
  · exact h₄ ▸ scanString_escape acc (n := 1) rfl
  · exact h₅ ▸ scanString_escape acc (n := 1) rfl
  · exact h₆ ▸ scanString_escape acc (n := 1) rfl
  · exact h₇ ▸ scanString_escape acc (n := 1) rfl
  · exact scanString_unicodeEscape acc c t
  · refine scanString_plain acc t h₁ h₂ fun hlt => h₈ ?_
    simp [hlt]

/-- `JSON.parse` reads back the string that `JSON.stringify` wrote. -/
theorem scanString_quote (acc s rest : JsString) :
    scanString acc 0 (quoteUnits s ++ unit '"' :: rest) = some (acc ++ s, rest) := by
  fun_induction quoteUnits s generalizing acc with
  | case1 => simp [scanString]
  | case2 c =>
    rw [scanString_quoteUnit]
    simp [scanString]
  | case3 c d s hpair ih =>
    simp only [Bool.and_eq_true] at hpair
    obtain ⟨hc, hd⟩ := hpair
    have hplain : ∀ e : UInt16, (isHighSurrogate e = true ∨ isLowSurrogate e = true) →
        e ≠ unit '"' ∧ e ≠ unit '\\' ∧ ¬ e.toNat < 32 := by
      intro e he
      simp only [isHighSurrogate, isLowSurrogate, Bool.and_eq_true, decide_eq_true_eq] at he
      refine ⟨?_, ?_, by omega⟩
      · rintro rfl
        revert he
        decide
      · rintro rfl
        revert he
        decide
    obtain ⟨hc₁, hc₂, hc₃⟩ := hplain c (.inl hc)
    obtain ⟨hd₁, hd₂, hd₃⟩ := hplain d (.inr hd)
    rw [List.cons_append, List.cons_append, scanString_plain _ _ hc₁ hc₂ hc₃, scanString_plain _ _ hd₁ hd₂ hd₃, ih]
    simp
  | case4 c d s hpair ih =>
    rw [List.append_assoc, scanString_quoteUnit, ih]
    simp

private theorem le_of_mem_printable (l : JsString) (hl : l.all (fun c => decide (32 ≤ c.toNat)) = true) {c : UInt16}
    (h : c ∈ l) : 32 ≤ c.toNat :=
  of_decide_eq_true (List.all_eq_true.mp hl c h)

private theorem le_of_mem_quoteUnit {c d : UInt16} (h : d ∈ quoteUnit c) : 32 ≤ d.toNat := by
  rw [quoteUnit] at h
  have hdigit : ∀ n, 32 ≤ (hexDigit (n % 16)).toNat := by
    have hall : ∀ i : Fin 16, 32 ≤ (hexDigit i).toNat := by decide
    exact fun n => hall ⟨n % 16, Nat.mod_lt _ (by decide)⟩
  split_ifs at h with h₁ h₂ h₃ h₄ h₅ h₆ h₇ h₈
  · exact le_of_mem_printable (js.str "\\\"") rfl h
  · exact le_of_mem_printable (js.str "\\\\") rfl h
  · exact le_of_mem_printable (js.str "\\b") rfl h
  · exact le_of_mem_printable (js.str "\\t") rfl h
  · exact le_of_mem_printable (js.str "\\n") rfl h
  · exact le_of_mem_printable (js.str "\\f") rfl h
  · exact le_of_mem_printable (js.str "\\r") rfl h
  · rcases List.mem_append.mp h with h | h
    · exact le_of_mem_printable (js.str "\\u") rfl h
    · simp only [hex4, List.mem_cons, List.not_mem_nil, or_false] at h
      rcases h with rfl | rfl | rfl | rfl <;> exact hdigit _
  · rw [List.mem_singleton.mp h]
    simp only [Bool.or_eq_true, decide_eq_true_eq, not_or, Nat.not_lt] at h₈
    exact h₈.1

/-- `JSON.stringify` writes a string without control characters. -/
theorem le_of_mem_quote {c : UInt16} {s : JsString} (h : c ∈ quote s) : 32 ≤ c.toNat := by
  have hunits : ∀ c ∈ quoteUnits s, 32 ≤ c.toNat := by
    clear h
    fun_induction quoteUnits s with
    | case1 => simp
    | case2 a => exact fun c hc => le_of_mem_quoteUnit hc
    | case3 a b s hpair ih =>
      simp only [isHighSurrogate, isLowSurrogate, Bool.and_eq_true, decide_eq_true_eq] at hpair
      intro c hc
      simp only [List.mem_cons] at hc
      rcases hc with rfl | rfl | hc
      · omega
      · omega
      · exact ih c hc
    | case4 a b s hpair ih =>
      intro c hc
      rcases List.mem_append.mp hc with hc | hc
      · exact le_of_mem_quoteUnit hc
      · exact ih c hc
  simp only [quote, List.cons_append, List.mem_cons, List.mem_append, List.not_mem_nil, or_false] at h
  rcases h with rfl | h | rfl
  · decide
  · exact hunits c h
  · decide

private theorem isWellFormed_quoteUnit (c : UInt16) : isWellFormed (quoteUnit c) = true := by
  have hlt : ∀ d ∈ unicodeEscape c, d.toNat < 0xD800 := by
    have hdigit : ∀ n, (hexDigit (n % 16)).toNat < 0xD800 := by
      have hall : ∀ i : Fin 16, (hexDigit i).toNat < 0xD800 := by decide
      exact fun n => hall ⟨n % 16, Nat.mod_lt _ (by decide)⟩
    intro d hd
    rcases List.mem_append.mp hd with hd | hd
    · have hbackslash : ∀ d ∈ js.str "\\u", d.toNat < 0xD800 := by decide
      exact hbackslash d hd
    · simp only [hex4, List.mem_cons, List.not_mem_nil, or_false] at hd
      rcases hd with rfl | rfl | rfl | rfl <;> exact hdigit _
  rw [quoteUnit]
  split_ifs with h₁ h₂ h₃ h₄ h₅ h₆ h₇ h₈
  · decide
  · decide
  · decide
  · decide
  · decide
  · decide
  · decide
  · exact isWellFormed_of_lt hlt
  · simp only [Bool.or_eq_true, not_or, Bool.not_eq_true] at h₈
    simp [isWellFormed, h₈.2]

/-- `JSON.stringify` writes a string without lone surrogates. -/
theorem isWellFormed_quote (s : JsString) : isWellFormed (quote s) = true := by
  have hunits : isWellFormed (quoteUnits s) = true := by
    fun_induction quoteUnits s with
    | case1 => rfl
    | case2 c => exact isWellFormed_quoteUnit c
    | case3 c d s hpair ih =>
      rw [isWellFormed, if_pos hpair]
      exact ih
    | case4 c d s hpair ih => exact isWellFormed_append (isWellFormed_quoteUnit c) ih
  exact isWellFormed_append (isWellFormed_append (s := [unit '"']) (by decide) hunits) (by decide)

/-- A quoted string is read back from what begins with it. -/
theorem quote_append_inj {s t rest rest' : JsString} (h : quote s ++ rest = quote t ++ rest') : s = t ∧ rest = rest' := by
  have hshape : ∀ u r : JsString, quote u ++ r = unit '"' :: (quoteUnits u ++ unit '"' :: r) := by
    intro u r
    simp [quote]
  rw [hshape, hshape] at h
  have hscan := scanString_quote [] s rest
  rw [(List.cons.inj h).2, scanString_quote] at hscan
  simpa using (Option.some.inj hscan).symm

/-- A value made of strings and arrays only. -/
inductive Textual : Json → Prop
  | str (s : JsString) : Textual (.str s)
  | arr {items : List Json} (h : ∀ v ∈ items, Textual v) : Textual (.arr items)

theorem stringifyItems_cons (v : Json) (items : List Json) :
    stringifyItems (v :: items) = stringify v ++ items.flatMap fun w => unit ',' :: stringify w := by
  induction items generalizing v with
  | nil => simp [stringifyItems]
  | cons w items ih =>
    rw [stringifyItems, ih, List.flatMap_cons]
    simp [js.str, unit]

/-- The text of an array, up to its bracket, tells the items apart when the text of each does. -/
private theorem stringifyItems_inj {items items' : List Json} {rest rest' : JsString}
    (hhead : ∀ v ∈ items ++ items', ∀ t : JsString, ∃ c u, stringify v ++ t = c :: u ∧ c ≠ unit ']')
    (hitem : ∀ v ∈ items, ∀ w ∈ items', ∀ t u : JsString, stringify v ++ t = stringify w ++ u → v = w ∧ t = u)
    (h : stringifyItems items ++ unit ']' :: rest = stringifyItems items' ++ unit ']' :: rest') : items = items' ∧ rest = rest' := by
  have htail : ∀ vs ws : List Json, (∀ v ∈ vs, v ∈ items) → (∀ w ∈ ws, w ∈ items') →
      (vs.flatMap fun w => unit ',' :: stringify w) ++ unit ']' :: rest =
        (ws.flatMap fun w => unit ',' :: stringify w) ++ unit ']' :: rest' → vs = ws ∧ rest = rest' := by
    intro vs
    induction vs with
    | nil =>
      intro ws _ _ heq
      cases ws with
      | nil => exact ⟨rfl, (List.cons.inj heq).2⟩
      | cons w ws => exact absurd (List.cons.inj heq).1 (by decide)
    | cons v vs ih =>
      intro ws hvs hws heq
      cases ws with
      | nil => exact absurd (List.cons.inj heq).1 (by decide)
      | cons w ws =>
        simp only [List.flatMap_cons, List.cons_append, List.append_assoc, List.cons.injEq, true_and] at heq
        obtain ⟨rfl, hrest⟩ := hitem v (hvs v (List.mem_cons_self ..)) w (hws w (List.mem_cons_self ..)) _ _ heq
        obtain ⟨rfl, hr⟩ := ih ws (fun x hx => hvs x (List.mem_cons_of_mem _ hx)) (fun x hx => hws x (List.mem_cons_of_mem _ hx)) hrest
        exact ⟨rfl, hr⟩
  cases items with
  | nil =>
    cases items' with
    | nil => exact ⟨rfl, (List.cons.inj h).2⟩
    | cons w ws =>
      rw [stringifyItems_cons, List.append_assoc] at h
      obtain ⟨c, u, hc, hne⟩ := hhead w (by simp) ((ws.flatMap fun w => unit ',' :: stringify w) ++ unit ']' :: rest')
      exact absurd (List.cons.inj (h.trans hc)).1.symm hne
  | cons v vs =>
    cases items' with
    | nil =>
      rw [stringifyItems_cons, List.append_assoc] at h
      obtain ⟨c, u, hc, hne⟩ := hhead v (by simp) ((vs.flatMap fun w => unit ',' :: stringify w) ++ unit ']' :: rest)
      exact absurd (List.cons.inj (hc.symm.trans h)).1 hne
    | cons w ws =>
      rw [stringifyItems_cons, stringifyItems_cons, List.append_assoc, List.append_assoc] at h
      obtain ⟨rfl, hrest⟩ := hitem v (List.mem_cons_self ..) w (List.mem_cons_self ..) _ _ h
      obtain ⟨rfl, hr⟩ := htail vs ws (fun x hx => List.mem_cons_of_mem _ hx) (fun x hx => List.mem_cons_of_mem _ hx) hrest
      exact ⟨rfl, hr⟩

theorem Textual.head {v : Json} (h : Textual v) (t : JsString) : ∃ c u, stringify v ++ t = c :: u ∧ c ≠ unit ']' := by
  cases h with
  | str s => exact ⟨_, _, rfl, by decide⟩
  | arr hitems => exact ⟨_, _, rfl, by decide⟩

/-- `JSON.stringify` of strings and arrays is read back from what begins with it. -/
theorem Textual.stringify_append_inj {a b : Json} (ha : Textual a) (hb : Textual b) {rest rest' : JsString}
    (h : stringify a ++ rest = stringify b ++ rest') : a = b ∧ rest = rest' := by
  induction ha generalizing b rest rest' with
  | str s =>
    cases hb with
    | str t =>
      obtain ⟨rfl, hrest⟩ := quote_append_inj h
      exact ⟨rfl, hrest⟩
    | arr hitems => exact absurd (List.cons.inj h).1 (by decide)
  | @arr items hitems ih =>
    cases hb with
    | str t => exact absurd (List.cons.inj h).1 (by decide)
    | @arr items' hitems' =>
      have hbracket : ∀ (l : List Json) (r : JsString), stringify (.arr l) ++ r = unit '[' :: (stringifyItems l ++ unit ']' :: r) := by
        intro l r
        simp [stringify, js.str, unit]
      rw [hbracket, hbracket] at h
      have hall : ∀ v ∈ items ++ items', Textual v := by
        intro v hv
        exact (List.mem_append.mp hv).elim (hitems v) (hitems' v)
      obtain ⟨rfl, hrest⟩ := stringifyItems_inj (fun v hv => (hall v hv).head)
        (fun v hv w hw t u htu => ih v hv (hitems' w hw) htu) (List.cons.inj h).2
      exact ⟨rfl, hrest⟩

/-- No lone surrogate is written: `JSON.stringify` escapes each. -/
theorem Textual.isWellFormed_stringify {v : Json} (h : Textual v) : isWellFormed (stringify v) = true := by
  induction h with
  | str s => exact isWellFormed_quote s
  | @arr items hitems ih =>
    have hitems : isWellFormed (stringifyItems items) = true := by
      cases items with
      | nil => rfl
      | cons v items =>
        rw [stringifyItems_cons]
        refine isWellFormed_append (ih v (List.mem_cons_self ..)) ?_
        have htail : ∀ ws : List Json, (∀ w ∈ ws, isWellFormed (stringify w) = true) →
            isWellFormed (ws.flatMap fun w => unit ',' :: stringify w) = true := by
          intro ws
          induction ws with
          | nil => exact fun _ => rfl
          | cons w ws ihw =>
            intro hws
            rw [List.flatMap_cons, List.cons_append, isWellFormed_cons (by decide)]
            exact isWellFormed_append (hws w (List.mem_cons_self ..)) (ihw fun x hx => hws x (List.mem_cons_of_mem _ hx))
        exact htail items fun w hw => ih w (List.mem_cons_of_mem _ hw)
    rw [stringify]
    exact isWellFormed_append (isWellFormed_append (by decide) hitems) (by decide)

/-- The fields of an object all of whose values are strings. -/
def stringFields (fields : List (JsString × JsString)) : List (JsString × Json) :=
  fields.map fun f => (f.1, .str f.2)

private theorem parseValue_quote (fuel : Nat) (s rest : JsString) :
    parseValue (fuel + 1) (quote s ++ rest) = some (.str s, rest) := by
  have hq : quote s ++ rest = unit '"' :: (quoteUnits s ++ unit '"' :: rest) := by simp [quote]
  rw [hq, parseValue, if_neg (by decide), if_neg (by decide), if_pos rfl, scanString_quote]
  rfl

private theorem parseFields_stringFields (fields : List (JsString × JsString)) (hne : fields ≠ []) (acc : Map JsString Json)
    (fuel : Nat) (hfuel : fields.length < fuel) (rest : JsString) :
    parseFields fuel acc (stringifyFields (stringFields fields) ++ unit '}' :: rest) =
      some (.obj ((stringFields fields).foldl (fun m f => m.set f.1 f.2) acc).entries, rest) := by
  induction fields generalizing acc fuel with
  | nil => exact absurd rfl hne
  | cons f fields ih =>
    obtain ⟨k, v⟩ := f
    obtain ⟨fuel, rfl⟩ : ∃ n, fuel = n + 2 := ⟨fuel - 2, by simp only [List.length_cons] at hfuel; omega⟩
    have hhead : ∀ t, parseFields (fuel + 2) acc (quote k ++ (js.str ":" ++ (quote v ++ t))) =
        match skipSpace t with
        | [] => none
        | e :: rest =>
          if e = unit '}' then some (.obj (acc.set k (.str v)).entries, rest)
          else if e = unit ',' then parseFields (fuel + 1) (acc.set k (.str v)) (skipSpace rest)
          else none := by
      intro t
      have hk : quote k ++ (js.str ":" ++ (quote v ++ t)) =
          unit '"' :: (quoteUnits k ++ unit '"' :: (unit ':' :: (quote v ++ t))) := by
        simp [quote, js.str, unit]
      have hcolon : skipSpace (unit ':' :: (quote v ++ t)) = unit ':' :: (quote v ++ t) := rfl
      have hquote : skipSpace (quote v ++ t) = quote v ++ t := rfl
      rw [hk, parseFields, if_neg (by simp [unit]), if_pos rfl, scanString_quote]
      simp only [hcolon, if_true, hquote, parseValue_quote, List.nil_append]
    cases fields with
    | nil =>
      have htext : stringifyFields (stringFields [(k, v)]) ++ unit '}' :: rest =
          quote k ++ (js.str ":" ++ (quote v ++ unit '}' :: rest)) := by
        simp [stringFields, stringifyFields, stringify]
      rw [htext, hhead]
      rfl
    | cons g fields =>
      have htext : stringifyFields (stringFields ((k, v) :: g :: fields)) ++ unit '}' :: rest =
          quote k ++ (js.str ":" ++ (quote v ++
            unit ',' :: (stringifyFields (stringFields (g :: fields)) ++ unit '}' :: rest))) := by
        simp [stringFields, stringifyFields, stringify, js.str, unit]
      have hnext : skipSpace (stringifyFields (stringFields (g :: fields)) ++ unit '}' :: rest) =
          stringifyFields (stringFields (g :: fields)) ++ unit '}' :: rest := by
        cases fields <;> rfl
      rw [htext, hhead]
      change parseFields (fuel + 1) (acc.set k (.str v)) (skipSpace _) = _
      rw [hnext, ih (by simp) _ _ (by simp only [List.length_cons] at hfuel ⊢; omega)]
      rfl

private theorem length_le_stringifyFields (fields : List (JsString × JsString)) :
    fields.length ≤ (stringifyFields (stringFields fields)).length := by
  induction fields with
  | nil => simp
  | cons f fields ih =>
    cases fields with
    | nil => simp [stringFields, stringifyFields, quote]
    | cons g fields =>
      simp only [stringFields, List.map_cons, stringifyFields, List.length_append, List.length_cons] at ih ⊢
      have hcomma : (js.str ",").length = 1 := rfl
      omega

/-- The text of an object of strings has no control characters. -/
theorem le_of_mem_stringify_stringFields {fields : List (JsString × JsString)} {c : UInt16}
    (h : c ∈ stringify (.obj (stringFields fields))) : 32 ≤ c.toNat := by
  have hfields : ∀ c ∈ stringifyFields (stringFields fields), 32 ≤ c.toNat := by
    have hfield : ∀ (k v : JsString), ∀ c ∈ quote k ++ js.str ":" ++ quote v, 32 ≤ c.toNat := by
      intro k v c hc
      rcases List.mem_append.mp hc with hc | hc
      · rcases List.mem_append.mp hc with hc | hc
        · exact le_of_mem_quote hc
        · exact le_of_mem_printable (js.str ":") rfl hc
      · exact le_of_mem_quote hc
    clear h
    induction fields with
    | nil => simp [stringFields, stringifyFields]
    | cons f fields ih =>
      cases fields with
      | nil => exact hfield f.1 f.2
      | cons g fields =>
        intro c hc
        rcases List.mem_append.mp hc with hc | hc
        · rcases List.mem_append.mp hc with hc | hc
          · exact hfield f.1 f.2 c hc
          · exact le_of_mem_printable (js.str ",") rfl hc
        · exact ih c hc
  rw [stringify] at h
  rcases List.mem_append.mp h with h | h
  · rcases List.mem_append.mp h with h | h
    · exact le_of_mem_printable (js.str "\x7b") rfl h
    · exact hfields c h
  · exact le_of_mem_printable (js.str "\x7d") rfl h

/-- An object of distinct string fields survives a round trip through its text. -/
theorem parse_stringify_stringFields {fields : List (JsString × JsString)} (hne : fields ≠ [])
    (hnd : (fields.map Prod.fst).Nodup) :
    parse (stringify (.obj (stringFields fields))) = some (.obj (stringFields fields)) := by
  have htext : stringify (.obj (stringFields fields)) =
      unit '{' :: (stringifyFields (stringFields fields) ++ unit '}' :: []) := by
    simp [stringify, js.str, unit]
  have hskip : skipSpace (stringifyFields (stringFields fields) ++ unit '}' :: []) =
      stringifyFields (stringFields fields) ++ unit '}' :: [] := by
    cases fields with
    | nil => exact absurd rfl hne
    | cons f fields => cases fields <;> rfl
  have hlen := length_le_stringifyFields fields
  have hkeys : ((stringFields fields).map Prod.fst).Nodup := by
    simpa [stringFields, Function.comp_def] using hnd
  have hentries : ((stringFields fields).foldl (fun m f => m.set f.1 f.2) Map.empty).entries = stringFields fields :=
    Map.entries_ofList hkeys
  rw [parse, htext]
  change (match parseValue (_ + 1) (unit '{' :: _) with | some (v, rest) => _ | none => _) = _
  rw [parseValue, if_pos rfl, hskip, parseFields_stringFields fields hne .empty _ (by
    simp only [List.length_cons, List.length_append]
    omega), hentries]
  rfl

end Json

namespace Json

mutual

/-- Whether two values are the same, members in their order. -/
def same : Json → Json → Bool
  | .null, .null => true
  | .bool a, .bool b => a == b
  | .num a, .num b => decide (a = b)
  | .str a, .str b => decide (a = b)
  | .arr a, .arr b => sameItems a b
  | .obj a, .obj b => sameFields a b
  | _, _ => false

def sameItems : List Json → List Json → Bool
  | [], [] => true
  | v :: items, v' :: items' => same v v' && sameItems items items'
  | _, _ => false

def sameFields : List (JsString × Json) → List (JsString × Json) → Bool
  | [], [] => true
  | (name, v) :: fields, (name', v') :: fields' => decide (name = name') && same v v' && sameFields fields fields'
  | _, _ => false

end

mutual

theorem same_iff (a b : Json) : same a b = true ↔ a = b := by
  cases a with
  | null => cases b <;> simp [same]
  | bool a => cases b <;> simp [same]
  | num a => cases b <;> simp [same]
  | str a => cases b <;> simp [same]
  | arr a =>
    cases b with
    | arr b =>
      rw [same, Json.arr.injEq]
      exact sameItems_iff a b
    | _ => simp [same]
  | obj a =>
    cases b with
    | obj b =>
      rw [same, Json.obj.injEq]
      exact sameFields_iff a b
    | _ => simp [same]

theorem sameItems_iff (a b : List Json) : sameItems a b = true ↔ a = b := by
  match a, b with
  | [], [] => simp [sameItems]
  | [], v :: items => simp [sameItems]
  | v :: items, [] => simp [sameItems]
  | v :: items, v' :: items' => rw [sameItems, Bool.and_eq_true, same_iff v v', sameItems_iff items items', List.cons.injEq]

theorem sameFields_iff (a b : List (JsString × Json)) : sameFields a b = true ↔ a = b := by
  match a, b with
  | [], [] => simp [sameFields]
  | [], e :: fields => simp [sameFields]
  | e :: fields, [] => simp [sameFields]
  | (name, v) :: fields, (name', v') :: fields' =>
    rw [sameFields, Bool.and_eq_true, Bool.and_eq_true, decide_eq_true_eq, same_iff v v', sameFields_iff fields fields',
      List.cons.injEq, Prod.mk.injEq]

end

instance : DecidableEq Json := fun a b => decidable_of_iff _ (same_iff a b)

end Json

end sow.js
