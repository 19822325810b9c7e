import Sow.Js.Json
import Sow.Js.Path
import Sow.Knowledge.MarkdownVault.AtomicWrite
import Sow.Knowledge.MarkdownVault.Neutralize

open sow.js sow.markdown_vault

namespace sow.workflows

/-- What the slugs read of Unicode: the compatibility decomposition, and the letters and numbers.
    A character of ASCII stands for itself, and no other one is moved across it. -/
structure SlugTables where
  nfkd : JsString → JsString
  isLetterOrNumber : Char → Bool
  nfkd_nil : nfkd [] = []
  nfkd_ascii : ∀ (a : JsString) (c : UInt16) (b : JsString), c.toNat < 128 → nfkd (a ++ c :: b) = nfkd a ++ c :: nfkd b
  ascii : ∀ c : Char, c.toNat < 128 → isLetterOrNumber c = c.isAlphanum

/-- The tables of Unicode, for texts in ASCII. -/
def asciiSlugs : SlugTables where
  nfkd s := s
  isLetterOrNumber c := c.isAlphanum
  nfkd_nil := rfl
  nfkd_ascii _ _ _ _ := rfl
  ascii _ _ := rfl

section slug

variable (tables : SlugTables)

/-- The text so far, and whether characters are waiting to become one hyphen. -/
structure Runs where
  out : JsString
  pending : Bool

def Runs.next (runs : Runs) (c : Char) : Runs :=
  if tables.isLetterOrNumber c then ⟨runs.out ++ (if runs.pending then str "-" else []) ++ codeUnits c, false⟩
  else ⟨runs.out, true⟩

/-- `s.replace(/[^\p{L}\p{N}]+/gu, "-")` -/
def hyphenate (s : JsString) : JsString :=
  let runs := (codePoints s).foldl (Runs.next tables) ⟨[], false⟩
  runs.out ++ if runs.pending then str "-" else []

def isHyphen (c : UInt16) : Bool := c = unit '-'

def safeNoteSlug (raw : JsString) : JsString :=
  ((((hyphenate tables (tables.nfkd raw)).dropWhile isHyphen).rdropWhile isHyphen).take 120).rdropWhile isHyphen

/-- A workspace id that may stand in a path as it is. -/
def isSafeSegment (ws : JsString) : Bool :=
  !(decide (ws.length = 0) || includes ws (str "/") || includes ws (str "\\") || includes ws (str ".."))

/-- A note of a workspace in a folder: its name is the slug of what it is called, if that has one. -/
def workspaceNotePath (folder workspaceId raw : JsString) : Option Path :=
  if isSafeSegment workspaceId then
    let leaf := safeNoteSlug tables raw
    if leaf.length = 0 then none else some (folder ++ str "/" ++ workspaceId ++ str "/" ++ leaf ++ str ".md")
  else none

def projectNotePath (workspaceId projectId : JsString) : Option Path :=
  workspaceNotePath tables (str "projects") workspaceId projectId

def meetingNotePath (workspaceId rawTitle : JsString) : Option Path :=
  workspaceNotePath tables (str "meetings") workspaceId rawTitle

def researchNotePath (workspaceId topic : JsString) : Option Path :=
  workspaceNotePath tables (str "Research/Web") workspaceId topic

end slug

mutual

/-- `String(value)`. -/
def toText : Json → JsString
  | .null => str "null"
  | .bool true => str "true"
  | .bool false => str "false"
  | .num text => text
  | .str s => s
  | .arr items => joinItems items
  | .obj _ => str "[object Object]"

/-- The items of an array between commas; `null` leaves an empty place. -/
def joinItems : List Json → JsString
  | [] => []
  | [v] => itemText v
  | v :: w :: rest => itemText v ++ str "," ++ joinItems (w :: rest)

def itemText : Json → JsString
  | .null => []
  | .bool true => str "true"
  | .bool false => str "false"
  | .num text => text
  | .str s => s
  | .arr items => joinItems items
  | .obj _ => str "[object Object]"

end

mutual

/-- Text is neutralized, also inside arrays; other values pass. -/
def neutralizeFrontmatterValue : Json → Json
  | .str s => .str (neutralizeRegionMarkers s)
  | .arr items => .arr (neutralizeItems items)
  | v => v

def neutralizeItems : List Json → List Json
  | [] => []
  | v :: rest => neutralizeFrontmatterValue v :: neutralizeItems rest

end

def PROJECT_STATUS_REGION : JsString := str "project-status"

def MEETING_OUTPUTS_REGION : JsString := str "meeting-outputs"

def composeProjectStatusNote (title regionBody : JsString) : JsString :=
  str "# " ++ neutralizeRegionMarkers title ++ str " — Status\n\n" ++
    str "<!-- kw:region:" ++ PROJECT_STATUS_REGION ++ str " -->\n" ++ regionBody ++
    str "\n<!-- /kw:region:" ++ PROJECT_STATUS_REGION ++ str " -->\n"

def composeMeetingNote (regionBody : JsString) : JsString :=
  str "<!-- kw:region:" ++ MEETING_OUTPUTS_REGION ++ str " -->\n" ++ regionBody ++
    str "\n<!-- /kw:region:" ++ MEETING_OUTPUTS_REGION ++ str " -->\n"

theorem not_mem_codeUnits {c : Char} {d : UInt16} (hd : d.toNat < 128) (hchar : c.toNat ≠ d.toNat) : d ∉ codeUnits c := by
  unfold codeUnits
  split
  · next hsmall =>
    rw [List.mem_singleton]
    rintro rfl
    rw [UInt16.toNat_ofNat'] at hchar
    omega
  · next hlarge =>
    have hvalid := c.valid
    have hbound : c.toNat < 0x110000 := by
      unfold UInt32.isValidChar Nat.isValidChar at hvalid
      change c.val.toNat < 0x110000
      omega
    rw [List.mem_cons, List.mem_singleton]
    rintro (rfl | rfl)
    · rw [UInt16.toNat_ofNat'] at hd
      omega
    · rw [UInt16.toNat_ofNat'] at hd
      omega

theorem slash_not_mem_hyphenate {tables : SlugTables} (s : JsString) : unit '/' ∉ hyphenate tables s := by
  have hruns : ∀ (points : List Char) (runs : Runs), unit '/' ∉ runs.out → unit '/' ∉ (points.foldl (Runs.next tables) runs).out := by
    intro points
    induction points with
    | nil => exact fun runs h => h
    | cons c points ih =>
      intro runs hout
      refine ih _ ?_
      unfold Runs.next
      split
      · next hletter =>
        have hslash : unit '/' ∉ codeUnits c := by
          refine not_mem_codeUnits (by decide) fun hc => ?_
          have hchar : c = '/' := Char.toNat_inj.mp hc
          rw [hchar, tables.ascii _ (by decide)] at hletter
          revert hletter
          decide
        have hhyphen : unit '/' ∉ (if runs.pending then str "-" else []) := by
          cases runs.pending with
          | false => exact List.not_mem_nil
          | true => decide
        rw [List.mem_append, List.mem_append]
        rintro ((h | h) | h)
        · exact hout h
        · exact hhyphen h
        · exact hslash h
      · exact hout
  unfold hyphenate
  dsimp only
  rw [List.mem_append]
  rintro (h | h)
  · exact hruns _ _ List.not_mem_nil h
  · split at h
    · revert h
      decide
    · cases h

section escapes

variable {tables : SlugTables}

theorem codePoints_append_ascii {c : UInt16} (hc : c.toNat < 128) (a b : JsString) :
    codePoints (a ++ c :: b) = codePoints a ++ scalarOf c :: codePoints b := by
  have hhigh : isHighSurrogate c = false := by
    unfold isHighSurrogate
    simp only [Bool.and_eq_false_iff, decide_eq_false_iff_not]
    omega
  have hlow : isLowSurrogate c = false := by
    unfold isLowSurrogate
    simp only [Bool.and_eq_false_iff, decide_eq_false_iff_not]
    omega
  have halone : ∀ b, codePoints (c :: b) = scalarOf c :: codePoints b := by
    intro b
    cases b with
    | nil => rfl
    | cons d b => rw [codePoints, hhigh, Bool.false_and, if_neg Bool.false_ne_true]
  fun_induction codePoints a with
  | case1 => exact halone b
  | case2 d =>
    rw [List.singleton_append, codePoints, hlow, Bool.and_false, if_neg Bool.false_ne_true, halone]
    rfl
  | case3 d e s hpair ih => rw [List.cons_append, List.cons_append, codePoints, if_pos hpair, ih, List.cons_append]
  | case4 d e s hpair ih =>
    rw [List.cons_append] at ih ⊢
    rw [List.cons_append, codePoints, if_neg hpair, ih, List.cons_append]

/-- A character that is neither a letter nor a number only leaves a hyphen waiting. -/
theorem Runs.next_other {c : UInt16} (hc : c.toNat < 128) (hother : (scalarOf c).isAlphanum = false) (runs : Runs) :
    runs.next tables (scalarOf c) = ⟨runs.out, true⟩ := by
  have hscalar : (scalarOf c).toNat < 128 := by
    unfold scalarOf
    have hsurrogate : isSurrogate c = false := by
      unfold isSurrogate isHighSurrogate isLowSurrogate
      simp only [Bool.or_eq_false_iff, Bool.and_eq_false_iff, decide_eq_false_iff_not]
      omega
    rw [if_neg (by simp [hsurrogate])]
    have hvalid : c.toNat.isValidChar := by
      unfold Nat.isValidChar
      omega
    have hnat : (Char.ofNat c.toNat).toNat = c.toNat := by
      rw [Char.ofNat, dif_pos hvalid]
      exact UInt32.toNat_ofNatLT ..
    rwa [hnat]
  unfold Runs.next
  rw [tables.ascii _ hscalar, hother, if_neg Bool.false_ne_true]

/-- A backslash between `<` and `!` is lost in the run of characters around it. -/
theorem foldl_escapes (tables : SlugTables) {p : Bool} {s o : JsString} (h : Escapes p s o) (hpre : JsString) (hp : p = true → ∃ a, hpre = a ++ [unit '<'])
    (runs : Runs) :
    (codePoints (tables.nfkd (hpre ++ s))).foldl (Runs.next tables) runs =
      (codePoints (tables.nfkd (hpre ++ o))).foldl (Runs.next tables) runs := by
  induction h generalizing hpre runs with
  | nil p => rfl
  | keep p c hs ih =>
    have hstep := ih (hpre ++ [c]) (fun hc => ⟨hpre, by rw [beq_iff_eq.mp hc]⟩) runs
    simpa using hstep
  | @insert s o hs ih =>
    obtain ⟨a, rfl⟩ := hp rfl
    have hnfkd : ∀ (c : UInt16) (b : JsString), c.toNat < 128 → tables.nfkd (c :: b) = c :: tables.nfkd b := by
      intro c b hc
      have h := tables.nfkd_ascii [] c b hc
      rwa [tables.nfkd_nil, List.nil_append, List.nil_append] at h
    have hbang : (unit '!').toNat < 128 := by decide
    have hback : (unit '\\').toNat < 128 := by decide
    have hangle : (unit '<').toNat < 128 := by decide
    have hleft : tables.nfkd (a ++ [unit '<'] ++ unit '!' :: s) = tables.nfkd a ++ unit '<' :: ([] ++ unit '!' :: tables.nfkd s) := by
      rw [List.append_assoc, List.singleton_append, tables.nfkd_ascii _ _ _ hangle, hnfkd _ _ hbang]
      rfl
    have hright : tables.nfkd (a ++ [unit '<'] ++ unit '\\' :: unit '!' :: o) =
        tables.nfkd a ++ unit '<' :: ([] ++ unit '\\' :: ([] ++ unit '!' :: tables.nfkd o)) := by
      rw [List.append_assoc, List.singleton_append, tables.nfkd_ascii _ _ _ hangle, hnfkd _ _ hback, hnfkd _ _ hbang]
      rfl
    rw [hleft, hright, codePoints_append_ascii hangle, codePoints_append_ascii hangle, codePoints_append_ascii hbang,
      codePoints_append_ascii hback, codePoints_append_ascii hbang]
    simp only [codePoints, List.nil_append, List.foldl_append, List.foldl_cons]
    rw [Runs.next_other hangle (by decide), Runs.next_other hbang (by decide), Runs.next_other hback (by decide),
      Runs.next_other hbang (by decide)]
    exact ih [] (fun hfalse => by cases hfalse) _

/-- Escaped markers leave a slug as it is. -/
theorem safeNoteSlug_escapes {s o : JsString} (h : Escapes false s o) : safeNoteSlug tables o = safeNoteSlug tables s := by
  have hruns := foldl_escapes tables h [] (fun hfalse => by cases hfalse) ⟨[], false⟩
  rw [List.nil_append, List.nil_append] at hruns
  unfold safeNoteSlug hyphenate
  rw [hruns]

end escapes

end sow.workflows
