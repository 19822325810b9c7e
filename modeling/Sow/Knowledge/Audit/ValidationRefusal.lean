import Sow.Contracts.GclProjection
import Sow.Js.Number
import Sow.Js.Sort
import Sow.Knowledge.KnowledgeWriter.SecretScan

open sow.js
open sow.contracts (GCL_PROJECTION_SCHEMA_ID)
open sow.domain (isWord)
open sow.knowledge_writer (RefusalIssue SECRET_SCAN_KIND buildSecretScanRejectionAudit)
open sow.policy (AuditSignal HasKeyword isRedactionSafe)

namespace sow.knowledge.audit

def MAXIMAL_CUT : JsString := str "#unknown-candidate-schema"

def KNOWLEDGE_MUTATION_PLAN_SCHEMA_ID : JsString := str "sow:knowledge-mutation-plan"

def GBRAIN_PROPOSED_FACT_SCHEMA_ID : JsString := str "sow:gbrain-proposed-fact"

def SIGNED_PROVENANCE_STAMP_SCHEMA_ID : JsString := str "sow:signed-provenance-stamp"

def FREE_FORM_KEY_REGIONS : Map JsString (List JsString) :=
  .ofList [(KNOWLEDGE_MUTATION_PLAN_SCHEMA_ID, [str "frontmatter", str "payload"]),
    (GBRAIN_PROPOSED_FACT_SCHEMA_ID, [str "proposedContent"]), (SIGNED_PROVENANCE_STAMP_SCHEMA_ID, []),
    (GCL_PROJECTION_SCHEMA_ID, [str "sanitizedPayload"])]

/-- `/^[A-Za-z0-9_]+$/u` -/
def SAFE_REGION_NAME (name : JsString) : Bool := name ≠ [] && name.all isWord

/-- A compiled table; a pattern is the regions of its alternation. -/
structure CompiledRegions where
  patterns : Map JsString (List JsString)
  poisoned : List JsString
  known : List JsString

def compileRegions (compiled : CompiledRegions) (row : JsString × List JsString) : CompiledRegions :=
  let compiled := { compiled with known := compiled.known ++ [row.1] }
  if !row.2.all SAFE_REGION_NAME then { compiled with poisoned := compiled.poisoned ++ [row.1] }
  else if row.2 = [] then compiled
  else { compiled with patterns := compiled.patterns.set row.1 row.2 }

def compileRegionPatterns (table : Map JsString (List JsString)) : CompiledRegions :=
  table.entries.foldl compileRegions ⟨.empty, [], []⟩

/-- `\b` between two units, of which one may be absent. -/
def isBoundary (before after : Option UInt16) : Bool := before.any isWord != after.any isWord

/-- `[./]` -/
def isSeparator (c : UInt16) : Bool := c == unit '.' || c == unit '/'

/-- `\b(?:...)\b[./]` at one place: the length of the region. -/
def regionAt (regions : List JsString) (before : Option UInt16) (s : JsString) : Option Nat :=
  regions.findSome? fun region =>
    (stripLit region s).bind fun rest =>
      if isBoundary before s.head? && isBoundary region.getLast? rest.head? && rest.head?.any isSeparator then some region.length
      else none

/-- Where group 1 of `^(.*?\b(?:...)\b)[./].*$` ends; under the flag `s` the tail matches whatever follows. -/
def cutFrom (regions : List JsString) : Option UInt16 → JsString → Option Nat
  | before, [] => regionAt regions before []
  | before, c :: s =>
    match regionAt regions before (c :: s) with
    | some n => some n
    | none => (cutFrom regions (some c) s).map (· + 1)

def cutWithCompiled (path schemaId : JsString) (compiled : CompiledRegions) : JsString :=
  if !compiled.known.contains schemaId then MAXIMAL_CUT
  else if compiled.poisoned.contains schemaId then MAXIMAL_CUT
  else
    match compiled.patterns.get schemaId with
    | none => path
    | some regions =>
      match cutFrom regions none path with
      | none => path
      | some n => path.take n

def COMPILED_REGIONS : CompiledRegions := compileRegionPatterns FREE_FORM_KEY_REGIONS

def structuralPathOnly (path schemaId : JsString) : JsString := cutWithCompiled path schemaId COMPILED_REGIONS

def MAX_ISSUE_PATH_REFS : Nat := 20

def MAX_REF_LENGTH : Nat := 200

def REF_CLAMP_MARKER : JsString := str "…[clamped]"

def clampRefLength (ref : JsString) : JsString :=
  if ref.length ≤ MAX_REF_LENGTH then ref else slice ref 0 (MAX_REF_LENGTH - REF_CLAMP_MARKER.length) ++ REF_CLAMP_MARKER

structure RefusalSignalInput where
  actor : JsString
  event : JsString
  refPrefix : JsString
  payloadHash : JsString
  beforeSummary : JsString
  schemaId : JsString
  issues : List RefusalIssue

def refusalSummary (issues paths omitted : Nat) : JsString :=
  decimal issues ++ str " issue(s), " ++ decimal paths ++ str " distinct path(s)" ++
    (if omitted > 0 then str ", " ++ decimal omitted ++ str " path(s) not listed" else []) ++ str "; nothing admitted"

/-- `compiled` stands for the `COMPILED_REGIONS` of `structuralPathOnly`. -/
def buildRefusalSignal (compiled : CompiledRegions) (input : RefusalSignalInput) : AuditSignal :=
  let paths := unique (input.issues.map fun i =>
    str "ref:" ++ input.refPrefix ++ str ":" ++ cutWithCompiled i.path input.schemaId compiled)
  let omitted := paths.length - MAX_ISSUE_PATH_REFS
  { actor := input.actor
    event := input.event
    refs := (paths.take MAX_ISSUE_PATH_REFS).map clampRefLength
    payloadHash := input.payloadHash
    beforeSummary := input.beforeSummary
    afterSummary := refusalSummary input.issues.length paths.length omitted
    denialCode := none
    healthSignalClass := none }

section table

/-- What a table of plain names compiles to at one of its schemas. -/
structure CompiledAt (compiled : CompiledRegions) (schemaId : JsString) (regions : List JsString) : Prop where
  known : schemaId ∈ compiled.known
  usable : schemaId ∉ compiled.poisoned
  pattern : compiled.patterns.get schemaId = if regions = [] then none else some regions

variable {compiled : CompiledRegions} {schemaId : JsString} {regions : List JsString}

theorem poisoned_of_ne {row : JsString × List JsString} (hne : row.1 ≠ schemaId) :
    schemaId ∈ (compileRegions compiled row).poisoned ↔ schemaId ∈ compiled.poisoned := by
  unfold compileRegions
  dsimp only
  split
  · simp [Ne.symm hne]
  · split <;> rfl

theorem pattern_of_ne {row : JsString × List JsString} (hne : row.1 ≠ schemaId) :
    (compileRegions compiled row).patterns.get schemaId = compiled.patterns.get schemaId := by
  unfold compileRegions
  dsimp only
  split
  · rfl
  · split
    · rfl
    · exact Map.get_set_of_ne _ _ hne

theorem known_compileRegions (row : JsString × List JsString) : (compileRegions compiled row).known = compiled.known ++ [row.1] := by
  unfold compileRegions
  dsimp only
  split
  · rfl
  · split <;> rfl

/-- A row of plain names is never poisoned. -/
theorem compileRegions_plain (hplain : ∀ region ∈ regions, SAFE_REGION_NAME region = true) :
    compileRegions compiled (schemaId, regions) =
      { compiled with
        known := compiled.known ++ [schemaId]
        patterns := if regions = [] then compiled.patterns else compiled.patterns.set schemaId regions } := by
  have hsafe : (!regions.all SAFE_REGION_NAME) = false := by
    rw [Bool.not_eq_false', List.all_eq_true]
    exact hplain
  unfold compileRegions
  simp only [hsafe]
  split_ifs <;> first | rfl | contradiction

theorem CompiledAt.foldl (h : CompiledAt compiled schemaId regions) {rows : List (JsString × List JsString)}
    (hrows : schemaId ∉ rows.map Prod.fst) : CompiledAt (rows.foldl compileRegions compiled) schemaId regions := by
  induction rows generalizing compiled with
  | nil => exact h
  | cons row rows ih =>
    rw [List.map_cons, List.mem_cons, not_or] at hrows
    refine ih ⟨?_, ?_, ?_⟩ hrows.2
    · rw [known_compileRegions]
      exact List.mem_append_left _ h.known
    · rw [poisoned_of_ne (Ne.symm hrows.1)]
      exact h.usable
    · rw [pattern_of_ne (Ne.symm hrows.1)]
      exact h.pattern

theorem unseen_foldl {rows : List (JsString × List JsString)} (hrows : schemaId ∉ rows.map Prod.fst) :
    (schemaId ∈ (rows.foldl compileRegions compiled).poisoned ↔ schemaId ∈ compiled.poisoned) ∧
      (rows.foldl compileRegions compiled).patterns.get schemaId = compiled.patterns.get schemaId := by
  induction rows generalizing compiled with
  | nil => exact ⟨Iff.rfl, rfl⟩
  | cons row rows ih =>
    rw [List.map_cons, List.mem_cons, not_or] at hrows
    obtain ⟨hpoisoned, hpattern⟩ := @ih (compileRegions compiled row) hrows.2
    exact ⟨hpoisoned.trans (poisoned_of_ne (Ne.symm hrows.1)), hpattern.trans (pattern_of_ne (Ne.symm hrows.1))⟩

theorem compileRegionPatterns_at {table : Map JsString (List JsString)}
    (hget : table.get schemaId = some regions) (hplain : ∀ region ∈ regions, SAFE_REGION_NAME region = true) :
    CompiledAt (compileRegionPatterns table) schemaId regions := by
  obtain ⟨rows, rows', hentries⟩ := List.append_of_mem (Map.get_eq_some_iff.mp hget)
  have hnodup := table.nodup
  rw [hentries, List.map_append, List.map_cons, List.nodup_append, List.nodup_cons] at hnodup
  have hbefore : schemaId ∉ rows.map Prod.fst := fun hmem => hnodup.2.2 schemaId hmem schemaId (List.mem_cons_self ..) rfl
  obtain ⟨hpoisoned, hpattern⟩ := @unseen_foldl ⟨.empty, [], []⟩ schemaId rows hbefore
  unfold compileRegionPatterns
  rw [hentries, List.foldl_append, List.foldl_cons, compileRegions_plain hplain]
  refine CompiledAt.foldl ⟨?_, ?_, ?_⟩ hnodup.2.1.1
  · exact List.mem_append_right _ (List.mem_singleton.mpr rfl)
  · exact fun hmem => List.not_mem_nil (hpoisoned.mp hmem)
  · dsimp only
    split
    · exact hpattern
    · exact Map.get_set_self ..

end table

section cut

variable {regions : List JsString} {before : Option UInt16} {region x rest rest' : JsString} {sep : UInt16}

theorem isWord_of_isSeparator (h : isSeparator sep = true) : isWord sep = false := by
  unfold isSeparator at h
  rw [Bool.or_eq_true, beq_iff_eq, beq_iff_eq] at h
  rcases h with rfl | rfl <;> decide

theorem notMem_of_isSeparator (hplain : SAFE_REGION_NAME region = true) (hsep : isSeparator sep = true) : sep ∉ region := by
  intro hmem
  unfold SAFE_REGION_NAME at hplain
  rw [Bool.and_eq_true, List.all_eq_true] at hplain
  have hword := hplain.2 sep hmem
  rw [isWord_of_isSeparator hsep] at hword
  cases hword

/-- Regions are words, so none is found across a separator. -/
theorem regionAt_append (hplain : ∀ region ∈ regions, SAFE_REGION_NAME region = true) (hsep : isSeparator sep = true)
    (before : Option UInt16) (x rest : JsString) :
    regionAt regions before (x ++ sep :: rest) = regionAt regions before (x ++ [sep]) := by
  have hhead : (x ++ sep :: rest).head? = (x ++ [sep]).head? := by cases x <;> rfl
  unfold regionAt
  rw [hhead]
  induction regions with
  | nil => rfl
  | cons region regions ih =>
    have hmem := notMem_of_isSeparator (hplain region (List.mem_cons_self ..)) hsep
    rw [List.findSome?_cons, List.findSome?_cons, ih fun r hr => hplain r (List.mem_cons_of_mem _ hr),
      Piece.stripLit_append_stop hmem, Piece.stripLit_append_stop hmem]
    cases stripLit region x with
    | none => rfl
    | some t => cases t <;> rfl

theorem regionAt_le (hplain : ∀ region ∈ regions, SAFE_REGION_NAME region = true) (hsep : isSeparator sep = true)
    {n : Nat} (h : regionAt regions before (x ++ [sep]) = some n) : n ≤ x.length := by
  obtain ⟨region, hregion, hfound⟩ := List.exists_of_findSome?_eq_some h
  rw [Piece.stripLit_append_stop (notMem_of_isSeparator (hplain region hregion) hsep)] at hfound
  obtain ⟨t, ht, hlength⟩ := Option.bind_eq_some_iff.mp hfound
  obtain ⟨u, hu, -⟩ := Option.map_eq_some_iff.mp ht
  split at hlength
  · obtain rfl := Option.some.inj hlength
    rw [Piece.stripLit_eq_some.mp hu, List.length_append]
    omega
  · cases hlength

theorem regionAt_self (hplain : ∀ region ∈ regions, SAFE_REGION_NAME region = true) (hsep : isSeparator sep = true)
    (hregion : region ∈ regions) (hopen : before.any isWord = false) : (regionAt regions before (region ++ [sep])).isSome = true := by
  have hword := hplain region hregion
  unfold SAFE_REGION_NAME at hword
  rw [Bool.and_eq_true, List.all_eq_true, decide_eq_true_eq] at hword
  unfold regionAt
  rw [List.findSome?_isSome_iff]
  refine ⟨region, hregion, ?_⟩
  rw [Piece.stripLit_eq_some.mpr rfl, Option.bind_some]
  obtain ⟨c, t, rfl⟩ := List.exists_cons_of_ne_nil hword.1
  have hfirst : isWord c = true := hword.2 c (List.mem_cons_self ..)
  have hlast : ((c :: t).getLast?.any isWord) = true := by
    rw [List.getLast?_eq_some_getLast (List.cons_ne_nil c t)]
    exact hword.2 _ (List.getLast_mem _)
  rw [if_pos]
  · rfl
  · simp [isBoundary, hopen, hfirst, hlast, hsep, isWord_of_isSeparator hsep]

/-- The cut behind a region does not depend on what follows the separator. -/
theorem cutFrom_region (hplain : ∀ region ∈ regions, SAFE_REGION_NAME region = true) (hsep : isSeparator sep = true)
    (hregion : region ∈ regions) (pre rest rest' : JsString) (hopen : (domain.lastUnit before pre).any isWord = false) :
    ∃ n ≤ (pre ++ region).length, cutFrom regions before (pre ++ (region ++ sep :: rest)) = some n ∧
      cutFrom regions before (pre ++ (region ++ sep :: rest')) = some n := by
  induction pre generalizing before with
  | nil =>
    obtain ⟨n, hn⟩ := Option.isSome_iff_exists.mp (regionAt_self hplain hsep hregion hopen)
    have hcut : ∀ rest, cutFrom regions before (region ++ sep :: rest) = some n := by
      intro rest
      have hhere := (regionAt_append hplain hsep before region rest).trans hn
      cases hpath : region ++ sep :: rest with
      | nil => exact absurd hpath (List.append_ne_nil_of_right_ne_nil _ (List.cons_ne_nil _ _))
      | cons c s =>
        rw [hpath] at hhere
        rw [cutFrom, hhere]
    exact ⟨n, regionAt_le hplain hsep hn, hcut rest, hcut rest'⟩
  | cons c pre ih =>
    rw [domain.lastUnit_cons] at hopen
    obtain ⟨n, hle, hrest, hrest'⟩ := ih hopen
    have hhere : ∀ rest, regionAt regions before (c :: (pre ++ (region ++ sep :: rest))) =
        regionAt regions before ((c :: pre) ++ region ++ [sep]) := by
      intro rest
      rw [← regionAt_append hplain hsep before ((c :: pre) ++ region) rest, List.append_assoc, List.cons_append]
    cases hfirst : regionAt regions before ((c :: pre) ++ region ++ [sep]) with
    | some k =>
      refine ⟨k, regionAt_le hplain hsep hfirst, ?_, ?_⟩
      · rw [List.cons_append, cutFrom, hhere, hfirst]
      · rw [List.cons_append, cutFrom, hhere, hfirst]
    | none =>
      refine ⟨n + 1, ?_, ?_, ?_⟩
      · rw [List.cons_append, List.length_cons]
        omega
      · rw [List.cons_append, cutFrom, hhere, hfirst, hrest]
        rfl
      · rw [List.cons_append, cutFrom, hhere, hfirst, hrest']
        rfl

end cut

section signal

variable {regions : List JsString}

/-- Two issues whose paths go on apart behind one region, which begins a word. -/
inductive ApartBehind (regions : List JsString) : RefusalIssue → RefusalIssue → Prop where
  | mk (pre region rest rest' message message' : JsString) (sep : UInt16) (hregion : region ∈ regions)
      (hsep : isSeparator sep = true) (hopen : pre.getLast?.any isWord = false) :
      ApartBehind regions ⟨pre ++ (region ++ sep :: rest), message⟩ ⟨pre ++ (region ++ sep :: rest'), message'⟩

theorem cutWithCompiled_apart {compiled : CompiledRegions} {schemaId : JsString} (h : CompiledAt compiled schemaId regions)
    (hplain : ∀ region ∈ regions, SAFE_REGION_NAME region = true) {i i' : RefusalIssue} (hapart : ApartBehind regions i i') :
    cutWithCompiled i.path schemaId compiled = cutWithCompiled i'.path schemaId compiled := by
  cases hapart with
  | mk pre region rest rest' message message' sep hregion hsep hopen =>
    have hlast : (domain.lastUnit none pre).any isWord = false := by
      unfold domain.lastUnit
      rwa [Option.or_none]
    obtain ⟨n, hle, hcut, hcut'⟩ := cutFrom_region hplain hsep hregion pre rest rest' hlast
    have hpattern : compiled.patterns.get schemaId = some regions := by
      rw [h.pattern, if_neg (List.ne_nil_of_mem hregion)]
    have htake : ∀ rest, (pre ++ (region ++ sep :: rest)).take n = (pre ++ region).take n := by
      intro rest
      rw [← List.append_assoc, List.take_append_of_le_length hle]
    unfold cutWithCompiled
    simp only [hpattern, hcut, hcut', htake]

theorem length_clampRefLength (ref : JsString) : (clampRefLength ref).length ≤ MAX_REF_LENGTH := by
  unfold clampRefLength
  split
  · assumption
  · have hmarker : REF_CLAMP_MARKER.length = 10 := by decide
    rw [List.length_append, slice, List.drop_zero, List.length_take, hmarker]
    unfold MAX_REF_LENGTH
    omega

/-- The distinct paths that issues are cut to. -/
def cutPaths (compiled : CompiledRegions) (schemaId : JsString) (issues : List RefusalIssue) : Finset JsString :=
  (issues.map fun i => cutWithCompiled i.path schemaId compiled).toFinset

/-- A signal that lists few short refs, and reports how many it does not list. -/
structure Bounded (compiled : CompiledRegions) (input : RefusalSignalInput) (signal : AuditSignal) : Prop where
  short : ∀ ref ∈ signal.refs, ref.length ≤ 200
  few : signal.refs.length ≤ 20
  reported : ∃ omitted, signal.afterSummary =
      refusalSummary input.issues.length (cutPaths compiled input.schemaId input.issues).card omitted ∧
    signal.refs.length + omitted = (cutPaths compiled input.schemaId input.issues).card

theorem buildRefusalSignal_bounded (compiled : CompiledRegions) (input : RefusalSignalInput) :
    Bounded compiled input (buildRefusalSignal compiled input) := by
  have hcount : (unique (input.issues.map fun i =>
      str "ref:" ++ input.refPrefix ++ str ":" ++ cutWithCompiled i.path input.schemaId compiled)).length =
        (cutPaths compiled input.schemaId input.issues).card := by
    rw [← List.toFinset_card_of_nodup (nodup_unique _)]
    have hset : (unique (input.issues.map fun i =>
        str "ref:" ++ input.refPrefix ++ str ":" ++ cutWithCompiled i.path input.schemaId compiled)).toFinset =
          (cutPaths compiled input.schemaId input.issues).image (str "ref:" ++ input.refPrefix ++ str ":" ++ ·) := by
      ext ref
      simp [cutPaths]
    rw [hset, Finset.card_image_of_injective]
    exact fun a b hab => List.append_cancel_left hab
  refine ⟨fun ref href => ?_, ?_, (cutPaths compiled input.schemaId input.issues).card - MAX_ISSUE_PATH_REFS, ?_, ?_⟩
  · obtain ⟨full, -, rfl⟩ := List.mem_map.mp href
    exact length_clampRefLength full
  · simp only [buildRefusalSignal, List.length_map, List.length_take]
    exact Nat.min_le_left _ _
  · simp only [buildRefusalSignal, hcount]
  · simp only [buildRefusalSignal, List.length_map, List.length_take, hcount]
    omega

/-- The refusal of a proposed fact, with one issue below its free-form content. -/
def factRefusal (rest : JsString) : RefusalSignalInput where
  actor := str "intake"
  event := str "intake.plan_invalid"
  refPrefix := str "fact-issue-path"
  payloadHash := str "sha256:refused"
  beforeSummary := str "proposed fact"
  schemaId := GBRAIN_PROPOSED_FACT_SCHEMA_ID
  issues := [⟨str "proposedContent" ++ unit '.' :: rest, str "Required"⟩]

end signal

end sow.knowledge.audit
