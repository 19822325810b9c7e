import Sow.Knowledge.KnowledgeWriter.Plan
import Sow.Knowledge.MarkdownVault.Sections

open sow.js sow.markdown_vault

namespace sow.knowledge_writer

structure OwnershipCheckContext where
  path : Path
  priorContent : Option JsString
  nextContent : JsString
  plan : KnowledgeMutationPlan

structure OwnershipViolation where
  path : Path
  regionId : Option JsString
  reason : Option JsString
  deriving DecidableEq

/-- Human-owned-section guard. -/
abbrev OwnershipCheck := OwnershipCheckContext → Except OwnershipViolation Unit

def violation (path : Path) (reason : JsString) (regionId : Option JsString) : OwnershipViolation :=
  ⟨path, regionId, some reason⟩

/-- Region id to its exact marker-to-marker slice. -/
def regionRawById (sections : List Section) : Map JsString JsString :=
  (assistants sections).foldl (fun m s => m.set s.regionId s.raw) .empty

/-- Human-owned text modulo whitespace. -/
def humanSignature (sections : List Section) : JsString := trim (collapseSpaces (humanOwnedText sections))

/-- The region ids that the plan's patches name for a path. -/
def targetedRegions (plan : KnowledgeMutationPlan) (path : Path) : List JsString :=
  (plan.patches.filter fun p => p.path = path).map (·.regionId)

def checkOwnership (ctx : OwnershipCheckContext) : Except OwnershipViolation Unit :=
  match ctx.priorContent with
  | none =>
    match parseSections ctx.nextContent with
    | .error e => .error (violation ctx.path (str "malformed_marker:" ++ e.reason.text) (some e.regionId))
    | .ok _ => .ok ()
  | some priorContent =>
    match parseSections priorContent with
    | .error e => .error (violation ctx.path (str "prior_malformed_marker:" ++ e.reason.text) (some e.regionId))
    | .ok priorSecs =>
      match parseSections ctx.nextContent with
      | .error e => .error (violation ctx.path (str "malformed_marker:" ++ e.reason.text) (some e.regionId))
      | .ok nextSecs =>
        let priorRegions := regionRawById priorSecs
        let nextRegions := regionRawById nextSecs
        let targeted := targetedRegions ctx.plan ctx.path
        match priorRegions.entries.find? fun e => e.1 ∉ targeted ∧ nextRegions.get e.1 ≠ some e.2 with
        | some (id, _) => .error (violation ctx.path (str "unrelated_region_modified") (some id))
        | none =>
          match nextRegions.keys.find? fun id => ¬ priorRegions.has id ∧ id ∉ targeted with
          | some id => .error (violation ctx.path (str "untargeted_region_introduced") (some id))
          | none =>
            if humanSignature priorSecs ≠ humanSignature nextSecs then
              .error (violation ctx.path (str "human_content_modified") none)
            else .ok ()

def enforceHumanOwnership : OwnershipCheck := checkOwnership

/-- What the check promises of a file that existed: regions no patch targets are
    byte-identical, no region appears untargeted, and human text is preserved. -/
structure Preserves (targeted : List JsString) (priorSecs nextSecs : List Section) : Prop where
  untouched : ∀ id ∉ targeted, ∀ raw, (regionRawById priorSecs).get id = some raw →
    (regionRawById nextSecs).get id = some raw
  introduced : ∀ id ∈ (regionRawById nextSecs).keys, id ∈ (regionRawById priorSecs).keys ∨ id ∈ targeted
  human : humanSignature priorSecs = humanSignature nextSecs

theorem checkOwnership_create_ok_iff {ctx : OwnershipCheckContext} (hprior : ctx.priorContent = none) :
    checkOwnership ctx = .ok () ↔ ∃ sections, parseSections ctx.nextContent = .ok sections := by
  rw [checkOwnership, hprior]
  cases parseSections ctx.nextContent with
  | error e => simp
  | ok sections => simp

theorem checkOwnership_update_ok_iff {ctx : OwnershipCheckContext} {priorContent : JsString}
    (hprior : ctx.priorContent = some priorContent) :
    checkOwnership ctx = .ok () ↔ ∃ priorSecs nextSecs, parseSections priorContent = .ok priorSecs ∧
      parseSections ctx.nextContent = .ok nextSecs ∧
      Preserves (targetedRegions ctx.plan ctx.path) priorSecs nextSecs := by
  rw [checkOwnership, hprior]
  cases hp : parseSections priorContent with
  | error e => simp [hp]
  | ok priorSecs =>
    cases hn : parseSections ctx.nextContent with
    | error e => simp [hp]
    | ok nextSecs =>
      simp only [hp, Except.ok.injEq, exists_eq_left', existsAndEq, true_and]
      constructor
      · intro h
        split at h
        · simp at h
        · next hfirst =>
          split at h
          · simp at h
          · next hsecond =>
            split at h
            · simp at h
            · next hhuman =>
              rw [List.find?_eq_none] at hfirst hsecond
              refine ⟨fun id hid raw hraw => ?_, fun id hid => ?_, not_not.mp hhuman⟩
              · have := hfirst (id, raw) (Map.get_eq_some_iff.mp hraw)
                simpa [hid] using this
              · have := hsecond id hid
                rw [Map.mem_keys_iff, Option.isSome_iff_ne_none]
                by_cases ht : id ∈ targetedRegions ctx.plan ctx.path
                · exact .inr ht
                · left
                  simpa [ht, Map.has] using this
      · intro h
        have hfirst : ((regionRawById priorSecs).entries.find? fun e =>
            e.1 ∉ targetedRegions ctx.plan ctx.path ∧ (regionRawById nextSecs).get e.1 ≠ some e.2) = none := by
          rw [List.find?_eq_none]
          rintro ⟨id, raw⟩ hmem
          have hraw := Map.get_eq_some_iff.mpr hmem
          simp only [decide_eq_true_eq, not_and, not_not]
          exact fun hid => h.untouched id hid raw hraw
        have hsecond : ((regionRawById nextSecs).keys.find? fun id =>
            ¬ (regionRawById priorSecs).has id ∧ id ∉ targetedRegions ctx.plan ctx.path) = none := by
          rw [List.find?_eq_none]
          intro id hmem
          rcases h.introduced id hmem with hprev | htarget
          · simp [Map.has, Map.mem_keys_iff.mp hprev]
          · simp [htarget]
        rw [hfirst, hsecond]
        simp [h.human]

end sow.knowledge_writer
