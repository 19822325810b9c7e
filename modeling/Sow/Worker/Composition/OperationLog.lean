import Sow.Js.Number
import Sow.Knowledge.KnowledgeWriter.FrontmatterCodec
import Sow.Knowledge.KnowledgeWriter.WriterAtomicity
import Sow.Knowledge.MarkdownVault.NoteBody
import Sow.Knowledge.MarkdownVault.Upsert

open sow.js sow.effect sow.markdown_vault sow.knowledge_writer

namespace sow.living_vault

def STRUCTURAL_LOG_POINTER_PATH : JsString := str "log.md"
def STRUCTURAL_LOGS_DIR : JsString := str "Logs"

/-- `/^[^\s>]+$/` -/
def isMarkerSafe (s : JsString) : Bool := s ≠ [] && s.all isIdUnit

def isSafeId (id : JsString) : Bool := id ≠ str "@user" && isMarkerSafe id

/-- A string option, with what stands in its place when it is absent or empty. -/
def orDefault (option : Option JsString) (fallback : JsString) : JsString :=
  match option with
  | some s => if s = [] then fallback else s
  | none => fallback

def orSafeId (option : Option JsString) : JsString :=
  match option with
  | some s => if isSafeId s then s else str "log"
  | none => str "log"

structure OpLogOptions where
  date : JsString
  entry : JsString
  logsDir : Option JsString
  pointerPath : Option JsString
  regionId : Option JsString

theorem dayPath_ne_nil (logsDir date : JsString) : logsDir ++ str "/" ++ date ++ str ".md" ≠ [] := by simp [str]

theorem orDefault_ne_nil (option : Option JsString) {fallback : JsString} (h : fallback ≠ []) : orDefault option fallback ≠ [] := by
  unfold orDefault
  split
  · split
    · exact h
    · next hne => exact hne
  · exact h

theorem pointerPath_ne_nil (option : Option JsString) : orDefault option STRUCTURAL_LOG_POINTER_PATH ≠ [] :=
  orDefault_ne_nil option (by decide)

theorem orSafeId_ne_nil (option : Option JsString) : orSafeId option ≠ [] := by
  unfold orSafeId
  split
  · split
    · next s hsafe =>
      rintro rfl
      exact absurd hsafe (by decide)
    · decide
  · decide

theorem pointer_ne_nil : str "pointer" ≠ [] := by decide

def buildOpLogMutations (opts : OpLogOptions) : List NotePatch :=
  if !isMarkerSafe opts.date then []
  else
    let logsDir := orDefault opts.logsDir STRUCTURAL_LOGS_DIR
    [⟨logsDir ++ str "/" ++ opts.date ++ str ".md", orSafeId opts.regionId, opts.entry, dayPath_ne_nil _ _, orSafeId_ne_nil _⟩,
      ⟨orDefault opts.pointerPath STRUCTURAL_LOG_POINTER_PATH, str "pointer", str "Latest: [[" ++ logsDir ++ str "/" ++ opts.date ++ str "]]",
        pointerPath_ne_nil _, pointer_ne_nil⟩]

structure StructuralContext where
  touchedPaths : List JsString
  runId : JsString
  date : Option JsString

def opLogEntry (ctx : StructuralContext) : JsString :=
  str "Ingested " ++ decimal ctx.touchedPaths.length ++ str " note(s) (run " ++ ctx.runId ++ str "): " ++ join (str ", ") ctx.touchedPaths

/-- `build` of `createStructuralFileWriter`; it makes nothing but patches. -/
def buildStructural (ctx : StructuralContext) : List NotePatch :=
  match ctx.date with
  | none => []
  | some date =>
    if date = [] ∨ ctx.touchedPaths = [] then []
    else buildOpLogMutations ⟨date, opLogEntry ctx, none, none, none⟩

/-- A run of the living vault that has something to log. -/
structure LivingRun where
  runId : JsString
  date : JsString
  touchedPaths : List JsString
  date_safe : isMarkerSafe date = true
  touched : touchedPaths ≠ []

namespace LivingRun

def context (r : LivingRun) : StructuralContext := ⟨r.touchedPaths, r.runId, some r.date⟩

def patches (r : LivingRun) : List NotePatch := buildStructural r.context

/-- The entry as the writer puts it into a region. -/
def entry (r : LivingRun) : JsString := neutralizeRegionMarkers (opLogEntry r.context)

end LivingRun

/-- The log note of a day. -/
def dayPath (date : JsString) : Path := STRUCTURAL_LOGS_DIR ++ str "/" ++ date ++ str ".md"

def latestLine (date : JsString) : JsString := str "Latest: [[" ++ STRUCTURAL_LOGS_DIR ++ str "/" ++ date ++ str "]]"

theorem dayPath_injective {d d' : JsString} (h : dayPath d = dayPath d') : d = d' := by
  unfold dayPath at h
  rw [List.append_assoc, List.append_assoc, List.append_assoc (_ ++ _) d'] at h
  simpa using h

theorem dayPath_ne_pointer (d : JsString) : dayPath d ≠ STRUCTURAL_LOG_POINTER_PATH := by
  intro h
  have hhead := congrArg List.head? h
  rw [dayPath, List.append_assoc, List.append_assoc] at hhead
  exact absurd hhead (by simp [STRUCTURAL_LOGS_DIR, STRUCTURAL_LOG_POINTER_PATH, str])

theorem LivingRun.patches_eq (r : LivingRun) : r.patches =
    [⟨dayPath r.date, str "log", opLogEntry r.context, dayPath_ne_nil _ _, orSafeId_ne_nil none⟩,
      ⟨STRUCTURAL_LOG_POINTER_PATH, str "pointer", latestLine r.date, pointerPath_ne_nil none, pointer_ne_nil⟩] := by
  have hdate : r.date ≠ [] := by
    intro h
    have hsafe := r.date_safe
    rw [h] at hsafe
    cases hsafe
  have hsafe : (!isMarkerSafe r.date) = false := by rw [r.date_safe]; rfl
  change (if r.date = [] ∨ r.touchedPaths = [] then [] else buildOpLogMutations ⟨r.date, opLogEntry r.context, none, none, none⟩) = _
  rw [if_neg (not_or.mpr ⟨hdate, r.touched⟩)]
  unfold buildOpLogMutations
  simp only [hsafe]
  rfl

section rendered

/-- Where a document has the text of a rendered region, that is one of its regions. -/
theorem exists_rendered {L : Layout} {a b id body : JsString} (hid : IsRegionId id) (hbody : markerLexicon.Free body)
    (h : L.text = a ++ (renderRegion id body ++ b)) :
    ∃ before after rest, L.blocks = before ++ (framedRegion .kwRegion id body, after) :: rest := by
  have hopen : markerLexicon.Valid ⟨false, .region .kwRegion id⟩ := hid
  have hclose : markerLexicon.Valid ⟨true, .region .kwRegion id⟩ := hid
  have hframed := free_framed.mpr hbody
  obtain ⟨P, hP, rfl⟩ := @Lexicon.Pieces.exists_text_eq _ markerLexicon a
  obtain ⟨Q, hQ, rfl⟩ := @Lexicon.Pieces.exists_text_eq _ markerLexicon b
  have hsound : Lexicon.Pieces.Sound markerLexicon ⟨P.head, P.tail ++ (⟨false, .region .kwRegion id⟩, str "\n" ++ body ++ str "\n") ::
      (⟨true, .region .kwRegion id⟩, Q.head) :: Q.tail⟩ := by
    refine ⟨hP.1, fun p hp => ?_⟩
    rcases List.mem_append.mp hp with hp | hp
    · exact hP.2 p hp
    · rcases List.mem_cons.mp hp with rfl | hp
      · exact ⟨hopen, hframed⟩
      · rcases List.mem_cons.mp hp with rfl | hp
        · exact ⟨hclose, hQ.1⟩
        · exact hQ.2 p hp
  have hpieces := Lexicon.Pieces.eq_of_text_eq L.pieces_sound hsound (by
    rw [L.pieces_text, h, renderRegion_eq]
    simp [Lexicon.Pieces.text, framedRegion, Block.raw, Block.openMarker, Block.closeMarker, Block.inner])
  have htail : blocksPieces L.blocks = P.tail ++ _ := congrArg Lexicon.Pieces.tail hpieces
  obtain ⟨before, block, after, rest, hblocks, hbefore, hblock, hinner⟩ := exists_block_of_open rfl htail
  rw [hblocks, blocksPieces_append, hbefore] at htail
  have hrest : (block.openMarker, block.inner) :: (block.closeMarker, after) :: blocksPieces rest = _ := List.append_cancel_left htail
  have hlast : block.closeMarker = ⟨true, .region .kwRegion id⟩ :=
    congrArg Prod.fst (List.cons.inj (List.cons.inj hrest).2).1
  refine ⟨before, after, rest, ?_⟩
  rw [hblocks]
  cases block with
  | user inner => cases hblock
  | region opening closing id' inner =>
    simp only [Block.openMarker, Marker.mk.injEq, MarkerTag.region.injEq, true_and] at hblock
    simp only [Block.closeMarker, Marker.mk.injEq, MarkerTag.region.injEq, true_and] at hlast
    obtain ⟨rfl, rfl⟩ := hblock
    obtain ⟨rfl, -⟩ := hlast
    rw [framedRegion, hinner]
    rfl

/-- What a patch makes of a note has the text of the region that it renders. -/
theorem applyRegionPatch_rendered (content : JsString) (patch : NotePatch) :
    ∃ a b, applyRegionPatch content patch = a ++ (renderRegion patch.regionId (neutralizeRegionMarkers patch.newBody) ++ b) := by
  have hcompose : ∀ before after, composeNote (parseNote content).frontmatter
      (before ++ renderRegion patch.regionId (neutralizeRegionMarkers patch.newBody) ++ after) =
        (frontmatterBlock (parseNote content).frontmatter ++ before) ++
          (renderRegion patch.regionId (neutralizeRegionMarkers patch.newBody) ++ after) := by
    intro before after
    rw [composeNote_eq, List.append_assoc, List.append_assoc]
  have happended : ∃ before, (if (parseNote content).body.length = 0 then
      renderRegion patch.regionId (neutralizeRegionMarkers patch.newBody)
      else (parseNote content).body ++ str "\n\n" ++ renderRegion patch.regionId (neutralizeRegionMarkers patch.newBody)) =
        before ++ renderRegion patch.regionId (neutralizeRegionMarkers patch.newBody) ++ [] := by
    split
    · exact ⟨[], by simp⟩
    · exact ⟨(parseNote content).body ++ str "\n\n", by simp⟩
  obtain ⟨before, hbefore⟩ := happended
  simp only [applyRegionPatch]
  split
  · next start stop hstart hstop =>
    split
    · exact ⟨_, _, hcompose (slice (parseNote content).body 0 start) _⟩
    · exact ⟨_, _, (congrArg (composeNote _) hbefore).trans (hcompose before [])⟩
  · exact ⟨_, _, (congrArg (composeNote _) hbefore).trans (hcompose before [])⟩

/-- The note has the region with that body, and reads so where it parses. -/
structure HoldsRegion (content id body : JsString) : Prop where
  text : ∃ a b, content = a ++ (renderRegion id body ++ b)
  reads : ∀ sections, parseSections content = .ok sections → (getRegion content id).map (·.body) = some body

theorem applyRegionPatch_holds {content : JsString} {patch : NotePatch} (hid : IsRegionId patch.regionId) :
    HoldsRegion (applyRegionPatch content patch) patch.regionId (neutralizeRegionMarkers patch.newBody) := by
  obtain ⟨a, b, htext⟩ := applyRegionPatch_rendered content patch
  refine ⟨⟨a, b, htext⟩, fun sections hsections => ?_⟩
  obtain ⟨L, hL, -⟩ := parseSections_eq_ok_iff.mp hsections
  obtain ⟨before, after, rest, hblocks⟩ := exists_rendered hid (neutralizeRegionMarkers_free patch.newBody) (hL.trans htext)
  rw [← hL]
  exact getRegion_written hblocks

/-- Outside a region the text is the same up to white space, and every other region is the same. -/
def SameOutside (id content next : JsString) : Prop :=
  content = next ∨ ∃ sections nextSections, parseSections content = .ok sections ∧ parseSections next = .ok nextSections ∧
    humanSignature sections = humanSignature nextSections ∧
    ∀ other, other ≠ id → (regionRawById nextSections).get other = (regionRawById sections).get other

theorem SameOutside.trans {id a b c : JsString} (hab : SameOutside id a b) (hbc : SameOutside id b c) : SameOutside id a c := by
  rcases hab with rfl | ⟨secA, secB, hA, hB, hhuman, hregions⟩
  · exact hbc
  · rcases hbc with rfl | ⟨secB', secC, hB', hC, hhuman', hregions'⟩
    · exact .inr ⟨secA, secB, hA, hB, hhuman, hregions⟩
    · obtain rfl := Except.ok.inj (hB.symm.trans hB')
      exact .inr ⟨secA, secC, hA, hC, hhuman.trans hhuman', fun other hother => (hregions' other hother).trans (hregions other hother)⟩

/-- A change of an existing note that only patches the region, and that the ownership check passes. -/
theorem sameOutside_of_owned {path : Path} {content next id : JsString} {plan : KnowledgeMutationPlan}
    (htargeted : targetedRegions plan path = [id]) (h : checkOwnership ⟨path, some content, next, plan⟩ = .ok ()) :
    SameOutside id content next := by
  obtain ⟨sections, nextSections, hsections, hnext, hpreserves⟩ := (checkOwnership_update_ok_iff rfl).mp h
  refine .inr ⟨sections, nextSections, hsections, hnext, hpreserves.human, fun other hother => ?_⟩
  have huntargeted : other ∉ targetedRegions plan path := by
    rw [htargeted, List.mem_singleton]
    exact hother
  cases hget : (regionRawById sections).get other with
  | some raw => exact hpreserves.untouched other huntargeted raw hget
  | none =>
    rw [Map.get_eq_none_iff] at hget ⊢
    exact fun hmem => (hpreserves.introduced other hmem).elim hget huntargeted

/-- A note that is nothing but the region has no text outside it. -/
theorem sameOutside_nil {id body : JsString} (hid : IsRegionId id) (hbody : markerLexicon.Free body) :
    SameOutside id [] (renderRegion id body) := by
  have hsound : ∀ b ∈ [(framedRegion .kwRegion id body, ([] : JsString))], b.1.Sound ∧ markerLexicon.Free b.2 := by
    intro b hb
    rw [List.mem_singleton.mp hb]
    exact ⟨framedRegion_sound hid hbody, Lexicon.Free.nil⟩
  let L : Layout := ⟨[], [(framedRegion .kwRegion id body, [])], Lexicon.Free.nil, hsound, List.nodup_singleton id⟩
  have htext : L.text = renderRegion id body := by
    rw [renderRegion_eq]
    simp [L, Layout.text, blocksText]
  have hparse := htext ▸ L.parseSections_text
  have hregions : regionRawById L.sections = Map.empty.set id (framedRegion .kwRegion id body).raw := rfl
  refine .inr ⟨[], L.sections, rfl, hparse, rfl, fun other hother => ?_⟩
  rw [hregions, Map.get_set_of_ne _ _ (Ne.symm hother)]
  rfl

end rendered

/-- The entries stand in the text, one after the other. -/
def InOrder : List JsString → JsString → Prop
  | [], _ => True
  | entry :: entries, text => ∃ a b, text = a ++ (entry ++ b) ∧ InOrder entries b

/-- The entries of a day, in the order of the runs. -/
def dayEntries (runs : List LivingRun) (date : JsString) : List JsString := (runs.filter (·.date = date)).map (·.entry)

theorem dayEntries_concat (runs : List LivingRun) (r : LivingRun) (date : JsString) :
    dayEntries (runs ++ [r]) date = if r.date = date then dayEntries runs date ++ [r.entry] else dayEntries runs date := by
  unfold dayEntries
  rw [List.filter_append, List.map_append]
  split
  · next h =>
    rw [List.filter_cons_of_pos (by simpa using h)]
    rfl
  · next h =>
    rw [List.filter_cons_of_neg (by simpa using h)]
    exact List.append_nil _

theorem dayEntries_eq_nil {runs : List LivingRun} {date : JsString} (h : date ∉ runs.map (·.date)) : dayEntries runs date = [] := by
  unfold dayEntries
  rw [List.map_eq_nil_iff, List.filter_eq_nil_iff]
  intro r hr heq
  exact h (List.mem_map.mpr ⟨r, hr, by simpa using heq⟩)

section commit

variable {listing : Listing} {choose : Nat → KwOp → KwChoice} {command : KnowledgeWriteCommand} {deps : KnowledgeWriterDeps}
  {plan : KnowledgeMutationPlan} {snapshot committed : VaultSnapshot} {id : RevisionId} {fs' : Files} {w : World}

/-- The pointer note and the log notes of the days. -/
def IsLogNote (p : Path) : Prop := p = STRUCTURAL_LOG_POINTER_PATH ∨ ∃ date, p = dayPath date

/-- The plan carries the mutations of a run, and has no others for the log notes. -/
structure CarriesLog (plan : KnowledgeMutationPlan) (r : LivingRun) : Prop where
  live : ∀ p ∈ plannedPaths plan, ¬ IsStaging p
  notCreated : ∀ p, IsLogNote p → p ∉ plan.creates.map (·.path)
  notUpdated : ∀ p, IsLogNote p → p ∉ plan.frontmatterUpdates.map (·.path)
  notLinked : ∀ p, IsLogNote p → p ∉ plan.linkMutations.map (·.srcPath)
  patched : ∀ p, IsLogNote p → plan.patches.filter (·.path = p) = r.patches.filter (·.path = p)

/-- The text of a note, empty where there is none. -/
def noteText (w : World) (p : Path) : JsString := (w.files.get p).getD []

theorem applyRegionPatch_nil (patch : NotePatch) :
    applyRegionPatch [] patch = renderRegion patch.regionId (neutralizeRegionMarkers patch.newBody) := rfl

/-- A note that a committed plan only patches once has the patched text, and the text outside the region is the same. -/
theorem patched_of_commit (h : IsCommit listing choose command deps w plan snapshot committed id fs')
    (hown : deps.ownershipCheck = none) (hsigning : deps.signing = none) {r : LivingRun} (hcarries : CarriesLog plan r)
    {p : Path} (hp : IsLogNote p) (hlisted : listing.listed p = true) {patch : NotePatch}
    (hpatch : r.patches.filter (·.path = p) = [patch]) (hid : IsRegionId patch.regionId) :
    fs'.get p = some (applyRegionPatch (noteText w p) patch) ∧
      SameOutside patch.regionId (noteText w p) (applyRegionPatch (noteText w p) patch) := by
  have hbase : snapshot.get p = w.files.get p := by rw [h.base p, if_pos hlisted]
  have hprojected : (projectPlan snapshot plan).get p = some (applyRegionPatch (noteText w p) patch) := by
    rw [projectPlan_get_patched snapshot plan (hcarries.notCreated p hp) (hcarries.notUpdated p hp) (hcarries.notLinked p hp),
      hcarries.patched p hp, hpatch, hbase]
    rfl
  refine ⟨(h.inPlace hcarries.live).holds p _ ((h.committed_eq_projected hsigning p).trans hprojected), ?_⟩
  by_cases hsame : snapshot.get p = some (applyRegionPatch (noteText w p) patch)
  · -- The plan leaves the note as it is, and no guard sees it.
    left
    conv_lhs => rw [noteText, ← hbase, hsame]
    rfl
  · have hchange : (⟨p, applyRegionPatch (noteText w p) patch⟩ : FileChange) ∈ diffChanges snapshot (projectPlan snapshot plan) :=
      mem_diffChanges.mpr ⟨hprojected, hsame⟩
    have howned := owned_of_checkChanges hown h.checked hchange
    have htargeted : targetedRegions plan p = [patch.regionId] := by
      unfold targetedRegions
      rw [hcarries.patched p hp, hpatch]
      rfl
    unfold noteText
    cases hget : w.files.get p with
    | some content =>
      rw [hbase, hget] at howned
      unfold noteText at howned
      rw [hget] at howned
      exact sameOutside_of_owned htargeted howned
    | none => exact applyRegionPatch_nil patch ▸ sameOutside_nil hid (neutralizeRegionMarkers_free patch.newBody)

end commit

theorem isRegionId_log : IsRegionId (str "log") := by decide

theorem isRegionId_pointer : IsRegionId (str "pointer") := by decide

/-- The pointer line has no marker: a marker-safe date has no `>`. -/
theorem neutralize_latestLine {date : JsString} (hdate : isMarkerSafe date = true) :
    neutralizeRegionMarkers (latestLine date) = latestLine date := by
  apply neutralizeRegionMarkers_of_free
  rw [regionFree_iff]
  intro a m b hm htext
  obtain ⟨gap, name, tail, id, blanks, rfl, -, htail, -⟩ := hm.parts
  have hclose : 62 ∈ latestLine date := by
    rw [htext, htail.eq]
    simp [str]
  have hopen : 62 ∈ date := by
    simpa [latestLine, STRUCTURAL_LOGS_DIR, str] using hclose
  unfold isMarkerSafe at hdate
  rw [Bool.and_eq_true, List.all_eq_true] at hdate
  exact absurd (hdate.2 _ hopen) (by decide)

/-- What a committed run makes of the log notes. -/
structure LogStep (w w' : World) (r : LivingRun) : Prop where
  day : HoldsRegion (noteText w' (dayPath r.date)) (str "log") r.entry
  pointer : HoldsRegion (noteText w' STRUCTURAL_LOG_POINTER_PATH) (str "pointer") (latestLine r.date)
  dayOutside : SameOutside (str "log") (noteText w (dayPath r.date)) (noteText w' (dayPath r.date))
  pointerOutside : SameOutside (str "pointer") (noteText w STRUCTURAL_LOG_POINTER_PATH) (noteText w' STRUCTURAL_LOG_POINTER_PATH)
  others : ∀ date, date ≠ r.date → noteText w' (dayPath date) = noteText w (dayPath date)

/-- A commit of a run: `applyPlan`, with the writer's own ownership check and no signing key, on a vault that lists the
    two notes. -/
inductive LogCommit (listing : Listing) (r : LivingRun) (w : World) : World → Prop where
  | commit (command : KnowledgeWriteCommand) (deps : KnowledgeWriterDeps) (choose : Nat → KwOp → KwChoice) (id : RevisionId)
      (hown : deps.ownershipCheck = none) (hsigning : deps.signing = none)
      (hcarries : ∀ plan, runGate deps.gate command.plan = .ok plan → CarriesLog plan r)
      (hday : listing.listed (dayPath r.date) = true) (hpointer : listing.listed STRUCTURAL_LOG_POINTER_PATH = true)
      (hdurable : durableRevision ((kwPorts listing).run choose 0 (applyPlan command deps) w).1 = some id) :
      LogCommit listing r w ((kwPorts listing).run choose 0 (applyPlan command deps) w).2

theorem LogCommit.step {listing : Listing} {r : LivingRun} {w w' : World} (h : LogCommit listing r w w') : LogStep w w' r := by
  cases h with
  | commit command deps choose id hown hsigning hcarries hday hpointer hdurable =>
    obtain ⟨plan, snapshot, committed, hcommit⟩ := (applyPlan_outcome listing command deps choose w).commits hdurable
    have hplan := hcarries plan hcommit.gated
    have hdayPatch : r.patches.filter (·.path = dayPath r.date) =
        [⟨dayPath r.date, str "log", opLogEntry r.context, dayPath_ne_nil _ _, orSafeId_ne_nil none⟩] := by
      rw [r.patches_eq, List.filter_cons_of_pos (by simp), List.filter_cons_of_neg (by simpa using (dayPath_ne_pointer r.date).symm)]
      rfl
    have hpointerPatch : r.patches.filter (·.path = STRUCTURAL_LOG_POINTER_PATH) =
        [⟨STRUCTURAL_LOG_POINTER_PATH, str "pointer", latestLine r.date, pointerPath_ne_nil none, pointer_ne_nil⟩] := by
      rw [r.patches_eq, List.filter_cons_of_neg (by simpa using dayPath_ne_pointer r.date), List.filter_cons_of_pos (by simp)]
      rfl
    obtain ⟨hdayText, hdayOutside⟩ := patched_of_commit hcommit hown hsigning hplan (.inr ⟨_, rfl⟩) hday hdayPatch isRegionId_log
    obtain ⟨hpointerText, hpointerOutside⟩ :=
      patched_of_commit hcommit hown hsigning hplan (.inl rfl) hpointer hpointerPatch isRegionId_pointer
    refine ⟨?_, ?_, ?_, ?_, fun date hdate => ?_⟩
    · rw [noteText, hdayText]
      exact applyRegionPatch_holds isRegionId_log
    · have hholds := @applyRegionPatch_holds (noteText w STRUCTURAL_LOG_POINTER_PATH)
        ⟨STRUCTURAL_LOG_POINTER_PATH, str "pointer", latestLine r.date, pointerPath_ne_nil none, pointer_ne_nil⟩ isRegionId_pointer
      rw [neutralize_latestLine r.date_safe] at hholds
      rw [noteText, hpointerText]
      exact hholds
    · conv_rhs => rw [noteText, hdayText]
      exact hdayOutside
    · conv_rhs => rw [noteText, hpointerText]
      exact hpointerOutside
    · have hlog : IsLogNote (dayPath date) := .inr ⟨date, rfl⟩
      have hnone : r.patches.filter (·.path = dayPath date) = [] := by
        rw [r.patches_eq, List.filter_cons_of_neg (by simpa using fun h => hdate (dayPath_injective h).symm),
          List.filter_cons_of_neg (by simpa using (dayPath_ne_pointer date).symm)]
        rfl
      have hpatches : dayPath date ∉ plan.patches.map (·.path) := by
        intro hmem
        obtain ⟨patch, hpatch, hpath⟩ := List.mem_map.mp hmem
        have hfiltered : patch ∈ plan.patches.filter (·.path = dayPath date) := List.mem_filter.mpr ⟨hpatch, by simpa using hpath⟩
        rw [hplan.patched _ hlog, hnone] at hfiltered
        cases hfiltered
      have hplanned : dayPath date ∉ plannedPaths plan := by
        simp only [plannedPaths, List.mem_append, not_or]
        exact ⟨⟨⟨hplan.notCreated _ hlog, hplan.notUpdated _ hlog⟩, hpatches⟩, hplan.notLinked _ hlog⟩
      have hmd : endsWith (dayPath date) (str ".md") = true := endsWith_iff.mpr ⟨_, rfl⟩
      rw [noteText, noteText, hcommit.get_of_notMem_plannedPaths hplan.live (not_isStaging_of_md hmd) hplanned]

/-- Runs committed one after the other, with other work in between that leaves the log notes alone. -/
inductive Committed (listing : Listing) (w₀ : World) : List LivingRun → World → Prop where
  | nil : Committed listing w₀ [] w₀
  | commit {runs : List LivingRun} {w w' : World} {r : LivingRun} (h : Committed listing w₀ runs w) (hr : LogCommit listing r w w') :
      Committed listing w₀ (runs ++ [r]) w'
  | idle {runs : List LivingRun} {w w' : World} (h : Committed listing w₀ runs w)
      (hsame : ∀ p, IsLogNote p → w'.files.get p = w.files.get p) : Committed listing w₀ runs w'

/-- What the operation log keeps: every day's log holds the entries of its runs in order, the pointer names the day of
    the last, and the rest of the notes is as it was. -/
structure LogKept (w₀ w : World) (runs : List LivingRun) : Prop where
  days : ∀ date, dayEntries runs date ≠ [] →
    ∃ body, HoldsRegion (noteText w (dayPath date)) (str "log") body ∧ InOrder (dayEntries runs date) body
  pointer : ∀ r, runs.getLast? = some r → HoldsRegion (noteText w STRUCTURAL_LOG_POINTER_PATH) (str "pointer") (latestLine r.date)
  outside : ∀ date, SameOutside (str "log") (noteText w₀ (dayPath date)) (noteText w (dayPath date))
  pointerOutside : SameOutside (str "pointer") (noteText w₀ STRUCTURAL_LOG_POINTER_PATH) (noteText w STRUCTURAL_LOG_POINTER_PATH)

/-- The operation log keeps its entries in every run of commits in which no day has two. -/
theorem opLog_appendOnly (listing : Listing) (w₀ w : World) (runs : List LivingRun) (h : Committed listing w₀ runs w)
    (hdays : (runs.map (·.date)).Nodup) : LogKept w₀ w runs := by
  induction h with
  | nil =>
    exact ⟨fun date hdate => absurd rfl hdate, fun r hr => absurd hr (by simp), fun date => .inl rfl, .inl rfl⟩
  | @idle runs w w' h hsame ih =>
    have hkept := ih hdays
    have htext : ∀ p, IsLogNote p → noteText w' p = noteText w p := fun p hp => congrArg (Option.getD · []) (hsame p hp)
    refine ⟨fun date hdate => ?_, fun r hr => ?_, fun date => ?_, ?_⟩
    · rw [htext _ (.inr ⟨date, rfl⟩)]
      exact hkept.days date hdate
    · rw [htext _ (.inl rfl)]
      exact hkept.pointer r hr
    · rw [htext _ (.inr ⟨date, rfl⟩)]
      exact hkept.outside date
    · rw [htext _ (.inl rfl)]
      exact hkept.pointerOutside
  | @commit runs w w' r h hr ih =>
    have hstep := hr.step
    rw [List.map_append, List.nodup_append] at hdays
    have hkept := ih hdays.1
    have hfirst : dayEntries runs r.date = [] :=
      dayEntries_eq_nil fun hmem => hdays.2.2 r.date hmem r.date (List.mem_singleton.mpr rfl) rfl
    refine ⟨fun date hdate => ?_, fun last hlast => ?_, fun date => ?_, hkept.pointerOutside.trans hstep.pointerOutside⟩
    · rw [dayEntries_concat] at hdate ⊢
      by_cases heq : r.date = date
      · subst heq
        rw [if_pos rfl, hfirst]
        exact ⟨r.entry, hstep.day, [], [], by simp, trivial⟩
      · rw [if_neg heq] at hdate ⊢
        rw [hstep.others date (Ne.symm heq)]
        exact hkept.days date hdate
    · rw [List.getLast?_concat] at hlast
      obtain rfl := Option.some.inj hlast
      exact hstep.pointer
    · by_cases heq : date = r.date
      · subst heq
        exact (hkept.outside r.date).trans hstep.dayOutside
      · rw [hstep.others date heq]
        exact hkept.outside date

section march

theorem InOrder.length_le {entries : List JsString} {text : JsString} (h : InOrder entries text) :
    (entries.map List.length).sum ≤ text.length := by
  induction entries generalizing text with
  | nil => exact Nat.zero_le _
  | cons entry entries ih =>
    obtain ⟨a, b, rfl, hrest⟩ := h
    have hle := ih hrest
    simp only [List.map_cons, List.sum_cons, List.length_append]
    omega

theorem march_safe : isMarkerSafe (str "2026-03-04") = true := by decide

theorem touched_ne_nil (path : JsString) : [path] ≠ [] := List.cons_ne_nil _ _

/-- A run of one day that touches one note. -/
def marchRun (runId path : JsString) : LivingRun := ⟨runId, str "2026-03-04", [path], march_safe, touched_ne_nil path⟩

def marchPlan (runId path : JsString) : KnowledgeMutationPlan := planOf [] (marchRun runId path).patches [] []

/-- The digests that committing the runs `r1` and `r2` computes. -/
def marchDigests : KnownDigests where
  entries :=
    [(utf8 [], str "e3b0c44298fc1c149afbf4c8996fb92427ae41e4649b934ca495991b7852b855"),
      (utf8 (renderRegion (str "log") (str "Ingested 1 note(s) (run r1): a.md")),
        str "f0124fc62a72e519368bfb167b359d3f3549599431378aea8de813b66ed64dda"),
      (utf8 (renderRegion (str "log") (str "Ingested 1 note(s) (run r2): b.md")),
        str "828d767a5921395b7944a74a1e90530fbdf0cd707058b8572bc1a7e9ffa0eb3f"),
      (utf8 (renderRegion (str "pointer") (str "Latest: [[Logs/2026-03-04]]")),
        str "79d3ef5c7a0d49c7654c46880f7660975542fc1f12162036ea542f7fba42cc15"),
      (utf8 (str "Logs/2026-03-04.md" ++ [0] ++ str "f0124fc62a72e519368bfb167b359d3f3549599431378aea8de813b66ed64dda\n" ++
        str "log.md" ++ [0] ++ str "79d3ef5c7a0d49c7654c46880f7660975542fc1f12162036ea542f7fba42cc15"),
        str "13bd0a8a1f8a6cd9b6fbe305cd6ace646284e49ced74ae3c5dea2ceb2e1186bd"),
      (utf8 (str "Logs/2026-03-04.md" ++ [0] ++ str "828d767a5921395b7944a74a1e90530fbdf0cd707058b8572bc1a7e9ffa0eb3f\n" ++
        str "log.md" ++ [0] ++ str "79d3ef5c7a0d49c7654c46880f7660975542fc1f12162036ea542f7fba42cc15"),
        str "1d097d140ca1dfec4c78aa54129af8e88a05307f0a246d8ca51f8034a0f98858"),
      (utf8 (marchPlan (str "r1") (str "a.md")).data.stringify, str "20b74df9d4e1c00a59e099aa4959002b26d535b1f4d8fe5c05e7f66f19f50c1c"),
      (utf8 (marchPlan (str "r2") (str "b.md")).data.stringify, str "2b23ba819ad8635127f0dc24828bb4d8b8beb8e1475bf487440f1f00bde03e52")]
  distinct := by
    repeat rw [str_ofList]
    decide +kernel
  digits := by
    apply digits_of_all
    repeat rw [str_ofList]
    decide +kernel

/-- The fault-free commit of a run on a vault. -/
def marchCommit (runId path key : JsString) (w : World) : Except Cause (Except WriteFailure WriteSuccess) × World :=
  (kwPorts memoryListing).run createChoices 0
    (applyPlan (commandOf (tabulated marchDigests) w.files (marchPlan runId path) key)
      (memoryDeps (tabulated marchDigests) (marchPlan runId path) none)) w

theorem carriesLog_march (runId path : JsString) : CarriesLog (marchPlan runId path) (marchRun runId path) where
  live p hp := by
    have hpatched : p ∈ (marchRun runId path).patches.map (·.path) := by
      simpa [plannedPaths, marchPlan, planOf] using hp
    apply not_isStaging_of_md
    rw [LivingRun.patches_eq] at hpatched
    rcases List.mem_cons.mp hpatched with rfl | hpatched
    · exact endsWith_iff.mpr ⟨_, rfl⟩
    · obtain rfl := List.mem_singleton.mp hpatched
      exact (by decide : endsWith STRUCTURAL_LOG_POINTER_PATH (str ".md") = true)
  notCreated p _ := List.not_mem_nil
  notUpdated p _ := List.not_mem_nil
  notLinked p _ := List.not_mem_nil
  patched p _ := rfl

theorem logCommit_march {runId path key : JsString} {w : World} {id : RevisionId}
    (hdurable : durableRevision (marchCommit runId path key w).1 = some id) :
    LogCommit memoryListing (marchRun runId path) w (marchCommit runId path key w).2 := by
  refine .commit _ _ _ id rfl rfl (fun plan hplan => ?_) ?_ (by decide) hdurable
  · obtain rfl : marchPlan runId path = plan := Except.ok.inj (Eq.trans rfl hplan)
    exact carriesLog_march runId path
  · change memoryListing.listed (dayPath (str "2026-03-04")) = true
    decide

def firstCommit : Except Cause (Except WriteFailure WriteSuccess) × World :=
  marchCommit (str "r1") (str "a.md") (str "k1") ⟨.empty, .empty, []⟩

def secondCommit : Except Cause (Except WriteFailure WriteSuccess) × World :=
  marchCommit (str "r2") (str "b.md") (str "k2") firstCommit.2

/-- What the two commits answer, and the log note they leave. -/
theorem marchCommits :
    (durableRevision firstCommit.1 = some (str "rev:13bd0a8a1f8a6cd9b6fbe305cd6ace646284e49ced74ae3c5dea2ceb2e1186bd") ∧
      durableRevision secondCommit.1 = some (str "rev:1d097d140ca1dfec4c78aa54129af8e88a05307f0a246d8ca51f8034a0f98858")) ∧
    (parseSections (noteText secondCommit.2 (dayPath (str "2026-03-04")))).isOk = true := by
  unfold secondCommit firstCommit marchCommit tabulated
  simp only [marchDigests]
  repeat rw [str_ofList]
  decide +kernel

theorem firstCommit_logged : LogCommit memoryListing (marchRun (str "r1") (str "a.md")) ⟨.empty, .empty, []⟩ firstCommit.2 :=
  logCommit_march marchCommits.1.1

theorem secondCommit_logged : LogCommit memoryListing (marchRun (str "r2") (str "b.md")) firstCommit.2 secondCommit.2 :=
  logCommit_march marchCommits.1.2

theorem opLog_keeps_first : LogKept ⟨.empty, .empty, []⟩ firstCommit.2 [marchRun (str "r1") (str "a.md")] :=
  opLog_appendOnly memoryListing _ _ _ (.commit .nil firstCommit_logged) (List.nodup_singleton _)

/-- The second run of a day takes the entry of the first out of the log. -/
theorem opLog_forgets : ¬ ∀ (listing : Listing) (w₀ w : World) (runs : List LivingRun),
    Committed listing w₀ runs w → LogKept w₀ w runs := by
  intro h
  have hcommitted : Committed memoryListing ⟨.empty, .empty, []⟩
      [marchRun (str "r1") (str "a.md"), marchRun (str "r2") (str "b.md")] secondCommit.2 :=
    .commit (.commit .nil firstCommit_logged) secondCommit_logged
  obtain ⟨body, hholds, horder⟩ := (h _ _ _ _ hcommitted).days (str "2026-03-04") (by decide +kernel)
  have hparses := marchCommits.2
  cases hsections : parseSections (noteText secondCommit.2 (dayPath (str "2026-03-04"))) with
  | error e =>
    rw [hsections] at hparses
    cases hparses
  | ok sections =>
    have hlast := (hholds.reads sections hsections).symm.trans (secondCommit_logged.step.day.reads sections hsections)
    have hle := horder.length_le
    rw [Option.some.inj hlast] at hle
    exact absurd hle (by decide +kernel)

end march

end sow.living_vault
