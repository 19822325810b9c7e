import Sow.Effect.Program
import Sow.Effect.Interleave
import Sow.Js.Map
import Sow.Worker.Watch.VaultWatcher

open sow.js sow.effect sow.contracts sow.integrations
open sow.knowledge_writer (Sha256 hasNoTraversalSegments)

namespace sow.worker

/-- The real path of a vault root, by its segments. -/
structure RealRoot where
  segments : List JsString
  nonempty : segments ≠ []
  plain : ∀ s ∈ segments, s ≠ [] ∧ s ≠ str "." ∧ s ≠ str ".." ∧ unit '/' ∉ s

def RealRoot.text (root : RealRoot) : JsString := str "/" ++ join (str "/") root.segments

structure VaultFile where
  text : Option JsString
  lastWriter : Writer

/-- The files of the vault by their real paths, and the ids of the runs that have been started. -/
structure WatchedVault where
  files : Map JsString VaultFile
  started : List JsString

section vault

variable (vaultRoot : JsString) (root : RealRoot)

/-- The transport reads a file under the root. -/
def readVault (w : WatchedVault) (path : JsString) : FileExtractResult :=
  let realTarget := resolve root.text path
  if !isContainedUnder root.text realTarget then .failed .unreachable (str "path resolves outside the allowed root")
  else
    match w.files.get realTarget with
    | none => .failed .unreachable (str "file unreachable (ENOENT)")
    | some file =>
      match file.text with
      | none => .failed .unknown (str "binary content: no extractable text")
      | some text => .file ⟨realTarget, (split (unit '/') realTarget).getLast?, none, some text⟩

def writeVault (w : WatchedVault) (p : VaultPath) (edit : Edit) (writer : Writer) : WatchedVault :=
  match edit with
  | .write text => { w with files := w.files.set (resolve root.text p.text) ⟨text, writer⟩ }
  | .remove => { w with files := w.files.delete (resolve root.text p.text) }

/-- What a call answers and leaves behind. -/
def runVaultOp (w : WatchedVault) : (op : VaultOp) → op.Ret × WatchedVault
  | .realpath p => (if p = vaultRoot then some root.text else if w.files.has p then some p else none, w)
  | .read path => (readVault root w path, w)
  | .startRun workflowId _ =>
    if workflowId ∈ w.started then (.already_started, w) else (.started, { w with started := w.started ++ [workflowId] })
  | .surfaceHealth _ _ _ => ((), w)
  | .write p edit writer => ((), writeVault root w p edit writer)

def vaultFs : Handler VaultOp VaultOp.Ret Thrown WatchedVault (Fault Thrown) := faulty (runVaultOp vaultRoot root)

end vault

/-- A capture of a changed path, an edit from outside, or a commit of the writer. -/
inductive VaultCall where
  | capture (p : VaultPath)
  | edit (p : VaultPath) (change : Edit)
  | commit (p : VaultPath) (text : JsString)

section calls

variable (sha256 : Sha256) (binding : VaultWatchBinding) (deps : DispatchDeps)

def VaultCall.program : VaultCall → VaultM (Option CaptureOutcome)
  | .capture p => do return some (← sow.worker.capture sha256 binding deps p.text)
  | .edit p change => do
    let _ : Unit ← .perform (VaultOp.write p change .outside)
    return none
  | .commit p text => do
    let _ : Unit ← .perform (VaultOp.write p (.write (some text)) .knowledgeWriter)
    return none

variable {ι : Type} [DecidableEq ι]

/-- Captures, edits and commits, concurrently. -/
abbrev VaultPool (ι : Type) := Pool ι VaultOp VaultOp.Ret Thrown (Option CaptureOutcome) WatchedVault

/-- The calls before any of them has moved, on a vault without files. -/
def vaultCalls (calls : ι → VaultCall) : VaultPool ι := ⟨fun i => (calls i).program sha256 binding deps, ⟨.empty, []⟩⟩

variable (root : RealRoot)

/-- The calls after a schedule. -/
abbrev vaultRun (calls : ι → VaultCall) (es : List (ι × Fault Thrown)) : VaultPool ι :=
  (vaultCalls sha256 binding deps calls).run (vaultFs binding.vaultRoot root) es

/-- A capture has read a text, in a file last written from outside. -/
def ReadOutside (calls : ι → VaultCall) (es : List (ι × Fault Thrown)) (i : ι) (origin text : JsString) : Prop :=
  ∃ es₁ d es₂ path k, es = es₁ ++ (i, d) :: es₂ ∧ (vaultRun sha256 binding deps root calls es₁).thread i = .call (VaultOp.read path) k ∧
    (vaultRun sha256 binding deps root calls es₁).world.files.get origin = some ⟨some text, .outside⟩

/-- Runs are started on what was last written from outside, and no more of them than there are edits. -/
structure NeverFeeds (calls : ι → VaultCall) (schedule : List (ι × Fault Thrown)) : Prop where
  dispatched : ∀ es i d es' workflowId input k, schedule = es ++ (i, d) :: es' →
    (vaultRun sha256 binding deps root calls es).thread i = .call (VaultOp.startRun workflowId input) k →
      ∃ origin text, ReadOutside sha256 binding deps root calls es i origin text ∧ input.source.origin = origin ∧
        workflowId = sourceKey binding (fileContentHash sha256 origin text)
  finite : ∀ edits : List ι, (∀ i ∈ schedule.map Prod.fst, (∃ p change, calls i = .edit p change) → i ∈ edits) →
    (vaultRun sha256 binding deps root calls schedule).world.started.length ≤ edits.length

end calls

/-- A path that is captured when it changes. -/
def watched (relPath : JsString) : Bool := isMarkdown relPath && !isUnderOutputSubtree relPath

section paths

theorem foldl_pushSegment {segments : List JsString} (hplain : ∀ s ∈ segments, s ≠ [] ∧ s ≠ str "." ∧ s ≠ str "..") (stack : List JsString) :
    segments.foldl pushSegment stack = stack ++ segments := by
  induction segments generalizing stack with
  | nil => simp
  | cons s segments ih =>
    obtain ⟨hempty, hdot, hdots⟩ := hplain s (List.mem_cons_self ..)
    have hpush : pushSegment stack s = stack ++ [s] := by
      unfold pushSegment
      rw [if_neg (by simp [hempty, hdot]), if_neg hdots]
    rw [List.foldl_cons, hpush, ih fun s' hs' => hplain s' (List.mem_cons_of_mem _ hs')]
    simp

theorem VaultPath.plain_segments (p : VaultPath) : ∀ s ∈ split (unit '/') p.text, s ≠ [] ∧ s ≠ str "." ∧ s ≠ str ".." := by
  intro s hs
  have h := p.plain
  unfold hasNoTraversalSegments at h
  have hsegment := List.all_eq_true.mp h s hs
  simp only [Bool.and_eq_true, decide_eq_true_eq] at hsegment
  exact ⟨hsegment.2, hsegment.1.2, hsegment.1.1⟩

/-- A path of the vault does not start with a slash. -/
theorem VaultPath.not_absolute (p : VaultPath) : startsWith p.text (str "/") = false := by
  cases hp : startsWith p.text (str "/") with
  | false => rfl
  | true =>
    exfalso
    obtain ⟨t, ht⟩ := startsWith_iff.mp hp
    have hsegments : split (unit '/') p.text = split (unit '/') [] ++ split (unit '/') t := by
      rw [ht]
      exact split_append_sep (unit '/') [] t
    have hempty : ([] : JsString) ∈ split (unit '/') p.text := by
      rw [hsegments, split_of_not_mem List.not_mem_nil]
      exact List.mem_append_left _ (List.mem_singleton_self _)
    exact (p.plain_segments [] hempty).1 rfl

/-- A path of the vault resolves to itself under the root. -/
theorem resolve_root (root : RealRoot) (p : VaultPath) : resolve root.text p.text = root.text ++ str "/" ++ p.text := by
  have hroot : split (unit '/') (join (str "/") root.segments) = root.segments :=
    split_join (unit '/') root.nonempty fun s hs => (root.plain s hs).2.2.2
  have hsplit : split (unit '/') (root.text ++ str "/" ++ p.text) = [[]] ++ (root.segments ++ split (unit '/') p.text) := by
    have hshape : root.text ++ str "/" ++ p.text = [] ++ unit '/' :: (join (str "/") root.segments ++ unit '/' :: p.text) := by
      unfold RealRoot.text
      rw [List.append_assoc, List.append_assoc]
      rfl
    rw [hshape, split_append_sep, split_append_sep, split_of_not_mem List.not_mem_nil, hroot]
  have hplain : ∀ s ∈ root.segments ++ split (unit '/') p.text, s ≠ [] ∧ s ≠ str "." ∧ s ≠ str ".." := by
    intro s hs
    rcases List.mem_append.mp hs with hseg | hseg
    · exact ⟨(root.plain s hseg).1, (root.plain s hseg).2.1, (root.plain s hseg).2.2.1⟩
    · exact p.plain_segments s hseg
  have hjoin : join (str "/") (root.segments ++ split (unit '/') p.text) = join (str "/") root.segments ++ unit '/' :: p.text := by
    change join [unit '/'] _ = _
    rw [join_append root.nonempty (split_ne_nil _ _), join_split]
    rfl
  unfold resolve
  rw [p.not_absolute, if_neg (by decide)]
  dsimp only
  rw [hsplit, List.foldl_append, List.foldl_cons, List.foldl_nil]
  change str "/" ++ join (str "/") (List.foldl pushSegment [] _) = _
  rw [foldl_pushSegment hplain, List.nil_append, hjoin]
  unfold RealRoot.text
  rw [List.append_assoc, List.append_assoc]
  rfl

theorem resolve_inj {root : RealRoot} {p q : VaultPath} (h : resolve root.text p.text = resolve root.text q.text) : p.text = q.text := by
  rw [resolve_root, resolve_root] at h
  exact List.append_cancel_left h

theorem isContainedUnder_resolve (root : RealRoot) (p : VaultPath) : isContainedUnder root.text (resolve root.text p.text) = true := by
  unfold isContainedUnder
  rw [resolve_root]
  split_ifs
  · rfl
  · exact startsWith_iff.mpr ⟨str "/" ++ p.text, List.append_assoc ..⟩
  · exact startsWith_iff.mpr ⟨p.text, rfl⟩

end paths

section protocol

variable (sha256 : Sha256) (binding : VaultWatchBinding)

/-- What the calls of a capture are by the text that it has read, and of the other calls. -/
def watchProtocol (call : VaultCall) : Protocol VaultOp VaultOp.Ret Thrown (Option (JsString × JsString)) where
  allows s
    | .read path => ∃ p, call = .capture p ∧ path = p.text ∧ watched path = true
    | .startRun workflowId input =>
      ∃ origin text, s = some (origin, text) ∧ input.source.origin = origin ∧ workflowId = sourceKey binding (fileContentHash sha256 origin text)
    | .write p change writer => call = .edit p change ∧ writer = .outside ∨ ∃ text, call = .commit p text ∧ change = .write (some text) ∧ writer = .knowledgeWriter
    | _ => True
  next s
    | .read _, .ok (.file file) => file.text.map fun text => (file.path, text)
    | _, _ => s

/-- Any outcome in any state. -/
abbrev Anyhow {α : Type} : Option (JsString × JsString) → Except Thrown α → Prop := fun _ _ => True

variable {sha256 binding} {deps : DispatchDeps} {call : VaultCall} {s : Option (JsString × JsString)}

theorem fsRealpath_keeps {p : JsString} : (watchProtocol sha256 binding call).Keeps (fun s' _ => s' = s) (fsRealpath p) s := by
  unfold fsRealpath
  refine Protocol.keeps_call trivial (fun found => ?_) fun e => rfl
  cases found <;> rfl

theorem surfaceDegraded_keeps {workflowId message : JsString} {β : Type} {f : Unit → VaultM β} {Q : Option (JsString × JsString) → Except Thrown β → Prop}
    (hf : (watchProtocol sha256 binding call).Keeps Q (f ()) s) :
    (watchProtocol sha256 binding call).Keeps Q (surfaceDegraded deps workflowId message >>= f) s := by
  unfold surfaceDegraded
  rw [Protocol.keeps_bind, Protocol.keeps_tryCatch]
  refine ⟨trivial, fun r => ?_⟩
  cases r <;> exact hf

theorem makeId_keeps {schema : JsString → Bool} {raw : JsString} {β : Type} {f : JsString → VaultM β}
    (hf : (watchProtocol sha256 binding call).Keeps Anyhow (f raw) s) :
    (watchProtocol sha256 binding call).Keeps Anyhow (makeId schema raw >>= f) s := by
  unfold makeId
  rw [Protocol.keeps_bind]
  split_ifs
  · exact hf
  · trivial

/-- A run is started on the text that has been read. -/
theorem dispatchSourceIngestion_keeps {input : SourceIngestionInput} {origin text : JsString} (hs : s = some (origin, text))
    (horigin : input.source.origin = origin) (hkey : input.idempotencyKey = sourceKey binding (fileContentHash sha256 origin text)) :
    (watchProtocol sha256 binding call).Keeps Anyhow (dispatchSourceIngestion deps input) s := by
  unfold dispatchSourceIngestion
  dsimp only
  split_ifs
  · exact surfaceDegraded_keeps trivial
  · exact surfaceDegraded_keeps trivial
  · rw [Protocol.keeps_tryCatch]
    unfold startIngestion
    refine Protocol.keeps_call ⟨origin, text, hs, horigin, hkey⟩ (fun outcome => ?_) fun e => surfaceDegraded_keeps trivial
    cases outcome <;> trivial

/-- A candidate is of the text that has been read. -/
def Extracted (sha256 : Sha256) (s : Option (JsString × JsString)) (r : Except Thrown (Except FileExtractError RegisterSourceInput)) : Prop :=
  ∀ c, r = .ok (.ok c) → ∃ origin text, s = some (origin, text) ∧ c.origin = origin ∧ c.contentHash = fileContentHash sha256 origin text

theorem extractFileSource_keeps {p : VaultPath} (hcall : call = .capture p) (hp : watched p.text = true) :
    (watchProtocol sha256 binding call).Keeps (Extracted sha256) (extractFileSource sha256 readTransport (extractInput binding p.text)) s := by
  unfold extractFileSource readTransport
  rw [Protocol.keeps_tryCatch]
  refine Protocol.keeps_call ⟨p, hcall, rfl, hp⟩ (fun result => ?_) fun e => nofun
  cases result with
  | failed code message => exact nofun
  | file file =>
    intro c hc
    obtain ⟨text, htext, horigin, hhash⟩ := fileCandidate_ok (Except.ok.inj hc)
    refine ⟨file.path, text, ?_, horigin, hhash⟩
    change file.text.map _ = _
    rw [htext]
    rfl

theorem captureContained_keeps {p : VaultPath} (hcall : call = .capture p) (hp : watched p.text = true) :
    (watchProtocol sha256 binding call).Keeps Anyhow (captureContained sha256 binding deps p.text) s := by
  unfold captureContained
  rw [Protocol.keeps_bind]
  refine (extractFileSource_keeps hcall hp).mono fun s' r hr => ?_
  cases r with
  | error e => trivial
  | ok extracted =>
    cases extracted with
    | error e => trivial
    | ok c =>
      obtain ⟨origin, text, hs, horigin, hhash⟩ := hr c rfl
      dsimp only
      unfold ingestionInput
      simp only [bind_assoc, pure_bind]
      refine makeId_keeps (makeId_keeps (makeId_keeps ?_))
      rw [Protocol.keeps_bind]
      refine (dispatchSourceIngestion_keeps hs horigin ?_).mono fun s' r _ => ?_
      · rw [hhash]
      · cases r with
        | error e => trivial
        | ok outcome => cases outcome <;> trivial

theorem capture_keeps {p : VaultPath} (hcall : call = .capture p) :
    (watchProtocol sha256 binding call).Keeps Anyhow (capture sha256 binding deps p.text) s := by
  unfold capture
  rw [Protocol.keeps_tryCatch]
  suffices h : (watchProtocol sha256 binding call).Keeps Anyhow (computeOutcome sha256 binding deps p.text) s from
    h.mono fun s' r _ => by cases r <;> trivial
  unfold computeOutcome
  split_ifs with hmarkdown hsubtree
  · trivial
  · trivial
  · have hp : watched p.text = true := by
      unfold watched
      simp_all
    rw [Protocol.keeps_bind]
    refine fsRealpath_keeps.mono fun s' r hs' => ?_
    cases r with
    | error e => trivial
    | ok realRoot =>
      dsimp only
      rw [Protocol.keeps_bind, Protocol.keeps_attempt]
      refine fsRealpath_keeps.mono fun s'' r _ => ?_
      cases r with
      | error e => trivial
      | ok realTarget =>
        dsimp only
        split_ifs
        · trivial
        · exact captureContained_keeps hcall hp

theorem vaultCall_keeps (call : VaultCall) : (watchProtocol sha256 binding call).Keeps Anyhow (call.program sha256 binding deps) s := by
  cases call with
  | capture p =>
    unfold VaultCall.program
    rw [Protocol.keeps_bind]
    exact (capture_keeps rfl).mono fun s' r _ => by cases r <;> trivial
  | edit p change =>
    unfold VaultCall.program
    exact Protocol.keeps_call (.inl ⟨rfl, rfl⟩) (fun _ => trivial) fun _ => trivial
  | commit p text =>
    unfold VaultCall.program
    exact Protocol.keeps_call (.inr ⟨text, rfl, rfl, rfl⟩) (fun _ => trivial) fun _ => trivial

end protocol

section run

variable {sha256 : Sha256} {binding : VaultWatchBinding} {deps : DispatchDeps} {root : RealRoot} {ι : Type} [DecidableEq ι] {calls : ι → VaultCall}
  {es : List (ι × Fault Thrown)} {s : ι → Option (JsString × JsString)} {w : WatchedVault}

/-- A text has been written from outside. -/
def Edited (root : RealRoot) (calls : ι → VaultCall) (es : List (ι × Fault Thrown)) (origin : JsString) (text : Option JsString) : Prop :=
  ∃ i ∈ es.map Prod.fst, ∃ p, calls i = .edit p (.write text) ∧ origin = resolve root.text p.text

omit [DecidableEq ι] in
theorem Edited.concat {origin : JsString} {text : Option JsString} (h : Edited root calls es origin text) (e : ι × Fault Thrown) :
    Edited root calls (es ++ [e]) origin text := by
  obtain ⟨i, hi, hedit⟩ := h
  refine ⟨i, ?_, hedit⟩
  rw [List.map_append]
  exact List.mem_append_left _ hi

theorem ReadOutside.concat {i : ι} {origin text : JsString} (h : ReadOutside sha256 binding deps root calls es i origin text)
    (e : ι × Fault Thrown) : ReadOutside sha256 binding deps root calls (es ++ [e]) i origin text := by
  obtain ⟨es₁, d, es₂, path, k, hes, hrest⟩ := h
  exact ⟨es₁, d, es₂ ++ [e], path, k, by rw [hes]; simp, hrest⟩

/-- What the captures have read and started comes from edits, as what is in the files that they watch. -/
structure FedOutside (sha256 : Sha256) (binding : VaultWatchBinding) (deps : DispatchDeps) (root : RealRoot) (calls : ι → VaultCall)
    (es : List (ι × Fault Thrown)) (s : ι → Option (JsString × JsString)) (w : WatchedVault) : Prop where
  read : ∀ i origin text, s i = some (origin, text) →
    ReadOutside sha256 binding deps root calls es i origin text ∧ Edited root calls es origin (some text)
  edited : ∀ origin text, w.files.get origin = some ⟨text, .outside⟩ → Edited root calls es origin text
  watched : ∀ p : VaultPath, watched p.text = true → ∀ file, w.files.get (resolve root.text p.text) = some file → file.lastWriter = .outside
  once : w.started.Nodup
  started : ∀ key ∈ w.started, ∃ origin text, Edited root calls es origin (some text) ∧ key = sourceKey binding (fileContentHash sha256 origin text)

theorem FedOutside.concat (h : FedOutside sha256 binding deps root calls es s w) (e : ι × Fault Thrown) :
    FedOutside sha256 binding deps root calls (es ++ [e]) s w where
  read i origin text hs := ⟨(h.read i origin text hs).1.concat e, (h.read i origin text hs).2.concat e⟩
  edited origin text hfile := (h.edited origin text hfile).concat e
  watched := h.watched
  once := h.once
  started key hkey := by
    obtain ⟨origin, text, hedited, heq⟩ := h.started key hkey
    exact ⟨origin, text, hedited.concat e, heq⟩

/-- An edit at a path, or a commit at a path that is not watched. -/
theorem FedOutside.write (h : FedOutside sha256 binding deps root calls es s w) {i : ι} {d : Fault Thrown} {p : VaultPath} {change : Edit} {writer : Writer}
    (hwrite : calls i = .edit p change ∧ writer = .outside ∨ ∃ text, calls i = .commit p text ∧ change = .write (some text) ∧ writer = .knowledgeWriter)
    (hunwatched : ∀ text, calls i = .commit p text → sow.worker.watched p.text = false) :
    FedOutside sha256 binding deps root calls (es ++ [(i, d)]) s (writeVault root w p change writer) := by
  have hc := h.concat (i, d)
  have hedit : writer = .outside → calls i = .edit p change := by
    intro hwriter
    rcases hwrite with ⟨hcall, -⟩ | ⟨text, -, -, hknowledge⟩
    · exact hcall
    · rw [hwriter] at hknowledge
      cases hknowledge
  cases change with
  | remove =>
    refine ⟨hc.read, fun origin text hfile => ?_, fun q hq file hfile => ?_, hc.once, hc.started⟩
    · rw [writeVault, Map.get_delete] at hfile
      split_ifs at hfile
      exact hc.edited origin text hfile
    · rw [writeVault, Map.get_delete] at hfile
      split_ifs at hfile
      exact hc.watched q hq file hfile
  | write text =>
    refine ⟨hc.read, fun origin text' hfile => ?_, fun q hq file hfile => ?_, hc.once, hc.started⟩
    · by_cases horigin : resolve root.text p.text = origin
      · subst horigin
        rw [writeVault, Map.get_set_self] at hfile
        obtain ⟨rfl, hwriter⟩ := VaultFile.mk.inj (Option.some.inj hfile)
        exact ⟨i, by simp, p, hedit hwriter, rfl⟩
      · rw [writeVault, Map.get_set_of_ne _ _ horigin] at hfile
        exact hc.edited origin text' hfile
    · by_cases horigin : resolve root.text p.text = resolve root.text q.text
      · rw [writeVault, ← horigin, Map.get_set_self] at hfile
        obtain rfl := Option.some.inj hfile
        rcases hwrite with ⟨-, hwriter⟩ | ⟨text', hcommit, -, -⟩
        · exact hwriter
        · have hp := hunwatched text' hcommit
          rw [resolve_inj horigin, hq] at hp
          cases hp
      · rw [writeVault, Map.get_set_of_ne _ _ horigin] at hfile
        exact hc.watched q hq file hfile

/-- The transport has found a file with a text. -/
theorem readVault_file {path : JsString} {file : ExtractedFile} (h : readVault root w path = .file file) :
    ∃ found text, w.files.get (resolve root.text path) = some found ∧ found.text = some text ∧ file.path = resolve root.text path ∧
      file.text = some text := by
  unfold readVault at h
  dsimp only at h
  split_ifs at h
  cases hget : w.files.get (resolve root.text path) with
  | none =>
    rw [hget] at h
    cases h
  | some found =>
    rw [hget] at h
    dsimp only at h
    cases htext : found.text with
    | none =>
      rw [htext] at h
      cases h
    | some text =>
      rw [htext] at h
      obtain rfl := FileExtractResult.file.inj h
      exact ⟨found, text, rfl, htext, rfl, rfl⟩

/-- What a call leaves behind, whether or not its answer arrives. -/
theorem FedOutside.exec (h : FedOutside sha256 binding deps root calls es s w) {i : ι} {d : Fault Thrown} {op : VaultOp}
    (hunwatched : ∀ p text, calls i = .commit p text → sow.worker.watched p.text = false)
    (hallows : (watchProtocol sha256 binding (calls i)).allows (s i) op) :
    FedOutside sha256 binding deps root calls (es ++ [(i, d)]) s (runVaultOp binding.vaultRoot root w op).2 := by
  cases op with
  | realpath p => exact h.concat (i, d)
  | read path => exact h.concat (i, d)
  | surfaceHealth subjectRef message auditRef => exact h.concat (i, d)
  | write p change writer => exact h.write hallows fun text => hunwatched p text
  | startRun workflowId input =>
    have hc := h.concat (i, d)
    obtain ⟨origin, text, hs, -, hkey⟩ := hallows
    dsimp only [runVaultOp]
    split_ifs with hstarted
    · exact hc
    · refine ⟨hc.read, hc.edited, hc.watched, ?_, fun key hmem => ?_⟩
      · exact List.nodup_append.mpr ⟨hc.once, List.nodup_singleton _, by rintro a ha b hb rfl; rw [List.mem_singleton.mp hb] at ha; exact hstarted ha⟩
      · rcases List.mem_append.mp hmem with hold | hnew
        · exact hc.started key hold
        · rw [List.mem_singleton.mp hnew]
          exact ⟨origin, text, (hc.read i origin text hs).2, hkey⟩

/-- A capture that reads a text learns of an edit. -/
theorem FedOutside.extract {i : ι} {d : Fault Thrown} {path : JsString} {k : Except Thrown FileExtractResult → VaultM (Option CaptureOutcome)}
    (h : FedOutside sha256 binding deps root calls es s (vaultRun sha256 binding deps root calls es).world)
    (hcall : (vaultRun sha256 binding deps root calls es).thread i = .call (VaultOp.read path) k)
    (hallows : (watchProtocol sha256 binding (calls i)).allows (s i) (VaultOp.read path)) :
    FedOutside sha256 binding deps root calls (es ++ [(i, d)])
      (Function.update s i ((watchProtocol sha256 binding (calls i)).next (s i) (VaultOp.read path)
        (.ok (readVault root (vaultRun sha256 binding deps root calls es).world path))))
      (vaultRun sha256 binding deps root calls es).world := by
  have hc := h.concat (i, d)
  cases hresult : readVault root (vaultRun sha256 binding deps root calls es).world path with
  | failed code message =>
    rw [show (watchProtocol sha256 binding (calls i)).next (s i) (VaultOp.read path) (.ok (.failed code message)) = s i from rfl,
      Function.update_eq_self]
    exact hc
  | file file =>
    obtain ⟨⟨ftext, writer⟩, text, hget, rfl, hpath, htext⟩ := readVault_file hresult
    obtain ⟨p, -, rfl, hp⟩ := hallows
    obtain rfl : writer = .outside := h.watched p hp _ hget
    have hnext : (watchProtocol sha256 binding (calls i)).next (s i) (VaultOp.read p.text) (.ok (.file file)) =
        some (resolve root.text p.text, text) := by
      change file.text.map _ = _
      rw [htext, hpath]
      rfl
    rw [hnext]
    refine ⟨fun j origin text' hj => ?_, hc.edited, hc.watched, hc.once, hc.started⟩
    by_cases hji : j = i
    · subst hji
      rw [Function.update_self] at hj
      obtain ⟨rfl, rfl⟩ := Prod.mk.inj (Option.some.inj hj)
      exact ⟨⟨es, d, [], p.text, k, rfl, hcall, hget⟩, (h.edited _ _ hget).concat _⟩
    · rw [Function.update_of_ne hji] at hj
      exact hc.read j origin text' hj

/-- What a step of a call preserves. -/
theorem FedOutside.step {i : ι} {d : Fault Thrown} {op : VaultOp} {k : Except Thrown op.Ret → VaultM (Option CaptureOutcome)}
    (hunwatched : ∀ p text, calls i = .commit p text → sow.worker.watched p.text = false)
    (h : FedOutside sha256 binding deps root calls es s (vaultRun sha256 binding deps root calls es).world)
    (hcall : (vaultRun sha256 binding deps root calls es).thread i = .call op k)
    (hallows : (watchProtocol sha256 binding (calls i)).allows (s i) op) :
    FedOutside sha256 binding deps root calls (es ++ [(i, d)])
      (Function.update s i ((watchProtocol sha256 binding (calls i)).next (s i) op
        ((vaultFs binding.vaultRoot root).exec (vaultRun sha256 binding deps root calls es).world op d).1))
      ((vaultFs binding.vaultRoot root).exec (vaultRun sha256 binding deps root calls es).world op d).2 := by
  have hexec := h.exec (d := d) hunwatched hallows
  have hstays : (∃ path, op = .read path) ∨ ∀ r, (watchProtocol sha256 binding (calls i)).next (s i) op r = s i := by
    cases op with
    | read path => exact .inl ⟨path, rfl⟩
    | _ => exact .inr fun r => by cases r <;> rfl
  have herror : ∀ cause, (watchProtocol sha256 binding (calls i)).next (s i) op (.error cause) = s i := by
    intro cause
    cases op <;> rfl
  have hok : FedOutside sha256 binding deps root calls (es ++ [(i, d)])
      (Function.update s i ((watchProtocol sha256 binding (calls i)).next (s i) op
        (.ok (runVaultOp binding.vaultRoot root (vaultRun sha256 binding deps root calls es).world op).1)))
      (runVaultOp binding.vaultRoot root (vaultRun sha256 binding deps root calls es).world op).2 := by
    rcases hstays with ⟨path, rfl⟩ | hstays
    · exact h.extract hcall hallows
    · rw [hstays, Function.update_eq_self]
      exact hexec
  unfold vaultFs
  rcases faulty_cases (runVaultOp binding.vaultRoot root) (vaultRun sha256 binding deps root calls es).world op d
    with hanswer | ⟨cause, w', hfault, rfl | rfl⟩
  · rw [hanswer]
    exact hok
  · rw [hfault, herror, Function.update_eq_self]
    exact h.concat (i, d)
  · rw [hfault, herror, Function.update_eq_self]
    exact hexec

/-- The calls of a vault into whose watched files nothing is committed. -/
theorem fedOutside_run (sha256 : Sha256) (binding : VaultWatchBinding) (deps : DispatchDeps) (root : RealRoot) (calls : ι → VaultCall) (hunwatched : ∀ i p text, calls i = .commit p text → sow.worker.watched p.text = false)
    (schedule : List (ι × Fault Thrown)) :
    ∃ s, (vaultRun sha256 binding deps root calls schedule).Follows (fun i => watchProtocol sha256 binding (calls i)) (fun _ => Anyhow) s ∧
      FedOutside sha256 binding deps root calls schedule s (vaultRun sha256 binding deps root calls schedule).world := by
  have hstart : (vaultCalls sha256 binding deps calls).Follows (fun i => watchProtocol sha256 binding (calls i)) (fun _ => Anyhow) fun _ => none :=
    fun i => vaultCall_keeps (calls i)
  refine hstart.history (FedOutside sha256 binding deps root calls) ?_ schedule (fun es e s w h => h.concat e) fun es i d s op k h hcall hallows =>
    h.step (hunwatched i) hcall hallows
  exact ⟨nofun, nofun, nofun, List.nodup_nil, nofun⟩

/-- The key that the text of an edit is started under. -/
def editKey (sha256 : Sha256) (binding : VaultWatchBinding) (root : RealRoot) : VaultCall → JsString
  | .edit p (.write (some text)) => sourceKey binding (fileContentHash sha256 (resolve root.text p.text) text)
  | _ => []

theorem neverFeeds_of_unwatched (calls : ι → VaultCall) (hunwatched : ∀ i p text, calls i = .commit p text → sow.worker.watched p.text = false)
    (schedule : List (ι × Fault Thrown)) : NeverFeeds sha256 binding deps root calls schedule where
  dispatched es i d es' workflowId input k hes hcall := by
    obtain ⟨s, hfollows, hfed⟩ := fedOutside_run sha256 binding deps root calls hunwatched es
    have hi := hfollows i
    rw [hcall] at hi
    obtain ⟨⟨origin, text, hs, horigin, hkey⟩, -⟩ := hi
    exact ⟨origin, text, (hfed.read i origin text hs).1, horigin, hkey⟩
  finite edits hedits := by
    obtain ⟨s, -, hfed⟩ := fedOutside_run sha256 binding deps root calls hunwatched schedule
    have hsubset : (vaultRun sha256 binding deps root calls schedule).world.started ⊆ edits.map fun i => editKey sha256 binding root (calls i) := by
      intro key hkey
      obtain ⟨origin, text, ⟨i, hi, p, hedit, rfl⟩, rfl⟩ := hfed.started key hkey
      refine List.mem_map.mpr ⟨i, hedits i hi ⟨p, _, hedit⟩, ?_⟩
      rw [hedit]
      rfl
    have hlength := (List.subperm_of_subset hfed.once hsubset).length_le
    rwa [List.length_map] at hlength

end run

section feeding

variable {sha256 : Sha256} {binding : VaultWatchBinding} {deps : DispatchDeps} {root : RealRoot}

theorem computeOutcome_eq {relPath : JsString} (h : watched relPath = true) :
    computeOutcome sha256 binding deps relPath = (do
      let realRoot ← fsRealpath binding.vaultRoot
      match ← (fsRealpath (resolve realRoot relPath)).attempt with
      | .error _ => pure (.ignored .absent)
      | .ok realTarget =>
        if !isContainedUnder realRoot realTarget then pure (.ignored .escapes_root)
        else captureContained sha256 binding deps relPath) := by
  unfold watched at h
  unfold computeOutcome
  rw [Bool.and_eq_true, Bool.not_eq_true'] at h
  rw [h.1, h.2]
  rfl

theorem brandedIdSchema_cons {c : UInt16} {s : JsString} (hc : isSpace c = false) : brandedIdSchema (c :: s) = true := by
  refine decide_eq_true fun htrim => ?_
  unfold trim at htrim
  rw [List.dropWhile_cons_of_neg (by simp [hc]), List.rdropWhile_eq_nil_iff] at htrim
  exact absurd (htrim c (List.mem_cons_self ..)) (by simp [hc])

/-- The calls of a capture that finds a text. -/
theorem capture_calls (sha256 : Sha256) (root : RealRoot) {p : VaultPath} (h : watched p.text = true) (hconnected : deps.connected = true)
    (hworkspace : WorkspaceIdSchema binding.workspaceId = true) (file : ExtractedFile) {text : JsString} (htext : file.text = some text) (hblank : trim text ≠ []) :
    ∃ k₁ k₂ k₃ input k₄, (VaultCall.capture p).program sha256 binding deps = .call (VaultOp.realpath binding.vaultRoot) k₁ ∧
      k₁ (.ok (some root.text)) = .call (VaultOp.realpath (resolve root.text p.text)) k₂ ∧
      k₂ (.ok (some (resolve root.text p.text))) = .call (VaultOp.read p.text) k₃ ∧
      k₃ (.ok (.file file)) = .call (VaultOp.startRun (sourceKey binding (fileContentHash sha256 file.path text)) input) k₄ := by
  have hcandidate : fileCandidate sha256 (extractInput binding p.text) file = .ok {
      sourceId := (extractInput binding p.text).sourceId
      workspaceId := binding.workspaceId
      origin := file.path
      contentHash := fileContentHash sha256 file.path text
      type := str "file"
      sensitivity := binding.sensitivity
      routingHints := fileRoutingHints file } := by
    unfold fileCandidate
    rw [htext]
    exact if_neg hblank
  have hsource : brandedIdSchema (extractInput binding p.text).sourceId = true := brandedIdSchema_cons (by decide)
  have hkey : brandedIdSchema (sourceKey binding (fileContentHash sha256 file.path text)) = true := brandedIdSchema_cons (by decide)
  simp only [VaultCall.program, capture, computeOutcome_eq h]
  refine ⟨_, _, ?_, ?_, ?_, rfl, rfl, ?_, ?_⟩
  rotate_left 3
  · dsimp only [Except.map, bind, Program.bind, Program.tryCatch, Program.attempt, Program.ofExcept, pure]
    rw [isContainedUnder_resolve]
    rfl
  · dsimp only [Except.map, bind, Program.bind, Program.tryCatch, Program.attempt, Program.ofExcept, pure]
    simp only [hcandidate, ingestionInput, makeId, hsource, hworkspace, hkey, if_true, dispatchSourceIngestion, startIngestion, hconnected]
    rfl

/-- A call that is answered, and leaves the vault as it is. -/
theorem answered_step (vaultRoot : JsString) (root : RealRoot) {c : VaultPool ℕ} {i : ℕ} {op : VaultOp} {k : Except Thrown op.Ret → VaultM (Option CaptureOutcome)}
    {a : op.Ret} (hcall : c.thread i = .call op k) (hrun : runVaultOp vaultRoot root c.world op = (a, c.world)) :
    (c.step (vaultFs vaultRoot root) (i, .none)).thread i = k (.ok a) ∧ (c.step (vaultFs vaultRoot root) (i, .none)).world = c.world := by
  rw [Pool.step_of_call hcall]
  have hexec : (vaultFs vaultRoot root).exec c.world op .none = (.ok a, c.world) := by
    change (Except.ok (runVaultOp vaultRoot root c.world op).1, (runVaultOp vaultRoot root c.world op).2) = _
    rw [hrun]
  rw [hexec]
  exact ⟨Function.update_self .., rfl⟩

/-- A commit at a path, and captures of the path. -/
def feedingCalls (p : VaultPath) (i : ℕ) : VaultCall := if i = 0 then .commit p (str "x") else .capture p

def vaultRootDir : RealRoot := ⟨[str "vault"], by decide, by decide⟩

def watchBinding : VaultWatchBinding := ⟨str "vault", str "ws", str "normal"⟩

def connectedDeps : DispatchDeps := ⟨true, str "audit"⟩

/-- What is read of the file of the commit. -/
def committedFile (p : VaultPath) : ExtractedFile where
  path := resolve vaultRootDir.text p.text
  filename := (split (unit '/') (resolve vaultRootDir.text p.text)).getLast?
  mime := none
  text := some (str "x")

/-- The commit, and then the calls of a capture up to its start. -/
def feedingSchedule : List (ℕ × Fault Thrown) := [(0, .none), (1, .none), (1, .none), (1, .none)]

theorem feedingCalls_start (sha256 : Sha256) {p : VaultPath} (h : watched p.text = true) :
    ∃ workflowId input k, (vaultRun sha256 watchBinding connectedDeps vaultRootDir (feedingCalls p) feedingSchedule).thread 1 =
      .call (VaultOp.startRun workflowId input) k := by
  obtain ⟨k₁, k₂, k₃, input, k₄, hrealpath, htarget, hread, hstart⟩ :=
    @capture_calls watchBinding connectedDeps sha256 vaultRootDir p h rfl (by decide) (committedFile p) (str "x") rfl (by decide)
  refine ⟨_, input, k₄, ?_⟩
  rw [← hstart]
  have hcommit : (vaultCalls sha256 watchBinding connectedDeps (feedingCalls p)).thread 0 =
      .call (VaultOp.write p (.write (some (str "x"))) .knowledgeWriter) _ := rfl
  have hworld : ((vaultCalls sha256 watchBinding connectedDeps (feedingCalls p)).step (vaultFs watchBinding.vaultRoot vaultRootDir) (0, .none)).world =
      ⟨Map.empty.set (resolve vaultRootDir.text p.text) ⟨some (str "x"), .knowledgeWriter⟩, []⟩ := by
    rw [Pool.step_of_call hcommit]
    rfl
  have hcapture : ((vaultCalls sha256 watchBinding connectedDeps (feedingCalls p)).step (vaultFs watchBinding.vaultRoot vaultRootDir) (0, .none)).thread 1 =
      .call (VaultOp.realpath watchBinding.vaultRoot) k₁ := by
    rw [Pool.step_of_ne Nat.one_ne_zero, ← hrealpath]
    rfl
  unfold vaultRun feedingSchedule
  rw [Pool.run_cons]
  generalize (vaultCalls sha256 watchBinding connectedDeps (feedingCalls p)).step (vaultFs watchBinding.vaultRoot vaultRootDir) (0, .none) = c at hworld hcapture ⊢
  obtain ⟨hthread₁, hworld₁⟩ := answered_step watchBinding.vaultRoot vaultRootDir hcapture (a := some vaultRootDir.text) (by
    dsimp only [runVaultOp]
    rw [if_pos rfl])
  rw [htarget] at hthread₁
  obtain ⟨hthread₂, hworld₂⟩ := answered_step watchBinding.vaultRoot vaultRootDir hthread₁
    (a := some (resolve vaultRootDir.text p.text)) (by
    dsimp only [runVaultOp]
    rw [if_neg, if_pos]
    · rw [hworld₁, hworld]
      simp [Map.has]
    · rw [resolve_root]
      intro heq
      cases heq)
  rw [hread] at hthread₂
  obtain ⟨hthread₃, -⟩ := answered_step watchBinding.vaultRoot vaultRootDir hthread₂
    (a := FileExtractResult.file (committedFile p)) (by
    dsimp only [runVaultOp]
    rw [hworld₂, hworld₁, hworld]
    unfold readVault
    dsimp only
    rw [isContainedUnder_resolve, Map.get_set_self]
    rfl)
  exact hthread₃

/-- Without edits, no file is last written from outside. -/
theorem no_outside_file {ι : Type} [DecidableEq ι] {calls : ι → VaultCall} (hno : ∀ i p change, calls i ≠ .edit p change)
    (es : List (ι × Fault Thrown)) (origin : JsString) (text : Option JsString) :
    (vaultRun sha256 binding deps root calls es).world.files.get origin ≠ some ⟨text, .outside⟩ := by
  have hwithin : ∀ i, ((calls i).program sha256 binding deps).Within fun op => ∀ p change, op ≠ .write p change .outside := by
    intro i
    refine (vaultCall_keeps (calls i)).within (s := none) fun s op hallows => ?_
    rintro p change rfl
    rcases hallows with ⟨hedit, -⟩ | ⟨_, -, -, hwriter⟩
    · exact hno i p change hedit
    · cases hwriter
  have hrun : ∀ w op d, (∀ p change, op ≠ VaultOp.write p change .outside) → (∀ origin text, w.files.get origin ≠ some ⟨text, .outside⟩) →
      ∀ origin text, ((vaultFs binding.vaultRoot root).exec w op d).2.files.get origin ≠ some ⟨text, .outside⟩ := by
    intro w op d hop hw
    have hran : ∀ origin text, (runVaultOp binding.vaultRoot root w op).2.files.get origin ≠ some ⟨text, .outside⟩ := by
      cases op with
      | realpath p => exact hw
      | read path => exact hw
      | surfaceHealth subjectRef message auditRef => exact hw
      | startRun workflowId input =>
        dsimp only [runVaultOp]
        split_ifs <;> exact hw
      | write p change writer =>
        intro origin text hfile
        cases change with
        | remove =>
          rw [runVaultOp, writeVault, Map.get_delete] at hfile
          split_ifs at hfile
          exact hw origin text hfile
        | write written =>
          rw [runVaultOp, writeVault, Map.get_set] at hfile
          split_ifs at hfile
          · obtain ⟨-, rfl⟩ := VaultFile.mk.inj (Option.some.inj hfile)
            exact hop p (.write written) rfl
          · exact hw origin text hfile
    rcases faulty_cases (runVaultOp binding.vaultRoot root) w op d with hanswer | ⟨cause, w', hfault, rfl | rfl⟩
    · rw [vaultFs, hanswer]
      exact hran
    · rw [vaultFs, hfault]
      exact hw
    · rw [vaultFs, hfault]
      exact hran
  refine (Pool.run_within hrun hwithin (fun origin text hfile => ?_) es).2 origin text
  rw [vaultCalls, Map.get_empty] at hfile
  cases hfile

/-- What is committed into a watched file is fed to a run. -/
theorem feedingCalls_feed (sha256 : Sha256) {p : VaultPath} (h : watched p.text = true) :
    ¬ NeverFeeds sha256 watchBinding connectedDeps vaultRootDir (feedingCalls p) (feedingSchedule ++ [(1, .none)]) := by
  intro hnever
  obtain ⟨workflowId, input, k, hstart⟩ := feedingCalls_start sha256 h
  obtain ⟨origin, text, ⟨es₁, d, es₂, path, k', -, -, hfile⟩, -⟩ := hnever.dispatched feedingSchedule 1 .none [] workflowId input k rfl hstart
  refine no_outside_file (fun i q change hedit => ?_) es₁ origin (some text) hfile
  unfold feedingCalls at hedit
  split_ifs at hedit

theorem feedingCalls_lands {lands : VaultPath → Prop} {p : VaultPath} (hp : lands p) (i : ℕ) (q : VaultPath) (text : JsString)
    (hcommit : feedingCalls p i = .commit q text) : lands q := by
  unfold feedingCalls at hcommit
  split_ifs at hcommit
  obtain ⟨rfl, -⟩ := VaultCall.commit.inj hcommit
  exact hp

/-- The runs of a vault stay apart from its writer if and only if nothing is committed into a file that is
    watched. -/
theorem neverFeeds_iff (lands : VaultPath → Prop) :
    (∀ sha256 binding deps root (calls : ℕ → VaultCall) schedule, (∀ i p text, calls i = .commit p text → lands p) →
      NeverFeeds sha256 binding deps root calls schedule) ↔ ∀ p, lands p → watched p.text = false := by
  constructor
  · intro h p hp
    by_contra hwatched
    rw [Bool.not_eq_false] at hwatched
    exact feedingCalls_feed (fun _ => []) hwatched (h _ watchBinding connectedDeps vaultRootDir (feedingCalls p) _ (feedingCalls_lands hp))
  · intro h sha256 binding deps root calls schedule hlands
    exact neverFeeds_of_unwatched calls (fun i p text hcommit => h p (hlands i p text hcommit)) schedule

end feeding

end sow.worker
