import Sow.Contracts.Models
import Sow.Js.Case

open sow.js sow.contracts

namespace sow.fence

inductive VaultMountMode where
  | read_only
  | read_write
  deriving DecidableEq

inductive PgliteLockHolder where
  | worker
  | gbrain
  | none
  | unknown
  deriving DecidableEq

inductive GbrainCommandClass where
  | read_only
  | write_capable
  deriving DecidableEq

def READ_ONLY_GBRAIN_COMMANDS : List JsString :=
  [str "import", str "sync", str "extract", str "oracle", str "doctor", str "lint"]

def WRITE_CAPABLE_MARKERS : List JsString :=
  [str "serve", str "install-cron", str "autopilot", str "jobs work", str "jobs-work", str "jobs_work", str "dream",
    str "synthesize", str "--fix", str "put_page", str "put-page", str "put page", str "add_link", str "add-link", str "writebrainpage"]

/-- `s.split(/\s+/).filter((t) => t.length > 0)` -/
def spacedTokens (s : JsString) : List JsString := (s.splitOnP isSpace).filter fun t => 0 < t.length

section classify

variable (tables : CaseTables) (command : JsString)

def hasWriteMarker : Bool := WRITE_CAPABLE_MARKERS.any fun m => includes (tables.toLowerCase command) m

/-- The tokens of a command line, in small letters. -/
def commandTokens : List JsString := spacedTokens (tables.toLowerCase command)

def isKnownReadOnly : Bool := (commandTokens tables command).any fun t => READ_ONLY_GBRAIN_COMMANDS.contains t

def classifyGbrainCommand : GbrainCommandClass :=
  if hasWriteMarker tables command then .write_capable
  else if isKnownReadOnly tables command then .read_only
  else .write_capable

end classify

/-- `pid` is as `String(pid)` writes it. -/
structure ObservedGbrainProcess where
  pid : JsString
  command : JsString
  boundBrainId : JsString
  mount : VaultMountMode
  holdsPgliteLock : Bool
  deriving DecidableEq

inductive WriteFenceBreachReason where
  | vault_acl_not_worker_exclusive
  | pglite_lock_not_worker_held
  | stray_write_capable_process
  | gbrain_process_read_write_mounted
  | pglite_lock_held_by_gbrain
  deriving DecidableEq

def WriteFenceBreachReason.text : WriteFenceBreachReason → JsString
  | .vault_acl_not_worker_exclusive => str "vault_acl_not_worker_exclusive"
  | .pglite_lock_not_worker_held => str "pglite_lock_not_worker_held"
  | .stray_write_capable_process => str "stray_write_capable_process"
  | .gbrain_process_read_write_mounted => str "gbrain_process_read_write_mounted"
  | .pglite_lock_held_by_gbrain => str "pglite_lock_held_by_gbrain"

structure WriteFenceAlarm where
  reason : WriteFenceBreachReason
  offendingPid : Option JsString
  offendingCommand : Option JsString
  healthItem : HealthItem JsString
  deriving DecidableEq

/-- `now` is the time that the clock of the context gives. -/
structure WriteFenceContext where
  now : JsString
  auditRef : JsString
  severity : Option JsString
  healthItemIdPrefix : Option JsString

structure WriteFenceInput where
  canonicalBrainId : JsString
  workerIsSoleVaultWriter : Bool
  pgliteLockHolder : PgliteLockHolder
  observedProcesses : List ObservedGbrainProcess

structure WriteFenceIntact where
  canonicalBrainId : JsString
  scannedProcessCount : Nat
  deriving DecidableEq

structure WriteFenceBreached where
  reasons : List WriteFenceBreachReason
  alarms : List WriteFenceAlarm
  deriving DecidableEq

def REASON_FAILURE_CLASS : WriteFenceBreachReason → FailureClass
  | .vault_acl_not_worker_exclusive => .write_through_failed
  | .pglite_lock_not_worker_held => .write_through_failed
  | .stray_write_capable_process => .conflict_review
  | .gbrain_process_read_write_mounted => .conflict_review
  | .pglite_lock_held_by_gbrain => .conflict_review

def REASON_SEVERITY : WriteFenceBreachReason → JsString
  | .vault_acl_not_worker_exclusive => str "error"
  | .pglite_lock_not_worker_held => str "error"
  | .stray_write_capable_process => str "critical"
  | .gbrain_process_read_write_mounted => str "critical"
  | .pglite_lock_held_by_gbrain => str "critical"

def REASON_MESSAGE : WriteFenceBreachReason → JsString
  | .vault_acl_not_worker_exclusive =>
    str "the SoW worker is not the sole OS principal with vault write access; write-through OS-lockdown not established (degrade to read-only/index-only)"
  | .pglite_lock_not_worker_held =>
    str "the PGLite advisory lock is not held by the SoW worker; single-owner lockdown not established (degrade to read-only/index-only)"
  | .stray_write_capable_process => str "a stray write-capable gbrain process is bound to a canonical brain (one-writer breach)"
  | .gbrain_process_read_write_mounted =>
    str "a gbrain process is running against a read-WRITE vault mount (one-writer breach — mount must be read-only/immutable-snapshot)"
  | .pglite_lock_held_by_gbrain =>
    str "a gbrain process holds the PGLite advisory lock (one-writer breach — the lock is the worker's alone)"

def buildAlarm (reason : WriteFenceBreachReason) (ctx : WriteFenceContext) (offending : Option ObservedGbrainProcess) : WriteFenceAlarm where
  reason := reason
  offendingPid := offending.map fun p => p.pid
  offendingCommand := offending.map fun p => p.command
  healthItem := {
    id := ctx.healthItemIdPrefix.getD (str "gbrain-write-fence") ++ str ":" ++ reason.text ++
      (offending.map fun p => str ":" ++ p.pid).getD []
    failureClass := REASON_FAILURE_CLASS reason
    severity := ctx.severity.getD (REASON_SEVERITY reason)
    message := REASON_MESSAGE reason ++
      (offending.map fun p => str " — process '" ++ p.command ++ str "' (pid=" ++ p.pid ++ str ")").getD []
    auditRef := ctx.auditRef
    openedAt := ctx.now
    state := .open
    resolvedAt := none
    parityReportRef := none
    factIdentity := none }

section scan

variable (tables : CaseTables)

/-- The alarms of one process that is bound to the brain. -/
def processAlarms (ctx : WriteFenceContext) (p : ObservedGbrainProcess) : List WriteFenceAlarm :=
  (if classifyGbrainCommand tables p.command = .write_capable then [buildAlarm .stray_write_capable_process ctx (some p)] else []) ++
    ((if p.mount ≠ .read_only then [buildAlarm .gbrain_process_read_write_mounted ctx (some p)] else []) ++
      if p.holdsPgliteLock then [buildAlarm .pglite_lock_held_by_gbrain ctx (some p)] else [])

def scanForStrayWriters (canonicalBrainId : JsString) (processes : List ObservedGbrainProcess) (ctx : WriteFenceContext) : List WriteFenceAlarm :=
  processes.flatMap fun p => if p.boundBrainId ≠ canonicalBrainId then [] else processAlarms tables ctx p

def evaluateWriteFence (input : WriteFenceInput) (ctx : WriteFenceContext) : Except WriteFenceBreached WriteFenceIntact :=
  let alarms :=
    (if !input.workerIsSoleVaultWriter then [buildAlarm .vault_acl_not_worker_exclusive ctx none] else []) ++
      ((if input.pgliteLockHolder ≠ .worker then [buildAlarm .pglite_lock_not_worker_held ctx none] else []) ++
        scanForStrayWriters tables input.canonicalBrainId input.observedProcesses ctx)
  if 0 < alarms.length then .error ⟨alarms.map fun a => a.reason, alarms⟩
  else .ok ⟨input.canonicalBrainId, input.observedProcesses.length⟩

theorem processAlarms_eq_nil_iff (ctx : WriteFenceContext) (p : ObservedGbrainProcess) : processAlarms tables ctx p = [] ↔
    (p.mount = .read_only ∧ p.holdsPgliteLock = false) ∧ classifyGbrainCommand tables p.command = .read_only := by
  unfold processAlarms
  cases classifyGbrainCommand tables p.command <;> cases p.mount <;> cases p.holdsPgliteLock <;> simp

theorem scanForStrayWriters_eq_nil_iff (brain : JsString) (processes : List ObservedGbrainProcess) (ctx : WriteFenceContext) :
    scanForStrayWriters tables brain processes ctx = [] ↔ ∀ p ∈ processes, p.boundBrainId = brain → processAlarms tables ctx p = [] := by
  unfold scanForStrayWriters
  rw [List.flatMap_eq_nil_iff]
  refine forall₂_congr fun p hp => ?_
  by_cases hbound : p.boundBrainId = brain
  · rw [if_neg (not_not.mpr hbound)]
    exact ⟨fun h _ => h, fun h => h hbound⟩
  · rw [if_pos hbound]
    exact ⟨fun _ h => absurd h hbound, fun _ => rfl⟩

/-- The fence is intact where the worker is alone, and each process of the brain has its mount, no lock and a reading command. -/
theorem evaluateWriteFence_isOk_iff (input : WriteFenceInput) (ctx : WriteFenceContext) :
    (evaluateWriteFence tables input ctx).isOk = true ↔
      (input.workerIsSoleVaultWriter = true ∧ input.pgliteLockHolder = .worker) ∧
        ∀ p ∈ input.observedProcesses, p.boundBrainId = input.canonicalBrainId →
          (p.mount = .read_only ∧ p.holdsPgliteLock = false) ∧ classifyGbrainCommand tables p.command = .read_only := by
  simp only [← processAlarms_eq_nil_iff tables ctx]
  rw [← scanForStrayWriters_eq_nil_iff tables]
  unfold evaluateWriteFence
  cases input.workerIsSoleVaultWriter
  · simp [Except.isOk, Except.toBool]
  · by_cases hholder : input.pgliteLockHolder = .worker
    · cases hscan : scanForStrayWriters tables input.canonicalBrainId input.observedProcesses ctx <;>
        simp [hholder, Except.isOk, Except.toBool]
    · simp [hholder, Except.isOk, Except.toBool]

theorem classifyGbrainCommand_eq_read_only_iff (command : JsString) : classifyGbrainCommand tables command = .read_only ↔
    hasWriteMarker tables command = false ∧ isKnownReadOnly tables command = true := by
  unfold classifyGbrainCommand
  cases hasWriteMarker tables command <;> cases isKnownReadOnly tables command <;> simp

end scan

section spec

/-- The token is the word, or an option of that name. -/
def IsNamed (token word : JsString) : Prop :=
  token = word ∨ startsWith token (str "-") = true ∧
    (token.takeWhile (· ≠ unit '=') = word ∨ (token.takeWhile (· ≠ unit '=')).dropWhile (· = unit '-') = word)

/-- The words of the marker stand one after the other among the tokens. -/
def Carries (tokens : List JsString) (marker : JsString) : Prop :=
  ∃ before words after, tokens = before ++ (words ++ after) ∧ List.Forall₂ IsNamed words (spacedTokens marker)

variable (tables : CaseTables) (command : JsString)

/-- The first token after the executable that is no option. -/
def subcommand : Option JsString := ((commandTokens tables command).drop 1).find? fun t => !startsWith t (str "-")

def ReadsBySubcommand : Prop := ∃ sub ∈ subcommand tables command, sub ∈ READ_ONLY_GBRAIN_COMMANDS

/-- The command reads by its subcommand, and no token or option of it is a write marker. -/
def IsReadOnlyCommand : Prop :=
  ReadsBySubcommand tables command ∧ ¬ ∃ m ∈ WRITE_CAPABLE_MARKERS, Carries (commandTokens tables command) m

/-- The words of a marker of two words stand one after the other, in whatever space. -/
def CarriesTwoWords : Prop :=
  ∃ m ∈ WRITE_CAPABLE_MARKERS, 1 < (spacedTokens m).length ∧ Carries (commandTokens tables command) m

/-- Text of a marker within the words of a command that reads. -/
def TakenForWriter : Prop := IsReadOnlyCommand tables command ∧ hasWriteMarker tables command = true

/-- An allowed word somewhere in a command that has another subcommand, or that has a marker in other space. -/
def TakenForReader : Prop :=
  (hasWriteMarker tables command = false ∧ isKnownReadOnly tables command = true) ∧
    (¬ ReadsBySubcommand tables command ∨ CarriesTwoWords tables command)

variable {tables command}

theorem part_of_mem_splitOnP {p : UInt16 → Bool} {s part : JsString} (h : part ∈ s.splitOnP p) : part <:+: s := by
  have hprepend : ∀ acc : JsString, ∀ part ∈ s.splitOnPPrepend p acc, part <:+: acc.reverse ++ s := by
    clear h
    induction s with
    | nil =>
      intro acc part hpart
      rw [List.splitOnPPrepend_nil, List.mem_singleton] at hpart
      rw [hpart, List.append_nil]
    | cons c s ih =>
      intro acc part hpart
      rw [List.splitOnPPrepend_cons_eq_if] at hpart
      split at hpart
      · rcases List.mem_cons.mp hpart with rfl | hrest
        · exact (List.prefix_append _ _).isInfix
        · have hin := ih [] part hrest
          rw [List.reverse_nil, List.nil_append] at hin
          exact hin.trans ((List.suffix_cons c s).trans (List.suffix_append _ _)).isInfix
      · have hin := ih (c :: acc) part hpart
        simpa using hin
  simpa using hprepend [] part h

theorem IsNamed.part {token word : JsString} (h : IsNamed token word) : word <:+: token := by
  rcases h with rfl | ⟨-, rfl | rfl⟩
  · exact List.infix_rfl
  · exact (List.takeWhile_prefix _).isInfix
  · exact (List.dropWhile_suffix _).isInfix.trans (List.takeWhile_prefix _).isInfix

/-- A marker of one word that a command carries is in its text. -/
theorem hasWriteMarker_of_carries {m : JsString} (hm : m ∈ WRITE_CAPABLE_MARKERS) (hone : ¬ 1 < (spacedTokens m).length)
    (h : Carries (commandTokens tables command) m) : hasWriteMarker tables command = true := by
  have hwords : ∀ m ∈ WRITE_CAPABLE_MARKERS, ¬ 1 < (spacedTokens m).length → spacedTokens m = [m] := by decide
  obtain ⟨before, words, after, htokens, hnamed⟩ := h
  rw [hwords m hm hone] at hnamed
  cases hnamed with
  | cons hnamed hrest =>
    cases hrest
    next token =>
    have hmem : token ∈ commandTokens tables command := by
      rw [htokens]
      simp
    unfold commandTokens spacedTokens at hmem
    rw [List.mem_filter] at hmem
    unfold hasWriteMarker
    rw [List.any_eq_true]
    exact ⟨m, hm, includes_iff.mpr (hnamed.part.trans (part_of_mem_splitOnP hmem.1))⟩

theorem isKnownReadOnly_of_reads (h : ReadsBySubcommand tables command) : isKnownReadOnly tables command = true := by
  obtain ⟨sub, hsub, hallowed⟩ := h
  unfold isKnownReadOnly
  rw [List.any_eq_true]
  refine ⟨sub, List.mem_of_mem_drop (List.mem_of_find?_eq_some hsub), ?_⟩
  rw [List.contains_iff_mem]
  exact hallowed

/-- What the text says of a command beyond the command's own words. -/
theorem isReadOnlyCommand_of_text (hreads : ReadsBySubcommand tables command) (hmarker : hasWriteMarker tables command = false)
    (hwords : ¬ CarriesTwoWords tables command) : IsReadOnlyCommand tables command := by
  refine ⟨hreads, ?_⟩
  rintro ⟨m, hm, hcarries⟩
  by_cases hone : 1 < (spacedTokens m).length
  · exact hwords ⟨m, hm, hone, hcarries⟩
  · rw [hasWriteMarker_of_carries hm hone hcarries] at hmarker
    cases hmarker

/-- A command is taken for a reader that is none in the named cases only. -/
theorem takenForReader_iff : TakenForReader tables command ↔
    classifyGbrainCommand tables command = .read_only ∧ ¬ IsReadOnlyCommand tables command := by
  rw [classifyGbrainCommand_eq_read_only_iff]
  unfold TakenForReader
  refine and_congr_right fun htext => ⟨?_, fun hnot => ?_⟩
  · rintro (hreads | ⟨m, hm, -, hcarries⟩) ⟨hreads', hnone⟩
    · exact hreads hreads'
    · exact hnone ⟨m, hm, hcarries⟩
  · by_contra hneither
    rw [not_or, not_not] at hneither
    exact hnot (isReadOnlyCommand_of_text hneither.1 htext.1 hneither.2)

/-- A reading command is taken for a writer where a marker is in its text. -/
theorem takenForWriter_iff : TakenForWriter tables command ↔
    IsReadOnlyCommand tables command ∧ classifyGbrainCommand tables command ≠ .read_only := by
  rw [ne_eq, classifyGbrainCommand_eq_read_only_iff]
  unfold TakenForWriter
  refine and_congr_right fun hreader => ?_
  rw [isKnownReadOnly_of_reads hreader.1]
  simp

section fence

variable (tables)

/-- What an intact fence means. -/
def FenceHolds (input : WriteFenceInput) : Prop :=
  (input.workerIsSoleVaultWriter = true ∧ input.pgliteLockHolder = .worker) ∧
    ∀ p ∈ input.observedProcesses, p.boundBrainId = input.canonicalBrainId →
      (p.mount = .read_only ∧ p.holdsPgliteLock = false) ∧ IsReadOnlyCommand tables p.command

/-- All but the commands is as it has to be. -/
def PostureHolds (input : WriteFenceInput) : Prop :=
  (input.workerIsSoleVaultWriter = true ∧ input.pgliteLockHolder = .worker) ∧
    ∀ p ∈ input.observedProcesses, p.boundBrainId = input.canonicalBrainId → p.mount = .read_only ∧ p.holdsPgliteLock = false

/-- The fence falls over a command that is taken for a writer, or stands over one that is taken for a reader. -/
def MistakenFence (input : WriteFenceInput) : Prop :=
  PostureHolds input ∧
    ((∀ p ∈ input.observedProcesses, p.boundBrainId = input.canonicalBrainId → IsReadOnlyCommand tables p.command) ∧
        (∃ p ∈ input.observedProcesses, p.boundBrainId = input.canonicalBrainId ∧ hasWriteMarker tables p.command = true) ∨
      (∀ p ∈ input.observedProcesses, p.boundBrainId = input.canonicalBrainId →
          hasWriteMarker tables p.command = false ∧ isKnownReadOnly tables p.command = true) ∧
        ∃ p ∈ input.observedProcesses, p.boundBrainId = input.canonicalBrainId ∧
          (¬ ReadsBySubcommand tables p.command ∨ CarriesTwoWords tables p.command))

variable {tables}

/-- The fence stands where it should not, or falls where it should not, over mistaken commands only. -/
theorem mistakenFence_iff (input : WriteFenceInput) (ctx : WriteFenceContext) : MistakenFence tables input ↔
    (FenceHolds tables input ∧ (evaluateWriteFence tables input ctx).isOk ≠ true) ∨
      ((evaluateWriteFence tables input ctx).isOk = true ∧ ¬ FenceHolds tables input) := by
  rw [ne_eq, evaluateWriteFence_isOk_iff]
  unfold FenceHolds
  constructor
  · rintro ⟨⟨hworker, hbound⟩, ⟨hreads, p, hp, hbrain, hmarker⟩ | ⟨htexts, p, hp, hbrain, hother⟩⟩
    · refine .inl ⟨⟨hworker, fun q hq hqb => ⟨hbound q hq hqb, hreads q hq hqb⟩⟩, ?_⟩
      rintro ⟨-, hall⟩
      exact (takenForWriter_iff.mp ⟨hreads p hp hbrain, hmarker⟩).2 (hall p hp hbrain).2
    · refine .inr ⟨⟨hworker, fun q hq hqb => ⟨hbound q hq hqb, ?_⟩⟩, ?_⟩
      · exact (classifyGbrainCommand_eq_read_only_iff tables q.command).mpr (htexts q hq hqb)
      · rintro ⟨-, hall⟩
        exact (takenForReader_iff.mp ⟨htexts p hp hbrain, hother⟩).2 (hall p hp hbrain).2
  · rintro (⟨⟨hworker, hall⟩, hnot⟩ | ⟨⟨hworker, hall⟩, hnot⟩)
    · refine ⟨⟨hworker, fun p hp hbrain => (hall p hp hbrain).1⟩, .inl ⟨fun p hp hbrain => (hall p hp hbrain).2, ?_⟩⟩
      by_contra hnone
      refine hnot ⟨hworker, fun p hp hbrain => ⟨(hall p hp hbrain).1, ?_⟩⟩
      by_contra hwriter
      exact hnone ⟨p, hp, hbrain, (takenForWriter_iff.mpr ⟨(hall p hp hbrain).2, hwriter⟩).2⟩
    · have htexts : ∀ p ∈ input.observedProcesses, p.boundBrainId = input.canonicalBrainId →
          hasWriteMarker tables p.command = false ∧ isKnownReadOnly tables p.command = true := fun p hp hbrain =>
        (classifyGbrainCommand_eq_read_only_iff tables p.command).mp (hall p hp hbrain).2
      refine ⟨⟨hworker, fun p hp hbrain => (hall p hp hbrain).1⟩, .inr ⟨htexts, ?_⟩⟩
      by_contra hnone
      refine hnot ⟨hworker, fun p hp hbrain => ⟨(hall p hp hbrain).1, ?_⟩⟩
      by_contra hreader
      exact hnone ⟨p, hp, hbrain, (takenForReader_iff.mpr ⟨(hall p hp hbrain).2, hreader⟩).2⟩

/-- A command is classified as it reads but in the named cases, and the fence is intact where no gbrain
    process writes but over commands of these. -/
theorem evaluateWriteFence_exact_iff (tables : CaseTables) :
    (∀ command, (classifyGbrainCommand tables command = .read_only ↔ IsReadOnlyCommand tables command) ↔
      ¬ TakenForWriter tables command ∧ ¬ TakenForReader tables command) ∧
    ∀ (input : WriteFenceInput) (ctx : WriteFenceContext),
      ((evaluateWriteFence tables input ctx).isOk = true ↔ FenceHolds tables input) ↔ ¬ MistakenFence tables input := by
  constructor
  · intro command
    rw [takenForWriter_iff, takenForReader_iff]
    tauto
  · intro input ctx
    rw [mistakenFence_iff input ctx]
    tauto

/-- An unknown subcommand with an allowed word among its arguments. -/
def strayInput : WriteFenceInput :=
  ⟨str "brain-work", true, .worker, [⟨str "4242", str "gbrain frontmatter --write sync", str "brain-work", .read_only, false⟩]⟩

theorem strayInput_intact : ¬ ∀ (tables : CaseTables) (input : WriteFenceInput) (ctx : WriteFenceContext),
    (evaluateWriteFence tables input ctx).isOk = true ↔ FenceHolds tables input := by
  intro h
  obtain ⟨-, hall⟩ := (h asciiTables strayInput ⟨str "2026-07-01T00:00:00.000Z", str "audit-1", none, none⟩).mp rfl
  obtain ⟨sub, hsub, hallowed⟩ := (hall _ (List.mem_singleton.mpr rfl) rfl).2.1
  have hfrontmatter : subcommand asciiTables (str "gbrain frontmatter --write sync") = some (str "frontmatter") := rfl
  obtain rfl := Option.some.inj (hfrontmatter.symm.trans hsub)
  exact absurd hallowed (by decide)

end fence

end spec

end sow.fence
