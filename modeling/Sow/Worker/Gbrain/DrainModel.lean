import Sow.Effect.Wp
import Sow.Knowledge.KnowledgeWriter.WriterSpec
import Sow.Worker.Gbrain.SyncOutbox

open sow.js sow.effect sow.contracts sow.db sow.sql sow.gbrain sow.markdown_vault
open sow.knowledge_writer (Sha256 RevisionId VaultSnapshot computeRevisionId GbrainSyncStatus GbrainSyncOutboxEntry readPaths readSnapshot)

namespace sow.worker

/-- The outbox, the vault, and the requests that the index has been asked to apply. -/
structure GbrainWorld (Stamp : Type) where
  outbox : GbrainSyncOutbox Stamp
  files : Files
  applied : List IndexApplyRequest

/-- What the environment decides where nothing fails. -/
structure GbrainChoice (Stamp : Type) where
  clock : Stamp
  id : JsString
  receipt : IndexApplyReceipt

section ports

variable {Stamp : Type} [LinearOrder Stamp]

/-- The ports of the index sync over a world, without faults. -/
def gbrainPorts (listing : Listing) : Handler (GbrainOp Stamp) GbrainOp.Ret Cause (GbrainWorld Stamp) (GbrainChoice Stamp) where
  exec w op d := match op with
    | .getByKey workspaceId revisionId => (.ok (.ok (w.outbox.getByKey workspaceId revisionId)), w)
    | .upsert row => (.ok (.ok row), { w with outbox := w.outbox.upsert row })
    | .listDue now limit => (.ok (.ok (w.outbox.listDue now limit)), w)
    | .indexedHighWater workspaceId => (.ok (.ok (w.outbox.indexedHighWater workspaceId)), w)
    | .vault op =>
      let r := (vaultFs listing).exec w.files op .proceed
      (r.1, { w with files := r.2 })
    | .applyRevision request => (.ok (.ok d.receipt), { w with applied := w.applied ++ [request] })
    | .now => (.ok d.clock, w)
    | .newHealthItemId => (.ok d.id, w)

end ports

section snapshot

variable (listing : Listing) (fs : Files)

/-- What reading the paths in turn adds to a snapshot. -/
def readInto (snapshot : VaultSnapshot) : List Path → VaultSnapshot
  | [] => snapshot
  | path :: paths =>
    match fs.get path with
    | some content => readInto (snapshot.set path content) paths
    | none => readInto snapshot paths

/-- The working tree of a vault. -/
def workingTree : VaultSnapshot := readInto fs .empty (listing.list fs)

/-- The revision that the vault currently hashes to. -/
def headRevision (sha256 : Sha256) : RevisionId := computeRevisionId sha256 (workingTree listing fs)

variable {listing fs}

/-- A vault that does not fail is read as it is. -/
theorem readPaths_exact {paths : List Path} {snapshot : VaultSnapshot} {Q : Except Cause VaultSnapshot → Files → Prop}
    (h : Q (.ok (readInto fs snapshot paths)) fs) :
    wp (vaultFs listing) (fun _ d => d = .proceed) (readPaths snapshot paths) Q fs := by
  induction paths generalizing snapshot with
  | nil => exact h
  | cons path paths ih =>
    rw [readPaths]
    refine wp_call fun d hd => ⟨fs.get path, fs, by rw [hd]; rfl, ?_⟩
    rw [readInto] at h
    cases hget : fs.get path with
    | none =>
      rw [hget] at h
      exact ih h
    | some content =>
      rw [hget] at h
      exact ih h

theorem readSnapshot_exact {Q : Except Cause VaultSnapshot → Files → Prop} (h : Q (.ok (workingTree listing fs)) fs) :
    wp (vaultFs listing) (fun _ d => d = .proceed) readSnapshot Q fs := by
  rw [readSnapshot]
  exact wp_call fun d hd => ⟨listing.list fs, fs, by rw [hd]; rfl, readPaths_exact h⟩

end snapshot

/-- A job as its row never changes it. -/
structure SyncJob (Stamp : Type) where
  outboxId : JsString
  workspaceId : JsString
  revisionId : RevisionId
  enqueuedAt : Stamp
  deriving DecidableEq

section jobs

variable {Stamp : Type}

def jobOf (row : GbrainSyncOutboxRow Stamp) : SyncJob Stamp := ⟨row.outboxId, row.workspaceId, row.revisionId, row.enqueuedAt⟩

def SyncJob.order (job : SyncJob Stamp) : Stamp ×ₗ List Nat := toLex (job.enqueuedAt, job.outboxId.map UInt16.toNat)

theorem order_jobOf (row : GbrainSyncOutboxRow Stamp) : (jobOf row).order = GbrainSyncOutbox.rowOrder row := rfl

/-- The row of the job is not indexed. -/
def IsDue (table : GbrainSyncOutbox Stamp) (job : SyncJob Stamp) : Prop :=
  ∃ row, table.get job.outboxId = some row ∧ row.status ≠ INDEXED_TERMINAL ∧ jobOf row = job

/-- Every row was written from an entry, whose revision is branded. -/
def Branded (table : GbrainSyncOutbox Stamp) : Prop :=
  ∀ k row, table.get k = some row → isBrandedId row.revisionId = true

/-- The jobs are told apart by their keys. -/
theorem IsDue.unique {table : GbrainSyncOutbox Stamp} {job job' : SyncJob Stamp} (h : IsDue table job) (h' : IsDue table job') (hid : job.outboxId = job'.outboxId) :
    job = job' := by
  obtain ⟨row, hget, -, rfl⟩ := h
  obtain ⟨row', hget', -, rfl⟩ := h'
  rw [hid, hget'] at hget
  rw [Option.some.inj hget]

variable [LinearOrder Stamp]

/-- The queue of the drain. -/
def dueJobs (table : GbrainSyncOutbox Stamp) : List (SyncJob Stamp) := table.due.map jobOf

/-- A later revision of the workspace is indexed. -/
def superseded (table : GbrainSyncOutbox Stamp) (job : SyncJob Stamp) : Bool :=
  (table.indexedHighWater job.workspaceId).any fun hw => hw.revisionId ≠ job.revisionId && job.enqueuedAt < hw.enqueuedAt

variable {table : GbrainSyncOutbox Stamp}

theorem mem_dueJobs_iff {job : SyncJob Stamp} : job ∈ dueJobs table ↔ IsDue table job := by
  rw [dueJobs, List.mem_map]
  constructor
  · rintro ⟨row, hrow, rfl⟩
    obtain ⟨hget, hdue⟩ := GbrainSyncOutbox.mem_due_iff.mp hrow
    exact ⟨row, hget, hdue, rfl⟩
  · rintro ⟨row, hget, hdue, rfl⟩
    exact ⟨row, GbrainSyncOutbox.mem_due_iff.mpr ⟨hget, hdue⟩, rfl⟩

theorem dueJobs_strict : (dueJobs table).Pairwise fun a b => a.order < b.order := by
  rw [dueJobs, List.pairwise_map]
  exact GbrainSyncOutbox.due_strict

theorem dueJobs_nodup : (dueJobs table).Nodup :=
  dueJobs_strict.imp fun hlt heq => hlt.ne (congrArg SyncJob.order heq)

end jobs

end sow.worker
