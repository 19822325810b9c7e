import Sow.Effect.Wp
import Sow.Js.Map
import Sow.Js.Utf8

open sow.js sow.effect

namespace sow.markdown_vault

/-- A vault-relative path. -/
abbrev Path := JsString

/-- A value thrown by an injected port (`unknown` at the catch sites). -/
abbrev Cause := JsString

/-- The operations of the `VaultFs` port. -/
inductive VaultOp where
  | read (path : Path)
  | list
  | write (path : Path) (content : JsString)
  | rename (source target : Path)
  | remove (path : Path)
  deriving DecidableEq

/-- What each operation of the port resolves to. -/
abbrev VaultOp.Ret : VaultOp → Type
  | .read _ => Option JsString
  | .list => List Path
  | .write _ _ => Unit
  | .rename _ _ => Unit
  | .remove _ => Unit

abbrev VaultM := Program VaultOp VaultOp.Ret Cause

def VaultFs.read (path : Path) : VaultM (Option JsString) := .perform (VaultOp.read path)
def VaultFs.list : VaultM (List Path) := .perform VaultOp.list
def VaultFs.write (path : Path) (content : JsString) : VaultM Unit := .perform (VaultOp.write path content)
def VaultFs.rename (source target : Path) : VaultM Unit := .perform (VaultOp.rename source target)
def VaultFs.remove (path : Path) : VaultM Unit := .perform (VaultOp.remove path)

/-- A single file to (over)write as part of one atomic commit. -/
structure FileChange where
  path : Path
  content : JsString
  deriving DecidableEq

inductive AtomicError where
  | stage_failed (path : Path) (cause : Cause)
  | commit_failed (path : Path) (cause : Cause)
  | write_fence_breached (reasons : List JsString)
  deriving DecidableEq

/-- The injected one-writer fence: the breach reasons, or `none` when it is intact. -/
abbrev WriteFenceProbe := Unit → Option (List JsString)

/-- The suffix that marks a staging file. -/
def stagingSuffix : JsString := str ".kwtmp"

def tempPath (path token : JsString) : Path := path ++ str "." ++ token ++ stagingSuffix

structure Staged where
  change : FileChange
  tmp : Path
  deriving DecidableEq

/-- Best-effort deletion of staged temp files (failures are swallowed). -/
def sweep : List Path → VaultM Unit
  | [] => pure ()
  | tmp :: tmps => do
    let _ ← (VaultFs.remove tmp).attempt
    sweep tmps

/-- Restore already-renamed targets to their captured prior bytes. -/
def rollback (priors : Map Path (Option JsString)) : List FileChange → VaultM Unit
  | [] => pure ()
  | change :: renamed => do
    let restore := match (priors.get change.path).join with
      | none => VaultFs.remove change.path
      | some prior => VaultFs.write change.path prior
    let _ ← restore.attempt
    rollback priors renamed

/-- Phase 1: stage every change to a temp file; a failure sweeps what was staged. -/
def stage (token : JsString) (staged : List Staged) :
    List FileChange → VaultM (Except AtomicError (List Staged))
  | [] => pure (.ok staged)
  | change :: changes => do
    let tmp := tempPath change.path token
    match ← (VaultFs.write tmp change.content).attempt with
    | .ok () => stage token (staged ++ [⟨change, tmp⟩]) changes
    | .error cause =>
      sweep (staged.map (·.tmp))
      pure (.error (.stage_failed change.path cause))

/-- Capture the prior bytes of every target before any rename. -/
def capturePriors (priors : Map Path (Option JsString)) :
    List Staged → VaultM (Map Path (Option JsString))
  | [] => pure priors
  | s :: staged => do
    let prior ← VaultFs.read s.change.path
    capturePriors (priors.set s.change.path prior) staged

/-- Phase 2: rename the staged temps into place; a failure rolls back. -/
def commitStaged (priors : Map Path (Option JsString)) (renamed : List FileChange) :
    List Staged → VaultM (Except AtomicError Unit)
  | [] => pure (.ok ())
  | entry :: rest => do
    match ← (VaultFs.rename entry.tmp entry.change.path).attempt with
    | .ok () => commitStaged priors (renamed ++ [entry.change]) rest
    | .error cause =>
      rollback priors renamed
      sweep ((entry :: rest).map (·.tmp))
      pure (.error (.commit_failed entry.change.path cause))

/-- Commit `changes` atomically; `token` is the suffix of the staging files. -/
def atomicCommit (changes : List FileChange) (token : JsString) (fence : Option WriteFenceProbe) :
    VaultM (Except AtomicError Unit) := do
  if changes = [] then return .ok ()
  match fence.bind (· ()) with
  | some (reason :: reasons) => return .error (.write_fence_breached (reason :: reasons))
  | _ =>
    match ← stage token [] changes with
    | .error e => return .error e
    | .ok staged =>
      let priors ← capturePriors .empty staged
      commitStaged priors [] staged

end sow.markdown_vault
