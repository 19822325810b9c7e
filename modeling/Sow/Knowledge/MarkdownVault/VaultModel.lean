import Sow.Knowledge.MarkdownVault.AtomicWrite

open sow.js sow.effect

namespace sow.markdown_vault

/-- The files behind a `VaultFs`, staging files included. -/
abbrev Files := Map Path JsString

/-- A staging file, as opposed to a live one. -/
def IsStaging (path : Path) : Prop := endsWith path stagingSuffix = true

instance (path : Path) : Decidable (IsStaging path) := inferInstanceAs (Decidable (_ = _))

/-- A Markdown file is no staging file. -/
theorem not_isStaging_of_md {p : Path} (h : endsWith p (str ".md") = true) : ¬ IsStaging p := by
  obtain ⟨q, rfl⟩ := endsWith_iff.mp h
  intro hstaging
  obtain ⟨q', hq'⟩ := endsWith_iff.mp hstaging
  have hlast := congrArg List.getLast? hq'
  simp [str, stagingSuffix] at hlast

/-- How an implementation of the port enumerates a vault: which paths it lists,
    and in which order. No implementation lists a staging file, and a path of a
    file system is well-formed text without NUL. -/
structure Listing where
  listed : Path → Bool
  list : Files → List Path
  mem_list : ∀ fs p, p ∈ list fs ↔ listed p = true ∧ p ∈ fs.keys
  nodup_list : ∀ fs, (list fs).Nodup
  live_of_listed : ∀ p, listed p = true → ¬ IsStaging p
  nulFree_of_listed : ∀ p, listed p = true → 0 ∉ p
  wellFormed_of_listed : ∀ p, listed p = true → isWellFormed p = true

/-- What the environment does with one call: carry it out, or throw; a failing
    write may leave any bytes at its own path. -/
inductive Choice where
  | proceed
  | fault (cause : Cause) (residue : Option JsString)
  deriving DecidableEq

/-- The cause a rename throws when its source is missing. -/
def renameSourceMissing (source : Path) : Cause := str "rename source missing: " ++ source

/-- The `VaultFs` port over `Files`. -/
def vaultFs (listing : Listing) : Handler VaultOp VaultOp.Ret Cause Files Choice where
  exec fs op choice := match op, choice with
    | .read path, .proceed => (.ok (fs.get path), fs)
    | .list, .proceed => (.ok (listing.list fs), fs)
    | .write path content, .proceed => (.ok (), fs.set path content)
    | .rename source target, .proceed =>
      match fs.get source with
      | none => (.error (renameSourceMissing source), fs)
      | some content => (.ok (), (fs.set target content).delete source)
    | .remove path, .proceed => (.ok (), fs.delete path)
    | .write path _, .fault cause (some residue) => (.error cause, fs.set path residue)
    | _, .fault cause _ => (.error cause, fs)

/-- The environment lets every restoring write and removal of a live file succeed. -/
def Restoring : VaultOp → Choice → Prop
  | .write path _, choice => ¬ IsStaging path → choice = .proceed
  | .remove path, choice => ¬ IsStaging path → choice = .proceed
  | _, _ => True

/-- The live files hold the same bytes. -/
def SameLive (fs fs' : Files) : Prop := ∀ p, ¬ IsStaging p → fs'.get p = fs.get p

theorem SameLive.refl (fs : Files) : SameLive fs fs := fun _ _ => rfl

theorem SameLive.trans {a b c : Files} (hab : SameLive a b) (hbc : SameLive b c) : SameLive a c :=
  fun p hp => (hbc p hp).trans (hab p hp)

theorem SameLive.set {fs : Files} {p : Path} (hp : IsStaging p) (content : JsString) :
    SameLive fs (fs.set p content) := by
  intro q hq
  exact Map.get_set_of_ne _ _ (fun e => hq (e ▸ hp))

theorem SameLive.delete {fs : Files} {p : Path} (hp : IsStaging p) : SameLive fs (fs.delete p) := by
  intro q hq
  exact Map.get_delete_of_ne _ (fun e => hq (e ▸ hp))

theorem tempPath_isStaging (path token : JsString) : IsStaging (tempPath path token) :=
  endsWith_iff.mpr ⟨_, rfl⟩

theorem tempPath_injective (token : JsString) : Function.Injective (tempPath · token) := by
  intro p q h
  simpa [tempPath] using h

section spec

variable {listing : Listing} {adm : VaultOp → Choice → Prop} {fs : Files}

/-- A read that is answered is answered with the file's bytes, and nothing changes. -/
theorem read_wp {path : Path} {Q : Except Cause (Option JsString) → Files → Prop}
    (hok : Q (.ok (fs.get path)) fs) (herr : ∀ cause, Q (.error cause) fs) :
    wp (vaultFs listing) adm (VaultFs.read path) Q fs := by
  rw [VaultFs.read, wp_perform]
  intro d _
  cases d with
  | proceed => exact hok
  | fault cause residue => exact herr cause

theorem list_wp {Q : Except Cause (List Path) → Files → Prop}
    (hok : Q (.ok (listing.list fs)) fs) (herr : ∀ cause, Q (.error cause) fs) :
    wp (vaultFs listing) adm VaultFs.list Q fs := by
  rw [VaultFs.list, wp_perform]
  intro d _
  cases d with
  | proceed => exact hok
  | fault cause residue => exact herr cause

/-- A failing write has spoilt at most its own path. -/
theorem write_wp {path : Path} {content : JsString} {Q : Except Cause Unit → Files → Prop}
    (hok : Q (.ok ()) (fs.set path content))
    (herr : ∀ cause residue, adm (.write path content) (.fault cause residue) →
      ∀ fs', (fs' = fs ∨ ∃ left, fs' = fs.set path left) → Q (.error cause) fs') :
    wp (vaultFs listing) adm (VaultFs.write path content) Q fs := by
  rw [VaultFs.write, wp_perform]
  intro d hd
  cases d with
  | proceed => exact hok
  | fault cause residue =>
    cases residue with
    | none => exact herr cause none hd fs (.inl rfl)
    | some left => exact herr cause (some left) hd _ (.inr ⟨left, rfl⟩)

/-- A rename moves the bytes of its source, or changes nothing. -/
theorem rename_wp {source target : Path} {Q : Except Cause Unit → Files → Prop}
    (hok : ∀ content, fs.get source = some content → Q (.ok ()) ((fs.set target content).delete source))
    (herr : ∀ cause, Q (.error cause) fs) :
    wp (vaultFs listing) adm (VaultFs.rename source target) Q fs := by
  rw [VaultFs.rename, wp_perform]
  intro d _
  cases d with
  | proceed =>
    cases hget : fs.get source with
    | none => simpa [vaultFs, hget] using herr _
    | some content => simpa [vaultFs, hget] using hok content hget
  | fault cause residue => exact herr cause

theorem remove_wp {path : Path} {Q : Except Cause Unit → Files → Prop}
    (hok : Q (.ok ()) (fs.delete path))
    (herr : ∀ cause residue, adm (.remove path) (.fault cause residue) → Q (.error cause) fs) :
    wp (vaultFs listing) adm (VaultFs.remove path) Q fs := by
  rw [VaultFs.remove, wp_perform]
  intro d hd
  cases d with
  | proceed => exact hok
  | fault cause residue => exact herr cause residue hd

end spec

end sow.markdown_vault
