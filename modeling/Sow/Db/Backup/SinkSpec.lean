import Sow.Db.Backup.BackupSink
import Sow.Effect.Wp
import Sow.Queue.BoundedDrain

open sow.js sow.effect sow.queue

namespace sow.db.backups

/-- What an interrupted operation leaves: nothing, the first `n` bytes, or all of its effect. -/
inductive Residue where
  | untouched
  | part (n : Nat)
  | whole
  deriving DecidableEq

/-- What becomes of an operation. -/
inductive Fate where
  | proceeds
  | faults (cause : DriverError) (left : Residue)
  | crashes (left : Residue)

def Fate.residue : Fate → Residue
  | .proceeds => .whole
  | .faults _ left => left
  | .crashes left => left

def Fate.answer {α : Type} (a : α) : Fate → Except Stop α
  | .proceeds => .ok a
  | .faults cause _ => .error (.thrown cause)
  | .crashes _ => .error .crash

/-- The first `n` bytes of a content; a part of a JSON text is no JSON text. -/
def FileContent.cut (n : Nat) : FileContent → FileContent
  | .bytes b => .bytes (b.take n)
  | .record _ => .torn
  | .torn => .torn

/-- The directory, and the records whose text was written whole. -/
structure World where
  files : Files
  written : List StoredBackup

def World.write (w : World) (name : JsString) (content : FileContent) : Residue → World
  | .untouched => w
  | .part n => { w with files := w.files.set name (content.cut n) }
  | .whole =>
    ⟨w.files.set name content, match content with
      | .record r => w.written ++ [r]
      | _ => w.written⟩

/-- Removing a file happens or does not happen. -/
def World.remove (w : World) (name : JsString) : Residue → World
  | .whole => { w with files := w.files.delete name }
  | _ => w

/-- The file system and the engines: a directory is listed in some order, and a store comes back
    from its image with the digest of its rows. -/
structure Machine (S : Type) where
  readdir : Files → List JsString
  readdir_perm : ∀ fs, (readdir fs).Perm fs.keys
  missing : DriverError
  captureError : DriverError → DbError
  capture : S → OpStoreSnapshot
  engine : RestoreEngine S
  rebuild_capture : ∀ s, engine.rebuild (capture s).bytes = .ok ⟨s, (capture s).bytes, (capture s).rowDigest⟩

variable {S : Type} (M : Machine S)

/-- The ports, while the store is in the state `live`. -/
def Machine.ports (live : S) : Handler BackupOp BackupOp.Ret Stop World Fate where
  exec w op fate := match op with
    | .capture =>
      match fate with
      | .proceeds => (.ok (.ok (M.capture live)), w)
      | .faults cause _ => (.ok (.error (M.captureError cause)), w)
      | .crashes _ => (.error .crash, w)
    | .readdir => (fate.answer (M.readdir w.files), w)
    | .readFile name =>
      match w.files.get name with
      | some content => (fate.answer content, w)
      | none => (fate.answer () >>= fun _ => .error (.thrown M.missing), w)
    | .writeFile name content => (fate.answer (), w.write name content fate.residue)
    | .rm name => (fate.answer (), w.remove name fate.residue)

/-- No metadata is left half written. -/
def Untorn : BackupOp → Fate → Prop
  | .writeFile _ (.record _), fate => ∀ n, fate.residue ≠ .part n
  | _, _ => True

/-- An artifact, with the state of the store that it holds. -/
abbrev Artifact (S : Type) : Type := StoredBackup × S

/-- Both files of an artifact are there, and whole. -/
structure Complete (fs : Files) (a : Artifact S) : Prop where
  bin : fs.get (binName a.1.backupId) = some (.bytes (M.capture a.2).bytes)
  record : fs.get (metaName a.1.backupId) = some (.record a.1)
  digest : a.1.rowDigest = (M.capture a.2).rowDigest

variable (kit : SinkKit)

/-- What a sink keeps of the artifacts that were completed in it: every metadata file is the
    record of one of them, later ones sort later, and the last `keep` are complete. -/
structure Sound (keep : Nat) (fs : Files) (completed : List (Artifact S)) : Prop where
  metas : ∀ name content, fs.get name = some content → endsWith name (str ".json") = true →
    ∃ a ∈ completed, name = metaName a.1.backupId ∧ content = .record a.1
  rising : completed.Pairwise (rank kit ·.1 < rank kit ·.1)
  kept : ∀ a ∈ completed.drop (completed.length - keep), Complete M fs a

/-- The record of a file. -/
def recordAt (fs : Files) (name : JsString) : Option StoredBackup :=
  match fs.get name with
  | some (.record r) => some r
  | _ => none

/-- What the sink lists. -/
def listed (fs : Files) : List StoredBackup :=
  newestFirst kit (((M.readdir fs).filter fun name => endsWith name (str ".json")).filterMap (recordAt fs))

section names

variable {id id' : JsString}

theorem binName_inj (h : binName id = binName id') : id = id' := List.append_cancel_right h

theorem metaName_inj (h : metaName id = metaName id') : id = id' := List.append_cancel_right h

theorem metaName_json (id : JsString) : endsWith (metaName id) (str ".json") = true := endsWith_iff.mpr ⟨id, rfl⟩

theorem binName_not_json (id : JsString) : endsWith (binName id) (str ".json") = false := by
  rw [Bool.eq_false_iff]
  intro h
  obtain ⟨t, ht⟩ := endsWith_iff.mp h
  have hsplit : (id ++ str ".b") ++ str "in" = (t ++ str ".js") ++ str "on" := by
    rw [List.append_assoc, List.append_assoc]
    exact ht
  exact absurd (List.append_inj' hsplit rfl).2 (by decide)

theorem binName_ne_metaName (id id' : JsString) : binName id ≠ metaName id' := by
  intro h
  have hjson := metaName_json id'
  rw [← h, binName_not_json] at hjson
  cases hjson

end names

section sound

variable {M kit} {keep : Nat} {fs : Files} {completed : List (Artifact S)} {a : Artifact S} {r : StoredBackup}

theorem Sound.rising_map (h : Sound M kit keep fs completed) : (completed.map Prod.fst).Pairwise (rank kit · < rank kit ·) :=
  List.pairwise_map.mpr h.rising

/-- The artifacts that are listed are the records in their own files. -/
theorem Sound.mem_listed_iff (h : Sound M kit keep fs completed) :
    r ∈ listed M kit fs ↔ fs.get (metaName r.backupId) = some (.record r) := by
  unfold listed newestFirst
  rw [(List.perm_insertionSort _ _).mem_iff, List.mem_filterMap]
  constructor
  · rintro ⟨name, hname, hrecord⟩
    obtain ⟨-, hjson⟩ := List.mem_filter.mp hname
    unfold recordAt at hrecord
    cases hget : fs.get name with
    | none =>
      rw [hget] at hrecord
      cases hrecord
    | some content =>
      obtain ⟨a, -, rfl, rfl⟩ := h.metas name content hget hjson
      rw [hget] at hrecord
      obtain rfl := Option.some.inj hrecord
      exact hget
  · intro hget
    refine ⟨metaName r.backupId, List.mem_filter.mpr ⟨?_, metaName_json _⟩, ?_⟩
    · rw [(M.readdir_perm fs).mem_iff, Map.mem_keys_iff, hget]
      rfl
    · unfold recordAt
      rw [hget]

theorem Sound.listed_subset (h : Sound M kit keep fs completed) : listed M kit fs ⊆ completed.map Prod.fst := by
  intro r hr
  obtain ⟨a, ha, -, hrecord⟩ := h.metas _ _ (h.mem_listed_iff.mp hr) (metaName_json _)
  rw [FileContent.record.inj hrecord]
  exact List.mem_map_of_mem ha

theorem Sound.nodup_listed (h : Sound M kit keep fs completed) : (listed M kit fs).Nodup := by
  unfold listed newestFirst
  refine (List.perm_insertionSort _ _).nodup_iff.mpr ?_
  have hnames : ((M.readdir fs).filter fun name => endsWith name (str ".json")).Nodup :=
    ((M.readdir_perm fs).nodup_iff.mpr fs.nodup).filter _
  have hown : ∀ name ∈ (M.readdir fs).filter (fun name => endsWith name (str ".json")), ∀ r,
      recordAt fs name = some r → name = metaName r.backupId := by
    intro name hname r hrecord
    unfold recordAt at hrecord
    cases hget : fs.get name with
    | none =>
      rw [hget] at hrecord
      cases hrecord
    | some content =>
      obtain ⟨a, -, rfl, rfl⟩ := h.metas name content hget (List.mem_filter.mp hname).2
      rw [hget] at hrecord
      rw [← Option.some.inj hrecord]
  refine List.pairwise_filterMap.mpr (hnames.imp_of_mem fun {name name'} hname hname' hne r hr r' hr' heq => ?_)
  rw [hown name hname r hr, hown name' hname' r' hr', heq] at hne
  exact hne rfl

/-- The list of the sink is in falling order. -/
theorem Sound.listed_falling (h : Sound M kit keep fs completed) : (listed M kit fs).Pairwise (rank kit · > rank kit ·) := by
  have htotal : Std.Total fun a b : StoredBackup => rank kit b ≤ rank kit a := ⟨fun a b => le_total _ _⟩
  have htrans : IsTrans StoredBackup fun a b => rank kit b ≤ rank kit a := ⟨fun a b c hab hbc => le_trans hbc hab⟩
  have hsorted : (listed M kit fs).Pairwise fun a b => rank kit b ≤ rank kit a := List.pairwise_insertionSort _ _
  have hne : (completed.map Prod.fst).Pairwise fun a b => rank kit a ≠ rank kit b := h.rising_map.imp ne_of_lt
  have hsymm : Std.Symm fun a b : StoredBackup => rank kit a ≠ rank kit b := ⟨fun _ _ hab => hab.symm⟩
  refine (hsorted.and h.nodup_listed).imp_of_mem fun {a b} ha hb hab => lt_of_le_of_ne hab.1 ?_
  exact hne.forall (h.listed_subset hb) (h.listed_subset ha) (Ne.symm hab.2)

/-- Of the kept artifacts each is listed among the first `keep`. -/
theorem Sound.mem_take_of_kept (h : Sound M kit keep fs completed) (ha : a ∈ completed.drop (completed.length - keep)) :
    a.1 ∈ (listed M kit fs).take keep := by
  refine mem_take_of_mem_drop h.rising_map h.listed_falling h.listed_subset ?_ (h.mem_listed_iff.mpr (h.kept a ha).record)
  rw [List.length_map, ← List.map_drop]
  exact List.mem_map_of_mem ha

/-- The newest completed artifact heads the list. -/
theorem Sound.head?_listed (h : Sound M kit keep fs completed) (hkeep : 1 ≤ keep) (hlast : completed.getLast? = some a) :
    (listed M kit fs).head? = some a.1 ∧ Complete M fs a := by
  have hkept : a ∈ completed.drop (completed.length - keep) := by
    obtain ⟨older, rfl⟩ := List.getLast?_eq_some_iff.mp hlast
    rw [List.length_append, List.length_singleton, List.drop_append_of_le_length (by omega)]
    simp
  have hcomplete := h.kept a hkept
  refine ⟨head?_eq_getLast? h.rising_map h.listed_falling h.listed_subset ?_ (h.mem_listed_iff.mpr hcomplete.record), hcomplete⟩
  rw [List.getLast?_map, hlast]
  rfl

/-- A file that belongs to no kept artifact may go. -/
theorem Sound.delete (h : Sound M kit keep fs completed) {name : JsString}
    (hname : ∀ a ∈ completed.drop (completed.length - keep), name ≠ binName a.1.backupId ∧ name ≠ metaName a.1.backupId) :
    Sound M kit keep (fs.delete name) completed where
  metas := by
    intro other content hget hjson
    rw [Map.get_delete] at hget
    split at hget
    · cases hget
    · exact h.metas other content hget hjson
  rising := h.rising
  kept := by
    intro a ha
    obtain ⟨hbin, hmeta⟩ := hname a ha
    have hcomplete := h.kept a ha
    exact ⟨by rw [Map.get_delete_of_ne _ hbin, hcomplete.bin], by rw [Map.get_delete_of_ne _ hmeta, hcomplete.record],
      hcomplete.digest⟩

/-- The bytes of an artifact that is not listed may be written over. -/
theorem Sound.set_bin (h : Sound M kit keep fs completed) {id : JsString}
    (hid : ∀ r ∈ listed M kit fs, r.backupId ≠ id) (content : FileContent) :
    Sound M kit keep (fs.set (binName id) content) completed where
  metas := by
    intro name other hget hjson
    have hne : binName id ≠ name := by
      rintro rfl
      rw [binName_not_json] at hjson
      cases hjson
    rw [Map.get_set_of_ne _ _ hne] at hget
    exact h.metas name other hget hjson
  rising := h.rising
  kept := by
    intro a ha
    have hcomplete := h.kept a ha
    have hne : a.1.backupId ≠ id := hid a.1 (h.mem_listed_iff.mpr hcomplete.record)
    refine ⟨?_, ?_, hcomplete.digest⟩
    · rw [Map.get_set_of_ne _ _ fun heq => hne (binName_inj heq).symm, hcomplete.bin]
    · rw [Map.get_set_of_ne _ _ (binName_ne_metaName _ _), hcomplete.record]

/-- A new artifact that sorts behind all listed ones is completed by its record. -/
theorem Sound.complete (h : Sound M kit keep fs completed) (hkeep : 1 ≤ keep)
    (hid : ∀ r ∈ listed M kit fs, r.backupId ≠ a.1.backupId) (hrank : ∀ r ∈ listed M kit fs, rank kit r < rank kit a.1)
    (hbin : fs.get (binName a.1.backupId) = some (.bytes (M.capture a.2).bytes))
    (hdigest : a.1.rowDigest = (M.capture a.2).rowDigest) :
    Sound M kit keep (fs.set (metaName a.1.backupId) (.record a.1)) (completed ++ [a]) where
  metas := by
    intro name content hget hjson
    rw [Map.get_set] at hget
    split at hget
    · next hname =>
      exact ⟨a, by simp, hname.symm, (Option.some.inj hget).symm⟩
    · obtain ⟨b, hb, hname, hrecord⟩ := h.metas name content hget hjson
      exact ⟨b, List.mem_append_left _ hb, hname, hrecord⟩
  rising := by
    refine List.pairwise_append.mpr ⟨h.rising, List.pairwise_singleton _ _, fun b hb c hc => ?_⟩
    rw [List.mem_singleton.mp hc]
    -- the last artifact is listed, and no earlier one sorts behind it
    obtain ⟨older, last, rfl⟩ := List.eq_nil_or_concat completed |>.resolve_left (List.ne_nil_of_mem hb)
    rw [List.concat_eq_append] at hb h
    have hlast : rank kit last.1 < rank kit a.1 :=
      hrank _ (List.mem_of_mem_head? ((h.head?_listed hkeep List.getLast?_concat).1 ▸ rfl))
    rcases List.mem_append.mp hb with hb | hb
    · exact lt_trans ((List.pairwise_append.mp h.rising).2.2 b hb last (List.mem_singleton_self _)) hlast
    · rw [List.mem_singleton.mp hb]
      exact hlast
  kept := by
    have hown : Complete M (fs.set (metaName a.1.backupId) (.record a.1)) a :=
      ⟨by rw [Map.get_set_of_ne _ _ (binName_ne_metaName _ _).symm, hbin], Map.get_set_self _ _ _, hdigest⟩
    intro b hb
    rw [List.length_append, List.length_singleton, List.drop_append] at hb
    rcases List.mem_append.mp hb with hb | hb
    · have hkept : b ∈ completed.drop (completed.length - keep) :=
        (List.drop_subset_drop_left completed (by omega)) hb
      have hcomplete := h.kept b hkept
      have hne : b.1.backupId ≠ a.1.backupId := hid b.1 (h.mem_listed_iff.mpr hcomplete.record)
      refine ⟨?_, ?_, hcomplete.digest⟩
      · rw [Map.get_set_of_ne _ _ (binName_ne_metaName _ _).symm, hcomplete.bin]
      · rw [Map.get_set_of_ne _ _ fun heq => hne (metaName_inj heq).symm, hcomplete.record]
    · rw [List.mem_singleton.mp (List.mem_of_mem_drop hb)]
      exact hown

end sound

end sow.db.backups
