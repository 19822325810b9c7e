import Sow.Knowledge.KnowledgeWriter.WriterModel

open sow.js sow.effect sow.markdown_vault

namespace sow.knowledge_writer

/-- A snapshot of a vault holds the bytes of exactly its listed files. -/
def Snapshots (listing : Listing) (fs : Files) (snapshot : VaultSnapshot) : Prop :=
  ∀ p, snapshot.get p = if listing.listed p = true then fs.get p else none

/-- The bytes of a note after its `mintStamp`: stamped when minting succeeded. -/
def stampedBytes (content : JsString) : Except Cause (Except StampError SignedProvenanceStamp) → JsString
  | .ok (.ok stamp) => embedStamp content stamp
  | _ => content

/-- What the files of a committed snapshot have become: every one of its files is
    in place, and every other live file is untouched. -/
structure InPlace (committed : VaultSnapshot) (fs fs' : Files) : Prop where
  holds : ∀ p content, committed.get p = some content → fs'.get p = some content
  frame : ∀ p, ¬ IsStaging p → committed.get p = none → fs'.get p = fs.get p

section reading

variable {listing : Listing} {adm : VaultOp → Choice → Prop} {fs : Files}

theorem readPaths_wp {paths : List Path} {snapshot : VaultSnapshot} {Q : Except Cause VaultSnapshot → Files → Prop}
    (hok : ∀ s, (∀ p, s.get p = if p ∈ paths ∧ p ∈ fs.keys then fs.get p else snapshot.get p) → Q (.ok s) fs)
    (herr : ∀ cause, Q (.error cause) fs) : wp (vaultFs listing) adm (readPaths snapshot paths) Q fs := by
  induction paths generalizing snapshot with
  | nil => exact hok snapshot fun p => by simp
  | cons path paths ih =>
    rw [readPaths, wp_bind]
    refine read_wp ?_ herr
    cases hget : fs.get path with
    | none =>
      refine ih fun s hs => hok s fun p => ?_
      have hpath : path ∉ fs.keys := Map.get_eq_none_iff.mp hget
      rw [hs p]
      by_cases hp : p = path
      · simp [hp, hpath]
      · simp [hp]
    | some content =>
      refine ih fun s hs => hok s fun p => ?_
      have hpath : path ∈ fs.keys := Map.mem_keys_iff.mpr (by simp [hget])
      rw [hs p, Map.get_set]
      by_cases hp : p = path
      · simp [hp, hpath, hget]
      · have hp' : ¬ path = p := fun h => hp h.symm
        simp [hp, hp']

/-- Reading a vault answers with its snapshot and changes nothing. -/
theorem readSnapshot_wp {Q : Except Cause VaultSnapshot → Files → Prop}
    (hok : ∀ snapshot, Snapshots listing fs snapshot → Q (.ok snapshot) fs)
    (herr : ∀ cause, Q (.error cause) fs) : wp (vaultFs listing) adm readSnapshot Q fs := by
  rw [readSnapshot, wp_bind]
  refine list_wp (readPaths_wp (fun s hs => hok s fun p => ?_) herr) herr
  simp only [hs p, listing.mem_list]
  by_cases hp : p ∈ fs.keys
  · simp [hp]
  · simp [hp, Map.get_eq_none_iff.mpr hp]

end reading

/-- Once the changes of a snapshot, none of them to a staging file, are committed,
    the whole of it is in place. -/
theorem inPlace_committed {listing : Listing} {fs : Files} {snapshot committedProjected : VaultSnapshot} {token : JsString}
    (hstaged : ∀ c ∈ diffChanges snapshot committedProjected, ¬ IsStaging c.path)
    (hbase : Snapshots listing fs snapshot) :
    InPlace committedProjected fs (committed (diffChanges snapshot committedProjected) token fs) := by
  have hlive : ∀ p q, ¬ IsStaging p → p ≠ tempPath q token := by
    rintro p q hp rfl
    exact hp (tempPath_isStaging _ _)
  refine ⟨fun p content hget => ?_, fun p hp hget => ?_⟩
  · by_cases hsame : snapshot.get p = some content
    · have hlisted := (hbase p).symm.trans hsame
      split at hlisted
      · next hl =>
        rw [committed_get_of_not_mem, hlisted]
        · intro hmem
          obtain ⟨c, hc, rfl⟩ := List.mem_map.mp hmem
          obtain ⟨hcget, hcne⟩ := mem_diffChanges.mp hc
          rw [hget] at hcget
          exact hcne (hsame.trans hcget)
        · exact fun c _ => hlive p c.path (listing.live_of_listed p hl)
      · cases hlisted
    · refine committed_get (c := ⟨p, content⟩) (diffChanges_paths_nodup _ _) ?_ (mem_diffChanges.mpr ⟨hget, hsame⟩)
      exact fun c hc c' _ => hlive c.path c'.path (hstaged c hc)
  · refine committed_get_of_not_mem ?_ fun c _ => hlive p c.path hp
    intro hmem
    obtain ⟨c, hc, rfl⟩ := List.mem_map.mp hmem
    rw [(mem_diffChanges.mp hc).1] at hget
    cases hget

section writer

variable {listing : Listing} {choose : Nat → KwOp → KwChoice}

/-- The writer's environment under a script of choices. -/
abbrev scriptedPorts (listing : Listing) (choose : Nat → KwOp → KwChoice) : Handler KwOp KwOp.Ret Cause (World × Nat) Unit :=
  (kwPorts listing).scripted choose

/-- The script lets every restoring write and removal of a live file succeed. -/
def Restores (choose : Nat → KwOp → KwChoice) : Prop := ∀ n op, KwRestoring op (choose n op)

theorem vault_wp {α : Type} {p : VaultM α} {Q : Except Cause α → World × Nat → Prop} {w : World × Nat}
    (hp : wp (vaultFs listing) (fun op d => Restores choose → Restoring op d) p
      (fun r fs => ∀ n, Q r ({ w.1 with files := fs }, n)) w.1.files) :
    wp (scriptedPorts listing choose) (fun _ _ => True) (liftVault p) Q w :=
  wp.scripted (fun op d => Restores choose → KwRestoring op d) (fun n op hR => hR n op)
    (liftVault_wp (fun _ _ h => h) hp)

/-- Minting reads the clock and the key, and changes nothing. -/
theorem mintStamp_wp {plan : KnowledgeMutationPlan} {path : Path} {page : gbrain.PageProvenance}
    {signing : StamperDeps} {m : StampMeta} {Q : Except Cause (Except StampError SignedProvenanceStamp) → World × Nat → Prop}
    {w : World × Nat}
    (hp : ∀ n, Q ((scriptedPorts listing choose).eval (mintStamp plan path page signing m) w).1 (w.1, n)) :
    wp (scriptedPorts listing choose) (fun _ _ => True) (mintStamp plan path page signing m) Q w := by
  have hframe : wp (scriptedPorts listing choose) (fun _ _ => True) (mintStamp plan path page signing m)
      (fun _ w' => w'.1 = w.1) w := by
    rw [mintStamp, wp_bind, wp_perform]
    intro _ _
    split
    · exact wp.scripted (fun _ _ => True) (fun _ _ => trivial) (liftSecrets_wp fun _ _ => rfl)
    · rfl
  rw [wp_eval_iff] at hframe ⊢
  generalize (scriptedPorts listing choose).eval (mintStamp plan path page signing m) w = out at hp hframe
  obtain ⟨r, w', n⟩ := out
  obtain rfl : w' = w.1 := hframe
  exact hp n

/-- The run of `P` from `w₀` mints the stamp of a page at the point `w`. -/
def MintsAt {α : Type} (listing : Listing) (choose : Nat → KwOp → KwChoice) (P : KwM α) (w₀ : World × Nat)
    (mint : KwM (Except StampError SignedProvenanceStamp)) (w : World × Nat) : Prop :=
  ∃ k, Passes (scriptedPorts listing choose) P w₀ (mint.attempt >>= k) w

theorem MintsAt.bind {α β : Type} {P : KwM α} {w₀ w : World × Nat}
    {mint : KwM (Except StampError SignedProvenanceStamp)} (h : MintsAt listing choose P w₀ mint w) (f : α → KwM β) :
    MintsAt listing choose (P >>= f) w₀ mint w := by
  obtain ⟨k, hk⟩ := h
  exact ⟨fun r => k r >>= f, by simpa only [bind_assoc] using hk.bind f⟩

theorem MintsAt.after {α : Type} {P P' : KwM α} {w₀ w₁ w : World × Nat}
    {mint : KwM (Except StampError SignedProvenanceStamp)}
    (hpass : Passes (scriptedPorts listing choose) P w₀ P' w₁) (h : MintsAt listing choose P' w₁ mint w) :
    MintsAt listing choose P w₀ mint w := by
  obtain ⟨k, hk⟩ := h
  exact ⟨k, hpass.trans hk⟩

variable (sha256 : Sha256) (snapshot : VaultSnapshot) (plan : KnowledgeMutationPlan) (signing : StamperDeps) (m : StampMeta)

/-- The bytes that the run of `P` from `w₀` gives a projected file: those of the
    projection, or, for a page to stamp, what minting its stamp comes to. -/
def StampOutcome {α : Type} (listing : Listing) (choose : Nat → KwOp → KwChoice) (P : KwM α) (w₀ : World × Nat)
    (p : Path) (content bytes : JsString) : Prop :=
  match pageToStamp sha256 snapshot p content with
  | none => bytes = content
  | some page => ∃ w, MintsAt listing choose P w₀ (mintStamp plan p page signing m) w ∧
      bytes = stampedBytes content ((scriptedPorts listing choose).eval (mintStamp plan p page signing m) w).1

variable {sha256 snapshot plan signing m}

theorem StampOutcome.imp {α β : Type} {P : KwM α} {P' : KwM β} {w₀ w₁ : World × Nat} {p : Path} {content bytes : JsString}
    (h : StampOutcome sha256 snapshot plan signing m listing choose P w₀ p content bytes)
    (himp : ∀ mint w, MintsAt listing choose P w₀ mint w → MintsAt listing choose P' w₁ mint w) :
    StampOutcome sha256 snapshot plan signing m listing choose P' w₁ p content bytes := by
  rw [StampOutcome] at h ⊢
  split at h
  · exact h
  · obtain ⟨w, hw, hbytes⟩ := h
    exact ⟨w, himp _ w hw, hbytes⟩

theorem embedLoop_of_page {path : Path} {content : JsString} {page : gbrain.PageProvenance}
    {rest : List (Path × JsString)} {stamped : VaultSnapshot}
    (hpage : pageToStamp sha256 snapshot path content = some page) :
    embedLoop sha256 snapshot plan signing m stamped ((path, content) :: rest) =
      (mintStamp plan path page signing m).attempt >>= fun r => match r with
        | .ok (.ok stamp) =>
          embedLoop sha256 snapshot plan signing m (stamped.set path (embedStamp content stamp)) rest
        | _ => embedLoop sha256 snapshot plan signing m stamped rest := by
  have hcons := embedLoop.eq_2 sha256 snapshot plan signing m stamped path content rest
  rw [hpage] at hcons
  exact hcons

theorem embedLoop_wp {rest : List (Path × JsString)} (hnd : (rest.map Prod.fst).Nodup) {stamped : VaultSnapshot}
    (hstart : ∀ e ∈ rest, stamped.get e.1 = some e.2) {Q : Except Cause VaultSnapshot → World × Nat → Prop}
    {w : World × Nat}
    (hok : ∀ s n, (∀ e ∈ rest, ∃ bytes, s.get e.1 = some bytes ∧ StampOutcome sha256 snapshot plan signing m listing
        choose (embedLoop sha256 snapshot plan signing m stamped rest) w e.1 e.2 bytes) →
      (∀ p ∉ rest.map Prod.fst, s.get p = stamped.get p) → Q (.ok s) (w.1, n)) :
    wp (scriptedPorts listing choose) (fun _ _ => True) (embedLoop sha256 snapshot plan signing m stamped rest) Q w := by
  induction rest generalizing stamped w with
  | nil => exact hok stamped w.2 (fun _ h => absurd h List.not_mem_nil) fun _ _ => rfl
  | cons e rest ih =>
    obtain ⟨path, content⟩ := e
    rw [List.map_cons, List.nodup_cons] at hnd
    have hhead := hstart _ (List.mem_cons_self ..)
    have hne : ∀ e ∈ rest, path ≠ e.1 := fun e he h => hnd.1 (List.mem_map.mpr ⟨e, he, h.symm⟩)
    -- Whatever bytes the head is left with, the loop over the rest keeps them.
    have hstep : ∀ (bytes : JsString) (stamped' : VaultSnapshot) (w' : World × Nat), w'.1 = w.1 →
        stamped'.get path = some bytes → (∀ p, p ≠ path → stamped'.get p = stamped.get p) →
        Passes (scriptedPorts listing choose) (embedLoop sha256 snapshot plan signing m stamped ((path, content) :: rest)) w
          (embedLoop sha256 snapshot plan signing m stamped' rest) w' →
        StampOutcome sha256 snapshot plan signing m listing choose
          (embedLoop sha256 snapshot plan signing m stamped ((path, content) :: rest)) w path content bytes →
        wp (scriptedPorts listing choose) (fun _ _ => True) (embedLoop sha256 snapshot plan signing m stamped' rest) Q w' := by
      intro bytes stamped' w' hw hbytes hother hpass hout
      refine ih hnd.2 (fun e he => ?_) fun s n hrest hkeep => ?_
      · rw [hother _ (hne e he).symm]
        exact hstart e (List.mem_cons_of_mem _ he)
      · rw [hw]
        refine hok s n (fun e he => ?_) fun p hp => ?_
        · rcases List.mem_cons.mp he with rfl | he
          · exact ⟨bytes, (hkeep path hnd.1).trans hbytes, hout⟩
          · obtain ⟨bytes', hbytes', hout'⟩ := hrest e he
            exact ⟨bytes', hbytes', hout'.imp fun mint w h => h.after hpass⟩
        · rw [List.map_cons, List.mem_cons, not_or] at hp
          rw [hkeep p hp.2, hother p hp.1]
    cases hpage : pageToStamp sha256 snapshot path content with
    | none =>
      have hloop : embedLoop sha256 snapshot plan signing m stamped ((path, content) :: rest) =
          embedLoop sha256 snapshot plan signing m stamped rest := by rw [embedLoop, hpage]
      rw [hloop]
      refine hstep content stamped w rfl hhead (fun _ _ => rfl) (hloop ▸ .here) ?_
      rw [StampOutcome, hpage]
    | some page =>
      have hloop := @embedLoop_of_page sha256 snapshot plan signing m _ _ _ rest stamped hpage
      have hout : ∀ r, r = ((scriptedPorts listing choose).eval (mintStamp plan path page signing m) w).1 →
          StampOutcome sha256 snapshot plan signing m listing choose
            (embedLoop sha256 snapshot plan signing m stamped ((path, content) :: rest)) w path content
            (stampedBytes content r) := by
        rintro r rfl
        rw [StampOutcome, hpage, hloop]
        exact ⟨w, ⟨_, .here⟩, rfl⟩
      rw [hloop]
      rw [hloop] at hstep hout
      refine wp_bind_passes ?_
      rw [wp_attempt]
      refine mintStamp_wp fun n => ?_
      generalize ((scriptedPorts listing choose).eval (mintStamp plan path page signing m) w).1 = r at hout
      have hr := hout r rfl
      intro hpass
      rcases r with cause | e | stamp
      · exact hstep _ _ (w.1, n) rfl hhead (fun _ _ => rfl) hpass hr
      · exact hstep _ _ (w.1, n) rfl hhead (fun _ _ => rfl) hpass hr
      · exact hstep _ _ (w.1, n) rfl (Map.get_set_self ..) (fun p hp => Map.get_set_of_ne _ _ hp.symm) hpass hr

end writer

end sow.knowledge_writer
