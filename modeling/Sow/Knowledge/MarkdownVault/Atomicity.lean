import Sow.Knowledge.MarkdownVault.VaultModel

open sow.js sow.effect

namespace sow.markdown_vault

def stagedOf (token : JsString) (change : FileChange) : Staged := ⟨change, tempPath change.path token⟩

/-- The files once every change is staged. -/
def written (token : JsString) (changes : List FileChange) (fs : Files) : Files :=
  changes.foldl (fun fs change => fs.set (tempPath change.path token) change.content) fs

/-- The files once the staged entries have been renamed into place. -/
def moved (entries : List Staged) (fs : Files) : Files :=
  entries.foldl (fun fs entry =>
    match fs.get entry.tmp with
    | none => fs
    | some content => (fs.set entry.change.path content).delete entry.tmp) fs

/-- The files after a successful commit. -/
def committed (changes : List FileChange) (token : JsString) (fs : Files) : Files :=
  moved (changes.map (stagedOf token)) (written token changes fs)

/-- The captured priors of the staged targets. -/
def captured (fs : Files) (priors : Map Path (Option JsString)) (staged : List Staged) :
    Map Path (Option JsString) :=
  staged.foldl (fun m s => m.set s.change.path (fs.get s.change.path)) priors

section outcomes

variable {listing : Listing} {fs : Files}

theorem sweep_wp {adm : VaultOp → Choice → Prop} {tmps : List Path} (htmps : ∀ t ∈ tmps, IsStaging t)
    {Q : Except Cause Unit → Files → Prop} (hdone : ∀ fs', SameLive fs fs' → Q (.ok ()) fs') :
    wp (vaultFs listing) adm (sweep tmps) Q fs := by
  induction tmps generalizing fs with
  | nil => exact hdone fs (.refl fs)
  | cons t tmps ih =>
    have ht : IsStaging t := htmps t (List.mem_cons_self ..)
    have hrest : ∀ t' ∈ tmps, IsStaging t' := fun t' h => htmps t' (List.mem_cons_of_mem _ h)
    rw [sweep, wp_bind, wp_attempt]
    refine remove_wp ?_ fun cause residue _ => ?_
    · exact ih hrest fun fs' h => hdone fs' ((SameLive.delete ht).trans h)
    · exact ih hrest fun fs' h => hdone fs' h

theorem stage_wp {adm : VaultOp → Choice → Prop} {token : JsString} {staged : List Staged}
    {changes : List FileChange} (hstaged : ∀ s ∈ staged, IsStaging s.tmp)
    {Q : Except Cause (Except AtomicError (List Staged)) → Files → Prop}
    (hok : Q (.ok (.ok (staged ++ changes.map (stagedOf token)))) (written token changes fs))
    (herr : ∀ e fs', SameLive fs fs' → Q (.ok (.error e)) fs') :
    wp (vaultFs listing) adm (stage token staged changes) Q fs := by
  induction changes generalizing fs staged with
  | nil => simpa [stage, written] using hok
  | cons change changes ih =>
    have htmp := tempPath_isStaging change.path token
    rw [stage, wp_bind, wp_attempt]
    refine write_wp ?_ fun cause residue _ fs' hfs' => ?_
    · refine ih ?_ ?_ fun e fs' h => herr e fs' ((SameLive.set htmp _).trans h)
      · intro s hs
        rcases List.mem_append.mp hs with hs | hs
        · exact hstaged s hs
        · rw [List.mem_singleton.mp hs]
          exact htmp
      · simpa [stagedOf, written] using hok
    · have hsame : SameLive fs fs' := by
        rcases hfs' with rfl | ⟨left, rfl⟩
        · exact .refl _
        · exact .set htmp left
      simp only [wp_bind]
      refine sweep_wp ?_ fun fs'' h => herr _ fs'' (hsame.trans h)
      intro t ht
      obtain ⟨s, hs, rfl⟩ := List.mem_map.mp ht
      exact hstaged s hs

theorem capturePriors_wp {adm : VaultOp → Choice → Prop} {priors : Map Path (Option JsString)}
    {staged : List Staged} {Q : Except Cause (Map Path (Option JsString)) → Files → Prop}
    (hok : Q (.ok (captured fs priors staged)) fs) (herr : ∀ cause, Q (.error cause) fs) :
    wp (vaultFs listing) adm (capturePriors priors staged) Q fs := by
  induction staged generalizing priors with
  | nil => exact hok
  | cons s staged ih =>
    rw [capturePriors, wp_bind]
    exact read_wp (ih hok) herr

/-- Rolling back puts the captured bytes back under every live renamed path. -/
theorem rollback_wp {priors : Map Path (Option JsString)} {renamed : List FileChange}
    {Q : Except Cause Unit → Files → Prop}
    (hdone : ∀ fs', (∀ p, ¬ IsStaging p →
      fs'.get p = if p ∈ renamed.map (·.path) then (priors.get p).join else fs.get p) → Q (.ok ()) fs') :
    wp (vaultFs listing) Restoring (rollback priors renamed) Q fs := by
  induction renamed generalizing fs with
  | nil => exact hdone fs fun p _ => rfl
  | cons change renamed ih =>
    have hstep : ∀ fs₁, (∀ p, ¬ IsStaging p →
        fs₁.get p = if p = change.path then (priors.get p).join else fs.get p) →
        wp (vaultFs listing) Restoring (rollback priors renamed) Q fs₁ := by
      intro fs₁ h₁
      refine ih fun fs' h' => hdone fs' fun p hp => ?_
      rw [h' p hp, h₁ p hp]
      by_cases hmem : p ∈ renamed.map (·.path)
      · simp [hmem]
      · by_cases hpc : p = change.path <;> simp [hmem, hpc]
    rw [rollback, wp_bind, wp_attempt]
    cases hprior : (priors.get change.path).join with
    | none =>
      refine remove_wp ?_ fun cause residue hadm => ?_
      · refine hstep _ fun p hp => ?_
        rw [Map.get_delete]
        by_cases hpc : p = change.path
        · rw [if_pos hpc.symm, if_pos hpc, hpc, hprior]
        · rw [if_neg (fun e => hpc e.symm), if_neg hpc]
      · refine hstep _ fun p hp => ?_
        by_cases hpc : p = change.path
        · exact absurd (hadm (hpc ▸ hp)) (by simp)
        · rw [if_neg hpc]
    | some prior =>
      refine write_wp ?_ fun cause residue hadm fs' hfs' => ?_
      · refine hstep _ fun p hp => ?_
        rw [Map.get_set]
        by_cases hpc : p = change.path
        · rw [if_pos hpc.symm, if_pos hpc, hpc, hprior]
        · rw [if_neg (fun e => hpc e.symm), if_neg hpc]
      · refine hstep _ fun p hp => ?_
        by_cases hpc : p = change.path
        · exact absurd (hadm (hpc ▸ hp)) (by simp)
        · rw [if_neg hpc]
          rcases hfs' with rfl | ⟨left, rfl⟩
          · rfl
          · exact Map.get_set_of_ne _ _ fun e => hpc e.symm

/-- Either every rename lands, or the live files are back to the bytes `fs₀`
    that the priors record. -/
theorem commitStaged_wp {priors : Map Path (Option JsString)} {renamed : List FileChange}
    {entries : List Staged} (fs₀ : Files)
    (hpriors : ∀ p ∈ renamed.map (·.path) ++ entries.map (·.change.path), priors.get p = some (fs₀.get p))
    (hlive : ∀ p, ¬ IsStaging p → p ∉ renamed.map (·.path) → fs.get p = fs₀.get p)
    (htmps : ∀ e ∈ entries, IsStaging e.tmp)
    {Q : Except Cause (Except AtomicError Unit) → Files → Prop}
    (hok : Q (.ok (.ok ())) (moved entries fs))
    (herr : ∀ e fs', SameLive fs₀ fs' → Q (.ok (.error e)) fs') :
    wp (vaultFs listing) Restoring (commitStaged priors renamed entries) Q fs := by
  induction entries generalizing fs renamed with
  | nil => exact hok
  | cons entry entries ih =>
    have htmp := htmps entry (List.mem_cons_self ..)
    rw [commitStaged, wp_bind, wp_attempt]
    refine rename_wp (fun content hget => ?_) fun cause => ?_
    · refine ih ?_ ?_ (fun e he => htmps e (List.mem_cons_of_mem _ he)) ?_
      · intro p hp
        exact hpriors p (by simpa [or_assoc] using hp)
      · intro p hp hnot
        have hnot' : p ∉ renamed.map (·.path) ∧ ¬ p = entry.change.path := by simpa using hnot
        rw [Map.get_delete_of_ne _ (fun e : entry.tmp = p => hp (e ▸ htmp)),
          Map.get_set_of_ne _ _ (fun e => hnot'.2 e.symm)]
        exact hlive p hp hnot'.1
      · simpa [moved, hget] using hok
    · simp only [wp_bind]
      refine rollback_wp fun fs₁ h₁ => ?_
      refine sweep_wp ?_ fun fs₂ h₂ => herr _ fs₂ fun p hp => ?_
      · intro t ht
        obtain ⟨e, he, rfl⟩ := List.mem_map.mp ht
        exact htmps e he
      · rw [h₂ p hp, h₁ p hp]
        by_cases hmem : p ∈ renamed.map (·.path)
        · rw [if_pos hmem, hpriors p (List.mem_append_left _ hmem), Option.join_some]
        · rw [if_neg hmem, hlive p hp hmem]

/-- The staged targets are captured with the bytes they had. -/
theorem captured_get {priors : Map Path (Option JsString)} {staged : List Staged} {p : Path}
    (hp : p ∈ staged.map (·.change.path)) : (captured fs priors staged).get p = some (fs.get p) := by
  have hkeep : ∀ (l : List Staged) (m : Map Path (Option JsString)), m.get p = some (fs.get p) →
      (captured fs m l).get p = some (fs.get p) := by
    intro l
    induction l with
    | nil => exact fun m h => h
    | cons s l ih =>
      intro m h
      refine ih _ ?_
      rw [Map.get_set]
      by_cases hs : s.change.path = p
      · simp [hs]
      · simpa [hs] using h
  induction staged generalizing priors with
  | nil => simp at hp
  | cons s staged ih =>
    by_cases hs : p = s.change.path
    · exact hkeep staged _ (by simp [hs])
    · exact ih (by simpa [hs] using hp)

theorem written_sameLive (token : JsString) (changes : List FileChange) (fs : Files) :
    SameLive fs (written token changes fs) := by
  induction changes generalizing fs with
  | nil => exact .refl fs
  | cons change changes ih => exact (SameLive.set (tempPath_isStaging ..) _).trans (ih _)

/-- The contract of the primitive: on success every change has been renamed into
    place; on any other outcome the live files are as they were. -/
theorem atomicCommit_wp {changes : List FileChange} {token : JsString} {fence : Option WriteFenceProbe}
    {Q : Except Cause (Except AtomicError Unit) → Files → Prop}
    (hok : Q (.ok (.ok ())) (committed changes token fs))
    (herr : ∀ e fs', SameLive fs fs' → Q (.ok (.error e)) fs')
    (hthrow : ∀ cause fs', SameLive fs fs' → Q (.error cause) fs') :
    wp (vaultFs listing) Restoring (atomicCommit changes token fence) Q fs := by
  rw [atomicCommit]
  split
  · next h => simpa [h, committed, written, moved] using hok
  · split
    · exact herr _ fs (.refl fs)
    · rw [wp_bind]
      have hsame := written_sameLive token changes fs
      refine stage_wp (by simp) ?_ fun e fs' h => herr e fs' h
      rw [List.nil_append]
      simp only [wp_bind]
      refine capturePriors_wp ?_ fun cause => hthrow cause _ hsame
      refine commitStaged_wp (written token changes fs) ?_ (fun p _ _ => rfl) ?_ hok
        fun e fs' h => herr e fs' (hsame.trans h)
      · intro p hp
        exact captured_get (by simpa using hp)
      · intro e he
        obtain ⟨change, _, rfl⟩ := List.mem_map.mp he
        exact tempPath_isStaging ..

/-- Whatever faults there are, renames that all succeed have put everything in place. -/
theorem commitStaged_ok_wp {adm : VaultOp → Choice → Prop} {priors : Map Path (Option JsString)}
    {renamed : List FileChange} {entries : List Staged} {Q : Except Cause (Except AtomicError Unit) → Files → Prop}
    (hok : Q (.ok (.ok ())) (moved entries fs)) (helse : ∀ r fs', r ≠ .ok (.ok ()) → Q r fs') :
    wp (vaultFs listing) adm (commitStaged priors renamed entries) Q fs := by
  induction entries generalizing fs renamed with
  | nil => exact hok
  | cons entry entries ih =>
    rw [commitStaged, wp_bind, wp_attempt]
    refine rename_wp (fun content hget => ?_) fun cause => ?_
    · exact ih (by simpa [moved, hget] using hok)
    · simp only [wp_bind]
      refine wp.of_forall fun r fs' => ?_
      cases r with
      | error cause => exact helse _ _ (by simp)
      | ok u =>
        refine wp.of_forall fun r fs' => ?_
        cases r with
        | error cause => exact helse _ _ (by simp)
        | ok u => exact helse _ _ (by simp)

/-- A commit that returns success has put every change in place; any other
    outcome, if restoring writes succeed (`R`), leaves the live files as they were. -/
theorem atomicCommit_spec {changes : List FileChange} {token : JsString} {fence : Option WriteFenceProbe} (R : Prop)
    {Q : Except Cause (Except AtomicError Unit) → Files → Prop}
    (hok : Q (.ok (.ok ())) (committed changes token fs))
    (herr : ∀ e fs', (R → SameLive fs fs') → Q (.ok (.error e)) fs')
    (hthrow : ∀ cause fs', (R → SameLive fs fs') → Q (.error cause) fs') :
    wp (vaultFs listing) (fun op d => R → Restoring op d) (atomicCommit changes token fence) Q fs := by
  by_cases hR : R
  · exact wp.mono_adm (fun op d h => h hR) (atomicCommit_wp hok (fun e fs' h => herr e fs' fun _ => h)
      fun cause fs' h => hthrow cause fs' fun _ => h)
  · have helse : ∀ r fs', r ≠ .ok (.ok ()) → Q r fs' := by
      intro r fs' hr
      match r with
      | .ok (.ok ()) => exact absurd rfl hr
      | .ok (.error e) => exact herr e fs' fun h => absurd h hR
      | .error cause => exact hthrow cause fs' fun h => absurd h hR
    rw [atomicCommit]
    split
    · next h => simpa [h, committed, written, moved] using hok
    · split
      · exact helse _ _ (by simp)
      · rw [wp_bind]
        refine stage_wp (by simp) ?_ fun e fs' _ => helse _ _ (by simp)
        rw [List.nil_append]
        simp only [wp_bind]
        exact capturePriors_wp (commitStaged_ok_wp hok helse) fun cause => helse _ _ (by simp)

end outcomes

section contents

variable {token : JsString} {changes : List FileChange} {fs : Files}

theorem written_get_of_not_mem {p : Path} (hp : ∀ c ∈ changes, p ≠ tempPath c.path token) :
    (written token changes fs).get p = fs.get p := by
  induction changes generalizing fs with
  | nil => rfl
  | cons c cs ih =>
    change (written token cs (fs.set (tempPath c.path token) c.content)).get p = _
    rw [ih fun c' h' => hp c' (List.mem_cons_of_mem _ h'),
      Map.get_set_of_ne _ _ (hp c (List.mem_cons_self ..)).symm]

/-- With distinct targets, each staging file holds the content of its change. -/
theorem written_get (hnd : (changes.map (·.path)).Nodup) {c : FileChange} (hc : c ∈ changes) :
    (written token changes fs).get (tempPath c.path token) = some c.content := by
  induction changes generalizing fs with
  | nil => simp at hc
  | cons d cs ih =>
    rw [List.map_cons, List.nodup_cons] at hnd
    change (written token cs (fs.set (tempPath d.path token) d.content)).get _ = _
    rcases List.mem_cons.mp hc with rfl | hc
    · rw [written_get_of_not_mem, Map.get_set_self]
      intro c' hc' heq
      exact hnd.1 (tempPath_injective token heq ▸ List.mem_map_of_mem hc')
    · exact ih hnd.2 hc

theorem moved_get_of_not_mem {entries : List Staged} {p : Path}
    (hp : ∀ e ∈ entries, p ≠ e.tmp ∧ p ≠ e.change.path) : (moved entries fs).get p = fs.get p := by
  induction entries generalizing fs with
  | nil => rfl
  | cons e es ih =>
    obtain ⟨htmp, htarget⟩ := hp e (List.mem_cons_self ..)
    have ih' : ∀ fs', (moved es fs').get p = fs'.get p :=
      fun fs' => ih fun e' h' => hp e' (List.mem_cons_of_mem _ h')
    rw [moved, List.foldl_cons]
    cases hget : fs.get e.tmp with
    | none => exact ih' fs
    | some content =>
      refine (ih' _).trans ?_
      rw [Map.get_delete_of_ne _ htmp.symm, Map.get_set_of_ne _ _ htarget.symm]

/-- Entries with distinct targets, none of which is a staging file of the batch,
    end up holding the content staged for them. -/
theorem moved_get {entries : List Staged} (hnd : (entries.map (·.change.path)).Nodup)
    (htmps : (entries.map (·.tmp)).Nodup)
    (halias : ∀ e ∈ entries, ∀ e' ∈ entries, e.change.path ≠ e'.tmp)
    (hstaged : ∀ e ∈ entries, fs.get e.tmp = some e.change.content) {e : Staged} (he : e ∈ entries) :
    (moved entries fs).get e.change.path = some e.change.content ∧ (moved entries fs).get e.tmp = none := by
  induction entries generalizing fs with
  | nil => simp at he
  | cons d es ih =>
    rw [List.map_cons, List.nodup_cons] at hnd htmps
    have hd := hstaged d (List.mem_cons_self ..)
    have hmoved : moved (d :: es) fs = moved es ((fs.set d.change.path d.change.content).delete d.tmp) := by
      simp [moved, hd]
    have hself := halias d (List.mem_cons_self ..)
    rw [hmoved]
    rcases List.mem_cons.mp he with rfl | he
    · have hoff : ∀ e' ∈ es, e.change.path ≠ e'.tmp ∧ e.change.path ≠ e'.change.path := by
        intro e' he'
        exact ⟨hself e' (List.mem_cons_of_mem _ he'), fun h => hnd.1 (h ▸ List.mem_map_of_mem he')⟩
      have hoff' : ∀ e' ∈ es, e.tmp ≠ e'.tmp ∧ e.tmp ≠ e'.change.path := by
        intro e' he'
        exact ⟨fun h => htmps.1 (h ▸ List.mem_map_of_mem he'),
          (halias e' (List.mem_cons_of_mem _ he') e (List.mem_cons_self ..)).symm⟩
      rw [moved_get_of_not_mem hoff, moved_get_of_not_mem hoff',
        Map.get_delete_of_ne _ (hself e (List.mem_cons_self ..)).symm]
      simp
    · refine ih hnd.2 htmps.2
        (fun a ha b hb => halias a (List.mem_cons_of_mem _ ha) b (List.mem_cons_of_mem _ hb)) ?_ he
      intro e' he'
      have htmp : e'.tmp ≠ d.tmp := fun h => htmps.1 (h ▸ List.mem_map_of_mem he')
      rw [Map.get_delete_of_ne _ htmp.symm, Map.get_set_of_ne _ _ (hself e' (List.mem_cons_of_mem _ he'))]
      exact hstaged e' (List.mem_cons_of_mem _ he')

/-- No target of the batch is one of its own staging files. -/
def Unaliased (changes : List FileChange) (token : JsString) : Prop :=
  ∀ c ∈ changes, ∀ c' ∈ changes, c.path ≠ tempPath c'.path token

/-- A successful commit of distinct targets puts every change in place. -/
theorem committed_get (hnd : (changes.map (·.path)).Nodup) (halias : Unaliased changes token)
    {c : FileChange} (hc : c ∈ changes) : (committed changes token fs).get c.path = some c.content := by
  refine (moved_get (e := stagedOf token c) ?_ ?_ ?_ ?_ (List.mem_map_of_mem hc)).1
  · simpa [Function.comp_def, stagedOf] using hnd
  · rw [List.map_map]
    have hinj := List.Nodup.map (tempPath_injective token) hnd
    simpa [Function.comp_def, stagedOf] using hinj
  · intro e he e' he'
    obtain ⟨a, ha, rfl⟩ := List.mem_map.mp he
    obtain ⟨b, hb, rfl⟩ := List.mem_map.mp he'
    exact halias a ha b hb
  · intro e he
    obtain ⟨a, ha, rfl⟩ := List.mem_map.mp he
    exact written_get hnd ha

/-- A commit changes nothing but its targets and its own staging files. -/
theorem committed_get_of_not_mem {p : Path} (hp : p ∉ changes.map (·.path))
    (htmp : ∀ c ∈ changes, p ≠ tempPath c.path token) : (committed changes token fs).get p = fs.get p := by
  rw [committed, moved_get_of_not_mem, written_get_of_not_mem htmp]
  intro e he
  obtain ⟨c, hc, rfl⟩ := List.mem_map.mp he
  exact ⟨htmp c hc, fun h => hp (h ▸ List.mem_map_of_mem hc)⟩

end contents

end sow.markdown_vault
