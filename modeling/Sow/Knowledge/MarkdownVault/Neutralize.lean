import Sow.Knowledge.MarkdownVault.Layout

open sow.js

namespace sow.markdown_vault

/-- `o` is `s` with a backslash put into some of its `<!` pairs; `p` says that the
    unit before is `<`. -/
inductive Escapes : Bool → JsString → JsString → Prop where
  | nil (p : Bool) : Escapes p [] []
  | keep (p : Bool) (c : UInt16) {s o : JsString} : Escapes (c == unit '<') s o → Escapes p (c :: s) (c :: o)
  | insert {s o : JsString} : Escapes false s o → Escapes true (unit '!' :: s) (unit '\\' :: unit '!' :: o)

/-- The `<!` pairs of a string. -/
def pairs : Bool → JsString → Nat
  | _, [] => 0
  | p, c :: s => (if p && c == unit '!' then 1 else 0) + pairs (c == unit '<') s

namespace Escapes

variable {p : Bool} {s o : JsString}

theorem refl (p : Bool) (s : JsString) : Escapes p s s := by
  induction s generalizing p with
  | nil => exact .nil p
  | cons c s ih => exact .keep p c (ih _)

theorem length_le (h : Escapes p s o) : s.length ≤ o.length := by
  induction h with
  | nil => exact le_rfl
  | keep p c _ ih => simpa using ih
  | insert _ ih =>
    simp only [List.length_cons]
    omega

theorem eq_of_length (h : Escapes p s o) (hlen : o.length = s.length) : o = s := by
  induction h with
  | nil => rfl
  | keep p c _ ih => rw [ih (by simpa using hlen)]
  | insert h _ =>
    have := h.length_le
    simp only [List.length_cons] at hlen
    omega

/-- Each backslash takes away one pair. -/
theorem length_add_pairs (h : Escapes p s o) : o.length + pairs p o = s.length + pairs p s := by
  induction h with
  | nil => rfl
  | keep p c _ ih =>
    simp only [List.length_cons, pairs]
    omega
  | insert _ ih =>
    have hb : (unit '\\' == unit '<') = false := by decide
    have he : (unit '!' == unit '<') = false := by decide
    have hbe : (unit '\\' == unit '!') = false := by decide
    simp only [List.length_cons, pairs, hb, he, hbe, Bool.false_and, Bool.true_and, beq_self_eq_true, if_true,
      Bool.false_eq_true, if_false]
    omega

theorem append {a b oa ob : JsString} (ha : Escapes p a oa) (hb : ∀ q, Escapes q b ob) :
    Escapes p (a ++ b) (oa ++ ob) := by
  induction ha with
  | nil p => exact hb p
  | keep p c _ ih => exact .keep p c ih
  | insert _ ih => exact .insert ih

theorem exists_append {a b : JsString} (h : Escapes p (a ++ b) o) :
    ∃ oa ob q, o = oa ++ ob ∧ Escapes p a oa ∧ Escapes q b ob := by
  induction a generalizing p o with
  | nil => exact ⟨[], o, p, rfl, .nil p, h⟩
  | cons c a ih =>
    rw [List.cons_append] at h
    cases h with
    | keep _ _ h =>
      obtain ⟨oa, ob, q, rfl, ha, hb⟩ := ih h
      exact ⟨c :: oa, ob, q, rfl, .keep p c ha, hb⟩
    | insert h =>
      obtain ⟨oa, ob, q, rfl, ha, hb⟩ := ih h
      exact ⟨unit '\\' :: unit '!' :: oa, ob, q, rfl, .insert ha, hb⟩

theorem trans {t : JsString} (h : Escapes p s o) (h' : Escapes p o t) : Escapes p s t := by
  induction h generalizing t with
  | nil => exact h'
  | keep p c hs ih =>
    cases h' with
    | keep _ _ h' => exact .keep _ _ (ih h')
    | insert h' => exact .insert (ih h')
  | insert hs ih =>
    cases h' with
    | keep _ _ h' =>
      cases h' with
      | keep _ _ h' => exact .insert (ih h')

/-- A unit other than `!` is kept. -/
theorem cons_of_ne {c : UInt16} (hc : c ≠ unit '!') (h : Escapes p (c :: s) o) :
    ∃ o', o = c :: o' ∧ Escapes (c == unit '<') s o' := by
  cases h with
  | keep _ _ h => exact ⟨_, rfl, h⟩
  | insert _ => exact absurd rfl hc

theorem eq_of_not_mem (hs : unit '!' ∉ s) (h : Escapes p s o) : o = s := by
  induction h with
  | nil => rfl
  | keep p c _ ih => rw [ih fun hm => hs (List.mem_cons_of_mem _ hm)]
  | insert _ _ => exact absurd (List.mem_cons_self ..) hs

/-- A comment opener is kept or gets its one backslash. -/
theorem comment {r : JsString} (hr : unit '!' ∉ r) (h : Escapes p (unit '<' :: unit '!' :: r) o) :
    o = unit '<' :: unit '!' :: r ∨ o = unit '<' :: unit '\\' :: unit '!' :: r := by
  obtain ⟨o, rfl, hpair⟩ := cons_of_ne (by decide) h
  rw [beq_self_eq_true] at hpair
  cases hpair with
  | keep _ _ hrest =>
    obtain rfl := eq_of_not_mem hr hrest
    exact .inl rfl
  | insert hrest =>
    obtain rfl := eq_of_not_mem hr hrest
    exact .inr rfl

end Escapes

private theorem pairs_le_length (p : Bool) (s : JsString) : pairs p s ≤ s.length := by
  induction s generalizing p with
  | nil => exact le_rfl
  | cons c s ih =>
    have := ih (c == unit '<')
    rw [pairs, List.length_cons]
    split <;> omega

private theorem replaceAllFrom_skip (a b : JsString) (n : Nat) (s : JsString) :
    replaceAllFrom a b n s = replaceAllFrom a b 0 (s.drop n) := by
  induction n generalizing s with
  | zero => rfl
  | succ n ih =>
    cases s with
    | nil => rfl
    | cons c s => rw [replaceAllFrom, ih, List.drop_succ_cons]

/-- The replacement of one match is an escaping of it. -/
theorem escapes_replaceAll (p : Bool) (s : JsString) :
    Escapes p s (replaceAll s (str "<!--") (str "<\\!--")) := by
  induction hn : s.length using Nat.strong_induction_on generalizing p s with
  | _ n ih =>
    subst hn
    cases s with
    | nil => exact .nil p
    | cons c s =>
      rw [replaceAll, replaceAllFrom]
      split
      · next h =>
        obtain ⟨rest, hrest⟩ := List.isPrefixOf_iff_prefix.mp h
        have hs : s = str "!--" ++ rest := (List.cons.inj hrest).2.symm
        obtain rfl : unit '<' = c := (List.cons.inj hrest).1
        have hlen : rest.length < (unit '<' :: s).length := by
          rw [hs, List.length_cons, List.length_append]
          omega
        have hdrop : s.drop ((str "<!--").length - 1) = rest := by rw [hs]; rfl
        rw [replaceAllFrom_skip, hdrop, hs]
        exact .keep _ _ (.insert (.keep _ _ (.keep _ _ (ih rest.length hlen false rest rfl))))
      · exact .keep _ _ (ih s.length (by simp) _ s rfl)

section replace

variable {τ : Type} {re : Regex τ}

/-- Replacing every match by an escaping of it escapes the string. -/
theorem escapes_replace {f : JsString → JsString} (hf : ∀ p m, Escapes p m (f m))
    (hpos : ∀ s n g, re.exec s = some (n, g) → 0 < n) (p : Bool) (s : JsString) :
    Escapes p s (re.replace f s) := by
  induction hn : s.length using Nat.strong_induction_on generalizing p s with
  | _ n ih =>
    subst hn
    cases s with
    | nil => exact .nil p
    | cons c s =>
      rw [Regex.replace, Regex.replaceFrom]
      cases hexec : re.exec (c :: s) with
      | none => exact .keep _ _ (ih s.length (by simp) _ s rfl)
      | some r =>
        obtain ⟨n, g⟩ := r
        have hn := hpos _ _ _ hexec
        obtain ⟨k, rfl⟩ : ∃ k, n = k + 1 := ⟨n - 1, by omega⟩
        have hsplit : c :: s = (c :: s).take (k + 1) ++ s.drop k := by
          rw [List.take_succ_cons, List.cons_append, List.take_append_drop]
        change Escapes p (c :: s) (f ((c :: s).take (k + 1)) ++ re.replaceFrom f (k + 1 - 1) s)
        rw [Nat.add_sub_cancel, Regex.replaceFrom_skip]
        conv => arg 2; rw [hsplit]
        refine (hf p _).append fun q => ih _ ?_ q _ rfl
        simp only [List.length_drop, List.length_cons]
        omega

/-- Where the replacement of every match is longer than the match, a text that the
    replacement leaves alone has no match. -/
theorem free_of_replace_eq {f : JsString → JsString} (hf : ∀ p m, Escapes p m (f m))
    (hpos : ∀ s n g, re.exec s = some (n, g) → 0 < n)
    (hlong : ∀ s n g, re.exec s = some (n, g) → (s.take n).length < (f (s.take n)).length)
    {s : JsString} (h : re.replace f s = s) : re.Free s := by
  induction s with
  | nil =>
    rintro a b hab
    obtain ⟨rfl, rfl⟩ := List.append_eq_nil_iff.mp hab.symm
    cases hexec : re.exec [] with
    | none => rfl
    | some r =>
      have := hlong _ r.1 r.2 hexec
      have hempty := hf false []
      cases hfe : f [] with
      | nil => simp [hfe] at this
      | cons d w => rw [hfe] at hempty; cases hempty
  | cons c s ih =>
    rw [Regex.replace, Regex.replaceFrom] at h
    cases hexec : re.exec (c :: s) with
    | none =>
      rw [hexec] at h
      have hs := ih (List.cons.inj h).2
      rintro (_ | ⟨d, a⟩) b hab
      · rw [List.nil_append] at hab
        rw [← hab, hexec]
      · exact hs a b (List.cons.inj hab).2
    | some r =>
      exfalso
      obtain ⟨n, g⟩ := r
      obtain ⟨k, rfl⟩ : ∃ k, n = k + 1 := ⟨n - 1, by have := hpos _ _ _ hexec; omega⟩
      rw [hexec] at h
      have hlen := congrArg List.length h
      change (f ((c :: s).take (k + 1)) ++ re.replaceFrom f (k + 1 - 1) s).length = _ at hlen
      rw [Nat.add_sub_cancel, Regex.replaceFrom_skip, List.length_append] at hlen
      have hrest := (escapes_replace hf hpos false (s.drop k)).length_le
      rw [Regex.replace] at hrest
      have hmatch := hlong _ _ _ hexec
      simp only [List.length_take, List.length_cons, List.length_drop] at hlen hrest hmatch
      omega

end replace

private theorem stripLit_suffix {lit s rest : JsString} (h : stripLit lit s = some rest) : rest <:+ s :=
  ⟨lit, (stripLit_eq_some_iff.mp h).symm⟩

private theorem stripLitFold_suffix {lit s rest : JsString} (h : stripLitFold lit s = some rest) : rest <:+ s := by
  rw [stripLitFold] at h
  split at h
  · rw [← Option.some.inj h]
    exact List.drop_suffix _ _
  · simp at h

private theorem stripEnd_suffix {s rest : JsString} (h : stripEnd s = some rest) : rest <:+ s :=
  (stripLit_suffix h).trans (List.dropWhile_suffix _)

private theorem stripIdEnd_suffix {s rest : JsString} (h : stripIdEnd s = some rest) : rest <:+ s := by
  rw [stripIdEnd] at h
  cases hend : stripEnd (s.dropWhile isIdUnit) with
  | some r =>
    obtain rfl : r = rest := by simpa [hend] using h
    exact (stripEnd_suffix hend).trans (List.dropWhile_suffix _)
  | none =>
    have h' : (if endsWith (s.takeWhile isIdUnit) (str "--") then stripLit (str ">") (s.dropWhile isIdUnit)
        else none) = some rest := by simpa [hend] using h
    split at h'
    · exact (stripLit_suffix h').trans (List.dropWhile_suffix _)
    · simp at h'

/-- A match of `REGION_MARKER_RE` begins with `<!--`. -/
theorem regionMarkerAt_eq_some {s : JsString} {n : Nat} {g : Unit} (h : regionMarkerAt s = some (n, g)) :
    ∃ mid rest, s = str "<!--" ++ mid ++ rest ∧ n = (str "<!--" ++ mid).length := by
  simp only [regionMarkerAt, Option.bind_eq_bind, Option.bind_eq_some_iff] at h
  obtain ⟨r₁, hr₁, r₂, hr₂, hn⟩ := h
  obtain rfl := stripLit_eq_some_iff.mp hr₁
  have hsuffix : r₂ <:+ r₁ := by
    refine List.IsSuffix.trans ?_ (List.dropWhile_suffix fun c => isSpace c || c == unit '/')
    generalize r₁.dropWhile (fun c => isSpace c || c == unit '/') = r at hr₂
    simp only [Option.orElse_eq_orElse, Option.orElse_eq_or, Option.or_eq_some_iff, Option.bind_eq_some_iff] at hr₂
    obtain ⟨t, ht, hr₂⟩ | ⟨-, ⟨t, ht, hr₂⟩ | ⟨-, t, ht, hr₂⟩⟩ := hr₂
    · exact (stripIdEnd_suffix hr₂).trans (stripLitFold_suffix ht)
    · exact (stripIdEnd_suffix hr₂).trans (stripLitFold_suffix ht)
    · exact (stripEnd_suffix hr₂).trans (stripLitFold_suffix ht)
  obtain ⟨mid, rfl⟩ := hsuffix
  refine ⟨mid, r₂, by simp, ?_⟩
  simp only [Option.some.injEq, Prod.mk.injEq] at hn
  rw [← hn.1]
  simp only [List.length_append]
  omega

private theorem stripEnd_blank (rest : JsString) : stripEnd (str " -->" ++ rest) = some rest :=
  stripLit_eq_some_iff.mpr rfl

private theorem stripIdEnd_id {id : JsString} (hid : ∀ c ∈ id, isIdUnit c = true) (rest : JsString) :
    stripIdEnd (id ++ (str " -->" ++ rest)) = some rest := by
  have hunits : (id ++ (str " -->" ++ rest)).dropWhile isIdUnit = str " -->" ++ rest :=
    (takeWhile_idUnits hid (by decide) (str "-->" ++ rest)).2
  rw [stripIdEnd, hunits, stripEnd_blank]
  rfl

private theorem stripLitFold_append (lit : JsString) (hlit : lit.map foldCase = lit) (rest : JsString) :
    stripLitFold lit (lit ++ rest) = some rest := by
  rw [stripLitFold, List.map_append, hlit, if_pos (List.isPrefixOf_iff_prefix.mpr (List.prefix_append _ _)),
    List.drop_left]

/-- `REGION_MARKER_RE` matches wherever `MARKER_RE` does. -/
theorem regionMarkerAt_marker {m : Marker} (hm : m.Valid) (rest : JsString) :
    ∃ n, regionMarkerAt (m.text ++ rest) = some (n, ()) := by
  have htag : (str " " ++ (m.core ++ (str " -->" ++ rest))).dropWhile (fun c => isSpace c || c == unit '/') =
      m.tag.text ++ (str " -->" ++ rest) := by
    obtain ⟨close, tag⟩ := m
    obtain ⟨d, w, hd, hcase⟩ : ∃ d w, tag.text = d :: w ∧ (isSpace d || d == unit '/') = false := by
      cases tag with
      | region family id => cases family <;> exact ⟨_, _, rfl, by decide⟩
      | user => exact ⟨_, _, rfl, by decide⟩
    have hstop : (tag.text ++ (str " -->" ++ rest)).dropWhile (fun c => isSpace c || c == unit '/') =
        tag.text ++ (str " -->" ++ rest) := by
      rw [hd, List.cons_append, List.dropWhile_cons, if_neg (by simp [hcase])]
    cases close <;> exact hstop
  have hopen : stripLit (str "<!--") (m.text ++ rest) = some (str " " ++ (m.core ++ (str " -->" ++ rest))) :=
    stripLit_eq_some_iff.mpr (Marker.text_eq m rest)
  simp only [regionMarkerAt, Option.bind_eq_bind, hopen, Option.bind_some, htag]
  obtain ⟨close, tag⟩ := m
  cases tag with
  | region family id =>
    have hend := stripIdEnd_id hm.2 rest
    cases family with
    | kwRegion =>
      have hlit : stripLitFold (str "kw:region:") ((MarkerTag.region .kwRegion id).text ++ (str " -->" ++ rest)) =
          some (id ++ (str " -->" ++ rest)) := by
        have h := stripLitFold_append (str "kw:region:") (by decide) (id ++ (str " -->" ++ rest))
        exact (congrArg _ (List.append_assoc ..)).trans h
      simp [hlit, hend]
    | generated =>
      have hkw : stripLitFold (str "kw:region:") ((MarkerTag.region .generated id).text ++ (str " -->" ++ rest)) = none := by
        rfl
      have hlit : stripLitFold (str "@generated:") ((MarkerTag.region .generated id).text ++ (str " -->" ++ rest)) =
          some (id ++ (str " -->" ++ rest)) := by
        have h := stripLitFold_append (str "@generated:") (by decide) (id ++ (str " -->" ++ rest))
        exact (congrArg _ (List.append_assoc ..)).trans h
      simp [hkw, hlit, hend]
  | user =>
    have hkw : stripLitFold (str "kw:region:") (MarkerTag.user.text ++ (str " -->" ++ rest)) = none := rfl
    have hgen : stripLitFold (str "@generated:") (MarkerTag.user.text ++ (str " -->" ++ rest)) = none := rfl
    have hlit : stripLitFold (str "@user") (MarkerTag.user.text ++ (str " -->" ++ rest)) =
        some (str " -->" ++ rest) := stripLitFold_append _ (by decide) _
    simp [hkw, hgen, hlit, stripEnd_blank]

theorem markerFree_of_regionFree {s : JsString} (h : REGION_MARKER_RE.Free s) : markerLexicon.Free s := by
  intro a m b hm hs
  obtain ⟨n, hn⟩ := regionMarkerAt_marker hm b
  have hnone := h a (m.text ++ b) hs
  change regionMarkerAt (m.text ++ b) = none at hnone
  rw [hn] at hnone
  cases hnone

private def escapeMatch (marker : JsString) : JsString := replaceAll marker (str "<!--") (str "<\\!--")

private theorem region_pos (s : JsString) (n : Nat) (g : Unit) (h : REGION_MARKER_RE.exec s = some (n, g)) : 0 < n := by
  obtain ⟨mid, rest, -, rfl⟩ := regionMarkerAt_eq_some h
  rw [List.length_append]
  exact Nat.add_pos_left (by decide) _

private theorem region_long (s : JsString) (n : Nat) (g : Unit) (h : REGION_MARKER_RE.exec s = some (n, g)) :
    (s.take n).length < (escapeMatch (s.take n)).length := by
  obtain ⟨mid, rest, rfl, rfl⟩ := regionMarkerAt_eq_some h
  rw [List.take_left]
  have hescape : escapeMatch (str "<!--" ++ mid) = str "<\\!--" ++ escapeMatch mid := by
    rw [escapeMatch, replaceAll]
    change replaceAllFrom _ _ 0 (unit '<' :: (str "!--" ++ mid)) = _
    have hpre : (str "<!--").isPrefixOf (unit '<' :: (str "!--" ++ mid)) = true :=
      List.isPrefixOf_iff_prefix.mpr ⟨mid, rfl⟩
    rw [replaceAllFrom, if_pos hpre, replaceAllFrom_skip]
    rfl
  have hmid := (escapes_replaceAll false mid).length_le
  rw [hescape, List.length_append, List.length_append]
  change 4 + _ < 5 + (replaceAll mid _ _).length
  omega

/-- Neutralizing only ever puts backslashes into `<!` pairs. -/
theorem escapes_escapeMarkers (p : Bool) (s : JsString) : Escapes p s (escapeMarkers s) :=
  escapes_replace escapes_replaceAll region_pos p s

/-- A text that a pass leaves alone matches nowhere. -/
theorem regionFree_of_escapeMarkers_eq {s : JsString} (h : escapeMarkers s = s) : REGION_MARKER_RE.Free s :=
  free_of_replace_eq escapes_replaceAll region_pos region_long h

/-- A text that a pass leaves alone holds no marker. -/
theorem free_of_escapeMarkers_eq {s : JsString} (h : escapeMarkers s = s) : markerLexicon.Free s :=
  markerFree_of_regionFree (regionFree_of_escapeMarkers_eq h)

private theorem neutralizeFrom_spec (fuel : Nat) {s : JsString} (hfuel : pairs false s < fuel) :
    escapeMarkers (neutralizeFrom fuel s) = neutralizeFrom fuel s := by
  induction fuel generalizing s with
  | zero => omega
  | succ fuel ih =>
    rw [neutralizeFrom]
    split
    · assumption
    · next hne =>
      refine ih ?_
      have hesc := escapes_escapeMarkers false s
      have hlen : s.length < (escapeMarkers s).length :=
        lt_of_le_of_ne hesc.length_le fun h => hne (hesc.eq_of_length h.symm)
      have hpairs := hesc.length_add_pairs
      omega

/-- The loop ends at a text that a further pass leaves alone. -/
theorem neutralizeRegionMarkers_fixpoint (s : JsString) :
    escapeMarkers (neutralizeRegionMarkers s) = neutralizeRegionMarkers s :=
  neutralizeFrom_spec _ (Nat.lt_succ_of_le (pairs_le_length false s))

/-- Neutralized text holds no region marker. -/
theorem neutralizeRegionMarkers_free (s : JsString) : markerLexicon.Free (neutralizeRegionMarkers s) :=
  free_of_escapeMarkers_eq (neutralizeRegionMarkers_fixpoint s)

theorem escapes_neutralizeRegionMarkers (p : Bool) (s : JsString) : Escapes p s (neutralizeRegionMarkers s) := by
  have hfrom : ∀ fuel s, Escapes p s (neutralizeFrom fuel s) := by
    intro fuel
    induction fuel with
    | zero => exact fun s => .refl p s
    | succ fuel ih =>
      intro s
      rw [neutralizeFrom]
      split
      · exact .refl p s
      · exact (escapes_escapeMarkers p s).trans (ih _)
  exact hfrom _ s

end sow.markdown_vault
