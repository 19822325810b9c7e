import Sow.Domain.Redaction

open sow.js

namespace sow.domain

section nets

/-- The units at the ends of a text stand nowhere in a word, and the word is no part of it. -/
structure Apart (m word : JsString) : Prop where
  first : ∃ e t, m = e :: t ∧ e ∉ word
  last : ∃ t e, m = t ++ [e] ∧ e ∉ word
  part : ¬ word <:+: m

/-- A replacement of such texts keeps the word. -/
private theorem replaceAllFrom_keeps {m word filler : JsString} (h : Apart m word) (a b : JsString) {skip : Nat} (hskip : skip ≤ a.length) :
    ∃ a' b', replaceAllFrom m filler skip (a ++ (word ++ b)) = a' ++ (word ++ b') := by
  obtain ⟨e, t, hfirst, hout⟩ := h.first
  induction a generalizing skip with
  | nil =>
    obtain rfl : skip = 0 := Nat.le_zero.mp hskip
    have hword : ∀ w : JsString, e ∉ w → ∃ b', replaceAllFrom m filler 0 (w ++ b) = w ++ b' := by
      intro w hw
      induction w with
      | nil => exact ⟨_, rfl⟩
      | cons c w ih =>
        obtain ⟨b', hb'⟩ := ih fun hmem => hw (List.mem_cons_of_mem _ hmem)
        refine ⟨b', ?_⟩
        rw [List.cons_append, replaceAllFrom, if_neg, hb', List.cons_append]
        rw [List.isPrefixOf_iff_prefix, hfirst, List.cons_prefix_cons]
        rintro ⟨rfl, -⟩
        exact hw (List.mem_cons_self ..)
    obtain ⟨b', hb'⟩ := hword word hout
    exact ⟨[], b', hb'⟩
  | cons c a ih =>
    cases skip with
    | succ skip => exact ih (Nat.le_of_succ_le_succ hskip)
    | zero =>
      rw [List.cons_append, replaceAllFrom]
      split_ifs with hmatch
      · -- a match that ends behind the start of the word ends in it or holds it
        have hlen : m.length ≤ (c :: a).length := by
          obtain ⟨z, hz⟩ := List.isPrefixOf_iff_prefix.mp hmatch
          rw [← List.cons_append] at hz
          obtain ⟨x, hx, -⟩ | ⟨x, hx, htail⟩ := List.append_eq_append_iff.mp hz
          · rw [hx, List.length_append]
            omega
          · rcases List.append_eq_append_iff.mp htail with ⟨y, hy, -⟩ | ⟨y, hy, -⟩
            · exact absurd ⟨c :: a, y, by rw [hx, hy, List.append_assoc]⟩ h.part
            · obtain ⟨u, d, hlast, hd⟩ := h.last
              cases x using List.reverseRecOn with
              | nil =>
                rw [hx, List.append_nil]
              | append_singleton x f =>
                rw [hlast, ← List.append_assoc] at hx
                obtain ⟨-, hdf⟩ := List.append_inj' hx rfl
                refine absurd ?_ hd
                rw [hy, (List.cons.inj hdf).1]
                simp
        rw [List.length_cons] at hlen
        obtain ⟨a', b', hab⟩ := @ih (m.length - 1) (by omega)
        exact ⟨filler ++ a', b', by rw [hab, List.append_assoc]⟩
      · obtain ⟨a', b', hab⟩ := @ih 0 (Nat.zero_le _)
        exact ⟨c :: a', b', by rw [hab, List.cons_append]⟩

def BEGIN_LINE : JsString := str "-----BEGIN"

private theorem apart_marker {m : JsString} (hm : m ∈ MARKER_LITERALS) : Apart m BEGIN_LINE := by
  have hends : ∀ m ∈ MARKER_LITERALS, m.head? = some (unit '[') ∧ m.getLast? = some (unit ']') ∧ ¬ BEGIN_LINE <:+: m := by decide
  obtain ⟨hhead, hlast, hpart⟩ := hends m hm
  obtain ⟨t, ht⟩ := List.head?_eq_some_iff.mp hhead
  obtain ⟨u, hu⟩ := List.getLast?_eq_some_iff.mp hlast
  exact ⟨⟨_, t, ht, by decide⟩, ⟨u, _, hu, by decide⟩, hpart⟩

theorem stripMarkers_keeps (filler a b : JsString) :
    ∃ a' b', stripMarkers (a ++ (BEGIN_LINE ++ b)) filler = a' ++ (BEGIN_LINE ++ b') := by
  unfold stripMarkers
  have happart : ∀ m ∈ MARKER_LITERALS, Apart m BEGIN_LINE := fun m hm => apart_marker hm
  generalize MARKER_LITERALS = markers at happart
  induction markers generalizing a b with
  | nil => exact ⟨a, b, rfl⟩
  | cons m markers ih =>
    obtain ⟨a', b', hab⟩ := replaceAllFrom_keeps (happart m (List.mem_cons_self ..)) a b (Nat.zero_le _)
    rw [List.foldl_cons, replaceAll, hab]
    exact ih a' b' fun m hm => happart m (List.mem_cons_of_mem _ hm)

theorem searchFrom_append {net : Option UInt16 → JsString → Bool} {s : JsString} (h : ∀ before, net before s = true)
    (before : Option UInt16) (a : JsString) : searchFrom net before (a ++ s) = true := by
  induction a generalizing before with
  | nil =>
    cases s with
    | nil => exact h before
    | cons c s =>
      rw [List.nil_append, searchFrom, h before, Bool.true_or]
  | cons c a ih => rw [List.cons_append, searchFrom, ih, Bool.or_true]

theorem credentialPrefixAt_begin (before : Option UInt16) (b : JsString) : credentialPrefixAt before (BEGIN_LINE ++ b) = true := by
  have hshape : [Piece.lit (str "-----begin")] ∈ CREDENTIAL_SHAPES := by simp [CREDENTIAL_SHAPES]
  have hfold : (BEGIN_LINE ++ b).map foldAscii = str "-----begin" ++ b.map foldAscii := by
    rw [List.map_append]
    congr 1
  simp only [credentialPrefixAt, hfold, Bool.or_eq_true]
  refine .inr (List.any_eq_true.mpr ⟨_, hshape, ?_⟩)
  rw [Piece.exec, Piece.stripLit_eq_some.mpr rfl]
  rfl

/-- A text that begins a PEM block is refused, whatever markers it holds. -/
theorem looksUnsafe_begin (a b : JsString) : looksUnsafe (a ++ (BEGIN_LINE ++ b)) = true := by
  obtain ⟨a', b', hab⟩ := stripMarkers_keeps SPAN_PRESERVING_FILLER a b
  have hnet : CREDENTIAL_PREFIX (a' ++ (BEGIN_LINE ++ b')) = true :=
    searchFrom_append (fun before => credentialPrefixAt_begin before b') none a'
  simp only [looksUnsafe, hab, Bool.or_eq_true]
  exact .inl (List.any_eq_true.mpr ⟨CREDENTIAL_PREFIX, List.mem_cons_self .., hnet⟩)

theorem replacePem_of_safe {t : JsString} (h : looksUnsafe t = false) : replacePem t = t := by
  refine Regex.replace_of_free fun a b hab => ?_
  cases hexec : PEM_BLOCK.exec b with
  | none => rfl
  | some r =>
    obtain ⟨rest, hrest, -⟩ := Option.bind_eq_some_iff.mp hexec
    have hunsafe := looksUnsafe_begin a rest
    rw [BEGIN_LINE, ← Piece.stripLit_eq_some.mp hrest, ← hab, h] at hunsafe
    exact absurd hunsafe (by decide)

end nets

section tokens

/-- A unit of a token. -/
def isTokenUnit (c : UInt16) : Bool := isKeyUnit c || c == unit '.'

theorem within_lit {text : JsString} {p : UInt16 → Bool} (h : text.all p = true) : (Piece.lit text).Within p :=
  fun c hc => List.all_eq_true.mp h c hc

theorem isTokenUnit_of_isAlnum {c : UInt16} (h : isAlnum c = true) : isTokenUnit c = true := by
  simp [isTokenUnit, isKeyUnit, isWord, h]

private theorem isTokenUnit_of_isKeyUnit {c : UInt16} (h : isKeyUnit c = true) : isTokenUnit c = true := by
  simp [isTokenUnit, h]

theorem isTokenUnit_of_contains {marks : JsString} (hmarks : marks.all isTokenUnit = true) {c : UInt16}
    (h : marks.contains c = true) : isTokenUnit c = true := List.all_eq_true.mp hmarks c (List.contains_iff_mem.mp h)

private theorem within_tokenShapes : ∀ pieces ∈ TOKEN_SHAPES, ∀ piece ∈ pieces, Piece.Within isTokenUnit piece := by
  have halnum : ∀ n, (Piece.run isAlnum n).Within isTokenUnit := fun n c hc => isTokenUnit_of_isAlnum hc
  have hkey : ∀ n, (Piece.run isKeyUnit n).Within isTokenUnit := fun n c hc => isTokenUnit_of_isKeyUnit hc
  intro pieces hpieces piece hpiece
  simp only [TOKEN_SHAPES, List.mem_cons, List.not_mem_nil, or_false] at hpieces
  rcases hpieces with rfl | rfl | rfl | rfl | rfl | rfl | rfl | rfl
  · simp only [List.mem_cons, List.not_mem_nil, or_false] at hpiece
    rcases hpiece with rfl | rfl | rfl
    · exact within_lit (by decide)
    · exact fun c hc => isTokenUnit_of_isAlnum hc
    · exact hkey 6
  · simp only [List.mem_cons, List.not_mem_nil, or_false] at hpiece
    rcases hpiece with rfl | rfl
    · exact within_lit (by decide)
    · exact halnum 6
  · simp only [List.mem_cons, List.not_mem_nil, or_false] at hpiece
    rcases hpiece with rfl | rfl
    · exact within_lit (by decide)
    · exact halnum 6
  · simp only [List.mem_cons, List.not_mem_nil, or_false] at hpiece
    rcases hpiece with rfl | rfl | rfl | rfl
    · exact within_lit (by decide)
    · exact fun c hc => isTokenUnit_of_contains (by decide) hc
    · exact within_lit (by decide)
    · intro c hc
      rw [Bool.or_eq_true] at hc
      rcases hc with hc | hc
      · exact isTokenUnit_of_isAlnum hc
      · simp [isTokenUnit, isKeyUnit, hc]
  · simp only [List.mem_cons, List.not_mem_nil, or_false] at hpiece
    rcases hpiece with rfl | rfl | rfl | rfl
    · exact within_lit (by decide)
    · exact fun c hc => isTokenUnit_of_contains (by decide) hc
    · exact within_lit (by decide)
    · exact halnum 20
  · simp only [List.mem_cons, List.not_mem_nil, or_false] at hpiece
    rcases hpiece with rfl | rfl
    · exact within_lit (by decide)
    · intro c hc
      refine isTokenUnit_of_isAlnum ?_
      rw [Bool.or_eq_true] at hc
      simp [isAlnum, hc]
  · simp only [List.mem_cons, List.not_mem_nil, or_false] at hpiece
    rcases hpiece with rfl | rfl | rfl | rfl | rfl | rfl
    · exact within_lit (by decide)
    · exact hkey 6
    · exact within_lit (by decide)
    · exact hkey 6
    · exact within_lit (by decide)
    · exact hkey 1
  · simp only [List.mem_cons, List.not_mem_nil, or_false] at hpiece
    rcases hpiece with rfl | rfl | rfl | rfl
    · exact within_lit (by decide)
    · exact hkey 6
    · exact within_lit (by decide)
    · exact hkey 6

theorem confined_token : CREDENTIAL_TOKEN.Confined isTokenUnit := by
  refine Regex.confined_alternatives within_tokenShapes ?_ ?_
  · intro pieces hpieces
    simp only [TOKEN_SHAPES, List.mem_cons, List.not_mem_nil, or_false] at hpieces
    rcases hpieces with rfl | rfl | rfl | rfl | rfl | rfl | rfl | rfl <;> decide
  · intro pieces hpieces
    simp only [TOKEN_SHAPES, List.mem_cons, List.not_mem_nil, or_false] at hpieces
    rcases hpieces with rfl | rfl | rfl | rfl | rfl | rfl | rfl | rfl <;> exact ⟨_, _, _, rfl⟩

theorem replaceTokens_append {c : UInt16} (hc : isTokenUnit c = false) (a b : JsString) :
    replaceTokens (a ++ c :: b) = replaceTokens a ++ c :: replaceTokens b := confined_token.replace_append hc a b

/-- The markers hold no token, and redaction leaves them. -/
theorem markers_settled :
    (∀ t ∈ REDACTED_CREDENTIAL.tails, CREDENTIAL_TOKEN.exec t = none) ∧ replaceTokens REDACTED_CREDENTIAL = REDACTED_CREDENTIAL ∧
      redactString REDACTED_FIELD = REDACTED_FIELD := by decide +kernel

/-- No token is left, and none is made. -/
theorem free_replaceTokens (s : JsString) : CREDENTIAL_TOKEN.Free (replaceTokens s) := by
  refine @Regex.Confined.free_replace _ _ _ REDACTED_CREDENTIAL confined_token (unit '[') (unit ']') _ _ rfl (by decide)
    (show REDACTED_CREDENTIAL = str "[REDACTED:credential" ++ [unit ']'] from rfl) (by decide) ?_ s
  intro a t hat
  exact markers_settled.1 t ((List.mem_tails t _).mpr ⟨a, hat.symm⟩)

end tokens

section userinfo

/-- What `replaceUserinfo` makes of a segment that follows `//`. -/
def userinfo (g : JsString) : JsString :=
  match Piece.exec USERINFO g with
  | none => g
  | some n => REDACTED_CREDENTIAL ++ str "@" ++ g.drop n

theorem userinfo_none {g : JsString} (h : Piece.exec USERINFO g = none) : userinfo g = g := by rw [userinfo, h]

theorem userinfo_some {g : JsString} {n : Nat} (h : Piece.exec USERINFO g = some n) :
    userinfo g = REDACTED_CREDENTIAL ++ str "@" ++ g.drop n := by rw [userinfo, h]

/-- A userinfo is a name, a `:`, a secret and an `@`. -/
theorem exec_userinfo_iff {g : JsString} {n : Nat} :
    Piece.exec USERINFO g = some n ↔ ∃ u p b, g = u ++ unit ':' :: (p ++ unit '@' :: b) ∧ u ≠ [] ∧ p ≠ [] ∧
      (∀ c ∈ u, isUserUnit c = true) ∧ (∀ c ∈ p, isPassUnit c = true) ∧ n = u.length + (1 + (p.length + 1)) := by
  have hrun : ∀ {q : UInt16 → Bool} {u : JsString} {c : UInt16} {t : JsString}, (∀ d ∈ u, q d = true) → q c = false →
      (u ++ c :: t).takeWhile q = u := by
    intro q u c t hu hc
    rw [List.takeWhile_append_of_pos hu, List.takeWhile_cons_of_neg (by simp [hc]), List.append_nil]
  constructor
  · intro h
    simp only [USERINFO, Piece.exec] at h
    split_ifs at h with huser
    obtain ⟨i, hi, rfl⟩ := Option.map_eq_some_iff.mp h
    obtain ⟨t, ht, hsecret⟩ := Option.bind_eq_some_iff.mp hi
    obtain ⟨j, hj, rfl⟩ := Option.map_eq_some_iff.mp hsecret
    split_ifs at hj with hpass
    obtain ⟨k, hk, rfl⟩ := Option.map_eq_some_iff.mp hj
    obtain ⟨b, hb, hend⟩ := Option.bind_eq_some_iff.mp hk
    obtain ⟨l, hl, rfl⟩ := Option.map_eq_some_iff.mp hend
    obtain rfl := Option.some.inj hl
    have hg := List.prefix_iff_eq_append.mp (List.takeWhile_prefix isUserUnit (l := g))
    rw [Piece.stripLit_eq_some.mp ht] at hg
    have ht' := List.prefix_iff_eq_append.mp (List.takeWhile_prefix isPassUnit (l := t))
    rw [Piece.stripLit_eq_some.mp hb] at ht'
    refine ⟨g.takeWhile isUserUnit, t.takeWhile isPassUnit, b, ?_, ?_, ?_, ?_, ?_, rfl⟩
    · conv_lhs => rw [← hg, ← ht']
      rfl
    · exact List.ne_nil_of_length_pos (by omega)
    · exact List.ne_nil_of_length_pos (by omega)
    · exact fun c hc => List.mem_takeWhile_imp hc
    · exact fun c hc => List.mem_takeWhile_imp hc
  · rintro ⟨u, p, b, rfl, hu, hp, huser, hpass, rfl⟩
    have hulen := List.length_pos_of_ne_nil hu
    have hplen := List.length_pos_of_ne_nil hp
    simp only [USERINFO, Piece.exec]
    rw [hrun huser (by decide), if_pos (by omega), List.drop_left,
      show stripLit (str ":") (unit ':' :: (p ++ unit '@' :: b)) = some (p ++ unit '@' :: b) from Piece.stripLit_eq_some.mpr rfl,
      Option.bind_some, hrun hpass (by decide), if_pos (by omega), List.drop_left,
      show stripLit (str "@") (unit '@' :: b) = some b from Piece.stripLit_eq_some.mpr rfl]
    rfl

/-- Segments, each behind its slash. -/
def slashed (gs : List JsString) : JsString := gs.flatMap (unit '/' :: ·)

/-- `userinfo` on the segments behind an empty one; `after` says whether the last one was. -/
def hosts : Bool → List JsString → List JsString
  | _, [] => []
  | after, g :: gs => (if after then userinfo g else g) :: hosts (g = []) gs

theorem exists_slashed (s : JsString) : ∃ g gs, s = g ++ slashed gs ∧ unit '/' ∉ g ∧ ∀ x ∈ gs, unit '/' ∉ x := by
  induction s with
  | nil => exact ⟨[], [], rfl, List.not_mem_nil, fun x hx => absurd hx List.not_mem_nil⟩
  | cons c s ih =>
    obtain ⟨g, gs, rfl, hg, hgs⟩ := ih
    by_cases hc : c = unit '/'
    · subst hc
      refine ⟨[], g :: gs, rfl, List.not_mem_nil, fun x hx => ?_⟩
      rcases List.mem_cons.mp hx with rfl | hx
      · exact hg
      · exact hgs x hx
    · refine ⟨c :: g, gs, rfl, fun hmem => ?_, hgs⟩
      rcases List.mem_cons.mp hmem with heq | hmem
      · exact hc heq.symm
      · exact hg hmem

theorem slashed_cons (g : JsString) (gs : List JsString) : slashed (g :: gs) = unit '/' :: (g ++ slashed gs) := List.flatMap_cons

theorem slashed_append (gs gs' : List JsString) : slashed (gs ++ gs') = slashed gs ++ slashed gs' := List.flatMap_append

/-- A text has one reading as segments. -/
theorem slashed_inj {g g' : JsString} {gs gs' : List JsString} (hg : unit '/' ∉ g) (hg' : unit '/' ∉ g')
    (hgs : ∀ x ∈ gs, unit '/' ∉ x) (hgs' : ∀ x ∈ gs', unit '/' ∉ x) (h : g ++ slashed gs = g' ++ slashed gs') : g = g' ∧ gs = gs' := by
  have hshort : ∀ {g g' x : JsString} {gs : List JsString}, unit '/' ∉ g → g ≠ g' ++ slashed (x :: gs) := by
    intro g g' x gs hg heq
    refine hg ?_
    rw [heq, slashed_cons]
    simp
  induction gs generalizing g g' gs' with
  | nil =>
    cases gs' with
    | nil =>
      rw [slashed, List.flatMap_nil, List.append_nil, List.append_nil] at h
      exact ⟨h, rfl⟩
    | cons x' gs' =>
      rw [slashed, List.flatMap_nil, List.append_nil] at h
      exact absurd h (hshort hg)
  | cons x gs ih =>
    cases gs' with
    | nil =>
      rw [@slashed.eq_1 [], List.flatMap_nil, List.append_nil] at h
      exact absurd h.symm (hshort hg')
    | cons x' gs' =>
      rw [slashed_cons, slashed_cons] at h
      obtain ⟨rfl, hrest⟩ := field_inj hg hg' h
      obtain ⟨rfl, rfl⟩ := ih (hgs x (List.mem_cons_self ..)) (hgs' x' (List.mem_cons_self ..))
        (fun y hy => hgs y (List.mem_cons_of_mem _ hy)) (fun y hy => hgs' y (List.mem_cons_of_mem _ hy)) hrest
      exact ⟨rfl, rfl⟩

def notSlash (c : UInt16) : Bool := c != unit '/'

/-- A userinfo ends before the next slash. -/
theorem exec_userinfo_slashed {g : JsString} (hg : unit '/' ∉ g) (gs : List JsString) :
    Piece.exec USERINFO (g ++ slashed gs) = Piece.exec USERINFO g := by
  have hwithin : ∀ piece ∈ USERINFO, Piece.Within notSlash piece := by
    intro piece hpiece
    simp only [USERINFO, List.mem_cons, List.not_mem_nil, or_false] at hpiece
    rcases hpiece with rfl | rfl | rfl | rfl
    · intro c hc
      simp only [isUserUnit, Bool.and_eq_true] at hc
      exact hc.1.1.1
    · exact fun c hc => List.all_eq_true.mp (show (str ":").all notSlash = true by decide) c hc
    · intro c hc
      simp only [isPassUnit, Bool.and_eq_true] at hc
      exact hc.1.1
    · exact fun c hc => List.all_eq_true.mp (show (str "@").all notSlash = true by decide) c hc
  have hpass : ∀ c ∈ g, notSlash c = true := fun c hc => by
    rw [notSlash, bne_iff_ne]
    rintro rfl
    exact hg hc
  have hrest : (slashed gs).takeWhile notSlash = [] := by
    cases gs with
    | nil => rfl
    | cons x gs => rw [slashed_cons, List.takeWhile_cons_of_neg (by decide)]
  rw [← Piece.exec_takeWhile hwithin, List.takeWhile_append_of_pos hpass, hrest, List.append_nil]

theorem exec_url (s : JsString) :
    URL_USERINFO_SEGMENT.exec s = ((stripLit (str "//") s).bind fun t => (Piece.exec USERINFO t).map (2 + ·)).map fun n => (n, ()) := by
  rw [URL_USERINFO_SEGMENT, alternatives]
  dsimp only
  rw [List.findSome?_singleton, Piece.exec]
  rfl

private theorem replaceUserinfo_segment {g : JsString} (hg : unit '/' ∉ g) (s : JsString) :
    replaceUserinfo (g ++ s) = g ++ replaceUserinfo s := by
  induction g with
  | nil => rfl
  | cons c g ih =>
    have hc : c ≠ unit '/' := fun heq => hg (heq ▸ List.mem_cons_self ..)
    have hstrip : stripLit (str "//") (c :: (g ++ s)) = none := by
      cases hexec : stripLit (str "//") (c :: (g ++ s)) with
      | none => rfl
      | some t => exact absurd (List.cons.inj (Piece.stripLit_eq_some.mp hexec)).1 hc
    have hnone : URL_USERINFO_SEGMENT.exec (c :: (g ++ s)) = none := by
      rw [exec_url, hstrip]
      rfl
    rw [List.cons_append, replaceUserinfo, Regex.replace_cons_none hnone, List.cons_append]
    exact congrArg (c :: ·) (ih fun hmem => hg (List.mem_cons_of_mem _ hmem))

/-- A userinfo is replaced in the segments that follow `//`, and nowhere else. -/
theorem replaceUserinfo_slashed {gs : List JsString} (hgs : ∀ x ∈ gs, unit '/' ∉ x) :
    replaceUserinfo (slashed gs) = slashed (hosts false gs) := by
  induction hlen : gs.length using Nat.strong_induction_on generalizing gs with
  | _ n ih =>
    subst hlen
    cases gs with
    | nil => rfl
    | cons g gs =>
      have hg := hgs g (List.mem_cons_self ..)
      have hrest : ∀ x ∈ gs, unit '/' ∉ x := fun x hx => hgs x (List.mem_cons_of_mem _ hx)
      have hstep : URL_USERINFO_SEGMENT.exec (unit '/' :: (g ++ slashed gs)) = none →
          replaceUserinfo (slashed (g :: gs)) = unit '/' :: (g ++ slashed (hosts false gs)) := by
        intro hnone
        rw [slashed_cons, replaceUserinfo, Regex.replace_cons_none hnone]
        refine congrArg (unit '/' :: ·) ((replaceUserinfo_segment hg _).trans ?_)
        rw [ih gs.length (by simp) hrest rfl]
      rw [hosts, if_neg (by decide)]
      cases g with
      | cons c g =>
        have hstrip : stripLit (str "//") (unit '/' :: ((c :: g) ++ slashed gs)) = none := by
          cases hexec : stripLit (str "//") (unit '/' :: ((c :: g) ++ slashed gs)) with
          | none => rfl
          | some t =>
            refine absurd ?_ hg
            have hsecond := (List.cons.inj (List.cons.inj (Piece.stripLit_eq_some.mp hexec)).2).1
            exact hsecond ▸ List.mem_cons_self ..
        rw [hstep (by rw [exec_url, hstrip]; rfl), decide_eq_false (List.cons_ne_nil c g), slashed_cons]
      | nil =>
        rw [decide_eq_true rfl]
        cases gs with
        | nil => rfl
        | cons g gs =>
          have hexec : URL_USERINFO_SEGMENT.exec (unit '/' :: ([] ++ slashed (g :: gs))) =
              ((Piece.exec USERINFO g).map (2 + ·)).map fun n => (n, ()) := by
            have hstrip : stripLit (str "//") (unit '/' :: ([] ++ slashed (g :: gs))) = some (g ++ slashed gs) :=
              Piece.stripLit_eq_some.mpr (by rw [slashed_cons]; rfl)
            rw [exec_url, hstrip, Option.bind_some, exec_userinfo_slashed (hrest g (List.mem_cons_self ..))]
          cases huser : Piece.exec USERINFO g with
          | none =>
            rw [hstep (by rw [hexec, huser]; rfl), hosts, if_neg (by decide), hosts, if_pos rfl, userinfo_none huser,
              slashed_cons, slashed_cons, slashed_cons]
          | some n =>
            have hle := Piece.exec_le huser
            have hmatch : URL_USERINFO_SEGMENT.exec ((str "//" ++ g.take n) ++ (g.drop n ++ slashed gs)) =
                some ((str "//" ++ g.take n).length, ()) := by
              have htext : (str "//" ++ g.take n) ++ (g.drop n ++ slashed gs) = unit '/' :: ([] ++ slashed (g :: gs)) := by
                rw [slashed_cons, List.append_assoc, ← List.append_assoc (g.take n), List.take_append_drop]
                rfl
              rw [htext, hexec, huser, List.length_append, List.length_take, Nat.min_eq_left hle]
              rfl
            have hdrop : unit '/' ∉ g.drop n := fun hmem => hrest g (List.mem_cons_self ..) (List.mem_of_mem_drop hmem)
            have htext : slashed ([] :: g :: gs) = (str "//" ++ g.take n) ++ (g.drop n ++ slashed gs) := by
              rw [slashed_cons, slashed_cons, List.append_assoc, ← List.append_assoc (g.take n), List.take_append_drop]
              rfl
            have hne : g ≠ [] := by
              obtain ⟨u, p, b, rfl, hu, -⟩ := exec_userinfo_iff.mp huser
              simp
            rw [htext, replaceUserinfo, Regex.replace_match (by simp [str]) hmatch]
            have hseg := replaceUserinfo_segment hdrop (slashed gs)
            rw [ih gs.length (by simp) (fun x hx => hrest x (List.mem_cons_of_mem _ hx)) rfl] at hseg
            rw [← replaceUserinfo, hseg, hosts, if_pos rfl, userinfo_some huser, decide_eq_false hne, slashed_cons, slashed_cons]
            simp [str, unit]

end userinfo

section settled

/-- The replacements of the tokens of a text, of which the first is at hand. -/
theorem replaceTokens_cases (s : JsString) :
    replaceTokens s = s ∨ ∃ x m y, s = x ++ m ++ y ∧ m ≠ [] ∧ replaceTokens s = x ++ REDACTED_CREDENTIAL ++ replaceTokens y := by
  induction s with
  | nil => exact .inl rfl
  | cons c s ih =>
    cases hexec : CREDENTIAL_TOKEN.exec (c :: s) with
    | none =>
      have hkeep : replaceTokens (c :: s) = c :: replaceTokens s := Regex.replace_cons_none hexec
      rcases ih with hsame | ⟨x, m, y, rfl, hm, hfirst⟩
      · exact .inl (by rw [hkeep, hsame])
      · exact .inr ⟨c :: x, m, y, rfl, hm, by rw [hkeep, hfirst]; rfl⟩
    | some r =>
      obtain ⟨n, g⟩ := r
      obtain ⟨hpos, hle⟩ := confined_token.bounds _ _ _ hexec
      refine .inr ⟨[], (c :: s).take n, (c :: s).drop n, (List.take_append_drop n (c :: s)).symm, ?_, ?_⟩
      · exact List.ne_nil_of_length_pos (by rw [List.length_take]; omega)
      · have hsplit := List.take_append_drop n (c :: s)
        rw [← hsplit] at hexec
        have hlen : ((c :: s).take n).length = n := by rw [List.length_take, Nat.min_eq_left hle]
        have hmatch := @Regex.replace_match _ CREDENTIAL_TOKEN (fun _ => REDACTED_CREDENTIAL) _ _ g
          (List.ne_nil_of_length_pos (by omega)) (hexec.trans (by rw [hlen]))
        rw [hsplit] at hmatch
        exact hmatch

/-- A unit that a replacement takes away is a unit of a token. -/
theorem mem_replaceTokens_or {c : UInt16} {s : JsString} (h : c ∈ s) : c ∈ replaceTokens s ∨ isTokenUnit c = true := by
  by_cases hc : isTokenUnit c = true
  · exact .inr hc
  · obtain ⟨a, b, rfl⟩ := List.append_of_mem h
    rw [replaceTokens_append (by simpa using hc)]
    exact .inl (List.mem_append_right _ (List.mem_cons_self ..))

theorem mem_of_mem_replaceTokens {c : UInt16} {s : JsString} (h : c ∈ replaceTokens s) : c ∈ s ∨ c ∈ REDACTED_CREDENTIAL :=
  Regex.mem_of_mem_replace confined_token.pos h

theorem replaceTokens_eq_nil_iff {s : JsString} : replaceTokens s = [] ↔ s = [] := by
  constructor
  · intro h
    rcases replaceTokens_cases s with hsame | ⟨x, m, y, -, -, hfirst⟩
    · rw [← hsame, h]
    · rw [hfirst] at h
      exact absurd h (by simp [REDACTED_CREDENTIAL, str])
  · rintro rfl
    rfl

theorem replaceTokens_marker (b : JsString) :
    replaceTokens (REDACTED_CREDENTIAL ++ str "@" ++ b) = REDACTED_CREDENTIAL ++ str "@" ++ replaceTokens b := by
  have hquiet := markers_settled.2.1
  have happend := @replaceTokens_append (unit '@') (by decide) REDACTED_CREDENTIAL b
  rw [hquiet] at happend
  rw [List.append_assoc, List.append_assoc]
  exact happend

theorem userinfo_marker (b : JsString) : userinfo (REDACTED_CREDENTIAL ++ str "@" ++ b) = REDACTED_CREDENTIAL ++ str "@" ++ b := by
  have hexec : Piece.exec USERINFO (REDACTED_CREDENTIAL ++ str "@" ++ b) = some 22 :=
    exec_userinfo_iff.mpr ⟨str "[REDACTED", str "credential]", b, rfl, by decide, by decide, by decide, by decide, by decide⟩
  rw [userinfo_some hexec]
  rfl

/-- A segment that a second pass leaves as the first one made it. -/
def Settled (g : JsString) : Prop := userinfo (replaceTokens (userinfo g)) = replaceTokens (userinfo g)

/-- A segment in which a token stands, with more around it, in the place of a name:
    before an `@`, and without a secret of its own. -/
def Exposes (g : JsString) : Prop :=
  ∃ h b, g = h ++ unit '@' :: b ∧ (∀ c ∈ h, isPassUnit c = true) ∧ unit ':' ∉ h.dropLast ∧
    replaceTokens h ≠ h ∧ replaceTokens h ≠ REDACTED_CREDENTIAL

private theorem isPassUnit_of_isTokenUnit {c : UInt16} (h : isTokenUnit c = true) : isPassUnit c = true := by
  have hplain : isSpace c = false ∧ c ≠ unit '/' ∧ c ≠ unit '@' := by
    simp only [isTokenUnit, isKeyUnit, isWord, isAlnum, isDigit, isUpper, isLower, Bool.or_eq_true, Bool.and_eq_true, decide_eq_true_eq,
      beq_iff_eq] at h
    rcases h with (((h | h) | rfl) | rfl) | rfl
    · refine ⟨?_, ?_, ?_⟩
      · simp [isSpace]
        omega
      · rintro rfl
        exact absurd h (by decide)
      · rintro rfl
        exact absurd h (by decide)
    · refine ⟨?_, ?_, ?_⟩
      · simp [isSpace]
        omega
      · rintro rfl
        exact absurd h (by decide)
      · rintro rfl
        exact absurd h (by decide)
    · decide
    · decide
    · decide
  simp [isPassUnit, hplain]

private theorem isUserUnit_iff {c : UInt16} : isUserUnit c = true ↔ isPassUnit c = true ∧ c ≠ unit ':' := by
  simp only [isUserUnit, isPassUnit, Bool.and_eq_true, bne_iff_ne]
  tauto

theorem not_settled_of_exposes {g : JsString} (hexposes : Exposes g) : ¬ Settled g := by
  obtain ⟨h, b, rfl, hpass, hcolon, htoken, hmarker⟩ := hexposes
  have hat : ∀ {s : JsString}, (∀ c ∈ s, isPassUnit c = true) → unit '@' ∉ s := fun hs hmem => absurd (hs _ hmem) (by decide)
  have hnone : Piece.exec USERINFO (h ++ unit '@' :: b) = none := by
    cases hexec : Piece.exec USERINFO (h ++ unit '@' :: b) with
    | none => rfl
    | some n =>
      obtain ⟨u, p, b', hg, -, hp, huser, hpass', -⟩ := exec_userinfo_iff.mp hexec
      rw [← List.cons_append, ← List.append_assoc] at hg
      have hnoat : unit '@' ∉ u ++ unit ':' :: p := by
        refine hat fun c hc => ?_
        rcases List.mem_append.mp hc with hc | hc
        · exact (isUserUnit_iff.mp (huser c hc)).1
        · rcases List.mem_cons.mp hc with rfl | hc
          · decide
          · exact hpass' c hc
      obtain ⟨rfl, -⟩ := field_inj (hat hpass) hnoat hg
      refine absurd ?_ hcolon
      rw [List.dropLast_append_of_ne_nil (List.cons_ne_nil _ _), List.dropLast_cons_of_ne_nil hp]
      simp
  obtain ⟨x, m, y, hsplit, hm, hfirst⟩ := (replaceTokens_cases h).resolve_left htoken
  have hx : ∀ c ∈ x, isUserUnit c = true := by
    intro c hc
    have hmem : c ∈ h.dropLast := by
      rw [hsplit, List.append_assoc, List.dropLast_append_of_ne_nil (by simp [hm])]
      exact List.mem_append_left _ hc
    refine isUserUnit_iff.mpr ⟨hpass c (List.mem_of_mem_dropLast hmem), ?_⟩
    rintro rfl
    exact hcolon hmem
  have hexec : Piece.exec USERINFO (replaceTokens h ++ unit '@' :: replaceTokens b) = some (replaceTokens h ++ [unit '@']).length := by
    refine exec_userinfo_iff.mpr ⟨x ++ str "[REDACTED", str "credential]" ++ replaceTokens y, replaceTokens b, ?_, by simp [str], by simp [str],
      ?_, ?_, ?_⟩
    · rw [hfirst]
      simp [REDACTED_CREDENTIAL, str, unit]
    · intro c hc
      rcases List.mem_append.mp hc with hc | hc
      · exact hx c hc
      · exact List.all_eq_true.mp (show (str "[REDACTED").all isUserUnit = true by decide) c hc
    · intro c hc
      have hmarks : ∀ c ∈ REDACTED_CREDENTIAL, isPassUnit c = true := by decide
      rcases List.mem_append.mp hc with hc | hc
      · exact List.all_eq_true.mp (show (str "credential]").all isPassUnit = true by decide) c hc
      · rcases mem_of_mem_replaceTokens hc with hc | hc
        · exact hpass c (by rw [hsplit]; exact List.mem_append_right _ hc)
        · exact hmarks c hc
    · rw [hfirst]
      simp [REDACTED_CREDENTIAL, str]
      omega
  intro hsettled
  rw [Settled, userinfo_none hnone, replaceTokens_append (by decide), userinfo_some hexec] at hsettled
  have hdrop : (replaceTokens h ++ unit '@' :: replaceTokens b).drop (replaceTokens h ++ [unit '@']).length = replaceTokens b := by
    rw [show replaceTokens h ++ unit '@' :: replaceTokens b = (replaceTokens h ++ [unit '@']) ++ replaceTokens b by simp, List.drop_left]
  rw [hdrop] at hsettled
  have hfields : REDACTED_CREDENTIAL ++ unit '@' :: replaceTokens b = replaceTokens h ++ unit '@' :: replaceTokens b := by
    simpa [str, unit] using hsettled
  exact hmarker (List.append_cancel_right hfields).symm

theorem settled_of_not_exposes {g : JsString} (hexposes : ¬ Exposes g) : Settled g := by
  unfold Settled
  cases huser : Piece.exec USERINFO g with
  | some n => rw [userinfo_some huser, replaceTokens_marker, userinfo_marker]
  | none =>
    rw [userinfo_none huser]
    cases htwice : Piece.exec USERINFO (replaceTokens g) with
    | none => exact userinfo_none htwice
    | some n =>
      obtain ⟨u, p, b', hg', hu, hp, huunit, hpunit, -⟩ := exec_userinfo_iff.mp htwice
      rw [← List.cons_append, ← List.append_assoc] at hg'
      have hpass' : ∀ c ∈ u ++ unit ':' :: p, isPassUnit c = true := by
        intro c hc
        rcases List.mem_append.mp hc with hc | hc
        · exact (isUserUnit_iff.mp (huunit c hc)).1
        · rcases List.mem_cons.mp hc with rfl | hc
          · decide
          · exact hpunit c hc
      have hnoat : unit '@' ∉ u ++ unit ':' :: p := fun hmem => absurd (hpass' _ hmem) (by decide)
      -- the `@` of the second pass is the first `@` of the segment
      have hatmem : unit '@' ∈ g := by
        have hmem : unit '@' ∈ replaceTokens g := by
          rw [hg']
          exact List.mem_append_right _ (List.mem_cons_self ..)
        exact (mem_of_mem_replaceTokens hmem).resolve_right (by decide)
      obtain ⟨h, b, rfl, hfirst⟩ := List.eq_append_cons_of_mem hatmem
      rw [replaceTokens_append (by decide)] at hg'
      have hfirst' : unit '@' ∉ replaceTokens h := fun hmem =>
        (mem_of_mem_replaceTokens hmem).elim hfirst (by decide)
      obtain ⟨hh, -⟩ := field_inj hfirst' hnoat hg'
      have hpass : ∀ c ∈ h, isPassUnit c = true := fun c hc =>
        (mem_replaceTokens_or hc).elim (fun hmem => hpass' c (hh ▸ hmem)) isPassUnit_of_isTokenUnit
      have hcolon : unit ':' ∉ h.dropLast := by
        intro hmem
        obtain ⟨x, z, hx, hxcolon⟩ := List.eq_append_cons_of_mem hmem
        obtain ⟨l, e, rfl⟩ : ∃ l e, h = l ++ [e] := by
          cases h using List.reverseRecOn with
          | nil => exact absurd hmem List.not_mem_nil
          | append_singleton l e => exact ⟨l, e, rfl⟩
        rw [List.dropLast_concat] at hx
        subst hx
        by_cases hxnil : x = []
        · subst hxnil
          rw [List.nil_append, List.cons_append, ← List.nil_append (unit ':' :: _), replaceTokens_append (by decide)] at hh
          obtain ⟨c, u, rfl⟩ := List.exists_cons_of_ne_nil hu
          have hc : unit ':' = c := (List.cons.inj hh).1
          exact absurd (huunit c (List.mem_cons_self ..)) (hc ▸ by decide)
        · refine absurd huser ?_
          have hsome : Piece.exec USERINFO (x ++ unit ':' :: z ++ [e] ++ unit '@' :: b) = some (x.length + (1 + ((z ++ [e]).length + 1))) := by
            refine exec_userinfo_iff.mpr ⟨x, z ++ [e], b, by simp, hxnil, by simp, fun c hc => ?_, fun c hc => hpass c (by simp at hc ⊢; tauto), rfl⟩
            refine isUserUnit_iff.mpr ⟨hpass c (by simp [hc]), ?_⟩
            rintro rfl
            exact hxcolon hc
          rw [hsome]
          exact Option.some_ne_none _
      by_cases hsame : replaceTokens h = h
      · refine absurd huser ?_
        have hsome : Piece.exec USERINFO (h ++ unit '@' :: b) = some (u.length + (1 + (p.length + 1))) :=
          exec_userinfo_iff.mpr ⟨u, p, b, by rw [← hsame, hh]; simp, hu, hp, huunit, hpunit, rfl⟩
        rw [hsome]
        exact Option.some_ne_none _
      · by_cases hwhole : replaceTokens h = REDACTED_CREDENTIAL
        · have hmarked : replaceTokens (h ++ unit '@' :: b) = REDACTED_CREDENTIAL ++ str "@" ++ replaceTokens b := by
            rw [replaceTokens_append (by decide), hwhole, List.append_assoc]
            rfl
          rw [hmarked, userinfo_marker]
        · exact absurd ⟨h, b, rfl, hpass, hcolon, hsame, hwhole⟩ hexposes

end settled

section idempotence

/-- A property of every segment that follows `//`; `after` says whether the last one was empty. -/
def Following (P : JsString → Prop) : Bool → List JsString → Prop
  | _, [] => True
  | after, g :: gs => (after = true → P g) ∧ Following P (g = []) gs

theorem following_append {P : JsString → Prop} {g : JsString} (pre post : List JsString) (after : Bool)
    (h : Following P after (pre ++ [] :: g :: post)) : P g := by
  induction pre generalizing after with
  | nil => exact h.2.1 (decide_eq_true rfl)
  | cons x pre ih => exact ih _ h.2

theorem following_of_forall {P : JsString → Prop} {gs : List JsString} {after : Bool} (hfirst : after = true → ∀ g, gs.head? = some g → P g)
    (h : ∀ pre g post, gs = pre ++ [] :: g :: post → P g) : Following P after gs := by
  induction gs generalizing after with
  | nil => trivial
  | cons g gs ih =>
    refine ⟨fun hafter => hfirst hafter g rfl, ih (fun hnil x hx => ?_) fun pre x post heq => ?_⟩
    · obtain ⟨post, rfl⟩ := List.head?_eq_some_iff.mp hx
      refine h [] x post ?_
      rw [of_decide_eq_true hnil, List.nil_append]
    · exact h (g :: pre) x post (by rw [heq, List.cons_append])

/-- The segments of the scrubbed text. -/
def settledSegments (gs : List JsString) : List JsString := (hosts false gs).map replaceTokens

theorem userinfo_eq_nil_iff {g : JsString} : userinfo g = [] ↔ g = [] := by
  unfold userinfo
  cases hexec : Piece.exec USERINFO g with
  | none => exact Iff.rfl
  | some n =>
    obtain ⟨u, p, b, rfl, -⟩ := exec_userinfo_iff.mp hexec
    simp [REDACTED_CREDENTIAL, str]

/-- A second pass over the userinfos changes nothing exactly when all segments are settled. -/
theorem hosts_twice_iff (gs : List JsString) (after : Bool) :
    hosts after ((hosts after gs).map replaceTokens) = (hosts after gs).map replaceTokens ↔ Following Settled after gs := by
  induction gs generalizing after with
  | nil => exact iff_of_true rfl trivial
  | cons g gs ih =>
    have hempty : ∀ x, (x = g ∨ x = userinfo g) → decide (replaceTokens x = []) = decide (g = []) := by
      rintro x (rfl | rfl)
      · exact decide_eq_decide.mpr replaceTokens_eq_nil_iff
      · exact decide_eq_decide.mpr (replaceTokens_eq_nil_iff.trans userinfo_eq_nil_iff)
    rw [hosts, List.map_cons, hosts, Following]
    cases after with
    | true =>
      rw [if_pos rfl, if_pos rfl, hempty _ (.inr rfl), List.cons.injEq, ih]
      exact and_congr_left fun _ => ⟨fun h _ => h, fun h => h rfl⟩
    | false =>
      rw [if_neg (by decide), if_neg (by decide), hempty _ (.inl rfl), List.cons.injEq, ih]
      exact and_congr_left fun _ => ⟨fun _ h => absurd h (by decide), fun _ => rfl⟩

theorem slashFree_userinfo {g : JsString} (hg : unit '/' ∉ g) : unit '/' ∉ userinfo g := by
  unfold userinfo
  cases Piece.exec USERINFO g with
  | none => exact hg
  | some n =>
    intro hmem
    rcases List.mem_append.mp hmem with hmem | hmem
    · exact absurd hmem (by decide)
    · exact hg (List.mem_of_mem_drop hmem)

theorem slashFree_replaceTokens {g : JsString} (hg : unit '/' ∉ g) : unit '/' ∉ replaceTokens g := fun hmem =>
  (mem_of_mem_replaceTokens hmem).elim hg (by decide)

theorem slashFree_hosts {gs : List JsString} (hgs : ∀ x ∈ gs, unit '/' ∉ x) (after : Bool) : ∀ x ∈ hosts after gs, unit '/' ∉ x := by
  induction gs generalizing after with
  | nil => exact fun x hx => absurd hx List.not_mem_nil
  | cons g gs ih =>
    intro x hx
    have hg := hgs g (List.mem_cons_self ..)
    rcases List.mem_cons.mp hx with rfl | hx
    · split_ifs
      · exact slashFree_userinfo hg
      · exact hg
    · exact ih (fun y hy => hgs y (List.mem_cons_of_mem _ hy)) _ x hx

theorem replaceTokens_slashed (g : JsString) (gs : List JsString) :
    replaceTokens (g ++ slashed gs) = replaceTokens g ++ slashed (gs.map replaceTokens) := by
  induction gs generalizing g with
  | nil => rw [slashed, List.flatMap_nil, List.map_nil, List.append_nil, slashed, List.flatMap_nil, List.append_nil]
  | cons x gs ih => rw [slashed_cons, replaceTokens_append (by decide), ih, List.map_cons, slashed_cons]

/-- A pass over the userinfos of a text without tokens makes no token. -/
theorem replaceTokens_hosts {gs : List JsString} (hfree : ∀ x ∈ gs, CREDENTIAL_TOKEN.Free x) (after : Bool) :
    (hosts after gs).map replaceTokens = hosts after gs := by
  induction gs generalizing after with
  | nil => rfl
  | cons g gs ih =>
    have hg := hfree g (List.mem_cons_self ..)
    have hself : replaceTokens g = g := Regex.replace_of_free hg
    have huser : replaceTokens (userinfo g) = userinfo g := by
      unfold userinfo
      cases Piece.exec USERINFO g with
      | none => exact hself
      | some n =>
        have hdrop : CREDENTIAL_TOKEN.Free (g.drop n) := fun a b hab =>
          hg (g.take n ++ a) b (by rw [List.append_assoc, ← hab, List.take_append_drop])
        dsimp only
        rw [replaceTokens_marker, show replaceTokens (g.drop n) = g.drop n from Regex.replace_of_free hdrop]
    rw [hosts, List.map_cons, ih fun x hx => hfree x (List.mem_cons_of_mem _ hx)]
    split_ifs
    · rw [huser]
    · rw [hself]

/-- A token with more around it stands, as a name, between `//` and `@`. -/
def ExposedToken (s : JsString) : Prop :=
  ∃ a h b, s = a ++ (str "//" ++ (h ++ unit '@' :: b)) ∧ (∀ c ∈ h, isPassUnit c = true) ∧ unit ':' ∉ h.dropLast ∧
    replaceTokens h ≠ h ∧ replaceTokens h ≠ REDACTED_CREDENTIAL

theorem exposedToken_iff {g : JsString} {gs : List JsString} (hg : unit '/' ∉ g) (hgs : ∀ x ∈ gs, unit '/' ∉ x) :
    ExposedToken (g ++ slashed gs) ↔ ¬ Following Settled false gs := by
  constructor
  · rintro ⟨a, h, b, hsplit, hpass, hcolon, htoken, hmarker⟩ hall
    obtain ⟨a0, as, rfl, ha0, has⟩ := exists_slashed a
    obtain ⟨b0, bs, rfl, hb0, hbs⟩ := exists_slashed b
    have hsegment : unit '/' ∉ h ++ unit '@' :: b0 := by
      intro hmem
      rcases List.mem_append.mp hmem with hmem | hmem
      · exact absurd (hpass _ hmem) (by decide)
      · rcases List.mem_cons.mp hmem with heq | hmem
        · exact absurd heq (by decide)
        · exact hb0 hmem
    have htext : g ++ slashed gs = a0 ++ slashed (as ++ [] :: (h ++ unit '@' :: b0) :: bs) := by
      rw [hsplit, slashed_append, slashed_cons, slashed_cons]
      simp [str, unit]
    obtain ⟨-, rfl⟩ := slashed_inj hg ha0 hgs (by
      intro x hx
      rcases List.mem_append.mp hx with hx | hx
      · exact has x hx
      · rcases List.mem_cons.mp hx with rfl | hx
        · exact List.not_mem_nil
        · rcases List.mem_cons.mp hx with rfl | hx
          · exact hsegment
          · exact hbs x hx) htext
    exact not_settled_of_exposes ⟨h, b0, rfl, hpass, hcolon, htoken, hmarker⟩ (following_append _ _ _ hall)
  · intro hnot
    by_contra hexposed
    refine hnot (following_of_forall (fun h => absurd h (by decide)) fun pre x post heq => settled_of_not_exposes ?_)
    rintro ⟨h, b, rfl, hrest⟩
    refine hexposed ⟨g ++ slashed pre, h, b ++ slashed post, ?_, hrest⟩
    rw [heq, slashed_append, slashed_cons, slashed_cons]
    simp [str, unit]

/-- A second pass over the userinfos of a scrubbed text, and one over its tokens. -/
theorem scrub_twice (s : JsString) :
    (replaceUserinfo (scrub s) = scrub s ↔ ¬ ExposedToken (replacePem s)) ∧
      replaceTokens (replaceUserinfo (scrub s)) = replaceUserinfo (scrub s) := by
  obtain ⟨g, gs, hsplit, hg, hgs⟩ := exists_slashed (replacePem s)
  have hsegments : ∀ {g : JsString} {gs : List JsString}, unit '/' ∉ g → (∀ x ∈ gs, unit '/' ∉ x) →
      replaceUserinfo (g ++ slashed gs) = g ++ slashed (hosts false gs) := fun hg hgs => by
    rw [replaceUserinfo_segment hg, replaceUserinfo_slashed hgs]
  have hscrub : scrub s = replaceTokens g ++ slashed ((hosts false gs).map replaceTokens) := by
    rw [scrub, hsplit, hsegments hg hgs, replaceTokens_slashed]
  have hg' := slashFree_replaceTokens hg
  have hgs' : ∀ x ∈ (hosts false gs).map replaceTokens, unit '/' ∉ x := by
    intro x hx
    obtain ⟨y, hy, rfl⟩ := List.mem_map.mp hx
    exact slashFree_replaceTokens (slashFree_hosts hgs false y hy)
  have hfree : ∀ x ∈ (hosts false gs).map replaceTokens, CREDENTIAL_TOKEN.Free x := by
    intro x hx
    obtain ⟨y, -, rfl⟩ := List.mem_map.mp hx
    exact free_replaceTokens y
  rw [hscrub, hsegments hg' hgs', hsplit, exposedToken_iff hg hgs, not_not, ← hosts_twice_iff]
  constructor
  · constructor
    · exact fun h => (slashed_inj hg' hg' (slashFree_hosts hgs' false) hgs' h).2
    · exact fun h => by rw [h]
  · rw [replaceTokens_slashed, replaceTokens_hosts hfree, show replaceTokens (replaceTokens g) = replaceTokens g from
      Regex.replace_of_free (free_replaceTokens g)]

theorem redactString_field : redactString REDACTED_FIELD = REDACTED_FIELD := markers_settled.2.2

/-- Every output is safe; a second pass changes it exactly when it is not dropped and a
    token with more around it stood in the place of a user's name. -/
theorem redactString_safe_idempotent_iff (s : JsString) :
    isRedactionSafe (redactString s) = true ∧
    (redactString (redactString s) = redactString s ↔ looksUnsafe (scrub s) = true ∨ ¬ ExposedToken (replacePem s)) := by
  have hfield : looksUnsafe REDACTED_FIELD = false := by decide +kernel
  cases hunsafe : looksUnsafe (scrub s) with
  | true =>
    have hdrop : redactString s = REDACTED_FIELD := by simp only [redactString, hunsafe, if_true]
    rw [hdrop, redactString_field]
    exact ⟨by rw [isRedactionSafe, hfield]; rfl, iff_of_true rfl (.inl rfl)⟩
  | false =>
    have hkeep : redactString s = scrub s := by simp only [redactString, hunsafe, Bool.false_eq_true, if_false]
    obtain ⟨hsettled, htokens⟩ := scrub_twice s
    have hagain : scrub (scrub s) = replaceUserinfo (scrub s) := by
      rw [@scrub.eq_1 (scrub s), replacePem_of_safe hunsafe, htokens]
    rw [hkeep]
    refine ⟨by rw [isRedactionSafe, hunsafe]; rfl, ?_⟩
    rw [← hsettled]
    constructor
    · intro h
      refine .inr ?_
      simp only [redactString, hagain] at h
      split_ifs at h
      · -- the dropped field holds no userinfo
        rw [← h]
        decide +kernel
      · exact h
    · rintro (h | h)
      · exact absurd h (by decide)
      · simp only [redactString, hagain, h, hunsafe, Bool.false_eq_true, if_false]

/-- A token behind `//a-` and before `@`: the first pass replaces the token, the second
    the name that now holds the marker. -/
theorem exposedToken_changes :
    redactString (str "//a-sk-abcdefgh@host") = str "//a-[REDACTED:credential]@host" ∧
    redactString (redactString (str "//a-sk-abcdefgh@host")) = str "//[REDACTED:credential]@host" ∧
    isRedactionSafe (redactString (str "//a-sk-abcdefgh@host")) = true := by
  decide +kernel

end idempotence

end sow.domain
