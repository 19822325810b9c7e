import Sow.Policy.Loopback

open sow.js sow.contracts
open sow.js.Json (isDigit)

namespace sow.policy

/-- The endpoints that pass as local although their readings are not. -/
inductive Slips : JsString → Prop
  /-- The second slash is a backslash, or stands behind tabs or line breaks. -/
  | path {r u : JsString} (hr : r.head? ≠ some (unit '/')) (hu : reading r = unit '/' :: u)
      (hremote : ¬ LocalAuthority (stripUserinfo (hostPart u))) : Slips (unit '/' :: r)
  /-- The slashes of a socket or file are hidden so. -/
  | form {k r u : JsString} (hk : k ∈ [str "unix:", str "file:"]) (hr : startsWith r (str "//") = false)
      (hu : reading r = str "//" ++ u) (hne : hostPart u ≠ [])
      (hremote : ¬ LocalAuthority (stripUserinfo (hostPart u))) : Slips (k ++ r)
  /-- What looks like a host and a port is the scheme `localhost` before hidden slashes. -/
  | scheme {h r u : JsString} (hh : h.map lowerAscii = str "localhost") (hr : startsWith r (str "//") = false)
      (hu : reading r = str "//" ++ u) (hremote : ¬ LocalAuthority (stripUserinfo (hostPart u))) :
      Slips (h ++ unit ':' :: r)
  /-- What follows the colon is no port. -/
  | port {t h x : JsString} (ht : stripUserinfo (sow.policy.authority t) = h ++ unit ':' :: x) (hh : LocalHost h)
      (hcolon : unit ':' ∉ h) (hx : stripFileScheme t = none → unit ':' ∉ x) (hform : ¬ IsForm (reading t))
      (hport : ¬ IsPort (reading x)) : Slips t
  /-- What follows the closing bracket is dropped. -/
  | bracket {t h y : JsString} (ht : stripUserinfo (sow.policy.authority t) = unit '[' :: (h ++ unit ']' :: y))
      (hh : LocalHost h) (hfile : stripFileScheme t = none) (hform : ¬ IsForm (reading t))
      (hy : reading y ≠ [] ∧ ∀ p, reading y = unit ':' :: p → ¬ IsPort p) : Slips t

theorem stripLitAscii_eq_some {lit s r : JsString} :
    stripLitAscii lit s = some r ↔ ∃ k, s = k ++ r ∧ k.map lowerAscii = lit := by
  unfold stripLitAscii
  constructor
  · intro h
    split at h
    · next hk =>
      exact ⟨s.take lit.length, by rw [← Option.some.inj h, List.take_append_drop], hk⟩
    · simp at h
  · rintro ⟨k, rfl, rfl⟩
    simp

theorem isScheme_of_fileScheme {s : JsString} (h : s.map lowerAscii ∈ [str "unix", str "file"]) : IsScheme s := by
  have hletters : ∀ d ∈ s, isLetter d = true := by
    intro d hd
    have hall : ∀ k ∈ [str "unix", str "file"], ∀ d ∈ k, isLetter d = true := by decide
    exact isLetter_of_lowerAscii (hall _ h _ (List.mem_map_of_mem hd))
  cases s with
  | nil => exact absurd h (by decide)
  | cons c s => exact ⟨⟨c, s, rfl, hletters c (by simp)⟩, fun d hd => by simp [isSchemeUnit, hletters d hd]⟩

/-- The scheme of a socket or file. -/
theorem stripFileScheme_eq_some {t r : JsString} :
    stripFileScheme t = some r ↔ ∃ s, s.map lowerAscii ∈ [str "unix", str "file"] ∧ t = s ++ (str "://" ++ r) := by
  have hlit : ∀ {k name : JsString}, k.map lowerAscii = name ++ str "://" → ∃ s, s.map lowerAscii = name ∧ k = s ++ str "://" := by
    intro k name hk
    obtain ⟨s, c, rfl, hs, hc⟩ := List.map_eq_append_iff.mp hk
    exact ⟨s, hs, by rw [map_lowerAscii_eq (by decide) hc]⟩
  constructor
  · intro h
    rcases Option.or_eq_some_iff.mp h with h | ⟨-, h⟩
    · obtain ⟨k, rfl, hk⟩ := stripLitAscii_eq_some.mp h
      obtain ⟨s, hs, rfl⟩ := @hlit k (str "unix") hk
      exact ⟨s, by simp [hs], by simp⟩
    · obtain ⟨k, rfl, hk⟩ := stripLitAscii_eq_some.mp h
      obtain ⟨s, hs, rfl⟩ := @hlit k (str "file") hk
      exact ⟨s, by simp [hs], by simp⟩
  · rintro ⟨s, hs, rfl⟩
    have hmap : (s ++ str "://").map lowerAscii = s.map lowerAscii ++ str "://" := by
      rw [List.map_append]
      rfl
    simp only [List.mem_cons, List.not_mem_nil, or_false] at hs
    rcases hs with hs | hs
    · refine Option.or_eq_some_iff.mpr (.inl (stripLitAscii_eq_some.mpr ⟨s ++ str "://", by simp, ?_⟩))
      rw [hmap, hs]
      rfl
    · refine Option.or_eq_some_iff.mpr (.inr ⟨?_, stripLitAscii_eq_some.mpr ⟨s ++ str "://", by simp, ?_⟩⟩)
      · rw [Option.eq_none_iff_forall_ne_some]
        intro r' h
        obtain ⟨k, hk, hlower⟩ := stripLitAscii_eq_some.mp h
        have htake := congrArg (fun l => (l.map lowerAscii).take 4) hk
        simp only [List.map_append, hs, hlower] at htake
        revert htake
        simp [str]
      · rw [hmap, hs]
        rfl

/-- A scheme of which the colon shows and the slashes do not. -/
structure HiddenScheme (t s r u x : JsString) : Prop where
  text : t = s ++ unit ':' :: r
  invisible : stripScheme t = none
  letter : ∃ c s', s = c :: s' ∧ isLetter c = true
  units : ∀ c ∈ s, isDropped c = true ∨ isSchemeUnit c = true
  scheme : IsScheme (reading s)
  slashes : reading r = str "//" ++ u
  authority : sow.policy.authority t = s ++ unit ':' :: x
  dropped : ∀ e ∈ x, isDropped e = true

/-- A reading moves an authority only where it uncovers a scheme. -/
theorem authority_reading {t : JsString} (hhead : ∀ c ∈ t.head?, isDropped c = false) (hne : authority t ≠ []) :
    authority (reading t) = reading (authority t) ∨ ∃ s r u x, HiddenScheme t s r u x := by
  by_cases hvisible : stripScheme t ≠ none ∨ startsWith t (str "//") = true
  · refine .inl ?_
    rw [authority, afterSlashes_reading_of_visible hvisible, hostPart_reading]
    rfl
  · simp only [not_or, not_not, Bool.not_eq_true] at hvisible
    obtain ⟨hnone, hstart⟩ := hvisible
    have hself : afterSlashes t = t := afterSlashes_eq_self hnone hstart
    rcases afterSlashes_reading_of_hidden hnone hstart hhead with hsame | ⟨c, hc, hdelim⟩ | ⟨s, r, u, rfl, hs, hr⟩
    · refine .inl ?_
      rw [authority, hsame, hostPart_reading, authority, hself]
    · obtain ⟨t, rfl⟩ := List.head?_eq_some_iff.mp hc
      rw [authority, hself, hostPart_cons, if_pos hdelim] at hne
      exact absurd rfl hne
    · obtain ⟨x, d, r, rfl, hx, hd, -⟩ := reading_eq_cons (w := unit '/' :: u) hr
      have hunits : ∀ c ∈ s, isDropped c = true ∨ isSchemeUnit c = true := by
        intro c hc
        by_cases hdrop : isDropped c = true
        · exact .inl hdrop
        · have hmem : slashed c ∈ reading s := List.mem_map_of_mem (List.mem_filter.mpr ⟨hc, by simpa using hdrop⟩)
          have hscheme := hs.units _ hmem
          rw [slashed_eq rfl (ne_of_isSchemeUnit hscheme (by decide))]
          exact .inr hscheme
      have hdelim : ∀ c ∈ s ++ [unit ':'], isDelimiter c = false := by
        intro c hc
        rcases List.mem_append.mp hc with hc | hc
        · rcases hunits c hc with hdrop | hscheme
          · exact not_isDelimiter_of_dropped hdrop
          · exact not_isDelimiter_of_isSchemeUnit hscheme
        · rw [List.mem_singleton.mp hc]
          decide
      have hauthority : hostPart (s ++ unit ':' :: (x ++ d :: r)) = s ++ unit ':' :: x := by
        have hsplit : s ++ unit ':' :: (x ++ d :: r) = (s ++ [unit ':']) ++ (x ++ d :: r) := by simp
        rw [hsplit, hostPart_append hdelim, hostPart_append fun c hc => not_isDelimiter_of_dropped (hx c hc),
          hostPart_cons, if_pos (isDelimiter_of_slashed hd)]
        simp
      refine .inr ⟨s, _, u, x, rfl, hnone, ?_, hunits, hs, hr, ?_, hx⟩
      · obtain ⟨c, s', hread, hletter⟩ := hs.letter
        cases s with
        | nil => simp at hread
        | cons e s =>
          rw [reading_cons, hhead e rfl] at hread
          have he := slashed_eq (List.cons.inj hread).1 (ne_of_isSchemeUnit (by simp [isSchemeUnit, hletter]) (by decide))
          exact ⟨e, s, rfl, he ▸ hletter⟩
      · rw [authority, hself, hauthority]

namespace HiddenScheme

variable {t s r u x : JsString}

theorem not_mem (h : HiddenScheme t s r u x) {c : UInt16} (hdrop : isDropped c = false) (hscheme : isSchemeUnit c = false) :
    c ∉ s := by
  intro hc
  rcases h.units c hc with hc | hc
  · simp [hdrop] at hc
  · simp [hscheme] at hc

theorem stripUserinfo (h : HiddenScheme t s r u x) : stripUserinfo (sow.policy.authority t) = s ++ unit ':' :: x := by
  rw [h.authority]
  refine stripUserinfo_eq_self fun hmem => ?_
  simp only [List.mem_append, List.mem_cons] at hmem
  rcases hmem with hmem | hmem | hmem
  · exact h.not_mem (by decide) (by decide) hmem
  · exact absurd hmem (by decide)
  · exact absurd (h.dropped _ hmem) (by decide)

theorem ne_of_letter (h : HiddenScheme t s r u x) {c : UInt16} {w v : JsString} (hc : isLetter c = false) :
    s ++ v ≠ c :: w := by
  obtain ⟨d, s', rfl, hd⟩ := h.letter
  intro heq
  obtain rfl := (List.cons.inj heq).1
  simp [hc] at hd

end HiddenScheme

theorem HiddenScheme.of_port {t s r u x h y : JsString} (hs : HiddenScheme t s r u x) (hcolon : unit ':' ∉ h)
    (heq : s ++ unit ':' :: x = h ++ unit ':' :: y) : s = h ∧ x = y :=
  field_inj (hs.not_mem (by decide) (by decide)) hcolon heq

/-- The only host before hidden slashes is `localhost`. -/
theorem HiddenScheme.localhost {t s r u x : JsString} (hs : HiddenScheme t s r u x) (hh : HostText (s ++ unit ':' :: x)) :
    s.map lowerAscii = str "localhost" := by
  have hfirst : ∀ {w : JsString} {c : UInt16}, isLetter c = false → s ++ unit ':' :: x ≠ c :: w := hs.ne_of_letter
  generalize hp : s ++ unit ':' :: x = p at hh
  cases hh with
  | host hh =>
    rcases hh.colon_cases with ⟨hcolon, -⟩ | rfl | rfl
    · exact absurd (by simp [← hp]) hcolon
    · exact absurd hp (hfirst (by decide))
    · exact absurd hp (hfirst (by decide))
  | port hh hcolon _ =>
    obtain ⟨rfl, -⟩ := hs.of_port hcolon hp
    cases hh with
    | localhost hh => exact hh
    | ipv6 => exact absurd (by decide) hcolon
    | ipv6Long => exact absurd (by decide) hcolon
    | ipv4 => exact absurd hp (hfirst (by decide))
  | bracket _ => exact absurd hp (hfirst (by decide))

theorem HiddenScheme.local_or_slips {t s r u x : JsString} (hs : HiddenScheme t s r u x) (hh : HostText (s ++ unit ':' :: x)) :
    Local (reading t) ∨ Slips t := by
  have hlocalhost := hs.localhost hh
  have hkept : reading s = s := (LocalHost.localhost hlocalhost).reading
  have hscheme : IsScheme s := by
    have h := hs.scheme
    rwa [hkept] at h
  have hr : startsWith r (str "//") = false := by
    rw [not_startsWith_iff]
    rintro q rfl
    have hvisible := stripScheme_eq_some.mpr ⟨s, hscheme, hs.text⟩
    rw [hs.invisible] at hvisible
    simp at hvisible
  have hread : reading t = s ++ (str "://" ++ u) := by
    rw [hs.text, reading_append, hkept, reading_cons_kept (by decide), hs.slashes]
    rfl
  by_cases hlocal : LocalAuthority (sow.policy.stripUserinfo (hostPart u))
  · refine .inl (.authority ?_)
    rw [sow.policy.authority, hread, hscheme.afterSlashes]
    exact hlocal
  · rw [hs.text]
    exact .inr (.scheme hlocalhost hr hs.slashes hlocal)

/-- The forms that begin with one of the two names and hide their slashes. -/
theorem reading_form {k r : JsString} (hk : k ∈ [str "unix:", str "file:"]) : reading (k ++ r) = k ++ reading r := by
  rw [reading_append]
  simp only [List.mem_cons, List.not_mem_nil, or_false] at hk
  rcases hk with rfl | rfl <;> rfl

theorem afterSlashes_form {k u : JsString} (hk : k ∈ [str "unix:", str "file:"]) : afterSlashes (k ++ (str "//" ++ u)) = u := by
  simp only [List.mem_cons, List.not_mem_nil, or_false] at hk
  rcases hk with rfl | rfl
  · exact (isScheme_of_fileScheme (s := str "unix") (by decide)).afterSlashes u
  · exact (isScheme_of_fileScheme (s := str "file") (by decide)).afterSlashes u

theorem stripFileScheme_form {k r : JsString} (hk : k ∈ [str "unix:", str "file:"]) (hr : startsWith r (str "//") = false) :
    stripFileScheme (k ++ r) = none := by
  rw [Option.eq_none_iff_forall_ne_some]
  intro u hu
  obtain ⟨s, hs, heq⟩ := stripFileScheme_eq_some.mp hu
  have hno : unit ':' ∉ s := fun hmem => absurd ((isScheme_of_fileScheme hs).units _ hmem) (by decide)
  have hslashes : ∀ {n : JsString}, unit ':' ∉ n → n ++ unit ':' :: r = s ++ unit ':' :: (str "//" ++ u) → False := by
    intro n hn heq
    exact not_startsWith_iff.mp hr u (field_inj hn hno heq).2
  simp only [List.mem_cons, List.not_mem_nil, or_false] at hk
  rcases hk with rfl | rfl
  · exact @hslashes (str "unix") (by decide) heq
  · exact @hslashes (str "file") (by decide) heq

/-- A host and what follows its colon are as the code reads them. -/
theorem hostPort_cases {t h x : JsString} (ht : stripUserinfo (authority t) = h ++ unit ':' :: x) (hh : LocalHost h)
    (hcolon : unit ':' ∉ h) (hx : stripFileScheme t = none → unit ':' ∉ x)
    (hread : authority (reading t) = reading (authority t)) : Local (reading t) ∨ Slips t := by
  by_cases hform : IsForm (reading t)
  · exact .inl (.form hform)
  · by_cases hport : IsPort (reading x)
    · refine .inl (.authority ?_)
      rw [hread, stripUserinfo_reading, ht, reading_append, hh.reading, reading_cons_kept (by decide)]
      exact .hostPort hh hport
    · exact .inr (.port ht hh hcolon hx hform hport)

/-- Whatever is admitted is on this machine, or slips through. -/
theorem Admitted.local_or_slips {t : JsString} (h : Admitted t) (hhead : ∀ c ∈ t.head?, isDropped c = false) :
    Local (reading t) ∨ Slips t := by
  cases h with
  | @fileRoot r ht hr =>
    obtain ⟨s, hs, rfl⟩ := stripFileScheme_eq_some.mp ht
    refine .inl (.form ?_)
    have hread : reading (s ++ (str "://" ++ r)) = (s ++ [unit ':']) ++ (str "//" ++ reading r) := by
      rw [reading_append, (isScheme_of_fileScheme hs).reading, reading_append]
      simp [str, reading, isDropped, slashed, unit]
    rw [hread]
    refine .mk ?_ fun u hu => ?_
    · simp only [List.mem_cons, List.not_mem_nil, or_false, List.map_append] at hs ⊢
      rcases hs with hs | hs
      · exact .inl (by rw [hs]; rfl)
      · exact .inr (by rw [hs]; rfl)
    · obtain rfl := List.append_cancel_left hu
      rw [hostPart_reading, hr]
      rfl
  | @fileHost r ht hr =>
    obtain ⟨s, hs, rfl⟩ := stripFileScheme_eq_some.mp ht
    have hafter : authority (s ++ (str "://" ++ r)) = hostPart r := by
      rw [authority, (isScheme_of_fileScheme hs).afterSlashes]
    have hread : authority (reading (s ++ (str "://" ++ r))) = reading (authority (s ++ (str "://" ++ r))) := by
      have hvisible : stripScheme (s ++ (str "://" ++ r)) ≠ none := by
        rw [stripScheme_eq_some.mpr ⟨s, isScheme_of_fileScheme hs, rfl⟩]
        simp
      rw [authority, afterSlashes_reading_of_visible (.inl hvisible), hostPart_reading]
      rfl
    have hsplit := (stripUserinfo (hostPart r)).takeWhile_append_dropWhile (p := (· != unit ':'))
    have hcolon : unit ':' ∉ (stripUserinfo (hostPart r)).takeWhile (· != unit ':') := fun hmem => by
      simpa using List.mem_takeWhile_imp hmem
    generalize (stripUserinfo (hostPart r)).takeWhile (· != unit ':') = h at hr hcolon hsplit
    cases hrest : (stripUserinfo (hostPart r)).dropWhile (· != unit ':') with
    | nil =>
      rw [hrest, List.append_nil] at hsplit
      refine .inl (.authority ?_)
      rw [hread, stripUserinfo_reading, hafter, ← hsplit, hr.reading]
      exact .host hr
    | cons c x =>
      have hc : c = unit ':' := by
        have hhead := List.head_dropWhile_not (· != unit ':') (l := stripUserinfo (hostPart r)) (by simp [hrest])
        simpa [hrest] using hhead
      subst hc
      rw [hrest] at hsplit
      exact hostPort_cases (by rw [hafter, hsplit]) hr hcolon (by simp [ht]) hread
  | form ht hstart =>
    obtain ⟨k, r, hk, rfl⟩ : ∃ k r, k ∈ [str "unix:", str "file:"] ∧ t = k ++ r := by
      rcases Bool.or_eq_true_iff.mp hstart with hstart | hstart
      · obtain ⟨r, rfl⟩ := startsWith_iff.mp hstart
        exact ⟨_, r, by simp, rfl⟩
      · obtain ⟨r, rfl⟩ := startsWith_iff.mp hstart
        exact ⟨_, r, by simp, rfl⟩
    have hr : startsWith r (str "//") = false := by
      rw [not_startsWith_iff]
      rintro u rfl
      have hsome : stripFileScheme (k ++ (str "//" ++ u)) = some u := by
        simp only [List.mem_cons, List.not_mem_nil, or_false] at hk
        rcases hk with rfl | rfl
        · exact stripFileScheme_eq_some.mpr ⟨str "unix", by decide, rfl⟩
        · exact stripFileScheme_eq_some.mpr ⟨str "file", by decide, rfl⟩
      simp [hsome] at ht
    by_cases hform : IsForm (reading (k ++ r))
    · exact .inl (.form hform)
    · rw [reading_form hk] at hform ⊢
      have hu : ∃ u, reading r = str "//" ++ u ∧ hostPart u ≠ [] := by
        by_contra hno
        push Not at hno
        refine hform (.mk ?_ hno)
        simp only [List.mem_cons, List.not_mem_nil, or_false] at hk
        rcases hk with rfl | rfl <;> decide
      obtain ⟨u, hu, hne⟩ := hu
      by_cases hlocal : LocalAuthority (stripUserinfo (hostPart u))
      · refine .inl (.authority ?_)
        rw [authority, hu, afterSlashes_form hk]
        exact hlocal
      · exact .inr (.form hk hr hu hne hlocal)
  | @path r ht hr =>
    subst ht
    rw [reading_cons_kept (by decide)]
    by_cases hslash : (reading r).head? = some (unit '/')
    · obtain ⟨u, hu⟩ := List.head?_eq_some_iff.mp hslash
      by_cases hlocal : LocalAuthority (stripUserinfo (hostPart u))
      · refine .inl (.authority ?_)
        have hslashes : unit '/' :: reading r = str "//" ++ u := by
          rw [hu]
          rfl
        rw [authority, hslashes, afterSlashes_slashes]
        exact hlocal
      · exact .inr (.path hr hu hlocal)
    · exact .inl (.path hslash)
  | host ht hh =>
    have hne : authority t ≠ [] := by
      intro hnil
      rw [hnil] at hh
      exact hh.ne_nil rfl
    rcases authority_reading hhead hne with hread | ⟨s, r, u, x, hs⟩
    · generalize hp : stripUserinfo (authority t) = p at hh
      cases hh with
      | host hh =>
        refine .inl (.authority ?_)
        rw [hread, stripUserinfo_reading, hp, hh.reading]
        exact .host hh
      | port hh hcolon hx => exact hostPort_cases hp hh hcolon (fun _ => hx) hread
      | @bracket h y hh =>
        by_cases hform : IsForm (reading t)
        · exact .inl (.form hform)
        · by_cases hy : reading y ≠ [] ∧ ∀ p, reading y = unit ':' :: p → ¬ IsPort p
          · exact .inr (.bracket hp hh ht hform hy)
          · refine .inl (.authority ?_)
            rw [hread, stripUserinfo_reading, hp, reading_cons_kept (by decide), reading_append, hh.reading,
              reading_cons_kept (by decide), LocalAuthority.bracket_iff hh]
            by_cases hnil : reading y = []
            · exact .inl hnil
            · push Not at hy
              exact .inr (hy hnil)
    · rw [hs.stripUserinfo] at hh
      exact hs.local_or_slips hh

theorem IsForm.split {t : JsString} (h : IsForm t) :
    ∃ s r, s.map lowerAscii ∈ [str "unix", str "file"] ∧ t = s ++ unit ':' :: r ∧ ∀ u, r = str "//" ++ u → hostPart u = [] := by
  obtain ⟨hk, hr⟩ := h
  rename_i k r
  have hname : ∀ {name : JsString}, k.map lowerAscii = name ++ [unit ':'] → ∃ s, s.map lowerAscii = name ∧ k = s ++ [unit ':'] := by
    intro name hk
    obtain ⟨s, c, rfl, hs, hc⟩ := List.map_eq_append_iff.mp hk
    exact ⟨s, hs, by rw [map_lowerAscii_eq (by decide) hc]⟩
  simp only [List.mem_cons, List.not_mem_nil, or_false] at hk
  rcases hk with hk | hk
  · obtain ⟨s, hs, rfl⟩ := @hname (str "unix") hk
    exact ⟨s, r, by simp [hs], by simp, hr⟩
  · obtain ⟨s, hs, rfl⟩ := @hname (str "file") hk
    exact ⟨s, r, by simp [hs], by simp, hr⟩

theorem IsForm.letter {t : JsString} (h : IsForm t) : ∃ c r, t = c :: r ∧ isLetter c = true := by
  obtain ⟨s, r, hs, rfl, -⟩ := h.split
  obtain ⟨c, s', rfl, hc⟩ := (isScheme_of_fileScheme hs).letter
  exact ⟨c, _, rfl, hc⟩

/-- A remote authority behind its slashes is not local. -/
theorem not_local_slashes {u : JsString} (hremote : ¬ LocalAuthority (stripUserinfo (hostPart u))) :
    ¬ Local (str "//" ++ u) := by
  intro h
  generalize ht : str "//" ++ u = t at h
  cases h with
  | path hr =>
    rw [← (List.cons.inj ht).2] at hr
    exact hr rfl
  | form hform =>
    obtain ⟨c, r, rfl, hc⟩ := hform.letter
    rw [← (List.cons.inj ht).1] at hc
    revert hc
    decide
  | authority hauthority =>
    rw [authority, ← ht, afterSlashes_slashes] at hauthority
    exact hremote hauthority

/-- Nor is it behind a scheme, where the form of a socket or file does not leave it empty. -/
theorem not_local_scheme {s u : JsString} (hs : IsScheme s)
    (hform : s.map lowerAscii ∈ [str "unix", str "file"] → hostPart u ≠ [])
    (hremote : ¬ LocalAuthority (stripUserinfo (hostPart u))) : ¬ Local (s ++ (str "://" ++ u)) := by
  intro h
  generalize ht : s ++ (str "://" ++ u) = t at h
  have hcolon : ∀ {s}, IsScheme s → unit ':' ∉ s := fun hs hmem => absurd (hs.units _ hmem) (by decide)
  cases h with
  | path hr =>
    obtain ⟨c, s', rfl, hc⟩ := hs.letter
    rw [(List.cons.inj ht).1] at hc
    revert hc
    decide
  | form h =>
    obtain ⟨s', r, hs', rfl, hr⟩ := h.split
    obtain ⟨rfl, rfl⟩ := field_inj (hcolon hs) (hcolon (isScheme_of_fileScheme hs')) ht
    exact hform hs' (hr u rfl)
  | authority hauthority =>
    rw [authority, ← ht, hs.afterSlashes] at hauthority
    exact hremote hauthority

theorem isScheme_of_localhost {h : JsString} (hh : h.map lowerAscii = str "localhost") : IsScheme h := by
  have hletters : ∀ d ∈ h, isLetter d = true := by
    intro d hd
    have hall : ∀ d ∈ str "localhost", isLetter d = true := by decide
    exact isLetter_of_lowerAscii (hall _ (hh ▸ List.mem_map_of_mem hd))
  cases h with
  | nil => exact absurd hh (by decide)
  | cons c s => exact ⟨⟨c, s, rfl, hletters c (by simp)⟩, fun d hd => by simp [isSchemeUnit, hletters d hd]⟩

/-- A text whose reading keeps its authority is local only by that authority, or as a form. -/
theorem not_local_authority {t : JsString} (hread : authority (reading t) = reading (authority t))
    (hne : reading (stripUserinfo (authority t)) ≠ []) (hform : ¬ IsForm (reading t))
    (hremote : ¬ LocalAuthority (reading (stripUserinfo (authority t)))) : ¬ Local (reading t) := by
  intro h
  generalize ht : reading t = p at h
  cases h with
  | @path r hr =>
    have hnone : stripScheme (unit '/' :: r) = none := rfl
    have hstart : startsWith (unit '/' :: r) (str "//") = false := by
      rw [not_startsWith_iff]
      rintro u hu
      rw [(List.cons.inj hu).2] at hr
      exact hr rfl
    have hnil : authority (reading t) = [] := by
      rw [ht, authority, afterSlashes_eq_self hnone hstart]
      rfl
    rw [← stripUserinfo_reading, ← hread, hnil] at hne
    exact hne rfl
  | form h => exact hform (ht ▸ h)
  | authority hauthority =>
    rw [← ht, hread, stripUserinfo_reading] at hauthority
    exact hremote hauthority

/-- What slips through is not on this machine. -/
theorem Slips.not_local {t : JsString} (h : Slips t) (hhead : ∀ c ∈ t.head?, isDropped c = false) : ¬ Local (reading t) := by
  cases h with
  | @path r u hr hu hremote =>
    rw [reading_cons_kept (by decide), hu]
    exact not_local_slashes hremote
  | @form k r u hk hr hu hne hremote =>
    rw [reading_form hk, hu]
    simp only [List.mem_cons, List.not_mem_nil, or_false] at hk
    rcases hk with rfl | rfl
    · exact not_local_scheme (s := str "unix") (isScheme_of_fileScheme (by decide)) (fun _ => hne) hremote
    · exact not_local_scheme (s := str "file") (isScheme_of_fileScheme (by decide)) (fun _ => hne) hremote
  | @scheme h r u hh hr hu hremote =>
    have hread : reading (h ++ unit ':' :: r) = h ++ (str "://" ++ u) := by
      rw [reading_append, (LocalHost.localhost hh).reading, reading_cons_kept (by decide), hu]
      rfl
    rw [hread]
    refine not_local_scheme (isScheme_of_localhost hh) (fun hfile => ?_) hremote
    rw [hh] at hfile
    exact absurd hfile (by decide)
  | @port _ h x ht hh hcolon hx hform hport =>
    have hne : authority t ≠ [] := by
      intro hnil
      rw [hnil] at ht
      simp [stripUserinfo, lastIndexOf] at ht
    rcases authority_reading hhead hne with hread | ⟨s, r, u, y, hs⟩
    · have hp : reading (stripUserinfo (authority t)) = h ++ unit ':' :: reading x := by
        rw [ht, reading_append, hh.reading, reading_cons_kept (by decide)]
      refine not_local_authority hread (by simp [hp]) hform ?_
      rw [hp, LocalAuthority.hostPort_iff hh hcolon]
      exact hport
    · obtain ⟨-, rfl⟩ := hs.of_port hcolon (hs.stripUserinfo.symm.trans ht)
      rw [reading_of_dropped hs.dropped] at hport
      exact absurd (by simp [IsPort]) hport
  | @bracket _ h y ht hh hfile hform hy =>
    have hne : authority t ≠ [] := by
      intro hnil
      rw [hnil] at ht
      simp [stripUserinfo, lastIndexOf] at ht
    rcases authority_reading hhead hne with hread | ⟨s, r, u, x, hs⟩
    · have hp : reading (stripUserinfo (authority t)) = unit '[' :: (h ++ unit ']' :: reading y) := by
        rw [ht, reading_cons_kept (by decide), reading_append, hh.reading, reading_cons_kept (by decide)]
      refine not_local_authority hread (by simp [hp]) hform ?_
      rw [hp, LocalAuthority.bracket_iff hh]
      rintro (hnil | ⟨p, hcolon, hport⟩)
      · exact hy.1 hnil
      · exact hy.2 p hcolon hport
    · exact absurd (hs.stripUserinfo.symm.trans ht) (hs.ne_of_letter (by decide))

/-- What slips through is admitted. -/
theorem Slips.admitted {t : JsString} (h : Slips t) : Admitted t := by
  cases h with
  | path hr _ _ => exact .path rfl hr
  | @form k r u hk hr _ _ _ =>
    refine .form (stripFileScheme_form hk hr) ?_
    simp only [List.mem_cons, List.not_mem_nil, or_false] at hk
    rcases hk with rfl | rfl
    · exact Bool.or_eq_true_iff.mpr (.inl (startsWith_iff.mpr ⟨r, rfl⟩))
    · exact Bool.or_eq_true_iff.mpr (.inr (startsWith_iff.mpr ⟨r, rfl⟩))
  | @scheme h r u hh hr hu _ =>
    have hscheme := isScheme_of_localhost hh
    have hcolon : ∀ {s}, IsScheme s → unit ':' ∉ s := fun hs hmem => absurd (hs.units _ hmem) (by decide)
    have hinvisible : ∀ {s q : JsString}, IsScheme s → h ++ unit ':' :: r ≠ s ++ (str "://" ++ q) := fun hs heq =>
      not_startsWith_iff.mp hr _ (field_inj (hcolon hscheme) (hcolon hs) heq).2
    have hnone : stripScheme (h ++ unit ':' :: r) = none := by
      rw [Option.eq_none_iff_forall_ne_some]
      intro q hq
      obtain ⟨s, hs, heq⟩ := stripScheme_eq_some.mp hq
      exact hinvisible hs heq
    have hstart : startsWith (h ++ unit ':' :: r) (str "//") = false := by
      rw [not_startsWith_iff]
      intro q hq
      obtain ⟨c, h', rfl, hc⟩ := hscheme.letter
      rw [(List.cons.inj hq).1] at hc
      revert hc
      decide
    obtain ⟨x, d, q, rfl, hx, hd, -⟩ := reading_eq_cons (w := unit '/' :: u) hu
    have hauthority : authority (h ++ unit ':' :: (x ++ d :: q)) = h ++ unit ':' :: x := by
      have hdelim : ∀ c ∈ h ++ [unit ':'], isDelimiter c = false := by
        intro c hc
        rcases List.mem_append.mp hc with hc | hc
        · exact not_isDelimiter_of_isSchemeUnit (hscheme.units c hc)
        · rw [List.mem_singleton.mp hc]
          decide
      have hsplit : h ++ unit ':' :: (x ++ d :: q) = (h ++ [unit ':']) ++ (x ++ d :: q) := by simp
      rw [authority, afterSlashes_eq_self hnone hstart, hsplit, hostPart_append hdelim,
        hostPart_append fun c hc => not_isDelimiter_of_dropped (hx c hc), hostPart_cons,
        if_pos (isDelimiter_of_slashed hd)]
      simp
    refine .host ?_ ?_
    · rw [Option.eq_none_iff_forall_ne_some]
      intro q' hq
      obtain ⟨s, hs, heq⟩ := stripFileScheme_eq_some.mp hq
      exact hinvisible (isScheme_of_fileScheme hs) heq
    · have hat : unit '@' ∉ h ++ unit ':' :: x := by
        intro hmem
        simp only [List.mem_append, List.mem_cons] at hmem
        rcases hmem with hmem | hmem | hmem
        · exact absurd (hscheme.units _ hmem) (by decide)
        · exact absurd hmem (by decide)
        · exact absurd (hx _ hmem) (by decide)
      rw [hauthority, stripUserinfo_eq_self hat]
      exact .port (.localhost hh) (hcolon hscheme) fun hmem => absurd (hx _ hmem) (by decide)
  | @port _ h x ht hh hcolon hx hform hport =>
    cases hfile : stripFileScheme t with
    | none =>
      refine .host hfile ?_
      rw [ht]
      exact .port hh hcolon (hx hfile)
    | some r =>
      obtain ⟨s, hs, rfl⟩ := stripFileScheme_eq_some.mp hfile
      rw [authority, (isScheme_of_fileScheme hs).afterSlashes] at ht
      refine .fileHost hfile ?_
      have hkeep : ∀ c ∈ h, (c != unit ':') = true := fun c hc => by
        simpa using fun heq : c = unit ':' => hcolon (heq ▸ hc)
      rw [ht, List.takeWhile_append_of_pos hkeep, List.takeWhile_cons_of_neg (by simp), List.append_nil]
      exact hh
  | bracket ht hh hfile hform hy =>
    refine .host hfile ?_
    rw [ht]
    exact .bracket hh

theorem isDropped_isSpace {c : UInt16} (h : isDropped c = true) : isSpace c = true := by
  simp only [isDropped, Bool.or_eq_true, beq_iff_eq] at h
  rcases h with (rfl | rfl) | rfl <;> decide

/-- Exactly the endpoints that slip through are taken for local and are not. -/
theorem slips_iff (tables : CaseTables) (endpoint : JsString) :
    Slips (trim endpoint) ↔ isLoopbackEndpoint tables endpoint = true ∧ ¬ OnThisMachine endpoint := by
  have hhead : ∀ c ∈ (trim endpoint).head?, isDropped c = false := by
    intro c hc
    rw [Bool.eq_false_iff]
    intro hdrop
    simpa [isDropped_isSpace hdrop] using (trimmed_trim endpoint).1 c hc
  rw [isLoopbackEndpoint_iff]
  constructor
  · intro h
    exact ⟨h.admitted, h.not_local hhead⟩
  · rintro ⟨hadmitted, hremote⟩
    exact (hadmitted.local_or_slips hhead).resolve_left hremote

end sow.policy
