import Sow.Policy.Authority

open sow.js sow.contracts
open sow.js.Json (isDigit)

namespace sow.policy

variable (tables : CaseTables)

/-- The texts of which `extractHost` makes a loopback host. -/
inductive HostText : JsString → Prop
  | host {h : JsString} (hh : LocalHost h) : HostText h
  | port {h x : JsString} (hh : LocalHost h) (hcolon : unit ':' ∉ h) (hx : unit ':' ∉ x) : HostText (h ++ unit ':' :: x)
  | bracket {h y : JsString} (hh : LocalHost h) : HostText (unit '[' :: (h ++ unit ']' :: y))

theorem lowerAscii_colon (c : UInt16) : lowerAscii c = unit ':' ↔ c = unit ':' :=
  lowerAscii_eq_iff (by decide) (by decide)

theorem count_colon (s : JsString) : (tables.toLowerCase s).count (unit ':') = s.count (unit ':') :=
  tables.count_lowerFrom (by decide) lowerAscii_colon

theorem LocalHost.toLowerCase {h : JsString} (hh : LocalHost h) : tables.toLowerCase h = h.map lowerAscii :=
  tables.lowerFrom_ascii hh.ascii

/-- A loopback host that begins a text in small letters, and the part of the text it is of. -/
theorem localHost_of_lower {s host rest : JsString} (hloop : isLoopbackHost host = true)
    (h : tables.toLowerCase s = host ++ rest) :
    ∃ u r, s = u ++ r ∧ LocalHost u ∧ u.map lowerAscii = host ∧ tables.lowerFrom u r = rest := by
  obtain ⟨u, r, hs, -, hu, hr⟩ := tables.lowerFrom_eq_append (isPlain_of_isLoopbackHost hloop) h
  rw [← hu, isLoopbackHost_iff] at hloop
  exact ⟨u, r, hs, hloop, hu, by simpa using hr⟩

theorem lowerFrom_eq_nil {before s : JsString} (h : tables.lowerFrom before s = []) : s = [] := by
  cases s with
  | nil => rfl
  | cons c s =>
    rw [CaseTables.lowerFrom] at h
    have hnil := (List.append_eq_nil_iff.mp h).1
    split at hnil
    · simp at hnil
    · exact absurd hnil (tables.nonempty before c s)

theorem HostText.of_lower {s : JsString} (h : isLoopbackHost (tables.toLowerCase s) = true) : HostText s := by
  obtain ⟨u, r, rfl, hu, -, hr⟩ := @localHost_of_lower tables s _ [] h (List.append_nil _).symm
  rw [lowerFrom_eq_nil tables hr, List.append_nil]
  exact .host hu

theorem startsWith_bracket_iff {s : JsString} :
    startsWith (tables.toLowerCase s) [unit '['] = true ↔ s.head? = some (unit '[') := by
  rw [startsWith_iff]
  constructor
  · rintro ⟨t, ht⟩
    obtain ⟨c, r, rfl, -, hc, -⟩ := tables.lowerFrom_eq_cons (by decide) ht
    simp [(lowerAscii_eq_iff (by decide) (by decide)).mp hc]
  · intro hhead
    obtain ⟨r, rfl⟩ := List.head?_eq_some_iff.mp hhead
    exact ⟨_, rfl⟩

theorem hostText_of_host {s host : JsString} (hhost : hostOfAuthority (tables.toLowerCase s) = some host)
    (hloop : isLoopbackHost host = true) : HostText s := by
  unfold hostOfAuthority at hhost
  split at hhost
  · next hstart =>
    split at hhost
    · simp at hhost
    · next close hclose =>
      have hmem : unit ']' ∈ tables.toLowerCase s := by
        by_contra hmem
        simp [indexOf_unit_none.mpr hmem] at hclose
      obtain ⟨a, b, hs, ha⟩ := List.eq_append_cons_of_mem hmem
      obtain ⟨t, ht⟩ := startsWith_iff.mp hstart
      obtain ⟨a, rfl⟩ : ∃ a', a = unit '[' :: a' := by
        cases a with
        | nil => exact absurd (List.cons.inj (hs.symm.trans ht)).1 (by decide)
        | cons c a => exact ⟨a, by rw [(List.cons.inj (hs.symm.trans ht)).1]⟩
      rw [hs, indexOf_unit ha] at hclose
      obtain rfl := Option.some.inj hclose
      have hslice : slice (tables.toLowerCase s) 1 (unit '[' :: a).length = a := by
        rw [hs]
        simp [slice]
      obtain rfl : a = host := hslice.symm.trans (Option.some.inj hhost)
      have hlower : tables.toLowerCase s = (unit '[' :: (a ++ [unit ']'])) ++ b := by
        rw [hs]
        simp
      have hplain : ∀ d ∈ unit '[' :: (a ++ [unit ']']), CaseTables.IsPlain d := by
        intro d hd
        simp only [List.mem_cons, List.mem_append, List.not_mem_nil, or_false] at hd
        rcases hd with rfl | hd | rfl
        · decide
        · exact isPlain_of_isLoopbackHost hloop d hd
        · decide
      obtain ⟨u, r, rfl, -, hu, -⟩ := tables.lowerFrom_eq_append hplain hlower
      obtain ⟨c, u, rfl, hc, hu⟩ := List.map_eq_cons_iff.mp hu
      obtain ⟨h, d, rfl, rfl, hd⟩ := List.map_eq_append_iff.mp hu
      obtain ⟨e, d, rfl, he, hd⟩ := List.map_eq_cons_iff.mp hd
      obtain rfl := List.map_eq_nil_iff.mp hd
      rw [(lowerAscii_eq_iff (by decide) (by decide)).mp hc, (lowerAscii_eq_iff (by decide) (by decide)).mp he]
      simpa using HostText.bracket (y := r) (isLoopbackHost_iff.mp hloop)
  · next hstart =>
    split at hhost
    · obtain rfl := Option.some.inj hhost
      exact .of_lower tables hloop
    · next hcount =>
      split at hhost
      · next colon hcolon =>
        have hmem : unit ':' ∈ tables.toLowerCase s := by
          by_contra hmem
          simp [indexOf_unit_none.mpr hmem] at hcolon
        obtain ⟨a, b, hs, ha⟩ := List.eq_append_cons_of_mem hmem
        rw [hs, indexOf_unit ha] at hcolon
        obtain rfl := Option.some.inj hcolon
        have hslice : slice (tables.toLowerCase s) 0 a.length = a := by
          rw [hs]
          simp [slice]
        obtain rfl : a = host := hslice.symm.trans (Option.some.inj hhost)
        obtain ⟨u, r, rfl, hu, -, hr⟩ := localHost_of_lower tables hloop hs
        obtain ⟨c, x, rfl, -, hc, -⟩ := tables.lowerFrom_eq_cons (by decide) hr
        obtain rfl := (lowerAscii_colon c).mp hc
        rw [count_colon, List.count_append, List.count_cons_self] at hcount
        exact .port hu (List.count_eq_zero.mp (by omega)) (List.count_eq_zero.mp (by omega))
      · obtain rfl := Option.some.inj hhost
        exact .of_lower tables hloop

theorem host_of_hostText {s : JsString} (h : HostText s) :
    ∃ host, hostOfAuthority (tables.toLowerCase s) = some host ∧ isLoopbackHost host = true := by
  have hhead : ∀ {h t : JsString}, LocalHost h → (h ++ t).head? ≠ some (unit '[') := by
    intro h t hh
    obtain ⟨c, r, rfl⟩ := List.exists_cons_of_ne_nil hh.ne_nil
    simpa using ne_of_isHostUnit (hh.units c (by simp)) (by decide)
  have hmap : ∀ {h : JsString}, unit ':' ∉ h → unit ':' ∉ h.map lowerAscii := by
    intro h hcolon hmem
    obtain ⟨c, hc, hlower⟩ := List.mem_map.mp hmem
    exact hcolon ((lowerAscii_colon c).mp hlower ▸ hc)
  cases h with
  | host hh =>
    have hstart : ¬ startsWith (tables.toLowerCase s) [unit '['] = true := by
      rw [startsWith_bracket_iff]
      simpa using hhead (t := []) hh
    refine ⟨tables.toLowerCase s, ?_, by rw [hh.toLowerCase]; exact isLoopbackHost_iff.mpr hh⟩
    rw [hostOfAuthority, if_neg hstart, count_colon]
    rcases hh.colon_cases with ⟨hcolon, -⟩ | rfl | rfl
    · rw [List.count_eq_zero.mpr hcolon, if_neg (by omega), hh.toLowerCase, indexOf_unit_none.mpr (hmap hcolon)]
    · rfl
    · rfl
  | @port h x hh hcolon hx =>
    have hstart : ¬ startsWith (tables.toLowerCase (h ++ unit ':' :: x)) [unit '['] = true := by
      rw [startsWith_bracket_iff]
      exact hhead hh
    have hcount : (h ++ unit ':' :: x).count (unit ':') = 1 := by
      rw [List.count_append, List.count_cons_self, List.count_eq_zero.mpr hcolon, List.count_eq_zero.mpr hx]
    refine ⟨h.map lowerAscii, ?_, isLoopbackHost_iff.mpr hh⟩
    rw [hostOfAuthority, if_neg hstart, count_colon, hcount, if_neg (by omega), CaseTables.toLowerCase,
      tables.lowerFrom_append hh.ascii]
    have hlower : tables.lowerFrom ([] ++ h) (unit ':' :: x) = unit ':' :: tables.lowerFrom (h ++ [unit ':']) x := rfl
    rw [hlower, indexOf_unit (hmap hcolon)]
    simp [slice]
  | @bracket h y hh =>
    have hascii : ∀ c ∈ unit '[' :: (h ++ [unit ']']), c.toNat < 128 := by
      intro c hc
      simp only [List.mem_cons, List.mem_append, List.not_mem_nil, or_false] at hc
      rcases hc with rfl | hc | rfl
      · decide
      · exact hh.ascii c hc
      · decide
    have hclose : unit ']' ∉ unit '[' :: h.map lowerAscii := by
      intro hmem
      rcases List.mem_cons.mp hmem with heq | hmem
      · exact absurd heq (by decide)
      · obtain ⟨c, hc, hlower⟩ := List.mem_map.mp hmem
        rw [(lowerAscii_eq_iff (by decide) (by decide)).mp hlower] at hc
        exact hh.not_mem (by decide) hc
    have hlower : tables.toLowerCase (unit '[' :: (h ++ unit ']' :: y)) =
        (unit '[' :: h.map lowerAscii) ++ unit ']' :: tables.lowerFrom (unit '[' :: (h ++ [unit ']'])) y := by
      have happend := @CaseTables.lowerFrom_append tables [] (unit '[' :: (h ++ [unit ']'])) y hascii
      have hsplit : unit '[' :: (h ++ unit ']' :: y) = (unit '[' :: (h ++ [unit ']'])) ++ y := by simp
      rw [CaseTables.toLowerCase, hsplit, happend]
      simp only [List.map_cons, List.map_append, List.map_nil, List.nil_append, List.cons_append, List.append_assoc]
      rfl
    refine ⟨h.map lowerAscii, ?_, isLoopbackHost_iff.mpr hh⟩
    have hstart : startsWith (tables.toLowerCase (unit '[' :: (h ++ unit ']' :: y))) [unit '['] = true := by
      rw [startsWith_bracket_iff]
      rfl
    rw [hostOfAuthority, if_pos hstart, hlower, indexOf_unit hclose]
    simp [slice]

theorem HostText.ne_nil {s : JsString} (h : HostText s) : s ≠ [] := by
  cases h with
  | host hh => exact hh.ne_nil
  | port hh _ _ => simp
  | bracket hh => simp

theorem extractAuthority_eq (raw : JsString) :
    extractAuthority tables raw =
      if stripUserinfo (authority (trim raw)) = [] then none
      else some (tables.toLowerCase (stripUserinfo (authority (trim raw)))) := by
  unfold extractAuthority
  simp only [firstSegment_delimiters]
  by_cases hnil : trim raw = []
  · rw [hnil]
    rfl
  · rw [if_neg hnil]
    change (if authority (trim raw) = [] then none else _) = _
    by_cases hauthority : authority (trim raw) = []
    · rw [hauthority]
      rfl
    · rw [if_neg hauthority]
      rfl

theorem extractHost_loopback_iff (raw : JsString) :
    (∃ host, extractHost tables raw = some host ∧ isLoopbackHost host = true) ↔
      HostText (stripUserinfo (authority (trim raw))) := by
  unfold extractHost
  rw [extractAuthority_eq]
  generalize stripUserinfo (authority (trim raw)) = s
  constructor
  · rintro ⟨host, hhost, hloop⟩
    by_cases hnil : s = []
    · simp [hnil] at hhost
    · simp only [if_neg hnil] at hhost
      split at hhost
      · simp at hhost
      · exact hostText_of_host tables hhost hloop
  · intro hs
    have hlower : tables.toLowerCase s ≠ [] := fun h => hs.ne_nil (lowerFrom_eq_nil tables h)
    simp only [if_neg hs.ne_nil, if_neg hlower]
    exact host_of_hostText tables hs

/-- The texts that the classifier admits. -/
inductive Admitted : JsString → Prop
  | fileRoot {t r : JsString} (ht : stripFileScheme t = some r) (hr : hostPart r = []) : Admitted t
  | fileHost {t r : JsString} (ht : stripFileScheme t = some r)
      (hr : LocalHost ((stripUserinfo (hostPart r)).takeWhile (· != unit ':'))) : Admitted t
  | form {t : JsString} (ht : stripFileScheme t = none)
      (hk : (startsWith t (str "unix:") || startsWith t (str "file:")) = true) : Admitted t
  | path {t r : JsString} (ht : t = unit '/' :: r) (hr : r.head? ≠ some (unit '/')) : Admitted t
  | host {t : JsString} (ht : stripFileScheme t = none) (hh : HostText (stripUserinfo (authority t))) : Admitted t

theorem not_startsWith_iff {s needle : JsString} : startsWith s needle = false ↔ ∀ t, s ≠ needle ++ t := by
  rw [Bool.eq_false_iff, Ne, startsWith_iff, not_exists]

theorem firstSegment_colon (s : JsString) : firstSegment s [unit ':'] = s.takeWhile (· != unit ':') := by
  rw [firstSegment_eq]
  congr 1
  funext c
  by_cases hc : c = unit ':' <;> simp [hc]

/-- The file branch reads the host up to the first colon. -/
theorem fileHost_iff (s : JsString) :
    (decide ((tables.toLowerCase (s.takeWhile (· != unit ':'))).length > 0) &&
      isLoopbackHost (tables.toLowerCase (s.takeWhile (· != unit ':')))) = true ↔
      LocalHost (s.takeWhile (· != unit ':')) := by
  generalize s.takeWhile (· != unit ':') = h
  rw [Bool.and_eq_true]
  constructor
  · rintro ⟨-, hloop⟩
    obtain ⟨u, r, rfl, hu, -, hr⟩ := @localHost_of_lower tables h _ [] hloop (List.append_nil _).symm
    rw [lowerFrom_eq_nil tables hr, List.append_nil]
    exact hu
  · intro hh
    rw [hh.toLowerCase, isLoopbackHost_iff]
    exact ⟨by simpa using List.length_pos_of_ne_nil hh.ne_nil, hh⟩

theorem singleSlash_iff (t : JsString) :
    (startsWith t (str "/") && !startsWith t (str "//")) = true ↔ ∃ r, t = unit '/' :: r ∧ r.head? ≠ some (unit '/') := by
  rw [Bool.and_eq_true, Bool.not_eq_true', startsWith_iff, not_startsWith_iff]
  constructor
  · rintro ⟨⟨r, rfl⟩, hr⟩
    refine ⟨r, rfl, fun hhead => ?_⟩
    obtain ⟨u, rfl⟩ := List.head?_eq_some_iff.mp hhead
    exact hr u rfl
  · rintro ⟨r, rfl, hr⟩
    refine ⟨⟨r, rfl⟩, fun u hu => hr ?_⟩
    rw [(List.cons.inj hu).2]
    rfl

theorem isLoopbackEndpoint_iff (endpoint : JsString) :
    isLoopbackEndpoint tables endpoint = true ↔ Admitted (trim endpoint) := by
  have hhost := extractHost_loopback_iff tables (trim endpoint)
  rw [trim_trim] at hhost
  unfold isLoopbackEndpoint
  simp only [firstSegment_delimiters, firstSegment_colon]
  generalize trim endpoint = t at hhost ⊢
  by_cases hnil : t = []
  · subst hnil
    simp only [if_true, Bool.false_eq_true, false_iff]
    intro h
    cases h with
    | fileRoot ht _ => simp [stripFileScheme, stripLitAscii, str] at ht
    | fileHost ht _ => simp [stripFileScheme, stripLitAscii, str] at ht
    | form _ hk => revert hk; decide
    | path ht _ => simp at ht
    | host _ hh => exact hh.ne_nil rfl
  · rw [if_neg hnil]
    cases hfile : stripFileScheme t with
    | some r =>
      simp only
      have hpath : ∀ q, t ≠ unit '/' :: q := by
        rintro q rfl
        simp [stripFileScheme, stripLitAscii, str, unit, lowerAscii] at hfile
      constructor
      · intro h
        split at h
        · next hroot => exact .fileRoot hfile hroot
        · exact .fileHost hfile ((fileHost_iff tables _).mp h)
      · intro h
        split
        · rfl
        · next hroot =>
          rw [fileHost_iff]
          cases h with
          | fileRoot ht hr =>
            obtain rfl := Option.some.inj (hfile.symm.trans ht)
            exact absurd hr hroot
          | fileHost ht hr =>
            obtain rfl := Option.some.inj (hfile.symm.trans ht)
            exact hr
          | form ht _ => simp [hfile] at ht
          | path ht _ => exact absurd ht (hpath _)
          | host ht _ => simp [hfile] at ht
    | none =>
      simp only
      by_cases hform : (startsWith t (str "unix:") || startsWith t (str "file:")) = true
      · rw [if_pos hform]
        exact iff_of_true rfl (.form hfile hform)
      · rw [if_neg hform]
        by_cases hpath : (startsWith t (str "/") && !startsWith t (str "//")) = true
        · rw [if_pos hpath]
          obtain ⟨r, hr, hhead⟩ := (singleSlash_iff t).mp hpath
          exact iff_of_true rfl (.path hr hhead)
        · rw [if_neg hpath]
          constructor
          · intro h
            split at h
            · simp at h
            · next host hextract => exact .host hfile (hhost.mp ⟨host, hextract, h⟩)
          · intro h
            cases h with
            | fileRoot ht _ => simp [hfile] at ht
            | fileHost ht _ => simp [hfile] at ht
            | form _ hk => exact absurd hk hform
            | path ht hr => exact absurd ((singleSlash_iff t).mpr ⟨_, ht, hr⟩) hpath
            | host _ hh =>
              obtain ⟨host, hextract, hloop⟩ := hhost.mpr hh
              rw [hextract]
              exact hloop

end sow.policy
