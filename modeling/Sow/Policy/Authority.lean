import Sow.Policy.Processors

open sow.js sow.contracts
open sow.js.Json (isDigit)

namespace sow.policy

/-- Tab, line feed and carriage return. -/
def isDropped (c : UInt16) : Bool := c == unit '\t' || c == unit '\n' || c == unit '\r'

def slashed (c : UInt16) : UInt16 := if c = unit '\\' then unit '/' else c

/-- An endpoint as the parser of a client reads it: without tabs and line breaks, and with
    every backslash a slash. -/
def reading (s : JsString) : JsString := (s.filter (!isDropped ·)).map slashed

/-- The units that end an authority. -/
def isDelimiter (c : UInt16) : Bool := c == unit '/' || c == unit '?' || c == unit '#' || c == unit '\\'

def hostPart (s : JsString) : JsString := s.takeWhile (!isDelimiter ·)

def authority (t : JsString) : JsString := hostPart (afterSlashes t)

structure IsOctet (s : JsString) : Prop where
  digits : ∀ c ∈ s, isDigit c = true
  length : 1 ≤ s.length ∧ s.length ≤ 3
  value : toNumber s ≤ 255

/-- `localhost`, the address `::1` in one of its two spellings, or an address of 127.0.0.0/8. -/
inductive LocalHost : JsString → Prop
  | localhost {h : JsString} (hh : h.map lowerAscii = str "localhost") : LocalHost h
  | ipv6 : LocalHost (str "::1")
  | ipv6Long : LocalHost (str "0:0:0:0:0:0:0:1")
  | ipv4 {a b c : JsString} (ha : IsOctet a) (hb : IsOctet b) (hc : IsOctet c) :
      LocalHost (str "127." ++ (a ++ unit '.' :: (b ++ unit '.' :: c)))

def IsPort (p : JsString) : Prop := ∀ c ∈ p, isDigit c = true

instance (p : JsString) : Decidable (IsPort p) := inferInstanceAs (Decidable (∀ c ∈ p, _))

/-- Exactly a local host, with or without a port. -/
inductive LocalAuthority : JsString → Prop
  | host {h : JsString} (hh : LocalHost h) : LocalAuthority h
  | hostPort {h p : JsString} (hh : LocalHost h) (hp : IsPort p) : LocalAuthority (h ++ unit ':' :: p)
  | bracketed {h : JsString} (hh : LocalHost h) : LocalAuthority (unit '[' :: (h ++ [unit ']']))
  | bracketedPort {h p : JsString} (hh : LocalHost h) (hp : IsPort p) :
      LocalAuthority (unit '[' :: (h ++ unit ']' :: unit ':' :: p))

/-- A socket or file form without an authority. -/
inductive IsForm : JsString → Prop
  | mk {k r : JsString} (hk : k.map lowerAscii ∈ [str "unix:", str "file:"])
      (hr : ∀ u, r = str "//" ++ u → hostPart u = []) : IsForm (k ++ r)

/-- The reading names something on this machine: an absolute path, a socket or file without
    an authority, or a local authority. -/
inductive Local : JsString → Prop
  | path {r : JsString} (hr : r.head? ≠ some (unit '/')) : Local (unit '/' :: r)
  | form {t : JsString} (ht : IsForm t) : Local t
  | authority {t : JsString} (ht : LocalAuthority (stripUserinfo (authority t))) : Local t

/-- White space around an endpoint is no part of it. -/
def OnThisMachine (endpoint : JsString) : Prop := Local (reading (trim endpoint))

@[simp] theorem reading_nil : reading [] = [] := rfl

theorem reading_append (s t : JsString) : reading (s ++ t) = reading s ++ reading t := by
  simp [reading]

theorem reading_cons (c : UInt16) (s : JsString) :
    reading (c :: s) = if isDropped c then reading s else slashed c :: reading s := by
  unfold reading
  cases h : isDropped c <;> simp [h]

/-- The units that a reading leaves as they are. -/
def isKept (c : UInt16) : Bool := !isDropped c && c != unit '\\'

theorem reading_of_kept {s : JsString} (h : ∀ c ∈ s, isKept c = true) : reading s = s := by
  induction s with
  | nil => rfl
  | cons c s ih =>
    simp only [List.mem_cons, forall_eq_or_imp, isKept, Bool.and_eq_true, bne_iff_ne, Bool.not_eq_true'] at h
    rw [reading_cons, h.1.1, slashed, if_neg h.1.2]
    simp only [Bool.false_eq_true, if_false]
    rw [ih fun c hc => by simpa [isKept] using h.2 c hc]

theorem reading_cons_kept {c : UInt16} (h : isKept c = true) (s : JsString) : reading (c :: s) = c :: reading s := by
  simp only [isKept, Bool.and_eq_true, bne_iff_ne, Bool.not_eq_true'] at h
  rw [reading_cons, h.1, slashed, if_neg h.2]
  simp

theorem isDelimiter_slashed (c : UInt16) : isDelimiter (slashed c) = isDelimiter c := by
  unfold slashed
  split
  · next h =>
    subst h
    decide
  · rfl

theorem not_isDelimiter_of_dropped {c : UInt16} (h : isDropped c = true) : isDelimiter c = false := by
  simp only [isDropped, Bool.or_eq_true, beq_iff_eq] at h
  rcases h with (rfl | rfl) | rfl <;> decide

theorem hostPart_cons (c : UInt16) (s : JsString) :
    hostPart (c :: s) = if isDelimiter c then [] else c :: hostPart s := by
  unfold hostPart
  cases h : isDelimiter c <;> simp [h]

/-- The authority of a reading is the reading of the authority. -/
theorem hostPart_reading (s : JsString) : hostPart (reading s) = reading (hostPart s) := by
  induction s with
  | nil => rfl
  | cons c s ih =>
    rw [reading_cons, hostPart_cons]
    by_cases hdrop : isDropped c = true
    · rw [if_pos hdrop, ih, not_isDelimiter_of_dropped hdrop]
      simp [reading_cons, hdrop]
    · rw [if_neg hdrop, hostPart_cons, isDelimiter_slashed, ih]
      cases hdelim : isDelimiter c with
      | true => simp
      | false => simp [reading_cons, hdrop]

theorem length_takeWhile_and (p q : UInt16 → Bool) (s : JsString) :
    (s.takeWhile fun c => p c && q c).length = min (s.takeWhile p).length (s.takeWhile q).length := by
  induction s with
  | nil => rfl
  | cons c s ih =>
    simp only [List.takeWhile_cons]
    cases p c <;> cases q c <;> simp [ih]

theorem cutAt_takeWhile (s : JsString) (p : UInt16 → Bool) (d : UInt16) :
    cutAt s (s.takeWhile p).length d = (s.takeWhile fun c => p c && (c != d)).length := by
  rw [length_takeWhile_and, cutAt, indexOf_unit_eq]
  by_cases hd : d ∈ s
  · simp only [if_pos hd]
    split <;> omega
  · have hall : s.takeWhile (· != d) = s := by
      rw [List.takeWhile_eq_self_iff]
      intro c hc
      simpa using fun h : c = d => hd (h ▸ hc)
    rw [hall]
    simp only [if_neg hd]
    exact (Nat.min_eq_left (List.takeWhile_prefix p).length_le).symm

/-- Each delimiter shortens the segment to the part before it. -/
theorem foldl_cutAt (s delimiters : JsString) (p : UInt16 → Bool) :
    delimiters.foldl (cutAt s) (s.takeWhile p).length =
      (s.takeWhile fun c => p c && !delimiters.contains c).length := by
  induction delimiters generalizing p with
  | nil => simp
  | cons d delimiters ih =>
    rw [List.foldl_cons, cutAt_takeWhile, ih]
    congr 2
    funext c
    rw [List.contains_cons, Bool.not_or, Bool.and_assoc]
    rfl

theorem firstSegment_eq (s delimiters : JsString) :
    firstSegment s delimiters = s.takeWhile (!delimiters.contains ·) := by
  have hcut := foldl_cutAt s delimiters fun _ => true
  rw [List.takeWhile_eq_self_iff.mpr fun _ _ => rfl] at hcut
  simp only [Bool.true_and] at hcut
  unfold firstSegment slice
  rw [hcut, List.drop_zero, Nat.sub_zero]
  exact (List.prefix_iff_eq_take.mp (List.takeWhile_prefix _)).symm

theorem firstSegment_delimiters (s : JsString) : firstSegment s (str "/?#\\") = hostPart s := by
  rw [firstSegment_eq]
  unfold hostPart
  congr 1
  funext c
  have hlit : str "/?#\\" = [unit '/', unit '?', unit '#', unit '\\'] := rfl
  simp only [hlit, isDelimiter, List.contains_cons, List.contains_nil, Bool.or_false, Bool.or_assoc]

theorem mem_reading {c : UInt16} {s : JsString} (h : c ∈ reading s) (hc : c ≠ unit '/') : c ∈ s := by
  obtain ⟨d, hd, rfl⟩ := List.mem_map.mp h
  have hmem := (List.mem_filter.mp hd).1
  unfold slashed at hc ⊢
  split
  · next hback => exact absurd (by rw [if_pos hback]) hc
  · exact hmem

theorem reading_eq_append {t a b : JsString} (h : reading t = a ++ b) :
    ∃ x y, t = x ++ y ∧ reading x = a ∧ reading y = b := by
  obtain ⟨f, g, hfilter, rfl, rfl⟩ := List.map_eq_append_iff.mp h
  obtain ⟨x, y, rfl, rfl, rfl⟩ := List.filter_eq_append_iff.mp hfilter
  exact ⟨x, y, rfl, rfl, rfl⟩

/-- What stands before a unit of the reading is dropped. -/
theorem reading_eq_cons {t w : JsString} {c : UInt16} (h : reading t = c :: w) :
    ∃ x d y, t = x ++ d :: y ∧ (∀ e ∈ x, isDropped e = true) ∧ slashed d = c ∧ reading y = w := by
  induction t with
  | nil => simp at h
  | cons e t ih =>
    rw [reading_cons] at h
    by_cases hdrop : isDropped e = true
    · rw [if_pos hdrop] at h
      obtain ⟨x, d, y, rfl, hx, hd, hy⟩ := ih h
      exact ⟨e :: x, d, y, rfl, by simpa [hdrop] using hx, hd, hy⟩
    · rw [if_neg hdrop] at h
      obtain ⟨hd, hw⟩ := List.cons.inj h
      exact ⟨[], e, t, rfl, by simp, hd, hw⟩

theorem reading_of_dropped {x : JsString} (h : ∀ e ∈ x, isDropped e = true) : reading x = [] := by
  induction x with
  | nil => rfl
  | cons e x ih =>
    simp only [List.mem_cons, forall_eq_or_imp] at h
    rw [reading_cons, if_pos h.1, ih h.2]

theorem slashed_eq {c d : UInt16} (h : slashed d = c) (hc : c ≠ unit '/') : d = c := by
  unfold slashed at h
  split at h
  · exact absurd h.symm hc
  · exact h

theorem isDelimiter_of_slashed {d : UInt16} (h : slashed d = unit '/') : isDelimiter d = true := by
  rw [← isDelimiter_slashed, h]
  rfl

theorem not_mem_hostPart {c : UInt16} {s : JsString} (h : c ∈ hostPart s) : isDelimiter c = false := by
  simpa using List.mem_takeWhile_imp h

theorem hostPart_append {a b : JsString} (h : ∀ c ∈ a, isDelimiter c = false) : hostPart (a ++ b) = a ++ hostPart b :=
  List.takeWhile_append_of_pos (by simpa using h)

theorem stripUserinfo_eq_self {s : JsString} (h : unit '@' ∉ s) : stripUserinfo s = s := by
  rw [stripUserinfo, lastIndexOf_none.mpr h]

theorem stripUserinfo_append (user : JsString) {s : JsString} (h : unit '@' ∉ s) :
    stripUserinfo (user ++ unit '@' :: s) = s := by
  rw [stripUserinfo, lastIndexOf_append user h]
  simp [← List.drop_drop]

theorem userinfo_cases (s : JsString) :
    unit '@' ∉ stripUserinfo s ∧ (s = stripUserinfo s ∨ ∃ user, s = user ++ unit '@' :: stripUserinfo s) := by
  by_cases hat : unit '@' ∈ s
  · obtain ⟨rest, user, hs, hrest⟩ := List.eq_append_cons_of_mem (List.mem_reverse.mpr hat)
    obtain rfl : s = user.reverse ++ unit '@' :: rest.reverse := by
      rw [← s.reverse_reverse, hs]
      simp
    rw [stripUserinfo_append _ (by simpa using hrest)]
    exact ⟨by simpa using hrest, .inr ⟨_, rfl⟩⟩
  · rw [stripUserinfo_eq_self hat]
    exact ⟨hat, .inl rfl⟩

theorem stripUserinfo_reading (s : JsString) : stripUserinfo (reading s) = reading (stripUserinfo s) := by
  obtain ⟨hat, hs⟩ := userinfo_cases s
  have hread : unit '@' ∉ reading (stripUserinfo s) := fun h => hat (mem_reading h (by decide))
  rcases hs with hs | ⟨user, hs⟩
  · rw [← hs] at hread ⊢
    exact stripUserinfo_eq_self hread
  · conv_lhs => rw [hs, reading_append, reading_cons_kept (by decide)]
    exact stripUserinfo_append _ hread

/-- A scheme of a URL, without its colon. -/
structure IsScheme (s : JsString) : Prop where
  letter : ∃ c r, s = c :: r ∧ isLetter c = true
  units : ∀ c ∈ s, isSchemeUnit c = true

theorem stripScheme_eq_some {t r : JsString} : stripScheme t = some r ↔ ∃ s, IsScheme s ∧ t = s ++ (str "://" ++ r) := by
  constructor
  · intro h
    cases t with
    | nil => simp [stripScheme] at h
    | cons c t =>
      rw [stripScheme] at h
      split at h
      · next hletter =>
        unfold stripLit at h
        split at h
        · next hprefix =>
          obtain ⟨u, hu⟩ := List.isPrefixOf_iff_prefix.mp hprefix
          obtain rfl : u = r := by simpa [← hu] using h
          refine ⟨c :: t.takeWhile isSchemeUnit, ⟨⟨c, _, rfl, hletter⟩, ?_⟩, ?_⟩
          · intro d hd
            rcases List.mem_cons.mp hd with rfl | hd
            · simp [isSchemeUnit, hletter]
            · exact List.mem_takeWhile_imp hd
          · rw [hu, List.cons_append, List.takeWhile_append_dropWhile]
        · simp at h
      · simp at h
  · rintro ⟨s, ⟨⟨c, s, rfl, hletter⟩, hunits⟩, rfl⟩
    have hcolon : (str "://" ++ r).dropWhile isSchemeUnit = str "://" ++ r := rfl
    have hs : ∀ d ∈ s, isSchemeUnit d = true := fun d hd => hunits d (List.mem_cons_of_mem _ hd)
    rw [List.cons_append, stripScheme, if_pos hletter, List.dropWhile_append_of_pos hs, hcolon]
    simp [stripLit]

theorem ne_of_isSchemeUnit {c d : UInt16} (h : isSchemeUnit c = true) (hd : isSchemeUnit d = false) : c ≠ d := by
  rintro rfl
  simp [h] at hd

theorem isKept_of_isSchemeUnit {c : UInt16} (h : isSchemeUnit c = true) : isKept c = true := by
  simp only [isKept, isDropped, Bool.and_eq_true, Bool.not_eq_true', Bool.or_eq_false_iff, beq_eq_false_iff_ne, bne_iff_ne]
  exact ⟨⟨⟨ne_of_isSchemeUnit h (by decide), ne_of_isSchemeUnit h (by decide)⟩, ne_of_isSchemeUnit h (by decide)⟩,
    ne_of_isSchemeUnit h (by decide)⟩

theorem not_isDelimiter_of_isSchemeUnit {c : UInt16} (h : isSchemeUnit c = true) : isDelimiter c = false := by
  simp only [isDelimiter, Bool.or_eq_false_iff, beq_eq_false_iff_ne]
  exact ⟨⟨⟨ne_of_isSchemeUnit h (by decide), ne_of_isSchemeUnit h (by decide)⟩, ne_of_isSchemeUnit h (by decide)⟩,
    ne_of_isSchemeUnit h (by decide)⟩

theorem IsScheme.reading {s : JsString} (h : IsScheme s) : reading s = s :=
  reading_of_kept fun c hc => isKept_of_isSchemeUnit (h.units c hc)

theorem IsScheme.afterSlashes {s : JsString} (h : IsScheme s) (r : JsString) : afterSlashes (s ++ (str "://" ++ r)) = r := by
  rw [sow.policy.afterSlashes, stripScheme_eq_some.mpr ⟨s, h, rfl⟩]

theorem afterSlashes_slashes (r : JsString) : afterSlashes (str "//" ++ r) = r := by
  have hnone : stripScheme (str "//" ++ r) = none := rfl
  have hstart : startsWith (str "//" ++ r) (str "//") = true := startsWith_iff.mpr ⟨r, rfl⟩
  rw [afterSlashes, hnone, if_pos hstart]
  rfl

theorem afterSlashes_eq_self {t : JsString} (hnone : stripScheme t = none) (hstart : startsWith t (str "//") = false) :
    afterSlashes t = t := by
  rw [afterSlashes, hnone, hstart]
  rfl

/-- Slashes that show in the text show in its reading. -/
theorem afterSlashes_reading_of_visible {t : JsString} (h : stripScheme t ≠ none ∨ startsWith t (str "//") = true) :
    afterSlashes (reading t) = reading (afterSlashes t) := by
  cases hscheme : stripScheme t with
  | some r =>
    obtain ⟨s, hs, rfl⟩ := stripScheme_eq_some.mp hscheme
    have hlit : reading (str "://" ++ r) = str "://" ++ reading r := by
      rw [reading_append]
      rfl
    rw [hs.afterSlashes, reading_append, hs.reading, hlit, hs.afterSlashes]
  | none =>
    obtain ⟨r, rfl⟩ := startsWith_iff.mp (h.resolve_left (by simp [hscheme]))
    have hlit : reading (str "//" ++ r) = str "//" ++ reading r := by
      rw [reading_append]
      rfl
    rw [hlit, afterSlashes_slashes, afterSlashes_slashes]

/-- The other texts whose authority a reading moves: a scheme before hidden slashes, and a
    text that begins with a delimiter. -/
theorem afterSlashes_reading_of_hidden {t : JsString} (hnone : stripScheme t = none)
    (hstart : startsWith t (str "//") = false) (hhead : ∀ c ∈ t.head?, isDropped c = false) :
    afterSlashes (reading t) = reading t ∨ (∃ c ∈ t.head?, isDelimiter c = true) ∨
      ∃ s r u, t = s ++ unit ':' :: r ∧ IsScheme (reading s) ∧ reading r = str "//" ++ u := by
  cases hscheme : stripScheme (reading t) with
  | some u =>
    obtain ⟨s, hs, hread⟩ := stripScheme_eq_some.mp hscheme
    obtain ⟨x, y, rfl, rfl, hy⟩ := reading_eq_append hread
    obtain ⟨z, d, r, rfl, hz, hd, hr⟩ := reading_eq_cons hy
    obtain rfl : d = unit ':' := slashed_eq hd (by decide)
    refine .inr (.inr ⟨x ++ z, r, u, by simp, ?_, hr⟩)
    rw [reading_append, reading_of_dropped hz, List.append_nil]
    exact hs
  | none =>
    by_cases hslashes : startsWith (reading t) (str "//") = true
    · obtain ⟨u, hu⟩ := startsWith_iff.mp hslashes
      obtain ⟨x, d, y, rfl, hx, hd, -⟩ := reading_eq_cons hu
      cases x with
      | nil => exact .inr (.inl ⟨d, rfl, isDelimiter_of_slashed hd⟩)
      | cons e x =>
        have hkept := hhead e rfl
        have hdrop := hx e (by simp)
        simp [hkept] at hdrop
    · exact .inl (afterSlashes_eq_self hscheme (Bool.eq_false_iff.mpr hslashes))

def isHostUnit (c : UInt16) : Bool := isLetter c || isDigit c || c == unit '.' || c == unit ':'

theorem ne_of_isHostUnit {c d : UInt16} (h : isHostUnit c = true) (hd : isHostUnit d = false) : c ≠ d := by
  rintro rfl
  simp [h] at hd

theorem isKept_of_isHostUnit {c : UInt16} (h : isHostUnit c = true) : isKept c = true := by
  simp only [isKept, isDropped, Bool.and_eq_true, Bool.not_eq_true', Bool.or_eq_false_iff, beq_eq_false_iff_ne, bne_iff_ne]
  exact ⟨⟨⟨ne_of_isHostUnit h (by decide), ne_of_isHostUnit h (by decide)⟩, ne_of_isHostUnit h (by decide)⟩,
    ne_of_isHostUnit h (by decide)⟩

theorem lt_of_isHostUnit {c : UInt16} (h : isHostUnit c = true) : c.toNat < 128 := by
  simp only [isHostUnit, isLetter, isDigit, Bool.or_eq_true, Bool.and_eq_true, decide_eq_true_eq, beq_iff_eq] at h
  rcases h with ((h | h) | rfl) | rfl
  · omega
  · omega
  · decide
  · decide

theorem lowerAscii_of_digit {c : UInt16} (h : isDigit c = true) : lowerAscii c = c := by
  simp only [isDigit, Bool.and_eq_true, decide_eq_true_eq] at h
  rw [lowerAscii, if_neg (by simp; omega)]

/-- The units that only themselves become in small letters. -/
theorem lowerAscii_eq_iff {c d : UInt16} (hd : ¬ (97 ≤ d.toNat ∧ d.toNat ≤ 122)) (hcap : ¬ (65 ≤ d.toNat ∧ d.toNat ≤ 90)) :
    lowerAscii c = d ↔ c = d := by
  unfold lowerAscii
  split
  · next h =>
    simp only [Bool.and_eq_true, decide_eq_true_eq] at h
    constructor
    · rintro rfl
      have hsum : (c + 32).toNat = c.toNat + 32 := by
        rw [UInt16.toNat_add]
        exact Nat.mod_eq_of_lt (by simp; omega)
      omega
    · rintro rfl
      exact absurd h hcap
  · rfl

theorem isLetter_eq_false {d : UInt16} (h : isLetter d = false) :
    ¬ (97 ≤ d.toNat ∧ d.toNat ≤ 122) ∧ ¬ (65 ≤ d.toNat ∧ d.toNat ≤ 90) := by
  simp only [isLetter, Bool.or_eq_false_iff, Bool.and_eq_false_iff, decide_eq_false_iff_not] at h
  omega

theorem map_lowerAscii_eq {h s : JsString} (hs : ∀ d ∈ s, isLetter d = false) (heq : h.map lowerAscii = s) : h = s := by
  induction h generalizing s with
  | nil => simpa using heq
  | cons c h ih =>
    subst heq
    simp only [List.map_cons, List.mem_cons, forall_eq_or_imp] at hs
    obtain ⟨hsmall, hcap⟩ := isLetter_eq_false hs.1
    have hc : c = lowerAscii c := (lowerAscii_eq_iff hsmall hcap).mp rfl
    rw [List.map_cons, ← hc, ← ih hs.2 rfl]

theorem isLetter_of_lowerAscii {c : UInt16} (h : isLetter (lowerAscii c) = true) : isLetter c = true := by
  unfold lowerAscii at h
  split at h
  · next hc =>
    simp only [isLetter, hc, Bool.true_or]
  · exact h

theorem LocalHost.units {h : JsString} (hh : LocalHost h) : ∀ c ∈ h, isHostUnit c = true := by
  cases hh with
  | localhost hh =>
    intro c hc
    have hmem : lowerAscii c ∈ str "localhost" := hh ▸ List.mem_map_of_mem hc
    have hletters : ∀ d ∈ str "localhost", isLetter d = true := by decide
    simp [isHostUnit, isLetter_of_lowerAscii (hletters _ hmem)]
  | ipv6 => decide
  | ipv6Long => decide
  | ipv4 ha hb hc =>
    intro d hd
    simp only [List.mem_append, List.mem_cons] at hd
    rcases hd with hd | hd | rfl | hd | rfl | hd
    · revert d hd
      decide
    · simp [isHostUnit, ha.digits d hd]
    · decide
    · simp [isHostUnit, hb.digits d hd]
    · decide
    · simp [isHostUnit, hc.digits d hd]

theorem LocalHost.not_mem {h : JsString} (hh : LocalHost h) {c : UInt16} (hc : isHostUnit c = false) : c ∉ h := by
  intro hmem
  simp [hh.units c hmem] at hc

theorem LocalHost.reading {h : JsString} (hh : LocalHost h) : reading h = h :=
  reading_of_kept fun c hc => isKept_of_isHostUnit (hh.units c hc)

theorem LocalHost.ascii {h : JsString} (hh : LocalHost h) : ∀ c ∈ h, c.toNat < 128 :=
  fun c hc => lt_of_isHostUnit (hh.units c hc)

theorem LocalHost.ne_nil {h : JsString} (hh : LocalHost h) : h ≠ [] := by
  rintro rfl
  cases hh with
  | localhost hh => simp [str] at hh

/-- A local host with a colon is an address of IPv6. -/
theorem LocalHost.colon_cases {h : JsString} (hh : LocalHost h) :
    unit ':' ∉ h ∧ h.head? ≠ some (unit ':') ∧ h.head? ≠ some (unit '0') ∨
      h = str "::1" ∨ h = str "0:0:0:0:0:0:0:1" := by
  cases hh with
  | localhost hh =>
    refine .inl ⟨?_, ?_, ?_⟩
    · intro hc
      have hmem : lowerAscii (unit ':') ∈ str "localhost" := hh ▸ List.mem_map_of_mem hc
      revert hmem
      decide
    all_goals
      intro hhead
      have hlower := congrArg List.head? hh
      rw [List.head?_map, hhead] at hlower
      revert hlower
      decide
  | ipv6 => exact .inr (.inl rfl)
  | ipv6Long => exact .inr (.inr rfl)
  | ipv4 ha hb hc =>
    refine .inl ⟨?_, by simp [str, unit], by simp [str, unit]⟩
    intro hmem
    have hdigit : ∀ {s}, IsOctet s → unit ':' ∉ s := fun hs hmem => absurd (hs.digits _ hmem) (by decide)
    simp only [List.mem_append, List.mem_cons] at hmem
    rcases hmem with hmem | hmem | hmem | hmem | hmem | hmem
    · revert hmem
      decide
    · exact hdigit ha hmem
    · revert hmem
      decide
    · exact hdigit hb hmem
    · revert hmem
      decide
    · exact hdigit hc hmem

/-- Behind a host without a colon, a colon begins the port. -/
theorem LocalAuthority.hostPort_iff {h x : JsString} (hh : LocalHost h) (hcolon : unit ':' ∉ h) :
    LocalAuthority (h ++ unit ':' :: x) ↔ IsPort x := by
  refine ⟨fun hlocal => ?_, .hostPort hh⟩
  obtain ⟨c, t, rfl⟩ := List.exists_cons_of_ne_nil hh.ne_nil
  have hc : c ≠ unit ':' ∧ c ≠ unit '0' := by
    rcases hh.colon_cases with ⟨-, h₁, h₂⟩ | h | h
    · exact ⟨by simpa using h₁, by simpa using h₂⟩
    · exact absurd (h ▸ hcolon) (by decide)
    · exact absurd (h ▸ hcolon) (by decide)
  have hbracket : c ≠ unit '[' := ne_of_isHostUnit (hh.units c (by simp)) (by decide)
  generalize hs : c :: t ++ unit ':' :: x = s at hlocal
  cases hlocal with
  | host hs' =>
    rcases hs'.colon_cases with ⟨hno, -⟩ | rfl | rfl
    · exact absurd (by simp [← hs]) hno
    · exact absurd (List.cons.inj hs).1 hc.1
    · exact absurd (List.cons.inj hs).1 hc.2
  | @hostPort h' p hh' hp =>
    rcases hh'.colon_cases with ⟨hno, -⟩ | rfl | rfl
    · obtain ⟨-, rfl⟩ := field_inj hcolon hno hs
      exact hp
    · exact absurd (List.cons.inj hs).1 hc.1
    · exact absurd (List.cons.inj hs).1 hc.2
  | bracketed _ => exact absurd (List.cons.inj hs).1 hbracket
  | bracketedPort _ _ => exact absurd (List.cons.inj hs).1 hbracket

/-- Behind a bracketed host there is nothing, or a port. -/
theorem LocalAuthority.bracket_iff {h y : JsString} (hh : LocalHost h) :
    LocalAuthority (unit '[' :: (h ++ unit ']' :: y)) ↔ y = [] ∨ ∃ p, y = unit ':' :: p ∧ IsPort p := by
  have hno : ∀ {h : JsString}, LocalHost h → unit ']' ∉ h := fun hh => hh.not_mem (by decide)
  constructor
  · intro hlocal
    generalize hs : unit '[' :: (h ++ unit ']' :: y) = s at hlocal
    cases hlocal with
    | host hs' => exact absurd (hs ▸ List.mem_cons_self) (hs'.not_mem (by decide))
    | @hostPort h' p hh' hp =>
      obtain ⟨c, t, rfl⟩ := List.exists_cons_of_ne_nil hh'.ne_nil
      exact absurd (List.cons.inj hs).1.symm (ne_of_isHostUnit (hh'.units c (by simp)) (by decide))
    | bracketed hh' => exact .inl (field_inj (hno hh) (hno hh') (List.cons.inj hs).2).2
    | bracketedPort hh' hp => exact .inr ⟨_, (field_inj (hno hh) (hno hh') (List.cons.inj hs).2).2, hp⟩
  · rintro (rfl | ⟨p, rfl, hp⟩)
    · exact .bracketed hh
    · exact .bracketedPort hh hp

theorem isOctetText_iff {s : JsString} : isOctetText s = true ∧ toNumber s ≤ 255 ↔ IsOctet s := by
  constructor
  · rintro ⟨htext, hvalue⟩
    simp only [isOctetText, Bool.and_eq_true, List.all_eq_true, decide_eq_true_eq] at htext
    exact ⟨htext.1.1, ⟨htext.1.2, htext.2⟩, hvalue⟩
  · rintro ⟨hdigits, hlength, hvalue⟩
    simp only [isOctetText, Bool.and_eq_true, List.all_eq_true, decide_eq_true_eq]
    exact ⟨⟨⟨hdigits, hlength.1⟩, hlength.2⟩, hvalue⟩

theorem matchLoopbackRange_eq_some {host : JsString} {groups : List JsString} :
    matchLoopbackRange host = some groups ↔ ∃ a b c, groups = [a, b, c] ∧ groups.all isOctetText = true ∧
      host = str "127." ++ (a ++ unit '.' :: (b ++ unit '.' :: c)) := by
  have hjoin : ∀ a b c : JsString, join [unit '.'] [a, b, c] = a ++ unit '.' :: (b ++ unit '.' :: c) := by
    intro a b c
    simp [join_cons_cons]
  constructor
  · intro h
    unfold matchLoopbackRange stripLit at h
    by_cases hprefix : (str "127.").isPrefixOf host = true
    · obtain ⟨rest, rfl⟩ := List.isPrefixOf_iff_prefix.mp hprefix
      rw [if_pos hprefix] at h
      simp only [List.drop_left] at h
      split at h
      · next hgroups =>
        obtain rfl := Option.some.inj h
        simp only [Bool.and_eq_true, decide_eq_true_eq] at hgroups
        obtain ⟨a, b, c, habc⟩ := List.length_eq_three.mp hgroups.1
        refine ⟨a, b, c, habc, hgroups.2, ?_⟩
        rw [← hjoin, ← habc, join_split]
      · simp at h
    · rw [if_neg hprefix] at h
      simp at h
  · rintro ⟨a, b, c, rfl, hall, rfl⟩
    have hdot : ∀ p ∈ [a, b, c], unit '.' ∉ p := by
      intro p hp hmem
      have htext := List.all_eq_true.mp hall p hp
      simp only [isOctetText, Bool.and_eq_true, List.all_eq_true] at htext
      exact absurd (htext.1.1 _ hmem) (by decide)
    have hprefix : (str "127.").isPrefixOf (str "127." ++ (a ++ unit '.' :: (b ++ unit '.' :: c))) = true :=
      List.isPrefixOf_iff_prefix.mpr (List.prefix_append ..)
    unfold matchLoopbackRange stripLit
    rw [if_pos hprefix, List.drop_left]
    simp only
    rw [← hjoin, split_join (unit '.') (by simp) hdot]
    simp [hall]

theorem isLoopbackHost_cases {host : JsString} (h : isLoopbackHost host = true) :
    host = str "localhost" ∨ host = str "::1" ∨ host = str "0:0:0:0:0:0:0:1" ∨
      ∃ a b c, IsOctet a ∧ IsOctet b ∧ IsOctet c ∧ host = str "127." ++ (a ++ unit '.' :: (b ++ unit '.' :: c)) := by
  unfold isLoopbackHost at h
  split at h
  · next hh => exact .inl hh
  · split at h
    · next hh =>
      simp only [Bool.or_eq_true, decide_eq_true_eq] at hh
      rcases hh with hh | hh
      · exact .inr (.inl hh)
      · exact .inr (.inr (.inl hh))
    · split at h
      · simp at h
      · next groups hgroups =>
        obtain ⟨a, b, c, rfl, htext, hhost⟩ := matchLoopbackRange_eq_some.mp hgroups
        simp only [List.all_cons, List.all_nil, Bool.and_true, Bool.and_eq_true, decide_eq_true_eq] at htext h
        exact .inr (.inr (.inr ⟨a, b, c, isOctetText_iff.mp ⟨htext.1, h.1⟩, isOctetText_iff.mp ⟨htext.2.1, h.2.1⟩,
          isOctetText_iff.mp ⟨htext.2.2, h.2.2⟩, hhost⟩))

theorem dotted_units {a b c : JsString} (ha : IsOctet a) (hb : IsOctet b) (hc : IsOctet c) :
    ∀ d ∈ str "127." ++ (a ++ unit '.' :: (b ++ unit '.' :: c)), isDigit d = true ∨ d = unit '.' ∨ d = unit ':' := by
  intro d hd
  simp only [List.mem_append, List.mem_cons] at hd
  rcases hd with hd | hd | hd | hd | hd | hd
  · revert d hd
    decide
  · exact .inl (ha.digits d hd)
  · exact .inr (.inl hd)
  · exact .inl (hb.digits d hd)
  · exact .inr (.inl hd)
  · exact .inl (hc.digits d hd)

theorem dotted_letters {a b c : JsString} (ha : IsOctet a) (hb : IsOctet b) (hc : IsOctet c) :
    ∀ d ∈ str "127." ++ (a ++ unit '.' :: (b ++ unit '.' :: c)), isLetter d = false := by
  intro d hd
  rcases dotted_units ha hb hc d hd with hdigit | rfl | rfl
  · simp only [isDigit, Bool.and_eq_true, decide_eq_true_eq] at hdigit
    simp only [isLetter, Bool.or_eq_false_iff, Bool.and_eq_false_iff, decide_eq_false_iff_not]
    omega
  · decide
  · decide

/-- A loopback host in small letters comes of no unit that is not ASCII. -/
theorem isPlain_of_isLoopbackHost {host : JsString} (h : isLoopbackHost host = true) : ∀ d ∈ host, CaseTables.IsPlain d := by
  rcases isLoopbackHost_cases h with rfl | rfl | rfl | ⟨a, b, c, ha, hb, hc, rfl⟩
  · decide
  · decide
  · decide
  · intro d hd
    rcases dotted_units ha hb hc d hd with hdigit | rfl | rfl
    · simp only [isDigit, Bool.and_eq_true, decide_eq_true_eq] at hdigit
      refine ⟨by omega, ?_, ?_⟩
      all_goals
        rintro rfl
        revert hdigit
        decide
    · decide
    · decide

theorem isLoopbackHost_iff {h : JsString} : isLoopbackHost (h.map lowerAscii) = true ↔ LocalHost h := by
  have hipv6 : ∀ s ∈ [str "::1", str "0:0:0:0:0:0:0:1"], ∀ d ∈ s, isLetter d = false := by
    decide
  constructor
  · intro hloop
    rcases isLoopbackHost_cases hloop with hh | hh | hh | ⟨a, b, c, ha, hb, hc, hh⟩
    · exact .localhost hh
    · obtain rfl := map_lowerAscii_eq (hipv6 _ (by simp)) hh
      exact .ipv6
    · obtain rfl := map_lowerAscii_eq (hipv6 _ (by simp)) hh
      exact .ipv6Long
    · rw [map_lowerAscii_eq (dotted_letters ha hb hc) hh]
      exact .ipv4 ha hb hc
  · intro hh
    cases hh with
    | localhost hh => simp [isLoopbackHost, hh]
    | ipv6 => decide
    | ipv6Long => decide
    | @ipv4 a b c ha hb hc =>
      have hlower : (str "127." ++ (a ++ unit '.' :: (b ++ unit '.' :: c))).map lowerAscii =
          str "127." ++ (a ++ unit '.' :: (b ++ unit '.' :: c)) := by
        refine (List.map_congr_left fun d hd => ?_).trans (List.map_id _)
        rcases dotted_units ha hb hc d hd with hdigit | rfl | rfl
        · exact lowerAscii_of_digit hdigit
        · rfl
        · rfl
      obtain ⟨hta, hva⟩ := isOctetText_iff.mpr ha
      obtain ⟨htb, hvb⟩ := isOctetText_iff.mpr hb
      obtain ⟨htc, hvc⟩ := isOctetText_iff.mpr hc
      have hgroups := matchLoopbackRange_eq_some.mpr ⟨a, b, c, rfl, by simp [hta, htb, htc], rfl⟩
      rw [hlower, isLoopbackHost, hgroups]
      simp [hva, hvb, hvc]

end sow.policy
