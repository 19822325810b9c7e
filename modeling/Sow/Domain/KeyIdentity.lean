import Sow.Domain.Keys
import Sow.Knowledge.KnowledgeWriter.MemoryPorts

open sow.js
open sow.knowledge_writer (Sha256 isHexDigit KnownDigests tabulated tabulated_law digits_of_all)

namespace sow.domain

/-- The fields of an identity as the keys read them: names trimmed and lower-cased, values trimmed. -/
def normalizedFields (tables : CaseTables) (identity : Identity) : Identity :=
  identity.map fun e => (tables.toLowerCase (trim e.1), trim e.2)

section order

theorem LeEntry.antisymm {a b : JsString × JsString} (h : LeEntry a b) (h' : LeEntry b a) : a = b := by
  unfold LeEntry at h h'
  by_cases hname : a.1 = b.1
  · rw [if_pos hname] at h
    rw [if_pos hname.symm] at h'
    exact Prod.ext hname (h.antisymm h')
  · rw [if_neg hname] at h
    rw [if_neg (Ne.symm hname)] at h'
    exact absurd (h.antisymm h') hname

theorem LeEntry.trans {a b c : JsString × JsString} (h : LeEntry a b) (h' : LeEntry b c) : LeEntry a c := by
  unfold LeEntry at h h' ⊢
  by_cases hab : a.1 = b.1
  · rw [if_pos hab] at h
    by_cases hbc : b.1 = c.1
    · rw [if_pos hbc] at h'
      rw [if_pos (hab.trans hbc)]
      exact IsTrans.trans _ _ _ h h'
    · rw [if_neg hbc] at h'
      rw [if_neg (hab ▸ hbc), hab]
      exact h'
  · rw [if_neg hab] at h
    by_cases hbc : b.1 = c.1
    · rw [if_neg (hbc ▸ hab), ← hbc]
      exact h
    · rw [if_neg hbc] at h'
      have hac : LeUnits a.1 c.1 := IsTrans.trans _ _ _ h h'
      rw [if_neg]
      · exact hac
      · intro heq
        exact hab (h.antisymm (heq ▸ h'))

theorem LeEntry.total (a b : JsString × JsString) : LeEntry a b ∨ LeEntry b a := by
  unfold LeEntry
  by_cases hname : a.1 = b.1
  · rw [if_pos hname, if_pos hname.symm]
    exact Std.Total.total a.2 b.2
  · rw [if_neg hname, if_neg (Ne.symm hname)]
    exact Std.Total.total a.1 b.1

instance : IsTrans (JsString × JsString) LeEntry := ⟨fun _ _ _ => LeEntry.trans⟩

instance : Std.Total LeEntry := ⟨LeEntry.total⟩

end order

section identity

variable {tables : CaseTables} {sha256 : Sha256} {a b : Identity}

/-- The sorted entries are a canonical form of the fields as a multiset. -/
theorem normalizeIdentity_eq_iff :
    normalizeIdentity tables a = normalizeIdentity tables b ↔ (normalizedFields tables a).Perm (normalizedFields tables b) := by
  have hsorted : ∀ i, (normalizeIdentity tables i).Pairwise LeEntry := fun i => List.pairwise_insertionSort LeEntry _
  have hperm : ∀ i, (normalizeIdentity tables i).Perm (normalizedFields tables i) := fun i => List.perm_insertionSort LeEntry _
  constructor
  · intro h
    exact (hperm a).symm.trans (h ▸ hperm b)
  · intro h
    refine @List.Perm.eq_of_pairwise _ LeEntry _ _ (fun x y _ _ hxy hyx => hxy.antisymm hyx) (hsorted a) (hsorted b) ?_
    exact (hperm a).trans (h.trans (hperm b).symm)

/-- The value a key is the digest of: its version, its label, and the sorted entries. -/
def preimageJson (version label : JsString) (entries : Identity) : Json := .arr [.str version, .str label, entriesJson entries]

theorem textual_preimageJson (version label : JsString) (entries : Identity) :
    (preimageJson version label entries).Textual := by
  have hentries : (entriesJson entries).Textual := by
    refine .arr fun v hv => ?_
    obtain ⟨e, -, rfl⟩ := List.mem_map.mp hv
    refine .arr fun w hw => ?_
    simp only [List.mem_cons, List.not_mem_nil, or_false] at hw
    rcases hw with rfl | rfl
    · exact .str e.1
    · exact .str e.2
  refine .arr fun v hv => ?_
  simp only [List.mem_cons, List.not_mem_nil, or_false] at hv
  rcases hv with rfl | rfl | rfl
  · exact .str version
  · exact .str label
  · exact hentries

theorem entriesJson_injective {es es' : Identity} (h : entriesJson es = entriesJson es') : es = es' := by
  have hpair : Function.Injective fun e : JsString × JsString => Json.arr [.str e.1, .str e.2] := by
    intro e e' he
    simpa [Prod.ext_iff] using he
  exact List.map_injective_iff.mpr hpair (Json.arr.inj h)

/-- No two values share a digest: the text of one is well formed, and read back as it. -/
theorem digest_preimage_inj (hsha : Function.Injective sha256) {v v' label label' : JsString} {es es' : Identity}
    (h : sha256.text (preimageJson v label es).stringify = sha256.text (preimageJson v' label' es').stringify) :
    v = v' ∧ label = label' ∧ es = es' := by
  have hleft := textual_preimageJson v label es
  have hright := textual_preimageJson v' label' es'
  have htext : (preimageJson v label es).stringify = (preimageJson v' label' es').stringify :=
    utf8_injective hleft.isWellFormed_stringify hright.isWellFormed_stringify (hsha h)
  have hvalue := (hleft.stringify_append_inj hright (congrArg (· ++ []) htext)).1
  simp only [preimageJson, Json.arr.injEq, List.cons.injEq, Json.str.injEq, and_true] at hvalue
  exact ⟨hvalue.1, hvalue.2.1, entriesJson_injective hvalue.2.2⟩

/-- A digest holds no underscore, so the last one of a key ends its label. -/
theorem label_append_digest_inj (hsha : sha256.Law) {label label' : JsString} {x y : List UInt8}
    (h : label ++ str "_" ++ sha256 x = label' ++ str "_" ++ sha256 y) : label = label' ∧ sha256 x = sha256 y := by
  have hunderscore : ∀ bytes, unit '_' ∉ (sha256 bytes).reverse := by
    intro bytes hmem
    exact absurd (hsha.hex bytes _ (List.mem_reverse.mp hmem)) (by decide)
  have hreverse := congrArg List.reverse h
  simp only [List.reverse_append, show (str "_").reverse = [unit '_'] from rfl, List.append_assoc, List.singleton_append] at hreverse
  obtain ⟨hdigest, hlabel⟩ := field_inj (hunderscore x) (hunderscore y) hreverse
  exact ⟨List.reverse_inj.mp hlabel, List.reverse_inj.mp hdigest⟩

theorem buildCanonicalObjectKey_eq_iff (hsha : sha256.Law) {targetSystem targetSystem' : JsString} :
    buildCanonicalObjectKey tables sha256 targetSystem a = buildCanonicalObjectKey tables sha256 targetSystem' b ↔
      targetSystem = targetSystem' ∧ (normalizedFields tables a).Perm (normalizedFields tables b) := by
  constructor
  · intro h
    unfold buildCanonicalObjectKey at h
    simp only [List.append_assoc] at h
    have htail := List.append_cancel_left h
    simp only [← List.append_assoc] at htail
    obtain ⟨-, hdigest⟩ := label_append_digest_inj hsha htail
    obtain ⟨-, hsystem, hentries⟩ := digest_preimage_inj hsha.injective hdigest
    exact ⟨hsystem, normalizeIdentity_eq_iff.mp hentries⟩
  · rintro ⟨rfl, hperm⟩
    unfold buildCanonicalObjectKey
    rw [normalizeIdentity_eq_iff.mpr hperm]

theorem buildIdempotencyKey_eq_iff (hsha : Function.Injective sha256) {operation operation' : JsString} :
    buildIdempotencyKey tables sha256 operation a = buildIdempotencyKey tables sha256 operation' b ↔
      tables.toLowerCase (trim operation) = tables.toLowerCase (trim operation') ∧
        (normalizedFields tables a).Perm (normalizedFields tables b) := by
  constructor
  · intro h
    unfold buildIdempotencyKey at h
    obtain ⟨-, hoperation, hentries⟩ := digest_preimage_inj hsha (List.append_cancel_left h)
    exact ⟨hoperation, normalizeIdentity_eq_iff.mp hentries⟩
  · rintro ⟨hoperation, hperm⟩
    unfold buildIdempotencyKey
    rw [normalizeIdentity_eq_iff.mpr hperm, hoperation]

/-- The two kinds of keys are told apart by their first letter. -/
theorem buildCanonicalObjectKey_ne_buildIdempotencyKey (targetSystem operation : JsString) :
    buildCanonicalObjectKey tables sha256 targetSystem a ≠ buildIdempotencyKey tables sha256 operation b := by
  intro h
  unfold buildCanonicalObjectKey buildIdempotencyKey at h
  simp only [List.append_assoc] at h
  exact absurd (List.cons.inj h).1 (by decide)

end identity

/-- The keys name exactly the normalized operation, in any order of the fields, and
    the two kinds of keys never meet. -/
theorem keys_identify (tables : CaseTables) (sha256 : Sha256) (hsha : sha256.Law) :
    (∀ targetSystem targetSystem' a b,
      buildCanonicalObjectKey tables sha256 targetSystem a = buildCanonicalObjectKey tables sha256 targetSystem' b ↔
        targetSystem = targetSystem' ∧ (normalizedFields tables a).Perm (normalizedFields tables b)) ∧
    (∀ operation operation' a b,
      buildIdempotencyKey tables sha256 operation a = buildIdempotencyKey tables sha256 operation' b ↔
        tables.toLowerCase (trim operation) = tables.toLowerCase (trim operation') ∧
          (normalizedFields tables a).Perm (normalizedFields tables b)) ∧
    ∀ targetSystem operation a b,
      buildCanonicalObjectKey tables sha256 targetSystem a ≠ buildIdempotencyKey tables sha256 operation b := by
  refine ⟨fun targetSystem targetSystem' a b => ?_, fun operation operation' a b => ?_, fun targetSystem operation a b => ?_⟩
  · exact buildCanonicalObjectKey_eq_iff hsha
  · exact buildIdempotencyKey_eq_iff hsha.injective
  · exact buildCanonicalObjectKey_ne_buildIdempotencyKey targetSystem operation

section issue

def issuePreimage : JsString := str "[\"sow.cok.v1\",\"github\",[[\"number\",\"7\"],[\"repo\",\"sow\"]]]"

def issueEntries : List (List UInt8 × JsString) :=
  [(utf8 issuePreimage, str "fc265446428049b9969543358e30bbb9aa7622543b840f895bf4fe77d8f794ca")]

theorem issueEntries_distinct : (issueEntries.map Prod.snd).Nodup := by decide

theorem issueEntries_digits : ∀ e ∈ issueEntries, e.2.length = 64 ∧ ∀ c ∈ e.2, isHexDigit c = true :=
  digits_of_all (by decide +kernel)

/-- The digest of the key of one issue. -/
def issueDigests : KnownDigests := ⟨issueEntries, issueEntries_distinct, issueEntries_digits⟩

/-- Either order of the fields of an issue gives its key. -/
theorem issueKey_identifies :
    buildCanonicalObjectKey asciiTables (tabulated issueDigests) (str "github") [(str " Repo", str "sow "), (str "number", str "7")] =
      str "cok_github_fc265446428049b9969543358e30bbb9aa7622543b840f895bf4fe77d8f794ca" ∧
    buildCanonicalObjectKey asciiTables (tabulated issueDigests) (str "github") [(str "number", str "7"), (str "repo", str "sow")] =
      str "cok_github_fc265446428049b9969543358e30bbb9aa7622543b840f895bf4fe77d8f794ca" ∧
    (normalizedFields asciiTables [(str " Repo", str "sow "), (str "number", str "7")]).Perm
      (normalizedFields asciiTables [(str "number", str "7"), (str "repo", str "sow")]) := by
  have hrepo : buildCanonicalObjectKey asciiTables (tabulated issueDigests) (str "github")
      [(str " Repo", str "sow "), (str "number", str "7")] = str "cok_github_fc265446428049b9969543358e30bbb9aa7622543b840f895bf4fe77d8f794ca" := by
    decide +kernel
  have hnumber : buildCanonicalObjectKey asciiTables (tabulated issueDigests) (str "github")
      [(str "number", str "7"), (str "repo", str "sow")] = str "cok_github_fc265446428049b9969543358e30bbb9aa7622543b840f895bf4fe77d8f794ca" := by
    decide +kernel
  refine ⟨hrepo, hnumber, ?_⟩
  have hidentify := (keys_identify asciiTables (tabulated issueDigests) (tabulated_law issueDigests)).1
  exact ((hidentify _ _ _ _).mp (hrepo.trans hnumber.symm)).2

end issue

end sow.domain
