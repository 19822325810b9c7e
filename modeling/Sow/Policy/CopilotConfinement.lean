import Sow.Policy.CopilotTools

open sow.js

namespace sow.copilot

section purpose

variable (tables : CaseTables) (scope : CopilotWorkspaceScope)

/-- A call that is allowed reads of the served source, or leaves the source to the store. -/
def ArgsConfined (mcpToolName : Option JsString) (input : Json) : Prop :=
  ∀ updatedInput, policeGbrainToolArgs tables mcpToolName input scope = .allow updatedInput →
    updatedInput.get (str "all_sources") = none ∧
      ∀ v, updatedInput.get (str "source_id") = some v → ∃ source, servedSource scope = some source ∧ v = .str source

/-- No list and no object. -/
def IsScalar : Json → Prop
  | .arr _ | .obj _ => False
  | _ => True

/-- A number, a boolean, or a text of the item under one of the item's own keys. -/
def OwnField (item : Json) (f : JsString × Json) : Prop :=
  f ∈ fieldsOf item ∧ IsScalar f.2 ∧ ∀ s, f.2 = .str s → f.1 ∈ HIT_KEEP_STRINGS

/-- An edge whose only text is a kept slug. -/
def ConfinedEdge (edge : Json) : Prop :=
  ∃ fields, edge = .obj fields ∧ ∀ f ∈ fields, IsScalar f.2 ∧ ∀ s, f.2 = .str s → f.1 = str "to" ∧ keepSlug s scope = true

/-- What is forwarded of a kept item. -/
def ConfinedItem (item out : Json) : Prop :=
  ∃ fields, out = .obj fields ∧ ∀ f ∈ fields, OwnField item f ∨
    (f.1 = str "links" ∧ ∃ edges, f.2 = .arr edges ∧ ∀ edge ∈ edges, ConfinedEdge scope edge)

/-- Two kept slugs and scalars. -/
def ConfinedPair (out : Json) : Prop :=
  ∃ fields, out = .obj fields ∧ ∀ f ∈ fields, (∃ s, f.2 = .str s ∧ keepSlug s scope = true) ∨ (f.1 ∈ FINDING_KEYS ∧ IsScalar f.2)

/-- The items of a result that are to be kept, with none where the result has no items. -/
def keptItems (op : JsString) (result : Json) : Option (List Json) := do
  let text ← extractPayloadText result
  let parsed ← Json.parse text
  if op = str "find_contradictions" then
    match field parsed (str "contradictions") with
    | some (.arr pairs) => some (pairs.filter (keepPair · scope))
    | _ => none
  else
    match parsed with
    | .arr items => some (items.filter (keepHit · scope))
    | _ => none

/-- A payload of nothing but kept items. -/
def ConfinedPayload (op : JsString) (result payload : Json) : Prop :=
  ∃ kept outs, keptItems scope op result = some kept ∧
    if op = str "find_contradictions" then payload = .obj [(str "contradictions", .arr outs)] ∧ ∀ out ∈ outs, ConfinedPair scope out
    else payload = .arr outs ∧ ∀ out ∈ outs, ∃ item ∈ kept, ConfinedItem scope item out

/-- The operations whose items carry slugs. -/
def SLUG_KEYED : List JsString :=
  [str "search", str "query", str "get_recent_salience", str "traverse_graph", str "find_contradictions"]

/-- The forwarded payload holds nothing but kept items, and depends on nothing else. -/
structure ResultConfined (mcpToolName : Option JsString) (result : Json) : Prop where
  payload : ∀ tool, mcpToolName.bind gbrainReadToolOf = some tool → tool.op ∈ SLUG_KEYED →
    ∀ payload, (redactGbrainToolResult mcpToolName result scope).output.payload = some payload → ConfinedPayload scope tool.op result payload
  determined : ∀ tool, mcpToolName.bind gbrainReadToolOf = some tool → tool.op ∈ SLUG_KEYED →
    ∀ result', keptItems scope tool.op result' = keptItems scope tool.op result →
      (redactGbrainToolResult mcpToolName result' scope).output = (redactGbrainToolResult mcpToolName result scope).output

end purpose

section args

variable {tables : CaseTables} {scope : CopilotWorkspaceScope} {mcpToolName : Option JsString} {tool : GbrainReadTool}
  {input : Json} {fields : List (JsString × Json)} {args updatedInput : Map JsString Json}

/-- The operations that take their source as it comes. -/
def UNPINNED : List JsString := [str "traverse_graph", str "get_timeline", str "get_recent_salience"]

variable (tables scope) in
/-- A source that the model names for an operation that does not pin it is the served one, or the
    call is denied: for every source at once, or for a seed of another workspace. -/
def NamesNoSource (mcpToolName : Option JsString) (input : Json) : Prop :=
  ∀ tool fields source, mcpToolName.bind gbrainReadToolOf = some tool → tool.op ∈ UNPINNED → input = .obj fields →
    (Map.ofList fields).get (str "source_id") = some (.str source) →
      servedSource scope = some source ∨ tables.toLowerCase (trim source) = str "__all__" ∨
        isTruthy tables ((Map.ofList fields).get (str "all_sources")) = true ∨
        (tool.op ≠ str "get_recent_salience" ∧ scope.keeps ⟨seedSlug (.ofList fields), none⟩ = false)

/-- What an allowed call has passed. -/
theorem police_allow_iff :
    policeGbrainToolArgs tables mcpToolName input scope = .allow updatedInput ↔
      ∃ tool fields, mcpToolName.bind gbrainReadToolOf = some tool ∧ input = .obj fields ∧
        (copilotToolScopingClass tool.id = .unscopable → scope.brainPartitioned = some true) ∧
        isTruthy tables ((Map.ofList fields).get (str "all_sources")) = false ∧
        widensSource tables (((Map.ofList fields).delete (str "all_sources")).get (str "source_id")) = false ∧
        scopeArgs tool.op ((Map.ofList fields).delete (str "all_sources")) scope = .allow updatedInput := by
  unfold policeGbrainToolArgs
  cases htool : mcpToolName.bind gbrainReadToolOf with
  | none => simp
  | some tool =>
    cases input with
    | obj fields =>
      by_cases hclass : copilotToolScopingClass tool.id = .unscopable ∧ scope.brainPartitioned ≠ some true
      · simp [hclass]
      · simp only [if_neg hclass]
        have hscoped : copilotToolScopingClass tool.id = .unscopable → scope.brainPartitioned = some true := by
          simpa using hclass
        cases htruthy : isTruthy tables ((Map.ofList fields).get (str "all_sources")) with
        | true => simp [htruthy]
        | false =>
          cases hwidens : widensSource tables (((Map.ofList fields).delete (str "all_sources")).get (str "source_id")) with
          | true => simp [hwidens]
          | false => simpa [htruthy, hwidens] using fun _ => hscoped
    | _ => simp

theorem source_ne_sources : str "all_sources" ≠ str "source_id" := by decide

/-- Scoping sets the slug arguments, and pins the source of the other operations. -/
theorem scopeArgs_get (key : JsString) {op : JsString} (h : scopeArgs op args scope = .allow updatedInput) (hslugKey : str "slugPrefix" ≠ key)
    (hslug : str "slug" ≠ key) :
    updatedInput.get key = if op ∈ UNPINNED then args.get key else (pinSource scope args).get key := by
  unfold scopeArgs at h
  by_cases hseed : op = str "traverse_graph" ∨ op = str "get_timeline"
  · have hmem : op ∈ UNPINNED := by
      rcases hseed with rfl | rfl <;> simp [UNPINNED]
    rw [if_pos hmem]
    rw [if_pos hseed] at h
    split at h
    · cases h
      rfl
    · cases h
  · rw [if_neg hseed] at h
    by_cases hsalience : op = str "get_recent_salience"
    · rw [if_pos (by simp [UNPINNED, hsalience])]
      rw [if_pos hsalience] at h
      split at h
      · cases h
        exact Map.get_set_of_ne _ _ hslugKey
      · cases h
        rfl
    · have hmem : op ∉ UNPINNED := by
        rw [not_or] at hseed
        simp [UNPINNED, hseed, hsalience]
      rw [if_neg hmem]
      rw [if_neg hsalience] at h
      dsimp only at h
      split at h
      · split at h
        · cases h
          exact Map.get_set_of_ne _ _ hslug
        · cases h
          rfl
      · cases h
        rfl

theorem pinSource_source : (pinSource scope args).get (str "source_id") = (servedSource scope).map .str := by
  unfold pinSource
  cases servedSource scope with
  | none => simp
  | some source => simp

theorem pinSource_get {key : JsString} (h : str "source_id" ≠ key) : (pinSource scope args).get key = args.get key := by
  unfold pinSource
  cases servedSource scope with
  | none => exact Map.get_delete_of_ne _ h
  | some source => exact Map.get_set_of_ne _ _ h

/-- The read tools that take their source as it comes are scoped by their items. -/
theorem unpinned_scoping (htool : mcpToolName.bind gbrainReadToolOf = some tool) (hop : tool.op ∈ UNPINNED) :
    copilotToolScopingClass tool.id ≠ .unscopable := by
  obtain ⟨name, -, hname⟩ := Option.bind_eq_some_iff.mp htool
  rw [gbrainReadToolOf_id hname]
  simp only [UNPINNED, List.mem_cons, List.not_mem_nil, or_false] at hop
  rcases hop with hop | hop | hop <;> rw [hop] <;> decide

theorem seedSlug_delete : seedSlug (args.delete (str "all_sources")) = seedSlug args := by
  unfold seedSlug
  rw [Map.get_delete_of_ne _ (by decide)]

/-- An operation that takes its source as it comes is allowed, where its seed is kept. -/
theorem scopeArgs_unpinned {op : JsString} (hop : op ∈ UNPINNED)
    (hseed : op ≠ str "get_recent_salience" → scope.keeps ⟨seedSlug args, none⟩ = true) :
    ∃ updatedInput, scopeArgs op args scope = .allow updatedInput := by
  unfold scopeArgs
  by_cases hwalk : op = str "traverse_graph" ∨ op = str "get_timeline"
  · have hne : op ≠ str "get_recent_salience" := by rcases hwalk with rfl | rfl <;> decide
    rw [if_pos hwalk, if_pos (hseed hne)]
    exact ⟨args, rfl⟩
  · have hsalience : op = str "get_recent_salience" := by
      rw [not_or] at hwalk
      simpa [UNPINNED, hwalk] using hop
    rw [if_neg hwalk, if_pos hsalience]
    cases singleSlugPrefixOf scope with
    | none => exact ⟨args, rfl⟩
    | some p => exact ⟨_, rfl⟩

/-- A walk that is allowed starts from a kept seed. -/
theorem scopeArgs_seed {op : JsString} (h : scopeArgs op args scope = .allow updatedInput) (hop : op ∈ UNPINNED)
    (hne : op ≠ str "get_recent_salience") : scope.keeps ⟨seedSlug args, none⟩ = true := by
  have hwalk : op = str "traverse_graph" ∨ op = str "get_timeline" := by
    simpa [UNPINNED, hne] using hop
  unfold scopeArgs at h
  rw [if_pos hwalk] at h
  split at h
  · next hkeeps => exact hkeeps
  · cases h

/-- The arguments are confined exactly where the model names no source that is taken as it comes. -/
theorem argsConfined_iff : ArgsConfined tables scope mcpToolName input ↔ NamesNoSource tables scope mcpToolName input := by
  constructor
  · intro h tool fields source htool hop hinput hsource
    by_contra hnot
    simp only [not_or, not_and, Bool.not_eq_true, Bool.not_eq_false] at hnot
    obtain ⟨hserved, hall, htruthy, hseed⟩ := hnot
    have hargs : ((Map.ofList fields).delete (str "all_sources")).get (str "source_id") = some (.str source) := by
      rw [Map.get_delete_of_ne _ source_ne_sources, hsource]
    have hwidens : widensSource tables (((Map.ofList fields).delete (str "all_sources")).get (str "source_id")) = false := by
      rw [hargs]
      simpa [widensSource] using hall
    have hkept : tool.op ≠ str "get_recent_salience" → scope.keeps ⟨seedSlug ((Map.ofList fields).delete (str "all_sources")), none⟩ = true := by
      rwa [seedSlug_delete]
    obtain ⟨updatedInput, hscope⟩ := scopeArgs_unpinned hop hkept
    have hget := scopeArgs_get (str "source_id") hscope (by decide) (by decide)
    rw [if_pos hop, hargs] at hget
    have hpoliced := police_allow_iff.mpr
      ⟨tool, fields, htool, hinput, fun hclass => absurd hclass (unpinned_scoping htool hop), htruthy, hwidens, hscope⟩
    obtain ⟨source', hserved', heq⟩ := (h updatedInput hpoliced).2 _ hget
    cases heq
    exact hserved hserved'
  · intro h updatedInput hpoliced
    obtain ⟨tool, fields, htool, hinput, -, htruthy, hwidens, hscope⟩ := police_allow_iff.mp hpoliced
    have hgone := scopeArgs_get (str "all_sources") hscope (by decide) (by decide)
    have hget := scopeArgs_get (str "source_id") hscope (by decide) (by decide)
    rw [pinSource_get source_ne_sources.symm, ite_self, Map.get_delete_self] at hgone
    refine ⟨hgone, ?_⟩
    intro v hv
    rw [hget] at hv
    by_cases hop : tool.op ∈ UNPINNED
    · rw [if_pos hop] at hv
      rw [hv] at hwidens
      have hsource : (Map.ofList fields).get (str "source_id") = some v := by
        rw [← hv, Map.get_delete_of_ne _ source_ne_sources]
      cases v with
      | str source =>
        obtain hserved | hall | hall | ⟨hne, hseed⟩ := h tool fields source htool hop hinput hsource
        · exact ⟨source, hserved, rfl⟩
        · simp [widensSource, hall] at hwidens
        · rw [htruthy] at hall
          cases hall
        · have hkept := scopeArgs_seed hscope hop hne
          rw [seedSlug_delete, hseed] at hkept
          cases hkept
      | _ => simp [widensSource] at hwidens
    · rw [if_neg hop, pinSource_source, Option.map_eq_some_iff] at hv
      obtain ⟨source, hserved, rfl⟩ := hv
      exact ⟨source, hserved, rfl⟩

end args

section result

variable {scope : CopilotWorkspaceScope} {mcpToolName : Option JsString} {tool : GbrainReadTool} {result result' : Json}
  {item pair edge : Json} {f : JsString × Json} {keepStrings : List JsString}

/-- The severity, axis and confidence of the findings that are kept are scalars. -/
def ScalarFindings (scope : CopilotWorkspaceScope) (mcpToolName : Option JsString) (result : Json) : Prop :=
  ∀ tool pairs, mcpToolName.bind gbrainReadToolOf = some tool → tool.op = str "find_contradictions" →
    keptItems scope tool.op result = some pairs → ∀ pair ∈ pairs, ∀ k ∈ FINDING_KEYS, ∀ v, field pair k = some v → IsScalar v

theorem mem_allowItemFields (h : f ∈ (allowItemFields item keepStrings).entries) : f ∈ fieldsOf item ∧ allowsField keepStrings f = true := by
  obtain ⟨k, v⟩ := f
  have hmem := List.mem_filter.mp (Map.mem_of_get_ofList (Map.get_eq_some_iff.mpr h))
  simp only [Bool.and_eq_true] at hmem
  exact ⟨hmem.1, hmem.2.1⟩

theorem isScalar_of_allowsField (h : allowsField keepStrings f = true) : IsScalar f.2 ∧ ∀ s, f.2 = .str s → f.1 ∈ keepStrings := by
  obtain ⟨k, v⟩ := f
  unfold allowsField at h
  cases v <;> simp_all [IsScalar]

theorem ownField_of_allowItemFields (h : f ∈ (allowItemFields item HIT_KEEP_STRINGS).entries) : OwnField item f := by
  obtain ⟨hmem, hallows⟩ := mem_allowItemFields h
  exact ⟨hmem, isScalar_of_allowsField hallows⟩

/-- An edge is forwarded with its kept target and no other text. -/
theorem confinedEdge_redactEdge (h : keepSlug (edgeTarget edge) scope = true) : ConfinedEdge scope (redactEdge edge) := by
  refine ⟨_, rfl, ?_⟩
  rintro ⟨k, v⟩ hmem
  rw [← Map.get_eq_some_iff, Map.get_set] at hmem
  split at hmem
  · next hk =>
    cases hmem
    refine ⟨trivial, ?_⟩
    rintro s heq
    cases heq
    exact ⟨hk.symm, h⟩
  · obtain ⟨-, hallows⟩ := mem_allowItemFields (Map.get_eq_some_iff.mp hmem)
    obtain ⟨hscalar, hkeep⟩ := isScalar_of_allowsField hallows
    refine ⟨hscalar, ?_⟩
    intro s heq
    simp [EDGE_KEEP_STRINGS] at hkeep
    exact absurd heq (hkeep s)

theorem confinedItem_hit : ConfinedItem scope item (.obj (allowItemFields item HIT_KEEP_STRINGS).entries) :=
  ⟨_, rfl, fun _ hmem => .inl (ownField_of_allowItemFields hmem)⟩

theorem confinedItem_node : ConfinedItem scope item (redactNodeLinks item scope) := by
  have hset (edges : List Json) (hedges : ∀ edge ∈ edges, ConfinedEdge scope edge) :
      ConfinedItem scope item (.obj ((allowItemFields item HIT_KEEP_STRINGS).set (str "links") (.arr edges)).entries) := by
    refine ⟨_, rfl, ?_⟩
    rintro ⟨k, v⟩ hmem
    rw [← Map.get_eq_some_iff, Map.get_set] at hmem
    split at hmem
    · next hk =>
      cases hmem
      exact .inr ⟨hk.symm, edges, rfl, hedges⟩
    · exact .inl (ownField_of_allowItemFields (Map.get_eq_some_iff.mp hmem))
  unfold redactNodeLinks
  cases hlinks : field item (str "links") with
  | none => exact confinedItem_hit
  | some links =>
    cases links with
    | arr links =>
      apply hset
      intro edge hmem
      obtain ⟨lnk, hlnk, rfl⟩ := List.mem_map.mp hmem
      exact confinedEdge_redactEdge (List.mem_filter.mp hlnk).2
    | _ => exact hset [] (by simp)

/-- A kept pair is forwarded confined where what was found is scalar. -/
theorem confinedPair_a4Strip_iff (hkeep : keepPair pair scope = true) :
    ConfinedPair scope (a4Strip pair) ↔ ∀ k ∈ FINDING_KEYS, ∀ v, field pair k = some v → IsScalar v := by
  unfold keepPair at hkeep
  simp only [Bool.and_eq_true] at hkeep
  obtain ⟨⟨-, ha⟩, hb⟩ := hkeep
  constructor
  · rintro ⟨fields, heq, hfields⟩ k hk v hv
    obtain rfl := Json.obj.inj heq
    have hmem : (k, v) ∈ FINDING_KEYS.filterMap fun k => (field pair k).map (k, ·) :=
      List.mem_filterMap.mpr ⟨k, hk, by rw [hv, Option.map_some]⟩
    obtain ⟨s, hs, -⟩ | ⟨-, hscalar⟩ := hfields (k, v) (List.mem_append_right _ hmem)
    · obtain rfl : v = .str s := hs
      trivial
    · exact hscalar
  · intro h
    refine ⟨_, rfl, ?_⟩
    intro f hmem
    rw [List.mem_append, List.mem_cons, List.mem_singleton] at hmem
    obtain (rfl | rfl) | hmem := hmem
    · exact .inl ⟨_, rfl, ha⟩
    · exact .inl ⟨_, rfl, hb⟩
    · obtain ⟨k, hk, hf⟩ := List.mem_filterMap.mp hmem
      obtain ⟨v, hv, rfl⟩ := Option.map_eq_some_iff.mp hf
      exact .inr ⟨hk, h k hk v hv⟩

/-- What is forwarded of the kept items. -/
def forwarded (scope : CopilotWorkspaceScope) (op : JsString) (kept : List Json) : Json :=
  if op = str "find_contradictions" then .obj [(str "contradictions", .arr (kept.map a4Strip))]
  else if op = str "traverse_graph" then .arr (kept.map (redactNodeLinks · scope))
  else .arr (kept.map fun h => .obj (allowItemFields h HIT_KEEP_STRINGS).entries)

theorem slugKeyed_scoping (htool : mcpToolName.bind gbrainReadToolOf = some tool) (hop : tool.op ∈ SLUG_KEYED) :
    copilotToolScopingClass tool.id ≠ .unscopable := by
  obtain ⟨name, -, hname⟩ := Option.bind_eq_some_iff.mp htool
  rw [gbrainReadToolOf_id hname]
  simp only [SLUG_KEYED, List.mem_cons, List.not_mem_nil, or_false] at hop
  rcases hop with hop | hop | hop | hop | hop <;> rw [hop] <;> decide

/-- The payload is made of the kept items alone. -/
theorem redact_output (htool : mcpToolName.bind gbrainReadToolOf = some tool) (hop : tool.op ∈ SLUG_KEYED) :
    (redactGbrainToolResult mcpToolName result scope).output = ⟨(keptItems scope tool.op result).map (forwarded scope tool.op)⟩ := by
  have hclass := slugKeyed_scoping htool hop
  have htimeline : tool.op ≠ str "get_timeline" := by
    simp only [SLUG_KEYED, List.mem_cons, List.not_mem_nil, or_false] at hop
    rcases hop with hop | hop | hop | hop | hop <;> rw [hop] <;> decide
  unfold redactGbrainToolResult keptItems forwarded
  simp only [htool, hclass, false_and, if_false]
  cases extractPayloadText result with
  | none => rfl
  | some text =>
    cases hparse : Json.parse text with
    | none => simp [hparse, failClosed, EMPTY_ENVELOPE]
    | some parsed =>
      by_cases hgraph : tool.op = str "traverse_graph"
      · have hne : str "traverse_graph" ≠ str "find_contradictions" := by decide
        rw [hgraph]
        cases parsed <;> simp [hparse, hne, redactTraverseGraph, failClosed, EMPTY_ENVELOPE, envelopeOf]
      · by_cases hpairs : tool.op = str "find_contradictions"
        · have hne : str "find_contradictions" ≠ str "traverse_graph" := by decide
          rw [hpairs]
          simp only [hne, if_false, if_true, Option.bind_eq_bind, Option.bind_some, hparse, redactContradictions]
          cases field parsed (str "contradictions") with
          | none => rfl
          | some pairs => cases pairs <;> rfl
        · cases parsed <;>
            simp [hparse, hgraph, hpairs, htimeline, redactHitCollection, failClosed, EMPTY_ENVELOPE, envelopeOf]

theorem keptItems_keepPair {kept : List Json} (h : keptItems scope (str "find_contradictions") result = some kept) :
    ∀ pair ∈ kept, keepPair pair scope = true := by
  unfold keptItems at h
  obtain ⟨text, -, h⟩ := Option.bind_eq_some_iff.mp h
  obtain ⟨parsed, -, h⟩ := Option.bind_eq_some_iff.mp h
  rw [if_pos rfl] at h
  split at h
  · cases h
    intro pair hmem
    exact (List.mem_filter.mp hmem).2
  · cases h

/-- A result is confined exactly where the findings that are kept are scalar. -/
theorem resultConfined_iff : ResultConfined scope mcpToolName result ↔ ScalarFindings scope mcpToolName result := by
  constructor
  · intro h tool pairs htool hop hkept pair hmem
    have hkeyed : tool.op ∈ SLUG_KEYED := by simp [SLUG_KEYED, hop]
    have houtput := h.payload tool htool hkeyed (forwarded scope tool.op pairs) (by rw [redact_output htool hkeyed, hkept]; rfl)
    obtain ⟨kept, outs, hkept', hpayload⟩ := houtput
    unfold forwarded at hpayload
    rw [if_pos hop, if_pos hop] at hpayload
    obtain ⟨heq, hpairs⟩ := hpayload
    simp only [Json.obj.injEq, List.cons.injEq, Prod.mk.injEq, Json.arr.injEq, true_and, and_true] at heq
    rw [hop] at hkept
    rw [← confinedPair_a4Strip_iff (keptItems_keepPair hkept pair hmem)]
    apply hpairs
    rw [← heq]
    exact List.mem_map_of_mem hmem
  · intro h
    refine ⟨?_, ?_⟩
    · intro tool htool hkeyed payload hpayload
      rw [redact_output htool hkeyed] at hpayload
      obtain ⟨kept, hkept, rfl⟩ := Option.map_eq_some_iff.mp hpayload
      unfold forwarded
      by_cases hpairs : tool.op = str "find_contradictions"
      · refine ⟨kept, kept.map a4Strip, hkept, ?_⟩
        rw [if_pos hpairs, if_pos hpairs]
        refine ⟨rfl, ?_⟩
        intro out hmem
        obtain ⟨pair, hpair, rfl⟩ := List.mem_map.mp hmem
        have hkeep := keptItems_keepPair (hpairs ▸ hkept) pair hpair
        exact (confinedPair_a4Strip_iff hkeep).mpr (h tool kept htool hpairs hkept pair hpair)
      · by_cases hgraph : tool.op = str "traverse_graph"
        · refine ⟨kept, kept.map (redactNodeLinks · scope), hkept, ?_⟩
          rw [if_neg hpairs, if_neg hpairs, if_pos hgraph]
          refine ⟨rfl, ?_⟩
          intro out hmem
          obtain ⟨item, hitem, rfl⟩ := List.mem_map.mp hmem
          exact ⟨item, hitem, confinedItem_node⟩
        · refine ⟨kept, kept.map fun h => .obj (allowItemFields h HIT_KEEP_STRINGS).entries, hkept, ?_⟩
          rw [if_neg hpairs, if_neg hpairs, if_neg hgraph]
          refine ⟨rfl, ?_⟩
          intro out hmem
          obtain ⟨item, hitem, rfl⟩ := List.mem_map.mp hmem
          exact ⟨item, hitem, confinedItem_hit⟩
    · intro tool htool hkeyed result' heq
      rw [redact_output htool hkeyed, redact_output htool hkeyed, heq]

end result

/-- The tool path is confined exactly where the model names no source that is taken as it comes,
    and the findings that are kept are scalar. -/
theorem gbrainTools_confined_iff (tables : CaseTables) (scope : CopilotWorkspaceScope) (mcpToolName : Option JsString) (input result : Json) :
    (ArgsConfined tables scope mcpToolName input ∧ ResultConfined scope mcpToolName result) ↔
      (NamesNoSource tables scope mcpToolName input ∧ ScalarFindings scope mcpToolName result) :=
  and_congr argsConfined_iff resultConfined_iff

section

/-- One workspace in a brain of one source. -/
def personalScope : CopilotWorkspaceScope where
  servedWorkspaceId := str "personal-life"
  registry := [⟨str "personal-life", [str "personal-life"], none⟩]
  policy := .deny
  brainPartitioned := none

/-- A recency read asked of another workspace's source. -/
def foreignSource : Json := .obj [(str "source_id", .str (str "employer-repo"))]

/-- A recency read goes to the source that the model names. -/
theorem foreignSource_allowed :
    ¬ ∀ (tables : CaseTables) (scope : CopilotWorkspaceScope) (mcpToolName : Option JsString) (input result : Json),
      scope.brainPartitioned ≠ some true →
        ArgsConfined tables scope mcpToolName input ∧ ResultConfined scope mcpToolName result := by
  intro h
  have hconfined := (h asciiTables personalScope (some (str "mcp__gbrain__get_recent_salience")) foreignSource .null (by decide)).1
  have hnamed := argsConfined_iff.mp hconfined ⟨str "get_recent_salience", str "gbrain.get_recent_salience"⟩
    [(str "source_id", .str (str "employer-repo"))] (str "employer-repo") (by decide) (by decide) rfl rfl
  obtain hserved | hall | htruthy | ⟨hne, -⟩ := hnamed
  · exact absurd hserved (by decide)
  · exact absurd hall (by decide)
  · exact absurd htruthy (by decide)
  · exact hne rfl

end

end sow.copilot
