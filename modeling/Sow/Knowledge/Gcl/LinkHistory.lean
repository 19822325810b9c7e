import Sow.Knowledge.Gcl.CrossWorkspaceLinks
import Sow.Time.Rfc3339

open sow.js sow.contracts sow.policy sow.time

namespace sow.knowledge.gcl

/-- A record whose texts of time are date-times. -/
structure TimedRecord where
  input : RecordLinkInput
  recordedAt : Timestamp
  expiry : Option Timestamp
  recordedAt_text : input.recordedAt = recordedAt.text
  expiry_text : input.approval.bind (·.expiresAt) = expiry.map Timestamp.text

/-- A call that changes the map. -/
inductive LinkCall where
  | recordLink (record : TimedRecord)
  | revokeLink (fromWorkspaceId toWorkspaceId : JsString)

namespace LinkCall

def fromWorkspaceId : LinkCall → JsString
  | .recordLink record => record.input.fromWorkspaceId
  | .revokeLink from_ _ => from_

def toWorkspaceId : LinkCall → JsString
  | .recordLink record => record.input.toWorkspaceId
  | .revokeLink _ to_ => to_

def apply (links : CrossWorkspaceLinkMap) : LinkCall → CrossWorkspaceLinkMap
  | .recordLink record => (links.recordLink record.input).2
  | .revokeLink from_ to_ => (links.revokeLink from_ to_).2

end LinkCall

/-- The map after a sequence of calls. -/
def runCalls (calls : List LinkCall) : CrossWorkspaceLinkMap := calls.foldl LinkCall.apply Map.empty

section purpose

/-- A record of an approval that the owner gave and that is in force. -/
def TimedRecord.Successful (record : TimedRecord) : Prop :=
  endpointsValid record.input.fromWorkspaceId record.input.toWorkspaceId = true ∧
    (isVisibilityLevel record.input.unlockedVisibility).isSome = true ∧
    (∃ approval, record.input.approval = some approval ∧ approval.id ≠ [] ∧ approval.status = .approved) ∧
    ∀ expiry ∈ record.expiry, record.recordedAt.instant < expiry.instant

/-- A call that decides over a pair. -/
def LinkCall.EffectiveOn (from_ to_ : JsString) (call : LinkCall) : Prop :=
  call.fromWorkspaceId = from_ ∧ call.toWorkspaceId = to_ ∧ ∀ record, call = .recordLink record → record.Successful

/-- The last call that decides over the pair recorded a link. -/
def LastRecorded (calls : List LinkCall) (from_ to_ : JsString) (record : TimedRecord) : Prop :=
  ∃ earlier later, calls = earlier ++ .recordLink record :: later ∧
    (LinkCall.recordLink record).EffectiveOn from_ to_ ∧ ∀ call ∈ later, ¬ call.EffectiveOn from_ to_

/-- A link stands between the two, and is in force at the instant. -/
def LinkedAt (calls : List LinkCall) (from_ to_ : JsString) (at_ : Timestamp) : Prop :=
  ∃ record, LastRecorded calls from_ to_ record ∧ ∀ expiry ∈ record.expiry, at_.instant < expiry.instant

end purpose

/-- The request is permitted. -/
def Permits (links : CrossWorkspaceLinkMap) (from_ to_ : JsString) (at_ : Timestamp) : Prop :=
  ∃ authorization, links.authorizeCrossWorkspaceRawRead ⟨from_, to_, some at_.text⟩ = .ok authorization ∧
    authorization.permitted = true

/-- A call is about this pair only where it names it, and its record compares instants. -/
structure LinkCall.Faithful (from_ to_ : JsString) (at_ : Timestamp) (call : LinkCall) : Prop where
  key : endpointsValid call.fromWorkspaceId call.toWorkspaceId = true →
    linkKey call.fromWorkspaceId call.toWorkspaceId = linkKey from_ to_ → call.fromWorkspaceId = from_ ∧ call.toWorkspaceId = to_
  recorded : ∀ record, call = .recordLink record → call.fromWorkspaceId = from_ → call.toWorkspaceId = to_ →
    ∀ expiry ∈ record.expiry, LtUnits record.recordedAt.text expiry.text ↔ record.recordedAt.instant < expiry.instant
  requested : ∀ record, call = .recordLink record → call.fromWorkspaceId = from_ → call.toWorkspaceId = to_ →
    ∀ expiry ∈ record.expiry, LtUnits at_.text expiry.text ↔ at_.instant < expiry.instant

section step

theorem text_ne_nil (t : Timestamp) : t.text ≠ [] := by
  intro h
  have hlen := congrArg List.length h
  simp [Timestamp.text, Timestamp.dateText] at hlen

variable {record : TimedRecord} {approval : Approval} {from_ to_ : JsString} {at_ : Timestamp} {links : CrossWorkspaceLinkMap}
  {call : LinkCall} {calls : List LinkCall} {link : CrossWorkspaceLink}

theorem TimedRecord.approvalExpiry_eq (record : TimedRecord) (h : record.input.approval = some approval) :
    approvalExpiry approval = record.expiry.map Timestamp.text := by
  have htext := record.expiry_text
  rw [h, Option.bind_some] at htext
  unfold approvalExpiry
  rw [htext]
  cases record.expiry with
  | none => rfl
  | some expiry => simp [text_ne_nil]

/-- A stored link keeps the approval and its expiry. -/
theorem TimedRecord.link_eq (h : linkOfInput record.input = .ok link) :
    link.approvalRef ≠ [] ∧ link.expiresAt = record.expiry.map Timestamp.text := by
  obtain ⟨-, level, approval, -, happroval, hid, -, -, rfl⟩ := linkOfInput_eq_ok_iff.mp h
  exact ⟨hid, record.approvalExpiry_eq happroval⟩

/-- The record succeeds where its timestamps are ordered as texts. -/
theorem linkOfInput_ok_iff
    (hexpiry : ∀ expiry ∈ record.expiry, LtUnits record.recordedAt.text expiry.text ↔ record.recordedAt.instant < expiry.instant) :
    (∃ link, linkOfInput record.input = .ok link) ↔ record.Successful := by
  simp only [linkOfInput_eq_ok_iff]
  constructor
  · rintro ⟨-, hends, level, approval, hlevel, happroval, hid, hstatus, hlate, -⟩
    refine ⟨hends, by rw [hlevel, Option.isSome_some], ⟨approval, happroval, hid, hstatus⟩, ?_⟩
    intro expiry hmem
    have hsome : approvalExpiry approval = some expiry.text := by
      rw [record.approvalExpiry_eq happroval, Option.mem_def.mp hmem, Option.map_some]
    have hlt := hlate _ hsome
    rw [← not_ltUnits_iff, not_not, record.recordedAt_text] at hlt
    exact (hexpiry expiry hmem).mp hlt
  · rintro ⟨hends, hlevel, ⟨approval, happroval, hid, hstatus⟩, hlate⟩
    obtain ⟨level, hlevel⟩ := Option.isSome_iff_exists.mp hlevel
    refine ⟨_, hends, level, approval, hlevel, happroval, hid, hstatus, ?_, rfl⟩
    intro expiresAt hsome
    rw [record.approvalExpiry_eq happroval, Option.map_eq_some_iff] at hsome
    obtain ⟨expiry, hmem, rfl⟩ := hsome
    rw [← not_ltUnits_iff, not_not, record.recordedAt_text]
    exact (hexpiry expiry hmem).mpr (hlate expiry hmem)

theorem getLink_recordLink (h : linkOfInput record.input = .ok link) :
    (links.recordLink record.input).2.getLink record.input.fromWorkspaceId record.input.toWorkspaceId = some link := by
  unfold CrossWorkspaceLinkMap.recordLink CrossWorkspaceLinkMap.getLink
  rw [h]
  exact Map.get_set_self ..

theorem getLink_revokeLink (hends : endpointsValid from_ to_ = true) : (links.revokeLink from_ to_).2.getLink from_ to_ = none := by
  unfold CrossWorkspaceLinkMap.revokeLink CrossWorkspaceLinkMap.getLink
  rw [if_pos hends]
  exact Map.get_delete_self ..

/-- A call with another key leaves the link of this pair. -/
theorem getLink_apply_of_key_ne
    (hkey : endpointsValid call.fromWorkspaceId call.toWorkspaceId = true → linkKey call.fromWorkspaceId call.toWorkspaceId ≠ linkKey from_ to_) :
    (call.apply links).getLink from_ to_ = links.getLink from_ to_ := by
  cases call with
  | recordLink record =>
    simp only [LinkCall.apply, CrossWorkspaceLinkMap.recordLink, CrossWorkspaceLinkMap.getLink]
    cases hlink : linkOfInput record.input with
    | error e => rfl
    | ok link => exact Map.get_set_of_ne _ _ (hkey (linkOfInput_eq_ok_iff.mp hlink).1)
  | revokeLink from' to' =>
    simp only [LinkCall.apply, CrossWorkspaceLinkMap.revokeLink, CrossWorkspaceLinkMap.getLink]
    by_cases hends : endpointsValid from' to' = true
    · rw [if_pos hends]
      exact Map.get_delete_of_ne _ (hkey hends)
    · rw [if_neg hends]

/-- A call that does not decide over the pair leaves its link. -/
theorem getLink_apply_of_not_effective (hcall : call.Faithful from_ to_ at_) (hnot : ¬ call.EffectiveOn from_ to_) :
    (call.apply links).getLink from_ to_ = links.getLink from_ to_ := by
  by_cases hpair : call.fromWorkspaceId = from_ ∧ call.toWorkspaceId = to_
  · cases call with
    | recordLink record =>
      have hfails : ¬ record.Successful := by
        intro hok
        apply hnot
        refine ⟨hpair.1, hpair.2, ?_⟩
        rintro record' heq
        cases heq
        exact hok
      rw [← linkOfInput_ok_iff (hcall.recorded record rfl hpair.1 hpair.2)] at hfails
      simp only [LinkCall.apply, CrossWorkspaceLinkMap.recordLink]
      cases hlink : linkOfInput record.input with
      | error e => rfl
      | ok link => exact absurd ⟨link, hlink⟩ hfails
    | revokeLink from' to' =>
      refine absurd ⟨hpair.1, hpair.2, ?_⟩ hnot
      rintro record' heq
      cases heq
  · apply getLink_apply_of_key_ne
    intro hends heq
    exact hpair (hcall.key hends heq)

end step

section run

variable {record : TimedRecord} {from_ to_ : JsString} {at_ : Timestamp} {call : LinkCall} {calls : List LinkCall} {link : CrossWorkspaceLink}

theorem runCalls_append : runCalls (calls ++ [call]) = call.apply (runCalls calls) := by
  unfold runCalls
  rw [List.foldl_append, List.foldl_cons, List.foldl_nil]

theorem lastRecorded_append_iff :
    LastRecorded (calls ++ [call]) from_ to_ record ↔
      (call = .recordLink record ∧ call.EffectiveOn from_ to_) ∨ (¬ call.EffectiveOn from_ to_ ∧ LastRecorded calls from_ to_ record) := by
  constructor
  · rintro ⟨earlier, later, heq, heff, hlater⟩
    rcases List.eq_nil_or_concat' later with rfl | ⟨later, last, rfl⟩
    · obtain ⟨-, hlast⟩ := List.append_inj' heq rfl
      obtain rfl := List.singleton_inj.mp hlast
      exact .inl ⟨rfl, heff⟩
    · rw [← List.cons_append, ← List.append_assoc] at heq
      obtain ⟨hcalls, hlast⟩ := List.append_inj' heq rfl
      obtain rfl := List.singleton_inj.mp hlast
      refine .inr ⟨hlater _ (by simp), earlier, later, hcalls, heff, ?_⟩
      intro call hmem
      exact hlater call (by simp [hmem])
  · rintro (⟨rfl, heff⟩ | ⟨hnot, earlier, later, rfl, heff, hlater⟩)
    · refine ⟨calls, [], rfl, heff, by simp⟩
    · refine ⟨earlier, later ++ [call], by simp, heff, ?_⟩
      intro other hmem
      rw [List.mem_append, List.mem_singleton] at hmem
      obtain hmem | rfl := hmem
      · exact hlater other hmem
      · exact hnot

/-- The map holds the link of the record that stands last. -/
theorem getLink_runCalls_iff (hends : endpointsValid from_ to_ = true) (hcalls : ∀ call ∈ calls, call.Faithful from_ to_ at_) :
    (runCalls calls).getLink from_ to_ = some link ↔ ∃ record, LastRecorded calls from_ to_ record ∧ linkOfInput record.input = .ok link := by
  induction calls using List.reverseRecOn with
  | nil =>
    refine iff_of_false (by simp [runCalls, CrossWorkspaceLinkMap.getLink]) ?_
    rintro ⟨record, ⟨earlier, later, heq, -⟩, -⟩
    simp at heq
  | append_singleton calls call ih =>
    have ih := ih fun call hmem => hcalls call (List.mem_append_left _ hmem)
    have hcall := hcalls call (by simp)
    simp only [runCalls_append, lastRecorded_append_iff]
    by_cases heff : call.EffectiveOn from_ to_
    · cases call with
      | recordLink record =>
        obtain ⟨rfl, rfl, hok⟩ := heff
        obtain ⟨stored, hstored⟩ := (linkOfInput_ok_iff (hcall.recorded record rfl rfl rfl)).mpr (hok record rfl)
        have hget : (LinkCall.apply (runCalls calls) (.recordLink record)).getLink record.input.fromWorkspaceId record.input.toWorkspaceId
            = some stored := getLink_recordLink hstored
        rw [LinkCall.fromWorkspaceId, LinkCall.toWorkspaceId, hget]
        constructor
        · intro heq
          refine ⟨record, .inl ⟨rfl, rfl, rfl, hok⟩, ?_⟩
          rw [hstored, Option.some.inj heq]
        · rintro ⟨record', ⟨heq, -⟩ | ⟨hnot, -⟩, hlink⟩
          · cases heq
            rw [hstored] at hlink
            rw [Except.ok.inj hlink]
          · exact absurd ⟨rfl, rfl, hok⟩ hnot
      | revokeLink from' to' =>
        obtain ⟨rfl, rfl, hok⟩ := heff
        have hget : (LinkCall.apply (runCalls calls) (.revokeLink from' to')).getLink from' to' = none := getLink_revokeLink hends
        rw [LinkCall.fromWorkspaceId, LinkCall.toWorkspaceId, hget]
        refine iff_of_false (by simp) ?_
        rintro ⟨record', ⟨heq, -⟩ | ⟨hnot, -⟩, hlink⟩
        · cases heq
        · exact absurd ⟨rfl, rfl, hok⟩ hnot
    · rw [getLink_apply_of_not_effective hcall heff, ih]
      refine exists_congr fun record => and_congr_left fun _ => ?_
      rw [or_iff_right (fun h => heff h.2), and_iff_right heff]

/-- A link is active where its timestamps are ordered as texts. -/
theorem linkActiveAt_iff (hlink : linkOfInput record.input = .ok link)
    (hexpiry : ∀ expiry ∈ record.expiry, LtUnits at_.text expiry.text ↔ at_.instant < expiry.instant) :
    linkActiveAt link (some at_.text) = true ↔ ∀ expiry ∈ record.expiry, at_.instant < expiry.instant := by
  unfold linkActiveAt
  rw [(TimedRecord.link_eq hlink).2]
  cases h : record.expiry with
  | none => simp
  | some expiry =>
    rw [h] at hexpiry
    simp [text_ne_nil, hexpiry expiry rfl]

/-- Where no other pair joins to the key of this one, and the texts of time are ordered as the
    instants, the requests that the links permit are those of a link that stands. -/
theorem authorizeCrossWorkspaceRawRead_iff (hends : endpointsValid from_ to_ = true)
    (hcalls : ∀ call ∈ calls, call.Faithful from_ to_ at_) : Permits (runCalls calls) from_ to_ at_ ↔ LinkedAt calls from_ to_ at_ := by
  have hrequested (record : TimedRecord) (hlast : LastRecorded calls from_ to_ record) :
      ∀ expiry ∈ record.expiry, LtUnits at_.text expiry.text ↔ at_.instant < expiry.instant := by
    obtain ⟨earlier, later, rfl, heff, -⟩ := hlast
    exact (hcalls (.recordLink record) (by simp)).requested record rfl heff.1 heff.2.1
  have hrecorded (record : TimedRecord) (hlast : LastRecorded calls from_ to_ record) : ∃ link, linkOfInput record.input = .ok link := by
    obtain ⟨earlier, later, rfl, heff, -⟩ := hlast
    apply (linkOfInput_ok_iff ((hcalls (.recordLink record) (by simp)).recorded record rfl heff.1 heff.2.1)).mpr
    exact heff.2.2 record rfl
  unfold Permits LinkedAt
  rw [CrossWorkspaceLinkMap.authorize_ok_iff hends]
  unfold CrossWorkspaceLinkMap.activeLink
  simp only [Option.filter_eq_some_iff, getLink_runCalls_iff hends hcalls]
  constructor
  · rintro ⟨link, ⟨⟨record, hlast, hlink⟩, hactive⟩, -⟩
    exact ⟨record, hlast, (linkActiveAt_iff hlink (hrequested record hlast)).mp hactive⟩
  · rintro ⟨record, hlast, hforce⟩
    obtain ⟨link, hlink⟩ := hrecorded record hlast
    refine ⟨link, ⟨⟨record, hlast, hlink⟩, ?_⟩, (TimedRecord.link_eq hlink).1⟩
    exact (linkActiveAt_iff hlink (hrequested record hlast)).mpr hforce

end run

section spelling

/-- Ids without the delimiter can be read back from their key. -/
theorem linkKey_inj {from_ to_ from' to' : JsString} (hfrom : 0 ∉ from_) (hfrom' : 0 ∉ from') (h : linkKey from_ to_ = linkKey from' to') :
    from_ = from' ∧ to_ = to' := by
  replace h : from_ ++ 0 :: to_ = from' ++ 0 :: to' := by simpa [linkKey] using h
  induction from_ generalizing from' with
  | nil =>
    cases from' with
    | nil => exact ⟨rfl, List.tail_eq_of_cons_eq h⟩
    | cons c from' =>
      obtain ⟨hc, -⟩ : 0 = c ∧ to_ = from' ++ 0 :: to' := List.cons_eq_cons.mp h
      exact absurd (hc ▸ List.mem_cons_self) hfrom'
  | cons c from_ ih =>
    cases from' with
    | nil =>
      obtain ⟨hc, -⟩ : c = 0 ∧ from_ ++ 0 :: to_ = to' := List.cons_eq_cons.mp h
      exact absurd (hc ▸ List.mem_cons_self) hfrom
    | cons c' from' =>
      obtain ⟨rfl, htail⟩ : c = c' ∧ from_ ++ 0 :: to_ = from' ++ 0 :: to' := List.cons_eq_cons.mp h
      obtain ⟨rfl, hto⟩ := ih (fun hmem => hfrom (List.mem_cons_of_mem _ hmem)) (fun hmem => hfrom' (List.mem_cons_of_mem _ hmem)) htail
      exact ⟨rfl, hto⟩

/-- Ids without the delimiter and timestamps of one form are told apart. -/
theorem LinkCall.faithful_of_spelledAlike {call : LinkCall} {from_ to_ : JsString} {at_ : Timestamp} (hfrom : 0 ∉ from_)
    (hcall : 0 ∉ call.fromWorkspaceId)
    (htimes : ∀ record, call = .recordLink record → ∀ expiry ∈ record.expiry,
      record.recordedAt.SpelledAlike expiry ∧ at_.SpelledAlike expiry) : call.Faithful from_ to_ at_ where
  key _ heq := linkKey_inj hcall hfrom heq
  recorded record heq _ _ expiry hmem := Timestamp.ltUnits_text_iff (htimes record heq expiry hmem).1
  requested record heq _ _ expiry hmem := Timestamp.ltUnits_text_iff (htimes record heq expiry hmem).2

end spelling

section

/-- 2026-01-01T00:00:00Z -/
def newYear : Timestamp where
  year := 2026
  month := 1
  day := 1
  hour := 0
  minute := 0
  second := 0
  places := 0
  fraction := 0
  smallT := false
  zone := .utc false
  year_lt := by omega
  month_mem := by omega
  day_mem := by decide
  hour_lt := by omega
  minute_lt := by omega
  second_le := by omega
  fraction_lt := by omega
  zone_valid := trivial

/-- 2026-01-01T00:00:00.5Z -/
def halfPastNewYear : Timestamp := { newYear with places := 1, fraction := 5, fraction_lt := by omega }

/-- 2025-01-01T00:00:00Z -/
def yearBefore : Timestamp := { newYear with year := 2025, year_lt := by omega, day_mem := by decide }

def workLink : TimedRecord where
  input := {
    fromWorkspaceId := str "personal-life"
    toWorkspaceId := str "employer-work"
    unlockedVisibility := VisibilityLevel.full.text
    approval := some {
      id := str "approval-1"
      actionRef := none
      planRef := none
      subjectKind := .external_action
      workspaceId := str "employer-work"
      status := .approved
      actor := str "owner"
      channel := .mac
      payloadHash := []
      snoozeUntil := none
      expiresAt := some newYear.text }
    recordedAt := yearBefore.text }
  recordedAt := yearBefore
  expiry := some newYear
  recordedAt_text := rfl
  expiry_text := rfl

theorem workLink_faithful : ∀ call ∈ [LinkCall.recordLink workLink], call.Faithful (str "personal-life") (str "employer-work") yearBefore := by
  intro call hmem
  rw [List.mem_singleton] at hmem
  subst hmem
  apply LinkCall.faithful_of_spelledAlike (by decide) (by decide)
  rintro record heq expiry hexpiry
  cases heq
  cases hexpiry
  exact ⟨⟨rfl, rfl, rfl, by decide, by decide⟩, ⟨rfl, rfl, rfl, by decide, by decide⟩⟩

theorem authorizeCrossWorkspaceRawRead_iff_workLink :
    Permits (runCalls [.recordLink workLink]) (str "personal-life") (str "employer-work") yearBefore ↔
      LinkedAt [.recordLink workLink] (str "personal-life") (str "employer-work") yearBefore :=
  authorizeCrossWorkspaceRawRead_iff (by decide) workLink_faithful

theorem workLink_recorded : ∃ link, linkOfInput workLink.input = .ok link := by
  have hinput : ∃ level approval, isVisibilityLevel workLink.input.unlockedVisibility = some level ∧ workLink.input.approval = some approval ∧
      approval.id ≠ [] ∧ approval.status = .approved ∧ approvalExpiry approval = some newYear.text :=
    ⟨.full, _, isVisibilityLevel_text .full, rfl, by decide, rfl, by decide⟩
  obtain ⟨level, approval, hlevel, happroval, hid, hstatus, hexpiry⟩ := hinput
  refine ⟨_, linkOfInput_eq_ok_iff.mpr ⟨by decide, level, approval, hlevel, happroval, hid, hstatus, ?_, rfl⟩⟩
  intro expiresAt heq
  obtain rfl := Option.some.inj (hexpiry.symm.trans heq)
  decide

theorem seconds_withFraction (t : Timestamp) {places fraction : Nat} (h : fraction < 10 ^ places) :
    ({ t with places := places, fraction := fraction, fraction_lt := h } : Timestamp).seconds = t.seconds := rfl

theorem newYear_lt_halfPastNewYear : newYear.instant < halfPastNewYear.instant := by
  have hseconds : halfPastNewYear.seconds = newYear.seconds := seconds_withFraction newYear (by omega)
  have hfraction : (newYear.fraction : ℚ) / 10 ^ newYear.places < halfPastNewYear.fraction / 10 ^ halfPastNewYear.places := by
    rw [show newYear.fraction = 0 from rfl, show halfPastNewYear.fraction = 5 from rfl, show halfPastNewYear.places = 1 from rfl]
    norm_num
  have hzone : halfPastNewYear.zone = newYear.zone := rfl
  unfold Timestamp.instant
  rw [hseconds, hzone]
  linarith

/-- Half a second after the expiry the link still permits: a fraction's point is before the `Z`. -/
theorem lateRequest_permitted :
    ¬ ∀ (calls : List LinkCall) (from_ to_ : JsString) (at_ : Timestamp), endpointsValid from_ to_ = true →
      (Permits (runCalls calls) from_ to_ at_ ↔ LinkedAt calls from_ to_ at_) := by
  intro h
  have hpermits : Permits (runCalls [.recordLink workLink]) (str "personal-life") (str "employer-work") halfPastNewYear := by
    obtain ⟨link, hlink⟩ := workLink_recorded
    have hget : (CrossWorkspaceLinkMap.recordLink Map.empty workLink.input).2.getLink
        workLink.input.fromWorkspaceId workLink.input.toWorkspaceId = some link := getLink_recordLink hlink
    apply (CrossWorkspaceLinkMap.authorize_ok_iff (by decide)).mpr
    refine ⟨link, ?_, (TimedRecord.link_eq hlink).1⟩
    unfold CrossWorkspaceLinkMap.activeLink
    rw [Option.filter_eq_some_iff]
    refine ⟨hget, ?_⟩
    unfold linkActiveAt
    rw [(TimedRecord.link_eq hlink).2]
    decide
  obtain ⟨record, ⟨earlier, later, heq, -⟩, hforce⟩ := (h _ _ _ _ (by decide)).mp hpermits
  have hmem : LinkCall.recordLink record ∈ [LinkCall.recordLink workLink] := by
    rw [heq]
    simp
  obtain rfl : record = workLink := LinkCall.recordLink.inj (List.mem_singleton.mp hmem)
  exact (newYear_lt_halfPastNewYear.trans (hforce newYear rfl)).false

end

end sow.knowledge.gcl
