import Sow.Contracts.Models
import Sow.Js.Number

open sow.js sow.contracts

namespace sow.stream

inductive StreamEventName where
  | workflow_status
  | approval_update
  | system_health
  | read_model_change
  deriving DecidableEq

structure StreamEvent (Payload : Type) where
  name : StreamEventName
  seq : Nat
  eventId : JsString
  payload : Payload
  deriving DecidableEq

/-- The UI-safe projections of the four record classes, and the schema gate at the
    publish boundary. -/
structure Projectors (Ref Item Card Payload : Type) where
  workflowRunRef : Ref → Payload
  approval : Approval → Payload
  healthItem : Item → Payload
  dashboardCard : Card → Payload
  safeParse : StreamEvent Payload → Bool

def DEFAULT_REPLAY_WINDOW : Nat := 512

/-- The state of a publisher: its bounded replay log, oldest event first, the
    approval transitions it has emitted, and the next sequence number. -/
structure StreamPublisher (Payload : Type) where
  replayWindow : Nat
  log : List (StreamEvent Payload)
  seenApprovalTransitions : List JsString
  seq : Nat
  deriving DecidableEq

section publisher

variable {Ref Item Card Payload : Type}

def createStreamPublisher (replayWindow : Option Nat) : StreamPublisher Payload :=
  ⟨max 1 (replayWindow.getD DEFAULT_REPLAY_WINDOW), [], [], 0⟩

/-- Append to the bounded log, evicting the oldest over the window. -/
def record (p : StreamPublisher Payload) (ev : StreamEvent Payload) : StreamPublisher Payload :=
  let log := p.log ++ [ev]
  { p with log := if log.length > p.replayWindow then log.drop (log.length - p.replayWindow) else log }

/-- Build, validate and record an event; a candidate that fails the gate is dropped
    without consuming a sequence number. -/
def make (pr : Projectors Ref Item Card Payload) (p : StreamPublisher Payload)
    (build : Nat → JsString → StreamEvent Payload) : Option (StreamEvent Payload) × StreamPublisher Payload :=
  let candidate := build p.seq (decimal p.seq)
  if pr.safeParse candidate = false then (none, p)
  else (some candidate, record { p with seq := p.seq + 1 } candidate)

def publishWorkflowStatus (pr : Projectors Ref Item Card Payload) (p : StreamPublisher Payload) (ref : Ref) :
    Option (StreamEvent Payload) × StreamPublisher Payload :=
  make pr p fun s eventId => ⟨.workflow_status, s, eventId, pr.workflowRunRef ref⟩

def publishApproval (pr : Projectors Ref Item Card Payload) (p : StreamPublisher Payload) (approval : Approval) :
    Option (StreamEvent Payload) × StreamPublisher Payload :=
  let identity := approval.id ++ str ":" ++ approval.status.text
  if identity ∈ p.seenApprovalTransitions then (none, p)
  else
    let made := make pr p fun s eventId => ⟨.approval_update, s, eventId, pr.approval approval⟩
    match made.1 with
    | none => made
    | some ev => (some ev, { made.2 with seenApprovalTransitions := made.2.seenApprovalTransitions ++ [identity] })

def publishHealth (pr : Projectors Ref Item Card Payload) (p : StreamPublisher Payload) (item : Item) :
    Option (StreamEvent Payload) × StreamPublisher Payload :=
  make pr p fun s eventId => ⟨.system_health, s, eventId, pr.healthItem item⟩

def publishReadModelChange (pr : Projectors Ref Item Card Payload) (p : StreamPublisher Payload) (card : Card) :
    Option (StreamEvent Payload) × StreamPublisher Payload :=
  make pr p fun s eventId => ⟨.read_model_change, s, eventId, pr.dashboardCard card⟩

/-- A change that the worker feeds into the publisher. -/
inductive Change (Ref Item Card : Type) where
  | workflowStatus (ref : Ref)
  | approval (approval : Approval)
  | health (item : Item)
  | readModel (card : Card)

def publish (pr : Projectors Ref Item Card Payload) (p : StreamPublisher Payload) :
    Change Ref Item Card → Option (StreamEvent Payload) × StreamPublisher Payload
  | .workflowStatus ref => publishWorkflowStatus pr p ref
  | .approval approval => publishApproval pr p approval
  | .health item => publishHealth pr p item
  | .readModel card => publishReadModelChange pr p card

inductive ResumeOutcome (Payload : Type) where
  | replay (events : List (StreamEvent Payload))
  | resync

def resumeOrResync (p : StreamPublisher Payload) : Option JsString → ResumeOutcome Payload
  | none => .replay p.log
  | some lastEventId =>
    match p.log.findIdx? fun e => e.eventId = lastEventId with
    | some idx => .replay (p.log.drop (idx + 1))
    -- Aged out of the window, or never in it: a lossless replay cannot be proven.
    | none => .resync

/-- What the publisher knows of everything it has ever published. -/
structure Records (p : StreamPublisher Payload) (published : List (StreamEvent Payload)) : Prop where
  seq : p.seq = published.length
  retained : p.log <:+ published
  numbered : published.map (fun e => e.seq) = List.range published.length
  identified : ∀ e ∈ published, e.eventId = decimal e.seq

theorem records_create (replayWindow : Option Nat) :
    Records (createStreamPublisher replayWindow : StreamPublisher Payload) [] :=
  ⟨rfl, List.suffix_rfl, rfl, fun _ h => absurd h List.not_mem_nil⟩

/-- Publishing either drops the change, and the log stays, or records one new event
    under the next sequence number. -/
theorem publish_cases (pr : Projectors Ref Item Card Payload) (p : StreamPublisher Payload) (change : Change Ref Item Card) :
    ((publish pr p change).1 = none ∧ (publish pr p change).2 = p) ∨
      ∃ ev, (publish pr p change).1 = some ev ∧ ev.seq = p.seq ∧ ev.eventId = decimal p.seq ∧
        (publish pr p change).2.seq = p.seq + 1 ∧ (publish pr p change).2.log <:+ p.log ++ [ev] := by
  have hmake : ∀ build : Nat → JsString → StreamEvent Payload, (∀ s i, (build s i).seq = s ∧ (build s i).eventId = i) →
      ((make pr p build).1 = none ∧ (make pr p build).2 = p) ∨
        ∃ ev, (make pr p build).1 = some ev ∧ ev.seq = p.seq ∧ ev.eventId = decimal p.seq ∧
          (make pr p build).2.seq = p.seq + 1 ∧ (make pr p build).2.log <:+ p.log ++ [ev] := by
    intro build hbuild
    simp only [make]
    split_ifs with hgate
    · exact .inl ⟨rfl, rfl⟩
    · refine .inr ⟨_, rfl, (hbuild _ _).1, (hbuild _ _).2, rfl, ?_⟩
      simp only [record]
      split_ifs with hfull
      · exact List.drop_suffix _ _
      · exact List.suffix_rfl
  cases change with
  | workflowStatus ref => exact hmake _ fun _ _ => ⟨rfl, rfl⟩
  | health item => exact hmake _ fun _ _ => ⟨rfl, rfl⟩
  | readModel card => exact hmake _ fun _ _ => ⟨rfl, rfl⟩
  | approval approval =>
    simp only [publish, publishApproval]
    split_ifs with hseen
    · exact .inl ⟨rfl, rfl⟩
    · rcases hmake (fun s eventId => ⟨.approval_update, s, eventId, pr.approval approval⟩) fun _ _ => ⟨rfl, rfl⟩ with
        ⟨hnone, hp⟩ | ⟨ev, hev, hseq, hid, hnext, hlog⟩
      · rw [hnone]
        exact .inl ⟨hnone, hp⟩
      · rw [hev]
        exact .inr ⟨ev, rfl, hseq, hid, hnext, hlog⟩

/-- A recorded event extends what has been published. -/
theorem Records.record {pr : Projectors Ref Item Card Payload} {p : StreamPublisher Payload}
    {published : List (StreamEvent Payload)} (h : Records p published) {change : Change Ref Item Card}
    {ev : StreamEvent Payload} (hev : (publish pr p change).1 = some ev) :
    Records (publish pr p change).2 (published ++ [ev]) := by
  rcases publish_cases pr p change with ⟨hnone, -⟩ | ⟨ev', hev', hseq, hid, hnext, hlog⟩
  · rw [hnone] at hev
    cases hev
  · obtain rfl := Option.some.inj (hev.symm.trans hev')
    constructor
    · rw [hnext, h.seq, List.length_append, List.length_singleton]
    · obtain ⟨evicted, hevicted⟩ := h.retained
      exact hlog.trans ⟨evicted, by rw [← List.append_assoc, hevicted]⟩
    · rw [List.map_append, h.numbered, List.map_singleton, hseq, h.seq, List.length_append, List.length_singleton,
        List.range_succ]
    · intro e he
      rcases List.mem_append.mp he with he | he
      · exact h.identified e he
      · rw [List.mem_singleton.mp he, hseq, hid]

/-- Two published events with one identifier are one event. -/
theorem Records.eventId_nodup {p : StreamPublisher Payload} {published : List (StreamEvent Payload)}
    (h : Records p published) : (published.map fun e => e.eventId).Nodup := by
  have hids : published.map (fun e => e.eventId) = (published.map fun e => e.seq).map decimal := by
    rw [List.map_map]
    exact List.map_congr_left fun e he => h.identified e he
  rw [hids, h.numbered]
  exact List.nodup_range.map decimal_injective

end publisher

end sow.stream
