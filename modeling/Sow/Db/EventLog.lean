import Mathlib.Data.Prod.Lex
import Sow.Db.Errors
import Sow.Sql.Keyset

open sow.js sow.sql

namespace sow.db

/-- The columns that the scan looks at, and the body that it hands on. Text columns
    are compared under the collation of the database. -/
structure EventLogRecord (Text Body : Type) where
  eventId : Text
  recordedAt : Text
  body : Body
  deriving DecidableEq

namespace eventLog

variable {Text Body : Type}

/-- `asc(recordedAt), asc(eventId)` -/
def scanOrder (r : EventLogRecord Text Body) : Text ×ₗ Text := toLex (r.recordedAt, r.eventId)

theorem scanOrder_ne {r r' : EventLogRecord Text Body} (h : r.eventId ≠ r'.eventId) : scanOrder r ≠ scanOrder r' := by
  intro heq
  exact h (Prod.mk.inj (toLex.injective heq)).2

variable [LinearOrder Text]

/-- The rows of the table in the order of their insertion; `eventId` is the primary
    key, and `duplicate` what a violation of it is mapped to. -/
def append (duplicate : DbError) (log : List (EventLogRecord Text Body)) (record : EventLogRecord Text Body) :
    DbResult Unit × List (EventLogRecord Text Body) :=
  if log.any fun r => r.eventId = record.eventId then (.error duplicate, log)
  else (.ok (), log ++ [record])

/-- `or(gt(recordedAt, cursor.recordedAt), and(eq(recordedAt, cursor.recordedAt), gt(eventId, afterEventId)))` -/
def afterCursor (cursor : EventLogRecord Text Body) (afterEventId : Text) (r : EventLogRecord Text Body) : Bool :=
  cursor.recordedAt < r.recordedAt || (r.recordedAt = cursor.recordedAt && afterEventId < r.eventId)

/-- The message of the error names the event; `name` writes its id out. -/
def readSince (name : Text → JsString) (log : List (EventLogRecord Text Body)) (afterEventId : Option Text) (limit : Nat) :
    DbResult (List (EventLogRecord Text Body)) :=
  match afterEventId with
  | none => .ok ((orderBy scanOrder log).take limit)
  | some afterEventId =>
    match log.find? fun r => r.eventId = afterEventId with
    | none => .error (notFound (str "event " ++ name afterEventId))
    | some cursor => .ok ((orderBy scanOrder (log.filter (afterCursor cursor afterEventId))).take limit)

/-- A call on the log by its writers or by its one reader. -/
inductive Call (Text Body : Type) where
  | append (record : EventLogRecord Text Body)
  | readSince (limit : Nat)

/-- The log, and what the reader has received. -/
abbrev Session (Text Body : Type) := Scan (EventLogRecord Text Body)

/-- The reader passes the id of the last record it has received. -/
def Session.afterEventId (s : Session Text Body) : Option Text := s.received.getLast?.map (·.eventId)

section run

variable (duplicate : DbError) (name : Text → JsString)

def Session.step (s : Session Text Body) : Call Text Body → Session Text Body
  | .append record => { s with rows := (append duplicate s.rows record).2 }
  | .readSince limit =>
    match readSince name s.rows s.afterEventId limit with
    | .ok rows => { s with received := s.received ++ rows }
    | .error _ => s

def Session.run (s : Session Text Body) (calls : List (Call Text Body)) : Session Text Body :=
  calls.foldl (Session.step duplicate name) s

def opened : Session Text Body := ⟨[], []⟩

/-- The reader has drained the log: a page of a positive size came back empty. -/
def Session.Drained (s : Session Text Body) : Prop :=
  ∃ limit, 0 < limit ∧ readSince name s.rows s.afterEventId limit = .ok []

/-- The reader has received no event twice and, if it has drained the log, every event. -/
structure Session.Complete (s : Session Text Body) : Prop where
  once : s.received.Nodup
  all : s.Drained name → ∀ e ∈ s.rows, e ∈ s.received

/-- However the reader goes on, it loses nothing. -/
def Session.LosesNothing (s : Session Text Body) : Prop :=
  ∀ limits : List Nat, (s.run duplicate name (limits.map .readSince)).Complete name

end run

/-- The record comes before the cursor in the order of the scan. -/
def Session.BehindCursor (s : Session Text Body) (record : EventLogRecord Text Body) : Prop :=
  ∃ cursor, s.received.getLast? = some cursor ∧
    (record.recordedAt < cursor.recordedAt ∨ (record.recordedAt = cursor.recordedAt ∧ record.eventId < cursor.eventId))

/-- Every event that the log accepts is appended ahead of the cursor of the moment. -/
def LandsAhead (duplicate : DbError) (name : Text → JsString) (s : Session Text Body) (calls : List (Call Text Body)) : Prop :=
  ∀ before record after, calls = before ++ .append record :: after →
    (append duplicate (s.run duplicate name before).rows record).1 = .ok () →
    ¬ (s.run duplicate name before).BehindCursor record

section scan

variable {duplicate : DbError} {name : Text → JsString} {s : Session Text Body}

theorem scanOrder_lt_iff (r r' : EventLogRecord Text Body) :
    scanOrder r < scanOrder r' ↔ r.recordedAt < r'.recordedAt ∨ (r.recordedAt = r'.recordedAt ∧ r.eventId < r'.eventId) :=
  Prod.Lex.toLex_lt_toLex

theorem behindCursor_iff (record : EventLogRecord Text Body) : s.BehindCursor record ↔ s.Behind scanOrder record := by
  unfold Session.BehindCursor Scan.Behind Scan.cursor
  constructor
  · rintro ⟨cursor, hcursor, hlt⟩
    exact ⟨_, by rw [hcursor]; rfl, (scanOrder_lt_iff ..).mpr hlt⟩
  · rintro ⟨c, hc, hlt⟩
    obtain ⟨cursor, hcursor, rfl⟩ := Option.map_eq_some_iff.mp hc
    exact ⟨cursor, hcursor, (scanOrder_lt_iff ..).mp hlt⟩

/-- The ids in the table are distinct, and the reader holds records of it. -/
structure Session.Keyed (s : Session Text Body) : Prop where
  ids : s.rows.Pairwise fun a b => a.eventId ≠ b.eventId
  ordered : s.Ordered scanOrder

theorem Session.Keyed.find (h : s.Keyed) {r : EventLogRecord Text Body} (hr : r ∈ s.rows) :
    s.rows.find? (fun r' => r'.eventId = r.eventId) = some r := by
  obtain ⟨before, after, hsplit⟩ := List.append_of_mem hr
  have hids := h.ids
  rw [hsplit, List.pairwise_append] at hids
  rw [hsplit, List.find?_append, List.find?_eq_none.mpr fun r' hr' => ?_]
  · simp
  · simpa using hids.2.2 r' hr' r (List.mem_cons_self ..)

/-- The scan after the reader's cursor is the page of its order. -/
theorem Session.Keyed.readSince_eq (h : s.Keyed) (limit : Nat) :
    readSince name s.rows s.afterEventId limit = .ok (page scanOrder (s.cursor scanOrder) limit s.rows) := by
  unfold readSince Session.afterEventId page Scan.cursor
  cases hlast : s.received.getLast? with
  | none => simp
  | some cursor =>
    simp only [Option.map_some, h.find (h.ordered.mem cursor (List.mem_of_getLast? hlast)), Option.all_some]
    congr 4
    funext r
    have hlt := scanOrder_lt_iff cursor r
    rw [eq_comm (a := cursor.recordedAt)] at hlt
    simp only [afterCursor, hlt, Bool.decide_or, Bool.decide_and]

theorem append_ok_iff (log : List (EventLogRecord Text Body)) (record : EventLogRecord Text Body) :
    (append duplicate log record).1 = .ok () ↔ ∀ r ∈ log, r.eventId ≠ record.eventId := by
  unfold append
  split_ifs with hany
  · simpa using hany
  · simpa using hany

theorem Session.step_append (record : EventLogRecord Text Body) :
    s.step duplicate name (.append record) =
      if (append duplicate s.rows record).1 = .ok () then s.insert record else s := by
  by_cases hany : s.rows.any fun r => r.eventId = record.eventId
  · simp only [Session.step, append, if_pos hany, reduceCtorEq, if_false]
  · simp only [Session.step, append, if_neg hany, if_true, Scan.insert]

theorem Session.Keyed.step_readSince (h : s.Keyed) (limit : Nat) :
    s.step duplicate name (.readSince limit) = s.read scanOrder limit := by
  simp only [Session.step, h.readSince_eq]
  rfl

theorem Session.Keyed.step (h : s.Keyed) (call : Call Text Body) : (s.step duplicate name call).Keyed := by
  cases call with
  | append record =>
    rw [Session.step_append]
    split_ifs with hok
    · rw [append_ok_iff] at hok
      refine ⟨?_, h.ordered.insert fun r hr => scanOrder_ne (hok r hr)⟩
      refine List.pairwise_append.mpr ⟨h.ids, List.pairwise_singleton .., ?_⟩
      intro r hr r' hr'
      rw [List.mem_singleton.mp hr']
      exact hok r hr
    · exact h
  | readSince limit =>
    rw [h.step_readSince]
    exact ⟨h.ids, h.ordered.read limit⟩

theorem Session.Keyed.run (h : s.Keyed) (duplicate : DbError) (name : Text → JsString) (calls : List (Call Text Body)) : (s.run duplicate name calls).Keyed := by
  induction calls generalizing s with
  | nil => exact h
  | cons call calls ih => exact ih (h.step call)

/-- What one call may leave behind the cursor. -/
theorem Session.Keyed.nothingBehind_step_iff (h : s.Keyed) (call : Call Text Body) :
    (s.step duplicate name call).NothingBehind scanOrder ↔
      s.NothingBehind scanOrder ∧
        ∀ record, call = .append record → (append duplicate s.rows record).1 = .ok () → ¬ s.BehindCursor record := by
  cases call with
  | append record =>
    rw [Session.step_append]
    split_ifs with hok
    · have hfresh := (append_ok_iff s.rows record).mp hok
      rw [h.ordered.nothingBehind_insert_iff fun r hr => scanOrder_ne (hfresh r hr), ← behindCursor_iff]
      refine and_congr_right fun _ => ⟨?_, fun hahead => hahead record rfl hok⟩
      rintro hbehind _ ⟨⟩ _
      exact hbehind
    · refine ⟨fun hnothing => ⟨hnothing, ?_⟩, fun hboth => hboth.1⟩
      rintro _ ⟨⟩ hok'
      exact absurd hok' hok
  | readSince limit =>
    rw [h.step_readSince, h.ordered.nothingBehind_read_iff]
    exact ⟨fun hnothing => ⟨hnothing, fun _ hcall => nomatch hcall⟩, fun hboth => hboth.1⟩

theorem landsAhead_cons_iff (call : Call Text Body) (calls : List (Call Text Body)) :
    LandsAhead duplicate name s (call :: calls) ↔
      (∀ record, call = .append record → (append duplicate s.rows record).1 = .ok () → ¬ s.BehindCursor record) ∧
        LandsAhead duplicate name (s.step duplicate name call) calls := by
  constructor
  · intro h
    refine ⟨?_, ?_⟩
    · rintro record rfl
      exact h [] record calls rfl
    · rintro before record after rfl
      exact h (call :: before) record after rfl
  · rintro ⟨hhead, htail⟩ before record after hsplit
    cases before with
    | nil => exact hhead record (List.cons.inj hsplit).1
    | cons call' before =>
      obtain ⟨rfl, hrest⟩ := List.cons.inj hsplit
      exact htail before record after hrest

/-- A run leaves something behind exactly if one of its appends does. -/
theorem Session.Keyed.nothingBehind_run_iff (h : s.Keyed) (calls : List (Call Text Body)) :
    (s.run duplicate name calls).NothingBehind scanOrder ↔
      s.NothingBehind scanOrder ∧ LandsAhead duplicate name s calls := by
  induction calls generalizing s with
  | nil => simp [Session.run, LandsAhead]
  | cons call calls ih =>
    rw [landsAhead_cons_iff, ← and_assoc, ← h.nothingBehind_step_iff]
    exact ih (h.step call)

theorem Session.Keyed.drained_iff (h : s.Keyed) : s.Drained name ↔ Scan.Drained scanOrder s := by
  simp only [Session.Drained, Scan.Drained, h.readSince_eq, Except.ok.injEq]

theorem landsAhead_readSince (limits : List Nat) : LandsAhead duplicate name s (limits.map .readSince) := by
  intro before record after hsplit
  have hmem : Call.append record ∈ limits.map (Call.readSince : Nat → Call Text Body) := by
    rw [hsplit]
    exact List.mem_append_right _ (List.mem_cons_self ..)
  obtain ⟨limit, -, hcall⟩ := List.mem_map.mp hmem
  cases hcall

theorem Session.Keyed.losesNothing_iff (h : s.Keyed) : s.LosesNothing duplicate name ↔ s.NothingBehind scanOrder := by
  constructor
  · intro hloses
    -- One page as long as the log drains it.
    have hcomplete := hloses [s.rows.length]
    have hkeyed := h.run duplicate name [.readSince s.rows.length]
    rw [List.map_singleton] at hcomplete
    have hrun : s.run duplicate name [.readSince s.rows.length] = s.read scanOrder s.rows.length :=
      @Session.Keyed.step_readSince _ _ _ duplicate name _ h _
    rw [hrun] at hcomplete hkeyed
    rw [← h.ordered.nothingBehind_read_iff s.rows.length]
    intro e he
    exact .inl (hcomplete.all (hkeyed.drained_iff.mpr h.ordered.drained_read) e he)
  · intro hnothing limits
    have hkeyed := h.run duplicate name (limits.map .readSince)
    refine ⟨hkeyed.ordered.nodup, fun hdrained => ?_⟩
    have hnothing' := h.nothingBehind_run_iff (limits.map .readSince) |>.mpr
      ⟨hnothing, @landsAhead_readSince _ _ _ duplicate name s limits⟩
    exact hnothing'.received_of_drained (hkeyed.drained_iff.mp hdrained)

theorem opened_keyed : (opened : Session Text Body).Keyed := by
  refine ⟨List.Pairwise.nil, List.Pairwise.nil, ?_, List.Pairwise.nil⟩
  intro row hrow
  cases hrow

end scan

/-- The cursor of the event log loses nothing, whatever is appended and read in
    whatever order and pages, exactly if no event that the log accepts lands behind
    the cursor of the moment. -/
theorem readSince_losesNothing_iff (duplicate : DbError) (name : Text → JsString) (calls : List (Call Text Body)) :
    ((opened : Session Text Body).run duplicate name calls).LosesNothing duplicate name ↔
      LandsAhead duplicate name opened calls := by
  rw [(opened_keyed.run duplicate name calls).losesNothing_iff, opened_keyed.nothingBehind_run_iff]
  refine and_iff_right ?_
  intro e he
  cases he

section session

/-- Two events of one instant, the one of the smaller id appended once the other has been read. -/
def lateSmallerId : List (Call (List Nat) Unit) :=
  [.append ⟨[101, 50], [48], ()⟩, .readSince 10, .append ⟨[101, 49], [48], ()⟩]

theorem readSince_loses_smaller_id :
    ¬ ((opened : Session (List Nat) Unit).run ⟨.conflict, [], none⟩ (fun _ => []) lateSmallerId).LosesNothing
      ⟨.conflict, [], none⟩ (fun _ => []) := by
  intro h
  have hmem := (h [1]).all ⟨1, by decide, rfl⟩ ⟨[101, 49], [48], ()⟩ (by decide)
  revert hmem
  decide

end session

end eventLog

end sow.db
