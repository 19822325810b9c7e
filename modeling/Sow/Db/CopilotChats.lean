import Mathlib.Algebra.Order.Floor.Defs
import Mathlib.Data.Rat.Floor
import Sow.Db.Errors
import Sow.Js.Int32
import Sow.Js.Number
import Sow.Sql.Keyset

open sow.js sow.sql

namespace sow.db

namespace copilotChats

structure CopilotChatRow where
  chatId : JsString
  workspaceId : JsString
  title : JsString
  createdAt : JsString
  updatedAt : JsString
  deriving DecidableEq

/-- A row of the table of turns; `turnId` is its primary key. -/
structure TurnRecord where
  turnId : JsString
  chatId : JsString
  workspaceId : JsString
  seq : Nat
  question : JsString
  answer : JsString
  createdAt : JsString
  deriving DecidableEq

structure CopilotChatTurnRow where
  chatId : JsString
  seq : Nat
  question : JsString
  answer : JsString
  createdAt : JsString
  deriving DecidableEq

structure AppendCopilotChatTurn where
  workspaceId : JsString
  chatId : JsString
  title : JsString
  question : JsString
  answer : JsString
  createdAt : JsString

/-- The two tables, their rows in the order of insertion. -/
structure Store where
  chats : List CopilotChatRow
  turns : List TurnRecord

def turnIdOf (chatId : JsString) (seq : Nat) : JsString := chatId ++ str ":" ++ decimal seq

def toTurnRow (r : TurnRecord) : CopilotChatTurnRow := ⟨r.chatId, r.seq, r.question, r.answer, r.createdAt⟩

/-- `undefined` asks for all turns; of the numbers, those that are not finite come as nothing. -/
def newestCount : Option (Option ℚ) → Option Nat
  | none => none
  | some none => some 0
  | some (some n) => some (if 1 ≤ n then n.floor.toNat else 0)

def conflict (message : JsString) : DbError := ⟨.conflict, message, none⟩

/-- Only the code of an error and a fixed message go on. -/
def scrubbed (e : DbError) (message : JsString) : DbError := ⟨e.code, message, none⟩

section repository

variable (maxTurns : Nat) (duplicate : DbError)

def Store.chatHere (s : Store) (workspaceId chatId : JsString) : Option CopilotChatRow :=
  s.chats.find? fun c => c.chatId = chatId && c.workspaceId = workspaceId

/-- The turn takes the number after the greatest that its chat has, and the oldest turns go. A
    primary key that is taken throws, and the transaction is rolled back. -/
def Store.insertTurn (s : Store) (chats : List CopilotChatRow) (turn : AppendCopilotChatTurn) : DbResult Nat × Store :=
  let top := ((s.turns.filter fun t => t.chatId = turn.chatId).map TurnRecord.seq).max?
  let seq := (numberPlus (top.getD 0) 1).toNat
  let row : TurnRecord :=
    ⟨turnIdOf turn.chatId seq, turn.chatId, turn.workspaceId, seq, turn.question, turn.answer, turn.createdAt⟩
  if s.turns.any fun t => t.turnId = row.turnId then
    (.error (scrubbed duplicate (str "copilot_chats append failed")), s)
  else
    (.ok seq, ⟨chats, (s.turns ++ [row]).filter fun t => !(t.chatId = turn.chatId && (t.seq : Int) ≤ numberPlus seq (-maxTurns))⟩)

def Store.appendTurn (s : Store) (turn : AppendCopilotChatTurn) : DbResult Nat × Store :=
  match s.chats.find? fun c => c.chatId = turn.chatId with
  | some existing =>
    if existing.workspaceId ≠ turn.workspaceId then (.error (conflict (str "copilot chat belongs to another workspace")), s)
    else s.insertTurn maxTurns duplicate
      (s.chats.map fun c => if c.chatId = turn.chatId then { c with updatedAt := turn.createdAt } else c) turn
  | none => s.insertTurn maxTurns duplicate (s.chats ++ [⟨turn.chatId, turn.workspaceId, turn.title, turn.createdAt, turn.createdAt⟩]) turn

/-- `collation` is the order that the database has on its texts. -/
def Store.listChats {Key : Type} [LinearOrder Key] (collation : JsString → Key) (s : Store) (workspaceId : JsString) (limit : Int) :
    List CopilotChatRow :=
  (orderByDesc (fun c => toLex (collation c.updatedAt, collation c.chatId)) (s.chats.filter fun c => c.workspaceId = workspaceId)).take
    (max 0 limit).toNat

def Store.getChat (s : Store) (workspaceId chatId : JsString) : DbResult CopilotChatRow :=
  match s.chatHere workspaceId chatId with
  | none => .error (notFound (str "copilot chat"))
  | some row => .ok row

def Store.getTurns (s : Store) (workspaceId chatId : JsString) (newest : Option (Option ℚ)) : DbResult (List CopilotChatTurnRow) :=
  match s.chatHere workspaceId chatId with
  | none => .error (notFound (str "copilot chat"))
  | some _ =>
    let rows := s.turns.filter fun t => t.chatId = chatId && t.workspaceId = workspaceId
    match newestCount newest with
    | none => .ok ((orderBy TurnRecord.seq rows).map toTurnRow)
    | some 0 => .ok []
    | some n => .ok (((orderByDesc TurnRecord.seq rows).take n).reverse.map toTurnRow)

def Store.deleteChat (s : Store) (workspaceId chatId : JsString) : DbResult Unit × Store :=
  match s.chatHere workspaceId chatId with
  | none => (.error (notFound (str "copilot chat")), s)
  | some _ => (.ok (), ⟨s.chats.filter fun c => !(c.chatId = chatId && c.workspaceId = workspaceId),
      s.turns.filter fun t => !(t.chatId = chatId && t.workspaceId = workspaceId)⟩)

/-- A call that writes. -/
inductive Call where
  | appendTurn (turn : AppendCopilotChatTurn)
  | deleteChat (workspaceId chatId : JsString)

def Call.workspaceId : Call → JsString
  | appendTurn turn => turn.workspaceId
  | deleteChat workspaceId _ => workspaceId

/-- What a call answers: the number of the turn, or nothing. -/
def Store.call (s : Store) : Call → DbResult (Option Nat) × Store
  | .appendTurn turn => ((s.appendTurn maxTurns duplicate turn).1.map some, (s.appendTurn maxTurns duplicate turn).2)
  | .deleteChat workspaceId chatId => ((s.deleteChat workspaceId chatId).1.map fun _ => none, (s.deleteChat workspaceId chatId).2)

def Store.run (s : Store) (calls : List Call) : Store := calls.foldl (fun s call => (s.call maxTurns duplicate call).2) s

end repository

section logs

structure Entry where
  question : JsString
  answer : JsString
  createdAt : JsString

/-- A chat with every turn appended to it since it was created. -/
structure Chat where
  workspaceId : JsString
  title : JsString
  createdAt : JsString
  updatedAt : JsString
  entries : List Entry

abbrev Logs : Type := JsString → Option Chat

def Logs.set (logs : Logs) (chatId : JsString) (chat : Option Chat) : Logs := fun id => if id = chatId then chat else logs id

/-- A chat with one more turn; numbers go up to `2 ^ 53`. -/
def Logs.extend (duplicate : DbError) (logs : Logs) (turn : AppendCopilotChatTurn) (chat : Chat) : DbResult Nat × Logs :=
  if chat.entries.length < 2 ^ 53 then
    (.ok (chat.entries.length + 1), logs.set turn.chatId (some { chat with
      updatedAt := turn.createdAt
      entries := chat.entries ++ [⟨turn.question, turn.answer, turn.createdAt⟩] }))
  else (.error (scrubbed duplicate (str "copilot_chats append failed")), logs)

def Logs.append (duplicate : DbError) (logs : Logs) (turn : AppendCopilotChatTurn) : DbResult Nat × Logs :=
  match logs turn.chatId with
  | none => logs.extend duplicate turn ⟨turn.workspaceId, turn.title, turn.createdAt, turn.createdAt, []⟩
  | some chat =>
    if chat.workspaceId = turn.workspaceId then logs.extend duplicate turn chat
    else (.error (conflict (str "copilot chat belongs to another workspace")), logs)

/-- The chat as its own workspace finds it. -/
def Logs.here (logs : Logs) (workspaceId chatId : JsString) : Option Chat := (logs chatId).filter fun chat => chat.workspaceId = workspaceId

def Logs.delete (logs : Logs) (workspaceId chatId : JsString) : DbResult Unit × Logs :=
  match logs.here workspaceId chatId with
  | none => (.error (notFound (str "copilot chat")), logs)
  | some _ => (.ok (), logs.set chatId none)

def Logs.call (duplicate : DbError) (logs : Logs) : Call → DbResult (Option Nat) × Logs
  | .appendTurn turn => ((logs.append duplicate turn).1.map some, (logs.append duplicate turn).2)
  | .deleteChat workspaceId chatId => ((logs.delete workspaceId chatId).1.map fun _ => none, (logs.delete workspaceId chatId).2)

def Logs.run (duplicate : DbError) (logs : Logs) (calls : List Call) : Logs := calls.foldl (fun logs call => (logs.call duplicate call).2) logs

/-- The last `k` of a list. -/
def lastOf {α : Type} (k : Nat) (l : List α) : List α := l.drop (l.length - k)

/-- The last turns of a chat, numbered from the first ever appended. -/
def Chat.turns (maxTurns : Nat) (chatId : JsString) (chat : Chat) : List CopilotChatTurnRow :=
  (lastOf maxTurns (chat.entries.zipIdx 1)).map fun e => ⟨chatId, e.2, e.1.question, e.1.answer, e.1.createdAt⟩

def Chat.row (chatId : JsString) (chat : Chat) : CopilotChatRow := ⟨chatId, chat.workspaceId, chat.title, chat.createdAt, chat.updatedAt⟩

/-- The store answers as the logs do, and lets no workspace change a chat of another. -/
structure Refines (maxTurns : Nat) (duplicate : DbError) (s : Store) (logs : Logs) : Prop where
  call : ∀ call, (s.call maxTurns duplicate call).1 = (logs.call duplicate call).1
  getTurns : ∀ workspaceId chatId newest, s.getTurns workspaceId chatId newest =
    match logs.here workspaceId chatId with
    | none => .error (notFound (str "copilot chat"))
    | some chat => .ok (match newestCount newest with
      | none => chat.turns maxTurns chatId
      | some n => lastOf n (chat.turns maxTurns chatId))
  getChat : ∀ workspaceId chatId, s.getChat workspaceId chatId =
    match logs.here workspaceId chatId with
    | none => .error (notFound (str "copilot chat"))
    | some chat => .ok (chat.row chatId)
  listChats : ∀ {Key : Type} [LinearOrder Key] (collation : JsString → Key) workspaceId limit,
    ∀ row ∈ s.listChats collation workspaceId limit, s.getChat workspaceId row.chatId = .ok row
  isolated : ∀ call, ∀ row ∈ s.chats, row.workspaceId ≠ call.workspaceId → row ∈ (s.call maxTurns duplicate call).2.chats ∧
    (s.call maxTurns duplicate call).2.turns.filter (fun t => t.chatId = row.chatId) = s.turns.filter fun t => t.chatId = row.chatId
  turnIds : (s.turns.map TurnRecord.turnId).Nodup

end logs

section lists

variable {α : Type}

theorem filter_zipIdx (l : List α) (start k : Nat) : (l.zipIdx start).filter (fun e => start + k ≤ e.2) = (l.zipIdx start).drop k := by
  induction l generalizing start k with
  | nil => simp
  | cons a l ih =>
    rw [List.zipIdx_cons]
    cases k with
    | zero =>
      rw [List.drop_zero, List.filter_eq_self]
      intro e he
      rcases List.mem_cons.mp he with rfl | he
      · simp
      · have hle := (List.mem_zipIdx he).1
        simp only [decide_eq_true_eq]
        omega
    | succ k =>
      have hnext := ih (start + 1) k
      rw [List.drop_succ_cons, ← hnext, List.filter_cons_of_neg (by simp)]
      apply List.filter_congr
      intro e _
      have harith : start + (k + 1) = start + 1 + k := by omega
      rw [harith]

/-- Dropping more of a numbered list is filtering what was left of it. -/
theorem filter_drop_zipIdx (l : List α) (start : Nat) {j k : Nat} (hjk : j ≤ k) :
    ((l.zipIdx start).drop j).filter (fun e => start + k ≤ e.2) = (l.zipIdx start).drop k := by
  rw [← filter_zipIdx l start j, List.filter_filter, ← filter_zipIdx l start k]
  apply List.filter_congr
  intro e _
  rw [← Bool.decide_and, decide_eq_decide]
  omega

theorem reverse_take_reverse (l : List α) (k : Nat) : (l.reverse.take k).reverse = lastOf k l := by
  rw [lastOf, List.take_reverse, List.reverse_reverse]

theorem map_lastOf {β : Type} (f : α → β) (k : Nat) (l : List α) : (lastOf k l).map f = lastOf k (l.map f) := by
  rw [lastOf, lastOf, List.map_drop, List.length_map]

theorem mem_lastOf_zipIdx {l : List α} {k : Nat} {e : α × Nat} (h : e ∈ lastOf k (l.zipIdx 1)) : 1 ≤ e.2 ∧ e.2 ≤ l.length := by
  have hmem := List.mem_zipIdx (List.mem_of_mem_drop h)
  omega

end lists

section represents

/-- The row of a numbered turn. -/
def turnRecord (chatId workspaceId : JsString) (e : Entry × Nat) : TurnRecord :=
  ⟨turnIdOf chatId e.2, chatId, workspaceId, e.2, e.1.question, e.1.answer, e.1.createdAt⟩

/-- The rows that are kept of a chat. -/
def Chat.records (maxTurns : Nat) (chatId : JsString) (chat : Chat) : List TurnRecord :=
  (lastOf maxTurns (chat.entries.zipIdx 1)).map (turnRecord chatId chat.workspaceId)

/-- The tables hold each chat of the logs with its last turns, and nothing else. -/
structure Represents (maxTurns : Nat) (s : Store) (logs : Logs) : Prop where
  chats : ∀ id, s.chats.find? (fun c => c.chatId = id) = (logs id).map (Chat.row id)
  chatIds : (s.chats.map CopilotChatRow.chatId).Nodup
  turns : ∀ id, s.turns.filter (fun t => t.chatId = id) = ((logs id).map (Chat.records maxTurns id)).getD []
  numbers : ∀ id chat, logs id = some chat → chat.entries.length ≤ 2 ^ 53
  turnIds : (s.turns.map TurnRecord.turnId).Nodup

theorem colon_not_mem_decimal (n : Nat) : unit ':' ∉ decimal n := fun hmem => absurd (digit_of_mem_decimal hmem) (by decide)

/-- The id of a turn tells its chat and its number. -/
theorem turnIdOf_inj {a b : JsString} {m n : Nat} (h : turnIdOf a m = turnIdOf b n) : a = b ∧ m = n := by
  have hjoined : a ++ unit ':' :: decimal m = b ++ unit ':' :: decimal n := by
    simpa [turnIdOf, str, unit] using h
  obtain ⟨hchat, hseq⟩ := lastField_inj (colon_not_mem_decimal m) (colon_not_mem_decimal n) hjoined
  exact ⟨hchat, decimal_injective hseq⟩

variable {maxTurns : Nat} {duplicate : DbError} {s : Store} {logs : Logs}

theorem mem_records {id : JsString} {chat : Chat} {t : TurnRecord} (h : t ∈ chat.records maxTurns id) :
    t.turnId = turnIdOf id t.seq ∧ t.chatId = id ∧ t.workspaceId = chat.workspaceId ∧ 1 ≤ t.seq ∧ t.seq ≤ chat.entries.length := by
  obtain ⟨e, he, rfl⟩ := List.mem_map.mp h
  exact ⟨rfl, rfl, rfl, mem_lastOf_zipIdx he⟩

/-- The last turn of a chat is kept. -/
theorem exists_last_record (hmax : 1 ≤ maxTurns) (id : JsString) (chat : Chat) (hpos : 1 ≤ chat.entries.length) :
    ∃ t ∈ chat.records maxTurns id, t.seq = chat.entries.length := by
  have hmem : (chat.entries[chat.entries.length - 1], chat.entries.length) ∈ lastOf maxTurns (chat.entries.zipIdx 1) := by
    rw [lastOf, List.mem_iff_getElem]
    refine ⟨min maxTurns chat.entries.length - 1, ?_, ?_⟩
    · rw [List.length_drop, List.length_zipIdx]
      omega
    · rw [List.getElem_drop, List.getElem_zipIdx, Prod.mk.injEq]
      simp only [List.length_zipIdx]
      constructor
      · congr 1
        omega
      · omega
  exact ⟨_, List.mem_map_of_mem hmem, rfl⟩

/-- The greatest number of a chat is the count of its turns. -/
theorem max_records (hmax : 1 ≤ maxTurns) (id : JsString) (chat : Chat) :
    (((chat.records maxTurns id).map TurnRecord.seq).max?).getD 0 = chat.entries.length := by
  rcases Nat.eq_zero_or_pos chat.entries.length with hzero | hpos
  · have hnil := List.length_eq_zero_iff.mp hzero
    simp [Chat.records, lastOf, hnil]
  · have hlast : (((chat.records maxTurns id).map TurnRecord.seq).max?) = some chat.entries.length := by
      rw [List.max?_eq_some_iff]
      constructor
      · obtain ⟨t, ht, hseq⟩ := exists_last_record hmax id chat hpos
        exact List.mem_map.mpr ⟨t, ht, hseq⟩
      · intro n hn
        obtain ⟨t, ht, rfl⟩ := List.mem_map.mp hn
        exact (mem_records ht).2.2.2.2
    rw [hlast]
    rfl

/-- A positive number is at most a difference of numbers if and only if it is so of integers. -/
theorem le_numberPlus_iff {k m n : Nat} (hk : 1 ≤ k) (hn : n ≤ 2 ^ 53) : (k : Int) ≤ numberPlus n (-m) ↔ k + m ≤ n := by
  rcases Nat.lt_or_ge n m with hlt | hle
  · have hneg : numberPlus n (-m) ≤ 0 := roundDouble_nonpos (by omega)
    omega
  · rw [numberPlus_of_le (by omega)]
    omega

/-- One more turn leaves the last of them. -/
theorem filter_records (id : JsString) (chat : Chat) (entry : Entry) (updatedAt : JsString) :
    (chat.records maxTurns id ++ [turnRecord id chat.workspaceId (entry, chat.entries.length + 1)]).filter
        (fun t => !(t.seq + maxTurns ≤ chat.entries.length + 1)) =
      Chat.records maxTurns id { chat with updatedAt := updatedAt, entries := chat.entries ++ [entry] } := by
  have hall : lastOf maxTurns (chat.entries.zipIdx 1) ++ [(entry, chat.entries.length + 1)] =
      ((chat.entries ++ [entry]).zipIdx 1).drop (chat.entries.length - maxTurns) := by
    rw [List.zipIdx_append, List.drop_append_of_le_length (by simp), lastOf, List.length_zipIdx, Nat.add_comm 1]
    rfl
  have hrecords : chat.records maxTurns id ++ [turnRecord id chat.workspaceId (entry, chat.entries.length + 1)] =
      (((chat.entries ++ [entry]).zipIdx 1).drop (chat.entries.length - maxTurns)).map (turnRecord id chat.workspaceId) := by
    rw [← hall, List.map_append]
    rfl
  rw [hrecords, List.filter_map, Chat.records, lastOf, List.length_zipIdx, List.length_append, List.length_singleton]
  congr 1
  rw [← filter_drop_zipIdx (chat.entries ++ [entry]) 1 (show chat.entries.length - maxTurns ≤ chat.entries.length + 1 - maxTurns by omega)]
  apply List.filter_congr
  intro e he
  have hpos := (List.mem_zipIdx (List.mem_of_mem_drop he)).1
  change (!decide (e.2 + maxTurns ≤ chat.entries.length + 1)) = decide (1 + (chat.entries.length + 1 - maxTurns) ≤ e.2)
  rw [Bool.eq_iff_iff, Bool.not_eq_true', decide_eq_false_iff_not, decide_eq_true_eq]
  omega

/-- Each row has the id of its chat and its number. -/
theorem Represents.keyed (h : Represents maxTurns s logs) {t : TurnRecord} (ht : t ∈ s.turns) : t.turnId = turnIdOf t.chatId t.seq ∧ 1 ≤ t.seq := by
  have hmem : t ∈ s.turns.filter fun t' => t'.chatId = t.chatId := List.mem_filter.mpr ⟨ht, decide_eq_true rfl⟩
  rw [h.turns] at hmem
  cases hlog : logs t.chatId with
  | none =>
    rw [hlog] at hmem
    exact absurd hmem List.not_mem_nil
  | some chat =>
    rw [hlog] at hmem
    exact ⟨(mem_records hmem).1, (mem_records hmem).2.2.2.1⟩

/-- The id after the last turn of a chat is not taken. -/
theorem Represents.fresh (h : Represents maxTurns s logs) {chatId : JsString} {chat : Chat}
    (hturns : s.turns.filter (fun t => t.chatId = chatId) = chat.records maxTurns chatId) :
    ∀ t ∈ s.turns, t.turnId ≠ turnIdOf chatId (chat.entries.length + 1) := by
  intro t ht hid
  rw [(h.keyed ht).1] at hid
  obtain ⟨hchat, hseq⟩ := turnIdOf_inj hid
  have hmem : t ∈ s.turns.filter fun t' => t'.chatId = chatId := List.mem_filter.mpr ⟨ht, decide_eq_true hchat⟩
  rw [hturns] at hmem
  have hle := (mem_records hmem).2.2.2.2
  omega

/-- What inserting a turn does to the table. -/
theorem insertTurn_eq (hmax : 1 ≤ maxTurns) (h : Represents maxTurns s logs) (chats : List CopilotChatRow) {turn : AppendCopilotChatTurn} {chat : Chat}
    (hown : chat.workspaceId = turn.workspaceId) (hturns : s.turns.filter (fun t => t.chatId = turn.chatId) = chat.records maxTurns turn.chatId)
    (hnumbers : chat.entries.length ≤ 2 ^ 53) : s.insertTurn maxTurns duplicate chats turn =
      if chat.entries.length < 2 ^ 53 then
        (.ok (chat.entries.length + 1), ⟨chats, (s.turns ++ [turnRecord turn.chatId chat.workspaceId
          (⟨turn.question, turn.answer, turn.createdAt⟩, chat.entries.length + 1)]).filter fun t =>
            !(t.chatId = turn.chatId && t.seq + maxTurns ≤ chat.entries.length + 1)⟩)
      else (.error (scrubbed duplicate (str "copilot_chats append failed")), s) := by
  unfold Store.insertTurn
  dsimp only
  rw [hturns, max_records hmax, ← hown]
  split_ifs with htaken hlt hlt
  · -- the number after the greatest is free
    obtain ⟨t, ht, hid⟩ := List.any_eq_true.mp htaken
    rw [decide_eq_true_eq, toNat_numberPlus_one hlt] at hid
    exact absurd hid (h.fresh hturns t ht)
  · rfl
  · rw [toNat_numberPlus_one hlt]
    congr 2
    apply List.filter_congr
    intro t ht
    have hpos : 1 ≤ t.seq := by
      rcases List.mem_append.mp ht with hold | hnew
      · exact (h.keyed hold).2
      · rw [List.mem_singleton.mp hnew]
        exact Nat.succ_pos _
    congr 2
    rw [decide_eq_decide]
    exact le_numberPlus_iff hpos hlt
  · -- at `2 ^ 53` the counter stands still, and the id is that of the last turn
    have heq : chat.entries.length = 2 ^ 53 := by omega
    have hstill : (numberPlus ((2 ^ 53 : Nat) : Int) 1).toNat = 2 ^ 53 := by decide +kernel
    exfalso
    apply htaken
    rw [heq, hstill]
    obtain ⟨t, ht, hseq⟩ := exists_last_record hmax turn.chatId chat (by omega)
    rw [heq] at hseq
    have hid := (mem_records ht).1
    rw [← hturns] at ht
    refine List.any_eq_true.mpr ⟨t, List.mem_of_mem_filter ht, decide_eq_true ?_⟩
    rw [hid, hseq]

/-- Inserting a turn is extending the log of its chat. -/
theorem insertTurn_represents (hmax : 1 ≤ maxTurns) (h : Represents maxTurns s logs) {chats : List CopilotChatRow} {turn : AppendCopilotChatTurn}
    {chat : Chat} (hown : chat.workspaceId = turn.workspaceId)
    (hturns : s.turns.filter (fun t => t.chatId = turn.chatId) = chat.records maxTurns turn.chatId) (hnumbers : chat.entries.length ≤ 2 ^ 53)
    (hchats : ∀ id, chats.find? (fun c => c.chatId = id) =
      if id = turn.chatId then some ⟨id, chat.workspaceId, chat.title, chat.createdAt, turn.createdAt⟩ else s.chats.find? fun c => c.chatId = id)
    (hids : (chats.map CopilotChatRow.chatId).Nodup) :
    (s.insertTurn maxTurns duplicate chats turn).1 = (logs.extend duplicate turn chat).1 ∧
      Represents maxTurns (s.insertTurn maxTurns duplicate chats turn).2 (logs.extend duplicate turn chat).2 := by
  rw [insertTurn_eq hmax h chats hown hturns hnumbers, Logs.extend]
  split_ifs with hlt
  · refine ⟨rfl, ?_, hids, fun id => ?_, fun id chat' hchat => ?_, ?_⟩
    · intro id
      rw [hchats]
      dsimp only [Logs.set]
      split_ifs with hid
      · rfl
      · exact h.chats id
    · dsimp only [Logs.set]
      rw [List.filter_comm]
      by_cases hid : id = turn.chatId
      · subst hid
        have hnew : [turnRecord turn.chatId chat.workspaceId (⟨turn.question, turn.answer, turn.createdAt⟩, chat.entries.length + 1)].filter
            (fun t => t.chatId = turn.chatId) = [turnRecord turn.chatId chat.workspaceId (⟨turn.question, turn.answer, turn.createdAt⟩,
              chat.entries.length + 1)] := List.filter_eq_self.mpr fun t ht => by rw [List.mem_singleton.mp ht]; exact decide_eq_true rfl
        rw [if_pos rfl, List.filter_append, hturns, hnew, Option.map_some, Option.getD_some, ← filter_records turn.chatId chat]
        apply List.filter_congr
        intro t ht
        have hchat : t.chatId = turn.chatId := by
          rcases List.mem_append.mp ht with hold | hnew
          · exact (mem_records hold).2.1
          · rw [List.mem_singleton.mp hnew]
            rfl
        rw [hchat, decide_eq_true rfl, Bool.true_and]
      · have hnew : [turnRecord turn.chatId chat.workspaceId (⟨turn.question, turn.answer, turn.createdAt⟩, chat.entries.length + 1)].filter
            (fun t => t.chatId = id) = [] := List.filter_eq_nil_iff.mpr fun t ht => by
              rw [List.mem_singleton.mp ht]
              exact fun heq => hid (of_decide_eq_true heq).symm
        rw [if_neg hid, List.filter_append, hnew, List.append_nil, ← h.turns, List.filter_filter]
        apply List.filter_congr
        intro t _
        by_cases ht : t.chatId = id
        · simp [ht, hid]
        · simp [ht]
    · dsimp only [Logs.set] at hchat
      split_ifs at hchat with hid
      · rw [← Option.some.inj hchat]
        simp only [List.length_append, List.length_singleton]
        omega
      · exact h.numbers id chat' hchat
    · refine List.Nodup.sublist (List.filter_sublist.map _) ?_
      rw [List.map_append, List.nodup_append]
      refine ⟨h.turnIds, List.nodup_singleton _, ?_⟩
      rintro id hid id' hid' rfl
      obtain ⟨t, ht, hteq⟩ := List.mem_map.mp hid
      rw [List.map_singleton, List.mem_singleton] at hid'
      exact h.fresh hturns t ht (hteq.trans hid')
  · exact ⟨rfl, h⟩

/-- A row of the table is found by its id. -/
theorem Represents.find_of_mem (h : Represents maxTurns s logs) {c : CopilotChatRow} (hc : c ∈ s.chats) :
    s.chats.find? (fun c' => c'.chatId = c.chatId) = some c := by
  cases hfind : s.chats.find? fun c' => c'.chatId = c.chatId with
  | none => exact absurd (decide_eq_true rfl) (List.find?_eq_none.mp hfind c hc)
  | some c' =>
    have hid : c'.chatId = c.chatId := by simpa using List.find?_some hfind
    rw [List.inj_on_of_nodup_map h.chatIds (List.mem_of_find?_eq_some hfind) hc hid]

theorem Represents.mem_chats_iff (h : Represents maxTurns s logs) {c : CopilotChatRow} :
    c ∈ s.chats ↔ ∃ chat, logs c.chatId = some chat ∧ c = chat.row c.chatId := by
  constructor
  · intro hc
    have hfind := (h.chats c.chatId).symm.trans (h.find_of_mem hc)
    obtain ⟨chat, hlog, hrow⟩ := Option.map_eq_some_iff.mp hfind
    exact ⟨chat, hlog, hrow.symm⟩
  · rintro ⟨chat, hlog, hrow⟩
    have hfind := h.chats c.chatId
    rw [hlog, Option.map_some, ← hrow] at hfind
    exact List.mem_of_find?_eq_some hfind

theorem Represents.chatHere_eq (h : Represents maxTurns s logs) (workspaceId chatId : JsString) :
    s.chatHere workspaceId chatId = (logs.here workspaceId chatId).map (Chat.row chatId) := by
  unfold Logs.here
  cases hlog : logs chatId with
  | none =>
    rw [Option.filter_none, Option.map_none, Store.chatHere, List.find?_eq_none]
    intro c hc
    obtain ⟨chat, hchat, -⟩ := h.mem_chats_iff.mp hc
    rw [Bool.and_eq_true, decide_eq_true_eq]
    rintro ⟨rfl, -⟩
    rw [hlog] at hchat
    cases hchat
  | some chat =>
    have hown : ∀ c ∈ s.chats, c.chatId = chatId → c = chat.row chatId := by
      rintro c hc rfl
      obtain ⟨chat', hchat, hrow⟩ := h.mem_chats_iff.mp hc
      rw [hrow, Option.some.inj (hchat.symm.trans hlog)]
      rfl
    by_cases hws : chat.workspaceId = workspaceId
    · have hkept : (some chat).filter (fun chat => chat.workspaceId = workspaceId) = some chat := by simp [hws]
      rw [hkept, Option.map_some]
      have hmem : chat.row chatId ∈ s.chats := h.mem_chats_iff.mpr ⟨chat, hlog, rfl⟩
      have hsome : (s.chatHere workspaceId chatId).isSome = true :=
        List.find?_isSome.mpr ⟨_, hmem, by simp [Chat.row, hws]⟩
      obtain ⟨c, hc⟩ := Option.isSome_iff_exists.mp hsome
      have hid := List.find?_some hc
      rw [Bool.and_eq_true, decide_eq_true_eq] at hid
      rw [hc, hown c (List.mem_of_find?_eq_some hc) hid.1]
    · have hgone : (some chat).filter (fun chat => chat.workspaceId = workspaceId) = none := by simp [hws]
      rw [hgone, Option.map_none, Store.chatHere, List.find?_eq_none]
      intro c hc hboth
      rw [Bool.and_eq_true, decide_eq_true_eq, decide_eq_true_eq] at hboth
      rw [hown c hc hboth.1] at hboth
      exact hws hboth.2

/-- Appending a turn is appending it to its log. -/
theorem appendTurn_represents (hmax : 1 ≤ maxTurns) (h : Represents maxTurns s logs) (turn : AppendCopilotChatTurn) :
    (s.appendTurn maxTurns duplicate turn).1 = (logs.append duplicate turn).1 ∧
      Represents maxTurns (s.appendTurn maxTurns duplicate turn).2 (logs.append duplicate turn).2 := by
  have hfind := h.chats turn.chatId
  have hturns := h.turns turn.chatId
  unfold Store.appendTurn Logs.append
  cases hlog : logs turn.chatId with
  | none =>
    rw [hlog] at hfind hturns
    rw [hfind]
    have hnone : s.turns.filter (fun t => t.chatId = turn.chatId) =
        Chat.records maxTurns turn.chatId ⟨turn.workspaceId, turn.title, turn.createdAt, turn.createdAt, []⟩ := by
      rw [hturns]
      simp [Chat.records, lastOf]
    refine insertTurn_represents hmax h rfl hnone (Nat.zero_le _) ?_ ?_
    · intro id
      rw [List.find?_append]
      split_ifs with hid
      · rw [hid, hfind]
        simp
      · have hne : ¬ turn.chatId = id := Ne.symm hid
        simp [hne]
    · rw [List.map_append, List.nodup_append]
      refine ⟨h.chatIds, List.nodup_singleton _, ?_⟩
      rintro id hid id' hid' rfl
      obtain ⟨c, hc, hceq⟩ := List.mem_map.mp hid
      rw [List.map_singleton, List.mem_singleton] at hid'
      exact List.find?_eq_none.mp hfind c hc (decide_eq_true (hceq.trans hid'))
  | some chat =>
    rw [hlog] at hfind hturns
    rw [hfind, Option.map_some]
    dsimp only [Chat.row]
    by_cases hown : chat.workspaceId = turn.workspaceId
    · rw [if_neg (not_not.mpr hown), if_pos hown]
      refine insertTurn_represents hmax h hown hturns (h.numbers _ _ hlog) (fun id => ?_) ?_
      · rw [List.find?_map]
        have hsame : ((fun c : CopilotChatRow => decide (c.chatId = id)) ∘ fun c : CopilotChatRow =>
            if c.chatId = turn.chatId then { c with updatedAt := turn.createdAt } else c) = fun c => decide (c.chatId = id) := by
          funext c
          simp only [Function.comp]
          split <;> rfl
        rw [hsame]
        split_ifs with hid
        · rw [hid, hfind]
          simp [Chat.row]
        · cases hother : s.chats.find? fun c => c.chatId = id with
          | none => rfl
          | some c =>
            have hcid : c.chatId = id := by simpa using List.find?_some hother
            simp [hcid, hid]
      · rw [List.map_map]
        have hsame : (CopilotChatRow.chatId ∘ fun c : CopilotChatRow =>
            if c.chatId = turn.chatId then { c with updatedAt := turn.createdAt } else c) = CopilotChatRow.chatId := by
          funext c
          simp only [Function.comp]
          split <;> rfl
        rw [hsame]
        exact h.chatIds
    · rw [if_pos hown, if_neg hown]
      exact ⟨rfl, h⟩

/-- Deleting a chat is deleting its log. -/
theorem deleteChat_represents (h : Represents maxTurns s logs) (workspaceId chatId : JsString) :
    (s.deleteChat workspaceId chatId).1 = (logs.delete workspaceId chatId).1 ∧
      Represents maxTurns (s.deleteChat workspaceId chatId).2 (logs.delete workspaceId chatId).2 := by
  unfold Store.deleteChat Logs.delete
  rw [h.chatHere_eq]
  cases hhere : logs.here workspaceId chatId with
  | none => exact ⟨rfl, h⟩
  | some chat =>
    obtain ⟨hlog, hws⟩ := Option.filter_eq_some_iff.mp hhere
    rw [decide_eq_true_eq] at hws
    rw [Option.map_some]
    refine ⟨rfl, fun id => ?_, h.chatIds.sublist (List.filter_sublist.map _), fun id => ?_, fun id chat' hchat => ?_,
      h.turnIds.sublist (List.filter_sublist.map _)⟩
    · dsimp only [Logs.set]
      rw [List.find?_filter]
      split_ifs with hid
      · rw [Option.map_none, List.find?_eq_none]
        intro c hc hboth
        rw [decide_eq_true_eq, decide_eq_true_eq] at hboth
        obtain ⟨hkept, hcid⟩ := hboth
        obtain ⟨chat', hchat, hrow⟩ := h.mem_chats_iff.mp hc
        rw [hcid, hid, hlog] at hchat
        have hcws : c.workspaceId = workspaceId := by
          rw [hrow, ← Option.some.inj hchat]
          exact hws
        simp [hcid, hid, hcws] at hkept
      · rw [← h.chats id]
        congr 1
        funext c
        by_cases hcid : c.chatId = id
        · simp [hcid, hid]
        · simp [hcid]
    · dsimp only [Logs.set]
      rw [List.filter_comm, h.turns]
      split_ifs with hid
      · rw [hid, hlog, Option.map_none, Option.getD_none, List.filter_eq_nil_iff]
        intro t ht
        obtain ⟨-, hchat, htws, -⟩ := mem_records ht
        simp [hchat, htws, hws]
      · rw [List.filter_eq_self]
        intro t ht
        cases hother : logs id with
        | none =>
          rw [hother] at ht
          exact absurd ht List.not_mem_nil
        | some chat' =>
          rw [hother] at ht
          have hchat := (mem_records ht).2.1
          simp [hchat, hid]
    · dsimp only [Logs.set] at hchat
      split_ifs at hchat with hid
      exact h.numbers id chat' hchat

/-- Every call keeps the tables and the logs together. -/
theorem call_represents (hmax : 1 ≤ maxTurns) (h : Represents maxTurns s logs) (call : Call) :
    (s.call maxTurns duplicate call).1 = (logs.call duplicate call).1 ∧
      Represents maxTurns (s.call maxTurns duplicate call).2 (logs.call duplicate call).2 := by
  cases call with
  | appendTurn turn =>
    obtain ⟨hanswer, hnext⟩ := @appendTurn_represents maxTurns duplicate s logs hmax h turn
    exact ⟨congrArg (Except.map some) hanswer, hnext⟩
  | deleteChat workspaceId chatId =>
    obtain ⟨hanswer, hnext⟩ := deleteChat_represents h workspaceId chatId
    exact ⟨congrArg (Except.map fun _ => none) hanswer, hnext⟩

theorem run_represents (hmax : 1 ≤ maxTurns) (h : Represents maxTurns s logs) (calls : List Call) :
    Represents maxTurns (s.run maxTurns duplicate calls) (logs.run duplicate calls) := by
  induction calls generalizing s logs with
  | nil => exact h
  | cons call calls ih => exact ih (call_represents hmax h call).2

theorem Represents.getTurns_eq (h : Represents maxTurns s logs) (workspaceId chatId : JsString) (newest : Option (Option ℚ)) :
    s.getTurns workspaceId chatId newest =
      match logs.here workspaceId chatId with
      | none => .error (notFound (str "copilot chat"))
      | some chat => .ok (match newestCount newest with
        | none => chat.turns maxTurns chatId
        | some n => lastOf n (chat.turns maxTurns chatId)) := by
  unfold Store.getTurns
  rw [h.chatHere_eq]
  cases hhere : logs.here workspaceId chatId with
  | none => rfl
  | some chat =>
    obtain ⟨hlog, hws⟩ := Option.filter_eq_some_iff.mp hhere
    rw [decide_eq_true_eq] at hws
    have hrows : s.turns.filter (fun t => t.chatId = chatId && t.workspaceId = workspaceId) = chat.records maxTurns chatId := by
      have hsplit : (fun t : TurnRecord => decide (t.chatId = chatId) && decide (t.workspaceId = workspaceId)) =
          fun t => decide (t.workspaceId = workspaceId) && decide (t.chatId = chatId) := by
        funext t
        exact Bool.and_comm ..
      rw [hsplit, ← List.filter_filter, h.turns, hlog, Option.map_some, Option.getD_some, List.filter_eq_self]
      intro t ht
      exact decide_eq_true ((mem_records ht).2.2.1.trans hws)
    have hsorted : orderBy TurnRecord.seq (chat.records maxTurns chatId) = chat.records maxTurns chatId := by
      apply List.Pairwise.insertionSort_eq
      rw [Chat.records, List.pairwise_map]
      refine List.Pairwise.imp (R := fun a b : Entry × Nat => a.2 < b.2) (fun hlt => Nat.le_of_lt hlt) ?_
      refine List.Pairwise.sublist (List.drop_sublist ..) ?_
      rw [← List.pairwise_map, List.zipIdx_map_snd]
      exact List.pairwise_lt_range'
    have hmap : (chat.records maxTurns chatId).map toTurnRow = chat.turns maxTurns chatId := by
      rw [Chat.records, List.map_map]
      rfl
    rw [Option.map_some, hrows]
    dsimp only
    cases newestCount newest with
    | none => rw [hsorted, hmap]
    | some n =>
      cases n with
      | zero => simp [lastOf]
      | succ n =>
        have hlast : ((orderByDesc TurnRecord.seq (chat.records maxTurns chatId)).take (n + 1)).reverse.map toTurnRow =
            lastOf (n + 1) (chat.turns maxTurns chatId) := by
          rw [orderByDesc, hsorted, reverse_take_reverse, map_lastOf, hmap]
        exact congrArg Except.ok hlast

theorem Represents.getChat_eq (h : Represents maxTurns s logs) (workspaceId chatId : JsString) :
    s.getChat workspaceId chatId =
      match logs.here workspaceId chatId with
      | none => .error (notFound (str "copilot chat"))
      | some chat => .ok (chat.row chatId) := by
  unfold Store.getChat
  rw [h.chatHere_eq]
  cases logs.here workspaceId chatId <;> rfl

theorem Represents.listChats_own (h : Represents maxTurns s logs) {Key : Type} [LinearOrder Key] (collation : JsString → Key) (workspaceId : JsString)
    (limit : Int) : ∀ row ∈ s.listChats collation workspaceId limit, s.getChat workspaceId row.chatId = .ok row := by
  intro row hrow
  have hmem := List.mem_of_mem_take hrow
  rw [orderByDesc, List.mem_reverse, mem_orderBy, List.mem_filter, decide_eq_true_eq] at hmem
  obtain ⟨chat, hlog, heq⟩ := h.mem_chats_iff.mp hmem.1
  have hws : chat.workspaceId = workspaceId := by
    rw [← hmem.2, heq]
    rfl
  have hhere : logs.here workspaceId row.chatId = some chat := Option.filter_eq_some_iff.mpr ⟨hlog, decide_eq_true hws⟩
  rw [h.getChat_eq, hhere]
  exact congrArg Except.ok heq.symm

/-- A call leaves the log of a chat of another workspace. -/
theorem Logs.call_other {chatId : JsString} {chat : Chat} (hlog : logs chatId = some chat) {call : Call} (hother : chat.workspaceId ≠ call.workspaceId) :
    (logs.call duplicate call).2 chatId = some chat := by
  cases call with
  | appendTurn turn =>
    have hset : ∀ chat', (logs.extend duplicate turn chat').2 chatId = some chat ∨ chatId = turn.chatId := by
      intro chat'
      unfold Logs.extend
      split
      · by_cases hid : chatId = turn.chatId
        · exact .inr hid
        · exact .inl ((if_neg hid).trans hlog)
      · exact .inl hlog
    unfold Logs.call Logs.append
    dsimp only
    cases hturn : logs turn.chatId with
    | none =>
      rcases hset ⟨turn.workspaceId, turn.title, turn.createdAt, turn.createdAt, []⟩ with hkept | rfl
      · exact hkept
      · rw [hlog] at hturn
        cases hturn
    | some chat' =>
      dsimp only
      split
      · next hown =>
        rcases hset chat' with hkept | rfl
        · exact hkept
        · rw [hlog] at hturn
          exact absurd (Option.some.inj hturn ▸ hown) hother
      · exact hlog
  | deleteChat workspaceId id =>
    unfold Logs.call Logs.delete
    dsimp only
    cases hhere : logs.here workspaceId id with
    | none => exact hlog
    | some chat' =>
      have hne : chatId ≠ id := by
        rintro rfl
        obtain ⟨hlog', hws⟩ := Option.filter_eq_some_iff.mp hhere
        rw [hlog] at hlog'
        rw [← Option.some.inj hlog', decide_eq_true_eq] at hws
        exact hother hws
      exact (if_neg hne).trans hlog

theorem Represents.isolated (hmax : 1 ≤ maxTurns) (h : Represents maxTurns s logs) (call : Call) (row : CopilotChatRow) (hrow : row ∈ s.chats)
    (hother : row.workspaceId ≠ call.workspaceId) : row ∈ (s.call maxTurns duplicate call).2.chats ∧
      (s.call maxTurns duplicate call).2.turns.filter (fun t => t.chatId = row.chatId) = s.turns.filter fun t => t.chatId = row.chatId := by
  obtain ⟨chat, hlog, heq⟩ := h.mem_chats_iff.mp hrow
  have hws : chat.workspaceId ≠ call.workspaceId := by
    rw [heq] at hother
    exact hother
  have hkept := @Logs.call_other duplicate logs _ _ hlog _ hws
  have hnext := (@call_represents maxTurns duplicate s logs hmax h call).2
  refine ⟨hnext.mem_chats_iff.mpr ⟨chat, hkept, heq⟩, ?_⟩
  rw [hnext.turns, hkept, h.turns, hlog]

theorem represents_empty : Represents maxTurns ⟨[], []⟩ fun _ => none where
  chats _ := rfl
  chatIds := List.nodup_nil
  turns _ := rfl
  numbers _ _ h := absurd h (by simp)
  turnIds := List.nodup_nil

/-- After every history of calls the store answers as one log for each chat of each workspace,
    of which the last turns are kept. -/
theorem copilotChats_refines {maxTurns : Nat} (hmax : 1 ≤ maxTurns) (duplicate : DbError) (calls : List Call) :
    Refines maxTurns duplicate (Store.run maxTurns duplicate ⟨[], []⟩ calls) (Logs.run duplicate (fun _ => none) calls) := by
  have h : Represents maxTurns (Store.run maxTurns duplicate ⟨[], []⟩ calls) (Logs.run duplicate (fun _ => none) calls) :=
    run_represents hmax represents_empty calls
  constructor
  case call => exact fun call => (call_represents hmax h call).1
  case getTurns => exact h.getTurns_eq
  case getChat => exact h.getChat_eq
  case listChats => exact h.listChats_own
  case isolated => exact h.isolated hmax
  case turnIds => exact h.turnIds

/-- Two workspaces, and a chat whose id holds the separator of turn ids. -/
def mixedCalls : List Call :=
  [.appendTurn ⟨str "personal", str "c", str "t", str "q1", str "a1", str "2026-09-25T10:00:00Z"⟩,
    .appendTurn ⟨str "personal", str "c:1", str "t", str "q2", str "a2", str "2026-09-25T10:01:00Z"⟩,
    .appendTurn ⟨str "employer-work", str "c", str "t", str "q3", str "a3", str "2026-09-25T10:02:00Z"⟩]

theorem mixedCalls_refine : 1 ≤ 1 ∧ Refines 1 (conflict (str "taken")) (Store.run 1 (conflict (str "taken")) ⟨[], []⟩ mixedCalls)
    (Logs.run (conflict (str "taken")) (fun _ => none) mixedCalls) :=
  ⟨Nat.le_refl 1, copilotChats_refines (Nat.le_refl 1) (conflict (str "taken")) mixedCalls⟩

end represents

end copilotChats

end sow.db
