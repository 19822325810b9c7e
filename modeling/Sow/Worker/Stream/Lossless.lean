import Sow.Worker.Stream.PushStream

open sow.js

namespace sow.stream

section lossless

variable {Ref Item Card Payload Context Failure : Type}

/-- The sequence number of the first event that a subscription starting now is owed:
    the one after its cursor, or the oldest one retained. -/
def firstOwed (p : StreamPublisher Payload) : Option JsString → Nat
  | none => p.seq - p.log.length
  | some lastEventId =>
    match p.log.find? fun e => e.eventId = lastEventId with
    | some e => e.seq + 1
    | none => p.seq

/-- The events owed to a subscription, of all that have been published. -/
def owed (first : Nat) (published : List (StreamEvent Payload)) : List (StreamEvent Payload) :=
  published.filter fun e => first ≤ e.seq

/-- Nothing is left for the generator to yield, and the consumer's pull is outstanding. -/
def Drained (s : PushStream Payload) : Prop := s.generator.point = .waiting ∧ s.generator.queue = []

/-- The items are the events owed, in the order of their sequence numbers, up to
    the last one yielded, and all of them once the generator is drained. -/
structure Lossless (first : Nat) (s : PushStream Payload) : Prop where
  numbered : s.published.map (fun e => e.seq) = List.range s.published.length
  yielded : s.items <+: (owed first s.published).map trackedItem
  drained : Drained s → s.items = (owed first s.published).map trackedItem

variable {p : StreamPublisher Payload} {published : List (StreamEvent Payload)}

theorem owed_append {first : Nat} {ev : StreamEvent Payload} (h : first ≤ ev.seq) :
    owed first (published ++ [ev]) = owed first published ++ [ev] := by
  simp [owed, h]

private theorem filter_ge_eq_drop {l : List (StreamEvent Payload)} {start : Nat}
    (h : l.map (fun e => e.seq) = List.range' start l.length) (n : Nat) :
    l.filter (fun e => start + n ≤ e.seq) = l.drop n := by
  induction l generalizing start n with
  | nil => simp
  | cons e l ih =>
    rw [List.map_cons, List.length_cons, List.range'_succ, List.cons.injEq] at h
    cases n with
    | zero =>
      have htail := ih h.2 0
      have hall : ∀ e' ∈ l, start + 0 ≤ e'.seq := by
        intro e' he'
        have hmem : e'.seq ∈ List.range' (start + 1) l.length := h.2 ▸ List.mem_map_of_mem he'
        have hle := (List.mem_range'_1.mp hmem).1
        omega
      rw [List.drop_zero, List.filter_eq_self]
      intro e' he'
      rcases List.mem_cons.mp he' with rfl | he'
      · simp [h.1]
      · simpa using hall e' he'
    | succ n =>
      rw [List.filter_cons_of_neg (by simp [h.1]), List.drop_succ_cons, ← ih h.2 n]
      exact List.filter_congr fun e' _ => by simp only [decide_eq_decide]; omega

/-- Sequence numbers are places in the published list. -/
theorem Records.owed_eq_drop (h : Records p published) (n : Nat) : owed n published = published.drop n := by
  have hnumbered := h.numbered
  rw [List.range_eq_range'] at hnumbered
  have hdrop := filter_ge_eq_drop hnumbered n
  simpa [owed] using hdrop

/-- The replay of a subscription whose cursor is retained is what it is owed. -/
theorem Records.planResume_eq (h : Records p published) {lastEventId : Option JsString}
    (hcursor : ∀ id, lastEventId = some id → ∃ e ∈ p.log, e.eventId = id) :
    planResume p lastEventId = .replay (owed (firstOwed p lastEventId) published) := by
  obtain ⟨evicted, hevicted⟩ := h.retained
  have hlength : evicted.length = p.seq - p.log.length := by
    rw [h.seq, ← hevicted, List.length_append]
    omega
  rw [h.owed_eq_drop]
  cases lastEventId with
  | none =>
    simp only [planResume, resumeOrResync, firstOwed]
    rw [← hlength, ← hevicted, List.drop_left]
  | some id =>
    obtain ⟨e, he, hid⟩ := hcursor id rfl
    obtain ⟨older, newer, hlog⟩ := List.append_of_mem he
    have hother : ∀ e' ∈ older, e'.eventId ≠ id := by
      intro e' he' heq
      have hnodup := h.eventId_nodup
      rw [← hevicted, hlog, List.map_append, List.map_append, List.map_cons] at hnodup
      have hdisjoint := (List.nodup_append.mp (List.nodup_append.mp hnodup).2.1).2.2
      exact hdisjoint _ (List.mem_map_of_mem he') _ (List.mem_cons_self ..) (heq.trans hid.symm)
    have hindex : p.log.findIdx? (fun e => e.eventId = id) = some older.length := by
      rw [hlog, List.findIdx?_append, List.findIdx?_eq_none_iff.mpr fun e' he' => by simpa using hother e' he',
        List.findIdx?_cons]
      simp [hid]
    have hfind : p.log.find? (fun e => e.eventId = id) = some e := by
      rw [hlog, List.find?_append, List.find?_eq_none.mpr fun e' he' => by simpa using hother e' he']
      simp [hid]
    have hplace : e.seq = (evicted ++ older).length := by
      have hget : (published.map fun e => e.seq)[(evicted ++ older).length]? = some e.seq := by
        rw [← hevicted, hlog, ← List.append_assoc, List.getElem?_map, List.getElem?_append_right (le_refl _)]
        simp
      rw [h.numbered, List.getElem?_eq_some_iff] at hget
      obtain ⟨_, hget⟩ := hget
      rw [← hget, List.getElem_range]
    have hdrop : published.drop (e.seq + 1) = newer := by
      rw [← hevicted, hlog, ← List.append_assoc, hplace, List.drop_length_add_append]
      rfl
    simp only [planResume, resumeOrResync, hindex, firstOwed, hfind]
    rw [hdrop, hlog]
    simp

/-- What a subscription is owed first has been published or comes next. -/
theorem Records.firstOwed_le (h : Records p published) (lastEventId : Option JsString) :
    firstOwed p lastEventId ≤ published.length := by
  have hbelow : ∀ e ∈ published, e.seq < published.length := by
    intro e he
    have hmem : e.seq ∈ List.range published.length := h.numbered ▸ List.mem_map_of_mem he
    exact List.mem_range.mp hmem
  cases lastEventId with
  | none =>
    simp only [firstOwed, h.seq]
    omega
  | some id =>
    simp only [firstOwed]
    split
    · next e hfind => exact hbelow e (h.retained.subset (List.mem_of_find?_eq_some hfind))
    · exact h.seq.le

/-- What the generator has still to yield of the events it knows. -/
def Generator.pending (g : Generator Payload) : Option (List (StreamEvent Payload)) :=
  match g.point with
  | .replaying rest => some rest
  | .tailing => some g.queue
  | .waiting => some g.queue
  | _ => none

/-- A resumption that serves the next pending event, or waits when there is none. -/
def Serves (yielded : List JsString) (pending : List (StreamEvent Payload))
    (r : Generator Payload × Option (TrackedItem Payload)) : Prop :=
  match pending with
  | [] => r = (⟨.waiting, yielded, []⟩, none)
  | ev :: rest => r.2 = some (trackedItem ev) ∧ r.1.pending = some rest ∧ r.1.yielded = yielded ++ [ev.eventId]

theorem serves_tail {yielded : List JsString} {queue : List (StreamEvent Payload)}
    (h : (yielded ++ queue.map fun e => e.eventId).Nodup) : Serves yielded queue (tail yielded queue) := by
  cases queue with
  | nil => rfl
  | cons ev queue =>
    have hnew : ev.eventId ∉ yielded := by
      intro hmem
      exact (List.nodup_append.mp h).2.2 _ hmem _ (List.mem_cons_self ..) rfl
    rw [tail, if_neg hnew]
    exact ⟨rfl, rfl, rfl⟩

theorem serves_replay {opts : SubscribeOptions} (hsignal : opts.signal = true) (yielded : List JsString)
    (rest : List (StreamEvent Payload)) : Serves yielded rest (replay opts false yielded rest) := by
  cases rest with
  | nil => simp [Serves, replay, enterTail, hsignal, tail]
  | cons ev rest => exact ⟨rfl, rfl, rfl⟩

/-- What holds of a subscription after its first pull, as long as its replay is quiet. -/
structure Tracks (first : Nat) (s : PushStream Payload) : Prop where
  records : Records s.publisher s.published
  first_le : first ≤ s.published.length
  live : s.aborted = false
  pending : ∃ rest, s.generator.pending = some rest ∧
    s.items ++ rest.map trackedItem = (owed first s.published).map trackedItem
  yielded : s.generator.yielded = s.items.map fun item => item.id

variable {first : Nat} {s : PushStream Payload} {rest : List (StreamEvent Payload)}

theorem Tracks.nodup (h : Tracks first s)
    (hitems : s.items ++ rest.map trackedItem = (owed first s.published).map trackedItem) :
    (s.generator.yielded ++ rest.map fun e => e.eventId).Nodup := by
  have hids := congrArg (List.map fun item => item.id) hitems
  rw [List.map_append, List.map_map, List.map_map] at hids
  have hcomp : ((fun item => item.id) ∘ trackedItem : StreamEvent Payload → JsString) = fun e => e.eventId := rfl
  rw [hcomp] at hids
  rw [h.yielded, hids]
  exact (h.records.eventId_nodup).sublist ((List.filter_sublist).map _)

theorem Tracks.advance (h : Tracks first s)
    (hitems : s.items ++ rest.map trackedItem = (owed first s.published).map trackedItem)
    {r : Generator Payload × Option (TrackedItem Payload)} (hr : Serves s.generator.yielded rest r) :
    Tracks first (s.advance r) := by
  cases rest with
  | nil =>
    obtain rfl : r = _ := hr
    refine ⟨h.records, h.first_le, h.live, ⟨[], rfl, ?_⟩, ?_⟩
    · simpa [PushStream.advance] using hitems
    · simpa [PushStream.advance] using h.yielded
  | cons ev rest =>
    obtain ⟨hitem, hpending, hyielded⟩ := hr
    refine ⟨h.records, h.first_le, h.live, ⟨rest, hpending, ?_⟩, ?_⟩
    · simp only [PushStream.advance, hitem, Option.toList_some, List.append_assoc]
      exact hitems
    · simp [PushStream.advance, hitem, hyielded, h.yielded, trackedItem]

theorem Tracks.lossless (h : Tracks first s) : Lossless first s := by
  obtain ⟨rest, hpending, hitems⟩ := h.pending
  refine ⟨h.records.numbered, ⟨_, hitems⟩, ?_⟩
  rintro ⟨hpoint, hqueue⟩
  rw [Generator.pending, hpoint] at hpending
  obtain rfl := (Option.some.inj hpending).symm.trans hqueue
  simpa using hitems

variable {pr : Projectors Ref Item Card Payload} {opts : SubscribeOptions}

/-- The generator is suspended in the replay. -/
def Replaying (s : PushStream Payload) : Prop := ∃ rest, s.generator.point = .replaying rest

/-- A pull resumes the generator, unless it waits already. -/
theorem Tracks.pull_cases (h : Tracks first s) (hsignal : opts.signal = true) (auth : Except Failure Context)
    (hpending : s.generator.pending = some rest)
    (hitems : s.items ++ rest.map trackedItem = (owed first s.published).map trackedItem) :
    (s.generator.point = .waiting ∧ s.step pr auth opts .pull = s) ∨
      ∃ r, s.step pr auth opts .pull = s.advance r ∧ Serves s.generator.yielded rest r := by
  have hnodup := h.nodup hitems
  simp only [PushStream.step, runSubscription]
  rw [Generator.pending] at hpending
  cases hpoint : s.generator.point with
  | start => simp [hpoint] at hpending
  | resynced => simp [hpoint] at hpending
  | finished => simp [hpoint] at hpending
  | replaying events =>
    simp only [hpoint, Option.some.injEq] at hpending
    subst hpending
    rw [h.live]
    exact .inr ⟨_, rfl, serves_replay hsignal _ _⟩
  | tailing =>
    simp only [hpoint, Option.some.injEq] at hpending
    subst hpending
    simp only [resumeTail, h.live]
    exact .inr ⟨_, rfl, serves_tail hnodup⟩
  | waiting => exact .inl ⟨rfl, by simp [PushStream.advance]⟩

/-- A wake-up resumes the generator that waits with events in its queue. -/
theorem Tracks.wake_cases (h : Tracks first s) (auth : Except Failure Context) (hpending : s.generator.pending = some rest)
    (hitems : s.items ++ rest.map trackedItem = (owed first s.published).map trackedItem) :
    ((s.generator.point = .waiting → rest = []) ∧ s.step pr auth opts .wake = s) ∨
      ∃ r, s.step pr auth opts .wake = s.advance r ∧ Serves s.generator.yielded rest r := by
  have hnodup := h.nodup hitems
  simp only [PushStream.step]
  split
  · next hpoint =>
    rw [Generator.pending, hpoint] at hpending
    obtain rfl := Option.some.inj hpending
    split
    · next hempty => exact .inl ⟨fun _ => by simpa [h.live] using hempty, rfl⟩
    · simp only [resumeTail, h.live]
      exact .inr ⟨_, rfl, serves_tail hnodup⟩
  · next hpoint => exact .inl ⟨fun hwaiting => absurd hwaiting hpoint, rfl⟩

theorem Tracks.pull (h : Tracks first s) (hsignal : opts.signal = true) (auth : Except Failure Context) :
    Tracks first (s.step pr auth opts .pull) := by
  obtain ⟨rest, hpending, hitems⟩ := h.pending
  rcases @Tracks.pull_cases _ _ _ _ _ _ _ _ _ pr opts h hsignal auth hpending hitems with ⟨-, hsame⟩ | ⟨r, hstep, hserves⟩
  · rw [hsame]
    exact h
  · rw [hstep]
    exact h.advance hitems hserves

theorem Tracks.wake (h : Tracks first s) (auth : Except Failure Context) :
    Tracks first (s.step pr auth opts .wake) := by
  obtain ⟨rest, hpending, hitems⟩ := h.pending
  rcases @Tracks.wake_cases _ _ _ _ _ _ _ _ _ pr opts h auth hpending hitems with ⟨-, hsame⟩ | ⟨r, hstep, hserves⟩
  · rw [hsame]
    exact h
  · rw [hstep]
    exact h.advance hitems hserves

/-- A change published outside the replay, or refused by the publisher, loses nothing. -/
theorem Tracks.publish (h : Tracks first s) {change : Change Ref Item Card} (auth : Except Failure Context)
    (hquiet : Replaying s → (publish pr s.publisher change).1 = none) :
    Tracks first (s.step pr auth opts (.publish change)) := by
  simp only [PushStream.step]
  cases hev : (sow.stream.publish pr s.publisher change).1 with
  | none =>
    have hsame : (sow.stream.publish pr s.publisher change).2 = s.publisher := by
      rcases publish_cases pr s.publisher change with ⟨-, hsame⟩ | ⟨ev, hev', -⟩
      · exact hsame
      · rw [hev] at hev'
        cases hev'
    rw [hsame]
    exact h
  | some ev =>
    obtain ⟨rest, hpending, hitems⟩ := h.pending
    have hlistening : s.generator.listening = true ∧ s.generator.queue = rest := by
      unfold Generator.pending at hpending
      unfold Generator.listening
      cases hpoint : s.generator.point with
      | start => simp [hpoint] at hpending
      | resynced => simp [hpoint] at hpending
      | finished => simp [hpoint] at hpending
      | replaying events =>
        rw [hquiet ⟨events, hpoint⟩] at hev
        cases hev
      | tailing => simpa [hpoint] using hpending
      | waiting => simpa [hpoint] using hpending
    have hseq : first ≤ ev.seq := by
      rcases publish_cases pr s.publisher change with ⟨hnone, -⟩ | ⟨ev', hev', hseq, -⟩
      · rw [hev] at hnone
        cases hnone
      · obtain rfl := Option.some.inj (hev.symm.trans hev')
        rw [hseq, h.records.seq]
        exact h.first_le
    obtain ⟨hlisten, rfl⟩ := hlistening
    simp only [hlisten, if_true]
    refine ⟨h.records.record hev, ?_, h.live, ⟨s.generator.queue ++ [ev], ?_, ?_⟩, h.yielded⟩
    · rw [List.length_append]
      exact Nat.le_add_right_of_le h.first_le
    · unfold Generator.pending at hpending ⊢
      unfold Generator.listening at hlisten
      cases hpoint : s.generator.point <;> simp_all
    · rw [owed_append hseq, List.map_append, List.map_append, ← hitems, List.append_assoc]

variable (pr opts) in
/-- Nothing that the publisher accepts is published while the replay is suspended. -/
def QuietReplay (auth : Except Failure Context) (s : PushStream Payload) (moves : List (Move Ref Item Card)) : Prop :=
  ∀ before change after, moves = before ++ .publish change :: after → Replaying (s.run pr auth opts before) →
    (publish pr (s.run pr auth opts before).publisher change).1 = none

theorem Tracks.run (h : Tracks first s) (hsignal : opts.signal = true) (auth : Except Failure Context)
    {moves : List (Move Ref Item Card)} (habort : Move.abort ∉ moves) (hquiet : QuietReplay pr opts auth s moves) :
    Tracks first (s.run pr auth opts moves) := by
  induction moves generalizing s with
  | nil => exact h
  | cons move moves ih =>
    have hrest : QuietReplay pr opts auth (s.step pr auth opts move) moves := fun before change after hsplit hreplaying =>
      hquiet (move :: before) change after (by rw [hsplit]; rfl) hreplaying
    have hmoves : Move.abort ∉ moves := fun hmem => habort (List.mem_cons_of_mem _ hmem)
    refine ih ?_ hmoves hrest
    cases move with
    | publish change => exact h.publish auth (hquiet [] change moves rfl)
    | pull => exact h.pull hsignal auth
    | wake => exact h.wake auth
    | abort => exact absurd (List.mem_cons_self ..) habort

/-- Until its first pull the subscription takes no part in what is published. -/
theorem opened_records (auth : Except Failure Context) (window : Option Nat) (history : List (Change Ref Item Card)) :
    Records (PushStream.opened pr auth opts window history).publisher (PushStream.opened pr auth opts window history).published ∧
      (PushStream.opened pr auth opts window history).generator = ⟨.start, [], []⟩ ∧
      (PushStream.opened pr auth opts window history).aborted = false ∧
      (PushStream.opened pr auth opts window history).items = [] := by
  induction history using List.reverseRecOn with
  | nil => exact ⟨records_create window, rfl, rfl, rfl⟩
  | append_singleton history change ih =>
    have hstep : PushStream.opened pr auth opts window (history ++ [change]) =
        (PushStream.opened pr auth opts window history).step pr auth opts (.publish change) := by
      rw [PushStream.opened, List.map_append, PushStream.run_append]
      rfl
    rw [hstep]
    generalize PushStream.opened pr auth opts window history = s at ih ⊢
    obtain ⟨hrecords, hgenerator, habort, hitems⟩ := ih
    simp only [PushStream.step]
    cases hev : (publish pr s.publisher change).1 with
    | none =>
      rcases publish_cases pr s.publisher change with ⟨-, hsame⟩ | ⟨ev, hev', -⟩
      · rw [hsame]
        exact ⟨hrecords, hgenerator, habort, hitems⟩
      · rw [hev] at hev'
        cases hev'
    | some ev =>
      refine ⟨hrecords.record hev, ?_, habort, hitems⟩
      rw [hgenerator]
      rfl

/-- The first pull of a subscription whose cursor is retained starts its replay. -/
theorem tracks_start (hsignal : opts.signal = true) (context : Context) (h : Records s.publisher s.published)
    (hgenerator : s.generator = ⟨.start, [], []⟩) (habort : s.aborted = false) (hitems : s.items = [])
    (hcursor : ∀ id, opts.lastEventId = some id → ∃ e ∈ s.publisher.log, e.eventId = id) :
    Tracks (firstOwed s.publisher opts.lastEventId) (s.step pr (.ok context : Except Failure Context) opts .pull) := by
  have hpull : s.step pr (.ok context : Except Failure Context) opts .pull =
      s.advance (replay opts false [] (owed (firstOwed s.publisher opts.lastEventId) s.published)) := by
    simp only [PushStream.step, runSubscription, hgenerator, habort, h.planResume_eq hcursor]
  rw [hpull]
  have hserves := serves_replay hsignal [] (owed (firstOwed s.publisher opts.lastEventId) s.published)
  generalize replay opts false [] (owed (firstOwed s.publisher opts.lastEventId) s.published) = r at hserves
  cases howed : owed (firstOwed s.publisher opts.lastEventId) s.published with
  | nil =>
    rw [howed] at hserves
    obtain rfl : r = _ := hserves
    refine ⟨h, h.firstOwed_le _, habort, ⟨[], rfl, ?_⟩, ?_⟩
    · simp [PushStream.advance, hitems, howed]
    · simp [PushStream.advance, hitems]
  | cons ev rest =>
    rw [howed] at hserves
    obtain ⟨hitem, hpending, hyielded⟩ := hserves
    refine ⟨h, h.firstOwed_le _, habort, ⟨rest, hpending, ?_⟩, ?_⟩
    · simp [PushStream.advance, hitems, howed, hitem]
    · simp [PushStream.advance, hitems, hitem, hyielded, trackedItem]

/-- Pulls and wake-ups alone drain the generator. -/
theorem Tracks.exists_drain (h : Tracks first s) (hsignal : opts.signal = true) (auth : Except Failure Context) :
    ∃ drain : List (Move Ref Item Card), (∀ move ∈ drain, move = .pull ∨ move = .wake) ∧
      Drained (s.run pr auth opts drain) := by
  obtain ⟨rest, hpending, hitems⟩ := h.pending
  induction rest generalizing s with
  | nil =>
    rcases @Tracks.pull_cases _ _ _ _ _ _ _ _ _ pr opts h hsignal auth hpending hitems with
      ⟨hwaiting, -⟩ | ⟨r, hstep, hserves⟩
    · rw [Generator.pending, hwaiting] at hpending
      exact ⟨[], by simp, hwaiting, Option.some.inj hpending⟩
    · refine ⟨[.pull], by simp, ?_⟩
      obtain rfl : r = _ := hserves
      rw [PushStream.run_cons, hstep]
      exact ⟨rfl, rfl⟩
  | cons ev rest ih =>
    -- One resumption serves the next event; a waiting generator has been notified of it.
    have hnext : ∃ move : Move Ref Item Card, (move = .pull ∨ move = .wake) ∧
        ∃ r, s.step pr auth opts move = s.advance r ∧ Serves s.generator.yielded (ev :: rest) r := by
      rcases @Tracks.pull_cases _ _ _ _ _ _ _ _ _ pr opts h hsignal auth hpending hitems with
        ⟨hwaiting, -⟩ | hpull
      · rcases @Tracks.wake_cases _ _ _ _ _ _ _ _ _ pr opts h auth hpending hitems with ⟨hempty, -⟩ | hwake
        · cases hempty hwaiting
        · exact ⟨.wake, .inr rfl, hwake⟩
      · exact ⟨.pull, .inl rfl, hpull⟩
    obtain ⟨move, hmove, r, hstep, hserves⟩ := hnext
    have hr := hserves
    obtain ⟨hitem, hrest, -⟩ := hserves
    have hitems' : (s.advance r).items ++ rest.map trackedItem = (owed first (s.advance r).published).map trackedItem := by
      simp only [PushStream.advance, hitem, Option.toList_some, List.append_assoc]
      exact hitems
    obtain ⟨drain, hdrain, hdrained⟩ := ih (h.advance hitems hr) hrest hitems'
    refine ⟨move :: drain, ?_, ?_⟩
    · intro m hm
      rcases List.mem_cons.mp hm with rfl | hm
      · exact hmove
      · exact hdrain m hm
    · rw [PushStream.run_cons, hstep]
      exact hdrained

/-- The push stream is lossless across replay and tail: a subscription that is
    fresh, or whose cursor is still retained at its first pull, yields what it is
    owed, in order, and all of it once drained, in every run in which nothing that
    the publisher accepts is published while the replay is suspended. -/
theorem runSubscription_lossless (pr : Projectors Ref Item Card Payload) (auth : Except Failure Context)
    (hauth : ∃ context, auth = .ok context) (opts : SubscribeOptions) (hsignal : opts.signal = true) (window : Option Nat)
    (history : List (Change Ref Item Card))
    (hcursor : ∀ id, opts.lastEventId = some id →
      ∃ e ∈ (PushStream.opened pr auth opts window history).publisher.log, e.eventId = id)
    (moves : List (Move Ref Item Card)) (habort : Move.abort ∉ moves)
    (hquiet : QuietReplay pr opts auth ((PushStream.opened pr auth opts window history).step pr auth opts .pull) moves) :
    Lossless (firstOwed (PushStream.opened pr auth opts window history).publisher opts.lastEventId)
        ((PushStream.opened pr auth opts window history).run pr auth opts (.pull :: moves)) ∧
      ∃ drain : List (Move Ref Item Card), (∀ move ∈ drain, move = .pull ∨ move = .wake) ∧
        Drained ((PushStream.opened pr auth opts window history).run pr auth opts (.pull :: moves ++ drain)) := by
  obtain ⟨context, rfl⟩ := hauth
  obtain ⟨hrecords, hgenerator, hlive, hitems⟩ :=
    @opened_records _ _ _ _ Context Failure pr opts (.ok context) window history
  have hstart := @tracks_start _ _ _ _ Context Failure _ pr opts hsignal context hrecords hgenerator hlive hitems hcursor
  have htracks := hstart.run hsignal (.ok context) habort hquiet
  refine ⟨htracks.lossless, ?_⟩
  obtain ⟨drain, hdrain, hdrained⟩ := @Tracks.exists_drain _ _ _ _ Context Failure _ _ pr opts htracks hsignal (.ok context)
  refine ⟨drain, hdrain, ?_⟩
  rw [PushStream.run_append]
  exact hdrained

end lossless

section session

/-- Projections that show nothing, and a gate that admits everything. -/
def blankProjectors : Projectors Unit Unit Unit Unit := ⟨fun _ => (), fun _ => (), fun _ => (), fun _ => (), fun _ => true⟩

/-- A run of an authorised subscription on a publisher with two events. -/
def session (lastEventId : Option JsString) (moves : List (Move Unit Unit Unit)) : PushStream Unit :=
  (PushStream.opened blankProjectors (.ok () : Except Unit Unit) ⟨lastEventId, true⟩ none [.health (), .health ()]).run
    blankProjectors (.ok () : Except Unit Unit) ⟨lastEventId, true⟩ moves

/-- A subscription that resumes after the first event, with a third published once it waits. -/
theorem runSubscription_lossless_resumed :
    Lossless 1 (session (some (str "0")) [.pull, .pull, .publish (.health ()), .wake]) := by
  refine (runSubscription_lossless blankProjectors (.ok () : Except Unit Unit) ⟨(), rfl⟩ ⟨some (str "0"), true⟩ rfl none
    [.health (), .health ()] (fun id hid => ?_) [.pull, .publish (.health ()), .wake] (by simp) ?_).1
  · obtain rfl := Option.some.inj hid
    exact ⟨_, List.mem_cons_self .., rfl⟩
  · intro before change after hsplit hreplaying
    cases before with
    | nil => cases hsplit
    | cons move before =>
      obtain ⟨rfl, hsplit⟩ := List.cons.inj hsplit
      cases before with
      | nil =>
        obtain ⟨rest, hrest⟩ := hreplaying
        cases hrest
      | cons move before =>
        obtain ⟨-, hsplit⟩ := List.cons.inj hsplit
        cases before with
        | nil => cases hsplit
        | cons move before => cases before <;> cases hsplit

/-- An event published between two pulls of the replay is never yielded. -/
theorem runSubscription_loses_replaying :
    ¬ Lossless 0 (session none [.pull, .publish (.health ()), .pull, .pull]) := by
  intro h
  have hall := h.drained ⟨rfl, rfl⟩
  have hlength := congrArg List.length hall
  revert hlength
  decide

end session

end sow.stream
