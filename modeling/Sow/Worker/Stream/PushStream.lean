import Sow.Js.Map
import Sow.Worker.Stream.EventClasses

open sow.js

namespace sow.stream

def DEFAULT_MAX_BUFFERED_ITEMS : Nat := DEFAULT_REPLAY_WINDOW

inductive OfferOutcome where
  | buffered
  | coalesced
  | resync
  deriving DecidableEq

/-- The bounded buffer of one connection; `cardIndex` is where the delta of a card waits. -/
structure OutboundBuffer (Payload : Type) where
  capacity : Nat
  buffer : List (StreamEvent Payload)
  cardIndex : Map JsString Nat
  resync : Bool

/-- A call on a buffer. -/
inductive BufferMove (Payload : Type) where
  | offer (ev : StreamEvent Payload)
  | drain

/-- A buffer with all that was offered to it and all that was drained. -/
structure Outbound (Payload : Type) where
  outbound : OutboundBuffer Payload
  offered : List (StreamEvent Payload)
  delivered : List (StreamEvent Payload)

section buffer

variable {Payload : Type} (cardId : Payload → JsString)

def createOutboundBuffer (maxBufferedItems : Option Nat) : OutboundBuffer Payload :=
  ⟨max 1 (maxBufferedItems.getD DEFAULT_MAX_BUFFERED_ITEMS), [], .empty, false⟩

/-- The card that an event is a delta of. -/
def cardIdOf (ev : StreamEvent Payload) : Option JsString :=
  match ev.name with
  | .read_model_change => some (cardId ev.payload)
  | _ => none

/-- Where the deltas of a buffer wait. -/
def reindexCards (buffer : List (StreamEvent Payload)) : Map JsString Nat :=
  buffer.zipIdx.foldl (fun m e => match cardIdOf cardId e.1 with
    | some cid => m.set cid e.2
    | none => m) .empty

def OutboundBuffer.push (b : OutboundBuffer Payload) (ev : StreamEvent Payload) : OutboundBuffer Payload :=
  { b with
    buffer := b.buffer ++ [ev]
    cardIndex := match cardIdOf cardId ev with
      | some cid => b.cardIndex.set cid b.buffer.length
      | none => b.cardIndex }

def OutboundBuffer.offer (b : OutboundBuffer Payload) (ev : StreamEvent Payload) : OutboundBuffer Payload × OfferOutcome :=
  if b.resync then (b, .resync)
  else
    match (cardIdOf cardId ev).bind b.cardIndex.get with
    -- The newer delta takes the place of the older one.
    | some i => ({ b with buffer := b.buffer.set i ev }, .coalesced)
    | none =>
      if b.buffer.length < b.capacity then (b.push cardId ev, .buffered)
      else
        let reindexed := { b with cardIndex := reindexCards cardId b.buffer }
        if reindexed.buffer.length < reindexed.capacity then (reindexed.push cardId ev, .buffered)
        else ({ b with buffer := [], cardIndex := .empty, resync := true }, .resync)

def OutboundBuffer.drain (b : OutboundBuffer Payload) : List (StreamEvent Payload) × OutboundBuffer Payload :=
  (b.buffer, { b with buffer := [], cardIndex := .empty })

def Outbound.step (s : Outbound Payload) : BufferMove Payload → Outbound Payload
  | .offer ev => ⟨(s.outbound.offer cardId ev).1, s.offered ++ [ev], s.delivered⟩
  | .drain => ⟨s.outbound.drain.2, s.offered, s.delivered ++ s.outbound.drain.1⟩

def Outbound.run (s : Outbound Payload) (moves : List (BufferMove Payload)) : Outbound Payload := moves.foldl (Outbound.step cardId) s

def createOutbound (maxBufferedItems : Option Nat) : Outbound Payload := ⟨createOutboundBuffer maxBufferedItems, [], []⟩

end buffer

/-- An item of the subscription; `data` is absent on the control frame, which
    carries its own marker. -/
structure TrackedItem (Payload : Type) where
  id : JsString
  data : Option Payload
  control : Bool
  deriving DecidableEq

def RESYNC_CONTROL_ID : JsString := str "__resync__"

structure SubscribeOptions where
  lastEventId : Option JsString
  /-- Whether the caller wired an abort signal. -/
  signal : Bool

section subscription

variable {Ref Item Card Payload Context Failure : Type}

def RESYNC_CONTROL_FRAME : TrackedItem Payload := ⟨RESYNC_CONTROL_ID, none, true⟩

/-- `{ id: ev.eventId, data: ev.payload }` -/
def trackedItem (ev : StreamEvent Payload) : TrackedItem Payload := ⟨ev.eventId, some ev.payload, false⟩

inductive ResumePlan (Payload : Type) where
  | replay (events : List (StreamEvent Payload))
  | resync

def planResume (p : StreamPublisher Payload) (lastEventId : Option JsString) : ResumePlan Payload :=
  match resumeOrResync p lastEventId with
  | .replay events => .replay events
  | .resync => .resync

/-- Where the generator of `runSubscription` is suspended. -/
inductive Point (Payload : Type) where
  /-- before its first pull -/
  | start
  /-- at the `yield` of the replay loop, with the events still to be replayed -/
  | replaying (rest : List (StreamEvent Payload))
  /-- at the `yield` of the control frame -/
  | resynced
  /-- at the `yield` of the live tail -/
  | tailing
  /-- in the live tail, at the `await` for a notification -/
  | waiting
  | finished
  deriving DecidableEq

/-- The generator between two of its steps. -/
structure Generator (Payload : Type) where
  point : Point Payload
  yielded : List JsString
  queue : List (StreamEvent Payload)
  deriving DecidableEq

/-- The live listener is attached inside the tail only. -/
def Generator.listening (g : Generator Payload) : Bool :=
  match g.point with
  | .tailing => true
  | .waiting => true
  | _ => false

/-- The loop of the live tail, up to its next suspension. -/
def tail (yielded : List JsString) : List (StreamEvent Payload) → Generator Payload × Option (TrackedItem Payload)
  | [] => (⟨.waiting, yielded, []⟩, none)
  | ev :: queue =>
    if ev.eventId ∈ yielded then tail yielded queue
    else (⟨.tailing, yielded ++ [ev.eventId], queue⟩, some (trackedItem ev))

/-- From the end of the replay into the live tail. -/
def enterTail (opts : SubscribeOptions) (aborted : Bool) (yielded : List JsString) :
    Generator Payload × Option (TrackedItem Payload) :=
  if opts.signal = false then (⟨.finished, yielded, []⟩, none)
  else if aborted then (⟨.finished, yielded, []⟩, none)
  else tail yielded []

/-- The loop of the replay, up to its next suspension. -/
def replay (opts : SubscribeOptions) (aborted : Bool) (yielded : List JsString) :
    List (StreamEvent Payload) → Generator Payload × Option (TrackedItem Payload)
  | [] => enterTail opts aborted yielded
  | ev :: rest => (⟨.replaying rest, yielded ++ [ev.eventId], []⟩, some (trackedItem ev))

/-- The generator resumed inside the live tail. -/
def resumeTail (aborted : Bool) (g : Generator Payload) : Generator Payload × Option (TrackedItem Payload) :=
  if aborted then (⟨.finished, g.yielded, []⟩, none) else tail g.yielded g.queue

/-- A pull of the consumer: the generator runs up to its next suspension. While it
    waits for a notification a further pull is queued behind the outstanding one. -/
def runSubscription (p : StreamPublisher Payload) (auth : Except Failure Context) (opts : SubscribeOptions)
    (aborted : Bool) (g : Generator Payload) : Generator Payload × Option (TrackedItem Payload) :=
  match g.point with
  | .start =>
    match auth with
    | .error _ => (⟨.finished, [], []⟩, none)
    | .ok _ =>
      match planResume p opts.lastEventId with
      | .resync => (⟨.resynced, [], []⟩, some RESYNC_CONTROL_FRAME)
      | .replay events => replay opts aborted [] events
  | .replaying rest => replay opts aborted g.yielded rest
  | .resynced => enterTail opts aborted g.yielded
  | .tailing => resumeTail aborted g
  | .waiting => (g, none)
  | .finished => (g, none)

/-- The publisher with one subscription: everything published so far, the
    generator, whether the signal is aborted, and the items the consumer has received. -/
structure PushStream (Payload : Type) where
  publisher : StreamPublisher Payload
  published : List (StreamEvent Payload)
  generator : Generator Payload
  aborted : Bool
  items : List (TrackedItem Payload)
  deriving DecidableEq

/-- A step of the worker, of the consumer, or of the event loop. -/
inductive Move (Ref Item Card : Type) where
  | publish (change : Change Ref Item Card)
  | pull
  /-- The notified generator goes on; its queue and the signal are read then. -/
  | wake
  | abort

def createPushStream (replayWindow : Option Nat) : PushStream Payload :=
  ⟨createStreamPublisher replayWindow, [], ⟨.start, [], []⟩, false, []⟩

/-- The generator moved on, and may have yielded. -/
def PushStream.advance (s : PushStream Payload) (r : Generator Payload × Option (TrackedItem Payload)) : PushStream Payload :=
  { s with generator := r.1, items := s.items ++ r.2.toList }

variable (pr : Projectors Ref Item Card Payload) (auth : Except Failure Context) (opts : SubscribeOptions)

def PushStream.step (s : PushStream Payload) : Move Ref Item Card → PushStream Payload
  | .publish change =>
    let made := publish pr s.publisher change
    match made.1 with
    | none => { s with publisher := made.2 }
    | some ev => { s with
      publisher := made.2
      published := s.published ++ [ev]
      generator := if s.generator.listening then { s.generator with queue := s.generator.queue ++ [ev] } else s.generator }
  | .pull => s.advance (runSubscription s.publisher auth opts s.aborted s.generator)
  | .wake =>
    match s.generator.point with
    | .waiting =>
      -- Not notified while there is nothing in the queue and no abort.
      if s.generator.queue.isEmpty && !s.aborted then s else s.advance (resumeTail s.aborted s.generator)
    | _ => s
  | .abort => { s with aborted := true }

def PushStream.run (s : PushStream Payload) (moves : List (Move Ref Item Card)) : PushStream Payload :=
  moves.foldl (PushStream.step pr auth opts) s

/-- A subscription that is not pulled yet, on a publisher with a history. -/
def PushStream.opened (window : Option Nat) (history : List (Change Ref Item Card)) : PushStream Payload :=
  (createPushStream window).run pr auth opts (history.map .publish)

variable {pr auth opts}

theorem PushStream.run_cons (s : PushStream Payload) (move : Move Ref Item Card) (moves : List (Move Ref Item Card)) :
    s.run pr auth opts (move :: moves) = (s.step pr auth opts move).run pr auth opts moves := rfl

theorem PushStream.run_singleton (s : PushStream Payload) (move : Move Ref Item Card) :
    s.run pr auth opts [move] = s.step pr auth opts move := rfl

theorem PushStream.run_append (s : PushStream Payload) (before after : List (Move Ref Item Card)) :
    s.run pr auth opts (before ++ after) = (s.run pr auth opts before).run pr auth opts after := by
  rw [PushStream.run, PushStream.run, PushStream.run, List.foldl_append]

end subscription

end sow.stream
