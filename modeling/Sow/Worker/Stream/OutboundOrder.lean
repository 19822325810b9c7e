import Sow.Worker.Stream.PushStream

open sow.js

namespace sow.stream

section spec

variable {Payload : Type} (cardId : Payload → JsString)

/-- In strictly increasing order of the sequence numbers. -/
def Increasing (l : List (StreamEvent Payload)) : Prop := l.Pairwise fun e e' => e.seq < e'.seq

/-- What has left the buffer, and what leaves with the next drain. -/
def Outbound.leaving (s : Outbound Payload) : List (StreamEvent Payload) := s.delivered ++ s.outbound.buffer

def latestDelta (l : List (StreamEvent Payload)) (card : JsString) : Option (StreamEvent Payload) :=
  l.reverse.find? fun ev => cardIdOf cardId ev = some card

/-- A later delta of its card was offered. -/
def Superseded (offered : List (StreamEvent Payload)) (ev : StreamEvent Payload) : Prop :=
  cardIdOf cardId ev ≠ none ∧ ∃ later ∈ offered, cardIdOf cardId later = cardIdOf cardId ev ∧ ev.seq < later.seq

/-- What a buffer of a capacity owes to its connection. -/
structure KeepsStream (capacity : Nat) (s : Outbound Payload) : Prop where
  bounded : s.outbound.buffer.length ≤ capacity
  ordered : Increasing s.leaving
  /-- Unless a resync is signalled, each event that is no delta leaves. -/
  lossless : s.outbound.resync = false → ∀ ev ∈ s.offered, cardIdOf cardId ev = none → ev ∈ s.leaving
  /-- Unless a resync is signalled, the last delta of a card that leaves is its latest. -/
  latest : s.outbound.resync = false → ∀ card, latestDelta cardId s.leaving card = latestDelta cardId s.offered card
  /-- Behind the last event that a client holds comes each event that it does not hold, but for superseded deltas. -/
  resumes : ∀ held last rest, s.leaving = held ++ last :: rest → ∀ ev ∈ s.offered,
    ev ∈ held ++ [last] ∨ last.seq < ev.seq ∨ Superseded cardId s.offered ev

/-- No event waits behind an older delta of the card. -/
def WaitsLast (b : OutboundBuffer Payload) (ev : StreamEvent Payload) : Prop :=
  ∀ before old behind, b.buffer = before ++ old :: behind → cardIdOf cardId ev ≠ none → cardIdOf cardId old = cardIdOf cardId ev → behind = []

def offeredBy (moves : List (BufferMove Payload)) : List (StreamEvent Payload) :=
  moves.filterMap fun move => match move with
    | .offer ev => some ev
    | .drain => none

/-- What every buffer keeps, in whatever order its deltas come. -/
structure Indexed (capacity : Nat) (s : Outbound Payload) : Prop where
  capacity_eq : s.outbound.capacity = capacity
  bounded : s.outbound.buffer.length ≤ capacity
  index : ∀ card i, s.outbound.cardIndex.get card = some i ↔ (s.outbound.buffer.map (cardIdOf cardId))[i]? = some (some card)
  cleared : s.outbound.resync = true → s.outbound.buffer = []
  offered : ∀ ev ∈ s.leaving, ev ∈ s.offered
  lossless : s.outbound.resync = false → ∀ ev ∈ s.offered, cardIdOf cardId ev = none → ev ∈ s.leaving
  latest : s.outbound.resync = false → ∀ card, latestDelta cardId s.leaving card = latestDelta cardId s.offered card

/-- What a buffer keeps whose deltas all wait last. -/
structure InOrder (s : Outbound Payload) : Prop where
  ordered : Increasing s.leaving
  /-- What does not leave is superseded, or was given up for the resync and comes after all that has left. -/
  covered : ∀ ev ∈ s.offered, ev ∈ s.leaving ∨ Superseded cardId s.offered ev ∨
    s.outbound.resync = true ∧ ∀ left ∈ s.leaving, left.seq < ev.seq

end spec

section latest

variable {Payload : Type} {cardId : Payload → JsString} {l l' : List (StreamEvent Payload)} {ev : StreamEvent Payload} {card : JsString}

theorem latestDelta_cons_of_ne (h : cardIdOf cardId ev ≠ some card) : latestDelta cardId (l ++ ev :: l') card = latestDelta cardId (l ++ l') card := by
  unfold latestDelta
  simp [List.find?_append, h]

theorem latestDelta_cons_of_eq (h : cardIdOf cardId ev = some card) (hbehind : ∀ e ∈ l', cardIdOf cardId e ≠ some card) :
    latestDelta cardId (l ++ ev :: l') card = some ev := by
  unfold latestDelta
  have hnone : l'.reverse.find? (fun e => cardIdOf cardId e = some card) = none := by
    rw [List.find?_eq_none]
    intro e he
    simpa using hbehind e (List.mem_reverse.mp he)
  simp [List.find?_append, hnone, h]

end latest

section steps

variable {Payload : Type} {cardId : Payload → JsString} {capacity : Nat} {s : Outbound Payload} {ev : StreamEvent Payload}

/-- The event takes the place of the only delta of its card. -/
structure Coalesces (cardId : Payload → JsString) (b : OutboundBuffer Payload) (ev : StreamEvent Payload) (before : List (StreamEvent Payload))
    (old : StreamEvent Payload) (behind : List (StreamEvent Payload)) (card : JsString) : Prop where
  waiting : b.buffer = before ++ old :: behind
  card_ev : cardIdOf cardId ev = some card
  card_old : cardIdOf cardId old = some card
  only : ∀ e ∈ before ++ behind, cardIdOf cardId e ≠ some card
  outcome : (b.offer cardId ev).1 = { b with buffer := before ++ ev :: behind }

/-- What an offer does: nothing after a resync, else it coalesces, appends, or signals the resync. -/
theorem offer_cases (h : Indexed cardId capacity s) (ev : StreamEvent Payload) :
    (s.outbound.resync = true ∧ (s.outbound.offer cardId ev).1 = s.outbound) ∨
      s.outbound.resync = false ∧
        ((∃ before old behind card, Coalesces cardId s.outbound ev before old behind card) ∨
          (∀ e ∈ s.outbound.buffer, cardIdOf cardId ev ≠ none → cardIdOf cardId e ≠ cardIdOf cardId ev) ∧
            (s.outbound.buffer.length < capacity ∧ (s.outbound.offer cardId ev).1 = s.outbound.push cardId ev ∨
              (s.outbound.offer cardId ev).1 = { s.outbound with buffer := [], cardIndex := .empty, resync := true })) := by
  unfold OutboundBuffer.offer
  cases hresync : s.outbound.resync with
  | true => exact .inl ⟨rfl, by simp⟩
  | false =>
    refine .inr ⟨rfl, ?_⟩
    simp only [Bool.false_eq_true, if_false]
    cases hat : (cardIdOf cardId ev).bind s.outbound.cardIndex.get with
    | some i =>
      obtain ⟨card, hcard, hget⟩ := Option.bind_eq_some_iff.mp hat
      have hindexed := (h.index card i).mp hget
      rw [List.getElem?_map, Option.map_eq_some_iff] at hindexed
      obtain ⟨old, hold, hcardOld⟩ := hindexed
      obtain ⟨hlt, hgetElem⟩ := List.getElem?_eq_some_iff.mp hold
      have hsplit : s.outbound.buffer = s.outbound.buffer.take i ++ old :: s.outbound.buffer.drop (i + 1) := by
        rw [← hgetElem, List.cons_getElem_drop_succ, List.take_append_drop]
      refine .inl ⟨s.outbound.buffer.take i, old, s.outbound.buffer.drop (i + 1), card, hsplit, hcard, hcardOld, fun e he hcardE => ?_, ?_⟩
      · -- A second delta of the card would be indexed at another place.
        have hother : ∃ j, j ≠ i ∧ (s.outbound.buffer.map (cardIdOf cardId))[j]? = some (some card) := by
          rcases List.mem_append.mp he with he | he
          · obtain ⟨j, hj, hgetj⟩ := List.mem_take_iff_getElem.mp he
            refine ⟨j, by omega, ?_⟩
            rw [List.getElem?_map, List.getElem?_eq_getElem (by omega), hgetj, Option.map_some, hcardE]
          · obtain ⟨j, hj, hgetj⟩ := List.mem_drop_iff_getElem.mp he
            refine ⟨i + 1 + j, by omega, ?_⟩
            rw [List.getElem?_map, List.getElem?_eq_getElem (by omega), hgetj, Option.map_some, hcardE]
        obtain ⟨j, hne, hj⟩ := hother
        rw [← h.index, hget] at hj
        exact hne (Option.some.inj hj).symm
      · unfold OutboundBuffer.offer
        rw [hresync, if_neg Bool.false_ne_true, hat]
        simp only
        rw [List.set_eq_take_append_cons_drop, if_pos hlt]
    | none =>
      have hnone : ∀ e ∈ s.outbound.buffer, cardIdOf cardId ev ≠ none → cardIdOf cardId e ≠ cardIdOf cardId ev := by
        intro e he hdelta hsame
        obtain ⟨card, hcard⟩ := Option.ne_none_iff_exists'.mp hdelta
        obtain ⟨i, hi, hgeti⟩ := List.mem_iff_getElem.mp he
        have hget : s.outbound.cardIndex.get card = some i := by
          rw [h.index, List.getElem?_map, List.getElem?_eq_getElem hi, hgeti, Option.map_some, hsame, hcard]
        rw [hcard, Option.bind_some, hget] at hat
        cases hat
      refine .inr ⟨hnone, ?_⟩
      simp only [h.capacity_eq]
      by_cases hroom : s.outbound.buffer.length < capacity
      · rw [if_pos hroom]
        exact .inl ⟨hroom, rfl⟩
      · rw [if_neg hroom, if_neg hroom]
        exact .inr rfl

theorem Superseded.mono {offered : List (StreamEvent Payload)} {e : StreamEvent Payload} (h : Superseded cardId offered e)
    (ev : StreamEvent Payload) : Superseded cardId (offered ++ [ev]) e := by
  obtain ⟨hdelta, later, hlater, hcard, hseq⟩ := h
  exact ⟨hdelta, later, List.mem_append_left _ hlater, hcard, hseq⟩

theorem latestDelta_concat (l : List (StreamEvent Payload)) (ev : StreamEvent Payload) (card : JsString) :
    latestDelta cardId (l ++ [ev]) card = if cardIdOf cardId ev = some card then some ev else latestDelta cardId l card := by
  by_cases h : cardIdOf cardId ev = some card
  · rw [if_pos h, latestDelta_cons_of_eq h (by simp)]
  · rw [if_neg h, latestDelta_cons_of_ne h, List.append_nil]

variable (cardId) in
theorem Indexed.start (maxBufferedItems : Option Nat) :
    Indexed cardId (max 1 (maxBufferedItems.getD DEFAULT_MAX_BUFFERED_ITEMS)) (createOutbound maxBufferedItems) where
  capacity_eq := rfl
  bounded := Nat.zero_le _
  index card i := by simp [createOutbound, createOutboundBuffer]
  cleared _ := rfl
  offered ev h := by cases h
  lossless _ ev h := by cases h
  latest _ card := rfl

/-- An offer that coalesces. -/
theorem Indexed.coalesce (h : Indexed cardId capacity s) (hresync : s.outbound.resync = false) {before behind : List (StreamEvent Payload)}
    {old : StreamEvent Payload} {card : JsString} (hc : Coalesces cardId s.outbound ev before old behind card) :
    Indexed cardId capacity ⟨{ s.outbound with buffer := before ++ ev :: behind }, s.offered ++ [ev], s.delivered⟩ := by
  have hleaving : s.leaving = (s.delivered ++ before) ++ old :: behind := by
    unfold Outbound.leaving
    rw [hc.waiting, List.append_assoc]
  refine ⟨h.capacity_eq, ?_, fun c i => ?_, fun hset => ?_, fun e he => ?_, fun _ e he hplain => ?_, fun _ c => ?_⟩
  · have hbounded := h.bounded
    rw [hc.waiting] at hbounded
    simpa using hbounded
  · rw [h.index, hc.waiting]
    simp only [List.map_append, List.map_cons, hc.card_ev, hc.card_old]
  · rw [hresync] at hset
    cases hset
  · have he' : e = ev ∨ e ∈ s.leaving := by
      unfold Outbound.leaving at he
      rw [hleaving]
      simp only [List.mem_append, List.mem_cons] at he ⊢
      tauto
    rcases he' with rfl | he'
    · simp
    · exact List.mem_append_left _ (h.offered e he')
  · have hne : e ≠ old := by
      rintro rfl
      rw [hc.card_old] at hplain
      cases hplain
    have he' : e = ev ∨ e ∈ s.leaving := by
      rcases List.mem_append.mp he with he | he
      · exact .inr (h.lossless hresync e he hplain)
      · exact .inl (List.mem_singleton.mp he)
    rw [hleaving] at he'
    unfold Outbound.leaving
    simp only [List.mem_append, List.mem_cons] at he' ⊢
    tauto
  · have hafter : (⟨{ s.outbound with buffer := before ++ ev :: behind }, s.offered ++ [ev], s.delivered⟩ : Outbound Payload).leaving =
        (s.delivered ++ before) ++ ev :: behind := by
      unfold Outbound.leaving
      rw [List.append_assoc]
    rw [hafter, latestDelta_concat]
    by_cases hcard : c = card
    · subst hcard
      rw [if_pos hc.card_ev]
      exact latestDelta_cons_of_eq hc.card_ev fun e he => hc.only e (List.mem_append_right _ he)
    · have hev : cardIdOf cardId ev ≠ some c := by
        rw [hc.card_ev]
        exact fun heq => hcard (Option.some.inj heq).symm
      have hold : cardIdOf cardId old ≠ some c := by
        rw [hc.card_old]
        exact fun heq => hcard (Option.some.inj heq).symm
      rw [if_neg hev, latestDelta_cons_of_ne hev, ← latestDelta_cons_of_ne hold, ← hleaving]
      exact h.latest hresync c

/-- An offer that there is room for. -/
theorem Indexed.push (h : Indexed cardId capacity s) (hresync : s.outbound.resync = false)
    (hnone : ∀ e ∈ s.outbound.buffer, cardIdOf cardId ev ≠ none → cardIdOf cardId e ≠ cardIdOf cardId ev)
    (hroom : s.outbound.buffer.length < capacity) :
    Indexed cardId capacity ⟨s.outbound.push cardId ev, s.offered ++ [ev], s.delivered⟩ := by
  have hleaving : (⟨s.outbound.push cardId ev, s.offered ++ [ev], s.delivered⟩ : Outbound Payload).leaving = s.leaving ++ [ev] := by
    unfold Outbound.leaving OutboundBuffer.push
    rw [List.append_assoc]
  refine ⟨h.capacity_eq, ?_, fun c i => ?_, fun hset => ?_, fun e he => ?_, fun _ e he hplain => ?_, fun _ c => ?_⟩
  · unfold OutboundBuffer.push
    rw [List.length_append, List.length_singleton]
    omega
  · have hkeep := h.index c i
    unfold OutboundBuffer.push
    rw [List.map_append, List.map_singleton]
    by_cases hi : i < s.outbound.buffer.length
    · rw [List.getElem?_append_left (by simpa using hi), ← hkeep]
      cases hcard : cardIdOf cardId ev with
      | none => rfl
      | some card =>
        simp only
        rw [Map.get_set]
        split
        · next heq =>
          -- The card has no delta in the buffer yet.
          subst heq
          constructor
          · intro hlen
            have := Option.some.inj hlen
            omega
          · intro hget
            rw [hkeep, List.getElem?_map, Option.map_eq_some_iff] at hget
            obtain ⟨e, he, hcardE⟩ := hget
            exact absurd (hcardE.trans hcard.symm) (hnone e (List.mem_of_getElem? he) (by rw [hcard]; exact Option.some_ne_none _))
        · rfl
    · have hold : s.outbound.cardIndex.get c ≠ some i := by
        rw [ne_eq, hkeep, List.getElem?_eq_none (by simpa using Nat.le_of_not_lt hi)]
        exact nofun
      have hnew : (s.outbound.buffer.map (cardIdOf cardId) ++ [cardIdOf cardId ev])[i]? = some (some c) ↔
          i = s.outbound.buffer.length ∧ cardIdOf cardId ev = some c := by
        rw [List.getElem?_append_right (by simpa using Nat.le_of_not_lt hi), List.length_map, List.getElem?_singleton]
        by_cases hlast : i = s.outbound.buffer.length
        · simp [hlast]
        · rw [if_neg (by omega)]
          simp [hlast]
      rw [hnew]
      cases hcard : cardIdOf cardId ev with
      | none => simp [hold]
      | some card =>
        simp only
        rw [Map.get_set]
        split
        · next heq => simp [heq, eq_comm]
        · next hne => simp [hold, hne]
  · unfold OutboundBuffer.push at hset
    rw [hresync] at hset
    cases hset
  · rw [hleaving] at he
    rcases List.mem_append.mp he with he | he
    · exact List.mem_append_left _ (h.offered e he)
    · exact List.mem_append_right _ he
  · rw [hleaving]
    rcases List.mem_append.mp he with he | he
    · exact List.mem_append_left _ (h.lossless hresync e he hplain)
    · exact List.mem_append_right _ he
  · rw [hleaving, latestDelta_concat, latestDelta_concat, h.latest hresync]

/-- An offer, whatever becomes of it. -/
theorem Indexed.offer (h : Indexed cardId capacity s) (ev : StreamEvent Payload) : Indexed cardId capacity (s.step cardId (.offer ev)) := by
  unfold Outbound.step
  simp only
  rcases offer_cases h ev with ⟨hresync, houtcome⟩ | ⟨hresync, ⟨before, old, behind, card, hc⟩ | ⟨hnone, ⟨hroom, houtcome⟩ | houtcome⟩⟩
  · rw [houtcome]
    exact ⟨h.capacity_eq, h.bounded, h.index, h.cleared, fun e he => List.mem_append_left _ (h.offered e he),
      fun hset => absurd (hset.symm.trans hresync) nofun, fun hset => absurd (hset.symm.trans hresync) nofun⟩
  · rw [hc.outcome]
    exact h.coalesce hresync hc
  · rw [houtcome]
    exact h.push hresync hnone hroom
  · rw [houtcome]
    refine ⟨h.capacity_eq, Nat.zero_le _, fun c i => by simp, fun _ => rfl, fun e he => ?_, nofun, nofun⟩
    unfold Outbound.leaving at he
    exact List.mem_append_left _ (h.offered e (List.mem_append_left _ (by simpa using he)))

variable (cardId) in
theorem leaving_drain (s : Outbound Payload) : (s.step cardId .drain).leaving = s.leaving := by
  unfold Outbound.leaving Outbound.step OutboundBuffer.drain
  simp

theorem Indexed.drain (h : Indexed cardId capacity s) : Indexed cardId capacity (s.step cardId .drain) := by
  have hleaving := leaving_drain cardId s
  refine ⟨h.capacity_eq, Nat.zero_le _, fun c i => ?_, fun _ => rfl, fun e he => ?_, fun hset e he hplain => ?_, fun hset c => ?_⟩
  · simp [Outbound.step, OutboundBuffer.drain]
  · exact h.offered e (hleaving ▸ he)
  · rw [hleaving]
    exact h.lossless hset e he hplain
  · rw [hleaving]
    exact h.latest hset c

end steps

section order

variable {Payload : Type} {cardId : Payload → JsString} {capacity : Nat} {s : Outbound Payload} {ev : StreamEvent Payload}

theorem InOrder.start (maxBufferedItems : Option Nat) : InOrder cardId (createOutbound maxBufferedItems : Outbound Payload) :=
  ⟨.nil, fun _ h => by cases h⟩

/-- The newest event goes behind all others. -/
theorem Increasing.concat {l : List (StreamEvent Payload)} (h : Increasing l) (hlater : ∀ e ∈ l, e.seq < ev.seq) : Increasing (l ++ [ev]) := by
  refine List.pairwise_append.mpr ⟨h, List.pairwise_singleton _ _, fun e he e' he' => ?_⟩
  rw [List.mem_singleton.mp he']
  exact hlater e he

/-- An offer whose card waits last, if at all. -/
theorem InOrder.offer (hindexed : Indexed cardId capacity s) (h : InOrder cardId s) (hlater : ∀ e ∈ s.offered, e.seq < ev.seq)
    (hlast : WaitsLast cardId s.outbound ev) : InOrder cardId (s.step cardId (.offer ev)) := by
  have hbehind : ∀ e ∈ s.leaving, e.seq < ev.seq := fun e he => hlater e (hindexed.offered e he)
  unfold Outbound.step
  simp only
  rcases offer_cases hindexed ev with ⟨hresync, houtcome⟩ | ⟨hresync, ⟨before, old, behind, card, hc⟩ | ⟨-, ⟨-, houtcome⟩ | houtcome⟩⟩
  · rw [houtcome]
    refine ⟨h.ordered, fun e he => ?_⟩
    rcases List.mem_append.mp he with he | he
    · rcases h.covered e he with hleaves | hsuperseded | hgiven
      · exact .inl hleaves
      · exact .inr (.inl (hsuperseded.mono ev))
      · exact .inr (.inr hgiven)
    · rw [List.mem_singleton.mp he]
      exact .inr (.inr ⟨hresync, hbehind⟩)
  · obtain rfl : behind = [] := by
      refine hlast before old behind hc.waiting ?_ (hc.card_old.trans hc.card_ev.symm)
      rw [hc.card_ev]
      exact Option.some_ne_none _
    have hbefore : s.leaving = (s.delivered ++ before) ++ [old] := by
      unfold Outbound.leaving
      rw [hc.waiting, List.append_assoc]
    have hafter : (⟨{ s.outbound with buffer := before ++ [ev] }, s.offered ++ [ev], s.delivered⟩ : Outbound Payload).leaving =
        (s.delivered ++ before) ++ [ev] := by
      unfold Outbound.leaving
      rw [List.append_assoc]
    rw [hc.outcome]
    have hordered := h.ordered
    rw [hbefore] at hordered
    refine ⟨?_, fun e he => ?_⟩
    · rw [hafter]
      exact Increasing.concat (List.pairwise_append.mp hordered).1 fun e he => hbehind e (by rw [hbefore]; exact List.mem_append_left _ he)
    · rcases List.mem_append.mp he with he | he
      · rcases h.covered e he with hleaves | hsuperseded | ⟨hset, -⟩
        · rw [hbefore] at hleaves
          rcases List.mem_append.mp hleaves with hleaves | hleaves
          · rw [hafter]
            exact .inl (List.mem_append_left _ hleaves)
          · -- The event that is replaced is superseded by the one that replaces it.
            obtain rfl := List.mem_singleton.mp hleaves
            refine .inr (.inl ⟨?_, ev, by simp, hc.card_ev.trans hc.card_old.symm, hlater _ he⟩)
            rw [hc.card_old]
            exact Option.some_ne_none _
        · exact .inr (.inl (hsuperseded.mono ev))
        · rw [hresync] at hset
          cases hset
      · rw [hafter, List.mem_singleton.mp he]
        exact .inl (by simp)
  · have hafter : (⟨s.outbound.push cardId ev, s.offered ++ [ev], s.delivered⟩ : Outbound Payload).leaving = s.leaving ++ [ev] := by
      unfold Outbound.leaving OutboundBuffer.push
      rw [List.append_assoc]
    rw [houtcome]
    refine ⟨?_, fun e he => ?_⟩
    · rw [hafter]
      exact h.ordered.concat hbehind
    · rw [hafter]
      rcases List.mem_append.mp he with he | he
      · rcases h.covered e he with hleaves | hsuperseded | ⟨hset, -⟩
        · exact .inl (List.mem_append_left _ hleaves)
        · exact .inr (.inl (hsuperseded.mono ev))
        · rw [hresync] at hset
          cases hset
      · exact .inl (List.mem_append_right _ he)
  · have hordered := List.pairwise_append.mp h.ordered
    have hafter : ∀ left, left ∈ (⟨{ s.outbound with buffer := [], cardIndex := .empty, resync := true }, s.offered ++ [ev], s.delivered⟩ :
        Outbound Payload).leaving ↔ left ∈ s.delivered := by
      intro left
      unfold Outbound.leaving
      simp
    rw [houtcome]
    refine ⟨?_, fun e he => ?_⟩
    · unfold Outbound.leaving
      rw [List.append_nil]
      exact hordered.1
    · rw [hafter]
      simp only [hafter]
      rcases List.mem_append.mp he with he | he
      · rcases h.covered e he with hleaves | hsuperseded | ⟨hset, -⟩
        · rcases List.mem_append.mp hleaves with hdelivered | hbuffered
          · exact .inl hdelivered
          · exact .inr (.inr ⟨trivial, fun left hleft => hordered.2.2 left hleft e hbuffered⟩)
        · exact .inr (.inl (hsuperseded.mono ev))
        · rw [hresync] at hset
          cases hset
      · rw [List.mem_singleton.mp he]
        exact .inr (.inr ⟨trivial, fun left hleft => hbehind left (List.mem_append_left _ hleft)⟩)

theorem InOrder.drain (h : InOrder cardId s) : InOrder cardId (s.step cardId .drain) := by
  have hleaving := leaving_drain cardId s
  refine ⟨by rw [hleaving]; exact h.ordered, fun e he => ?_⟩
  rw [hleaving]
  exact h.covered e he

theorem keepsStream_of_inOrder (hindexed : Indexed cardId capacity s) (h : InOrder cardId s) : KeepsStream cardId capacity s where
  bounded := hindexed.bounded
  ordered := h.ordered
  lossless := hindexed.lossless
  latest := hindexed.latest
  resumes held last rest hsplit ev hev := by
    have hordered := h.ordered
    rw [hsplit] at hordered
    have hlast : last ∈ s.leaving := by
      rw [hsplit]
      simp
    rcases h.covered ev hev with hleaves | hsuperseded | ⟨-, hgiven⟩
    · rw [hsplit] at hleaves
      rcases List.mem_append.mp hleaves with hheld | hrest
      · exact .inl (List.mem_append_left _ hheld)
      · rcases List.mem_cons.mp hrest with rfl | hrest
        · exact .inl (by simp)
        · exact .inr (.inl (List.rel_of_pairwise_cons (List.pairwise_append.mp hordered).2.1 hrest))
    · exact .inr (.inr hsuperseded)
    · exact .inr (.inl (hgiven last hlast))

/-- Where the buffer stays in order behind an offer, its card has waited last, if at all. -/
theorem waitsLast_of_ordered (hindexed : Indexed cardId capacity s) (hlater : ∀ e ∈ s.offered, e.seq < ev.seq)
    (h : Increasing (s.step cardId (.offer ev)).leaving) : WaitsLast cardId s.outbound ev := by
  intro before old behind hwaiting hdelta hcard
  have hold : old ∈ s.outbound.buffer := by
    rw [hwaiting]
    simp
  unfold Outbound.step at h
  simp only at h
  rcases offer_cases hindexed ev with ⟨hresync, -⟩ | ⟨-, ⟨before', old', behind', card, hc⟩ | ⟨hnone, -⟩⟩
  · rw [hindexed.cleared hresync] at hold
    cases hold
  · rw [hc.outcome] at h
    have htail : Increasing (ev :: behind') := (List.pairwise_append.mp (List.pairwise_append.mp h).2.1).2.1
    obtain rfl : behind' = [] := by
      refine List.eq_nil_iff_forall_not_mem.mpr fun e he => ?_
      have hafter := List.rel_of_pairwise_cons htail he
      have hleaves : e ∈ s.leaving := by
        unfold Outbound.leaving
        rw [hc.waiting]
        simp [he]
      have hbefore := hlater e (hindexed.offered e hleaves)
      omega
    -- The last event of the buffer is the only delta of its card.
    by_contra hbehind
    have hlast := congrArg List.dropLast (hwaiting.symm.trans hc.waiting)
    rw [List.dropLast_concat, List.dropLast_append_of_ne_nil (List.cons_ne_nil _ _), List.dropLast_cons_of_ne_nil hbehind] at hlast
    refine hc.only old ?_ (hcard.trans hc.card_ev)
    rw [← hlast]
    simp
  · exact absurd hcard (hnone old hold hdelta)

end order

section runs

variable {Payload : Type} (cardId : Payload → JsString) (maxBufferedItems : Option Nat)

/-- The buffer of a connection after some calls. -/
def outboundAfter (moves : List (BufferMove Payload)) : Outbound Payload := (createOutbound maxBufferedItems).run cardId moves

variable {cardId maxBufferedItems} {moves : List (BufferMove Payload)}

theorem outboundAfter_concat (moves : List (BufferMove Payload)) (move : BufferMove Payload) :
    outboundAfter cardId maxBufferedItems (moves ++ [move]) = (outboundAfter cardId maxBufferedItems moves).step cardId move := by
  unfold outboundAfter Outbound.run
  rw [List.foldl_append]
  rfl

theorem offered_outboundAfter (moves : List (BufferMove Payload)) : (outboundAfter cardId maxBufferedItems moves).offered = offeredBy moves := by
  induction moves using List.reverseRecOn with
  | nil => rfl
  | append_singleton moves move ih =>
    have hconcat : offeredBy (moves ++ [move]) = offeredBy moves ++ offeredBy [move] := List.filterMap_append
    rw [outboundAfter_concat, hconcat, ← ih]
    cases move with
    | offer ev => rfl
    | drain => exact (List.append_nil _).symm

theorem indexed_outboundAfter (moves : List (BufferMove Payload)) :
    Indexed cardId (max 1 (maxBufferedItems.getD DEFAULT_MAX_BUFFERED_ITEMS)) (outboundAfter cardId maxBufferedItems moves) := by
  induction moves using List.reverseRecOn with
  | nil => exact .start cardId maxBufferedItems
  | append_singleton moves move ih =>
    rw [outboundAfter_concat]
    cases move with
    | offer ev => exact ih.offer ev
    | drain => exact ih.drain

/-- An event is offered behind all that were offered before it. -/
theorem later_of_increasing {before after : List (BufferMove Payload)} {ev : StreamEvent Payload}
    (hseq : Increasing (offeredBy (before ++ .offer ev :: after))) :
    ∀ e ∈ (outboundAfter cardId maxBufferedItems before).offered, e.seq < ev.seq := by
  have hsplit : offeredBy (before ++ .offer ev :: after) = offeredBy before ++ ev :: offeredBy after := by
    unfold offeredBy
    rw [List.filterMap_append]
    rfl
  rw [hsplit] at hseq
  intro e he
  rw [offered_outboundAfter] at he
  exact (List.pairwise_append.mp hseq).2.2 e he ev (by simp)

theorem inOrder_outboundAfter (hseq : Increasing (offeredBy moves))
    (hlast : ∀ before ev after, moves = before ++ .offer ev :: after → WaitsLast cardId (outboundAfter cardId maxBufferedItems before).outbound ev) :
    InOrder cardId (outboundAfter cardId maxBufferedItems moves) := by
  induction moves using List.reverseRecOn with
  | nil => exact .start maxBufferedItems
  | append_singleton moves move ih =>
    have hbefore : InOrder cardId (outboundAfter cardId maxBufferedItems moves) := by
      refine ih ?_ fun before ev after hsplit => hlast before ev (after ++ [move]) (by rw [hsplit]; simp)
      have hconcat : offeredBy (moves ++ [move]) = offeredBy moves ++ offeredBy [move] := List.filterMap_append
      rw [hconcat] at hseq
      exact (List.pairwise_append.mp hseq).1
    rw [outboundAfter_concat]
    cases move with
    | offer ev => exact hbefore.offer (indexed_outboundAfter moves) (later_of_increasing hseq) (hlast moves ev [] rfl)
    | drain => exact hbefore.drain

end runs

/-- In every run the buffer keeps the stream of its connection if and only if each delta that is coalesced has its card
    waiting last. -/
theorem keepsStream_iff_waitsLast {Payload : Type} (cardId : Payload → JsString) (maxBufferedItems : Option Nat)
    (moves : List (BufferMove Payload)) (hseq : Increasing (offeredBy moves)) :
    (∀ before after, moves = before ++ after →
        KeepsStream cardId (max 1 (maxBufferedItems.getD DEFAULT_MAX_BUFFERED_ITEMS)) (outboundAfter cardId maxBufferedItems before)) ↔
      ∀ before ev after, moves = before ++ .offer ev :: after →
        WaitsLast cardId (outboundAfter cardId maxBufferedItems before).outbound ev := by
  constructor
  · intro hkeeps before ev after hsplit
    have hafter := hkeeps (before ++ [.offer ev]) after (by rw [hsplit]; simp)
    rw [outboundAfter_concat] at hafter
    exact waitsLast_of_ordered (indexed_outboundAfter before) (later_of_increasing (hsplit ▸ hseq)) hafter.ordered
  · intro hlast before after hsplit
    refine keepsStream_of_inOrder (indexed_outboundAfter before) (inOrder_outboundAfter ?_ fun before' ev after' hsplit' => ?_)
    · have hconcat : offeredBy (before ++ after) = offeredBy before ++ offeredBy after := List.filterMap_append
      rw [hsplit, hconcat] at hseq
      exact (List.pairwise_append.mp hseq).1
    · exact hlast before' ev (after' ++ after) (by rw [hsplit, hsplit']; simp)

section cards

/-- A change of a card. -/
def cardDelta (seq : Nat) (card : JsString) : StreamEvent JsString := ⟨.read_model_change, seq, decimal seq, card⟩

/-- The card `a` changes, then `b`, then `a` again. -/
def threeDeltas : List (BufferMove JsString) :=
  [.offer (cardDelta 1 (str "a")), .offer (cardDelta 2 (str "b")), .offer (cardDelta 3 (str "a")), .drain]

/-- The events leave as 3, 2. -/
theorem threeDeltas_not_keepsStream :
    Increasing (offeredBy threeDeltas) ∧ ¬ KeepsStream id 2 (outboundAfter id (some 2) threeDeltas) := by
  refine ⟨by simp [Increasing, offeredBy, threeDeltas, cardDelta], fun h => ?_⟩
  have hleaving : (outboundAfter id (some 2) threeDeltas).leaving = [cardDelta 3 (str "a"), cardDelta 2 (str "b")] := by decide
  have hordered := h.ordered
  rw [hleaving] at hordered
  simp [Increasing, cardDelta] at hordered

theorem keepsStream_iff_waitsLast_threeDeltas :
    (∀ before after, threeDeltas = before ++ after → KeepsStream id 2 (outboundAfter id (some 2) before)) ↔
      ∀ before ev after, threeDeltas = before ++ .offer ev :: after → WaitsLast id (outboundAfter id (some 2) before).outbound ev :=
  keepsStream_iff_waitsLast id (some 2) threeDeltas (by simp [Increasing, offeredBy, threeDeltas, cardDelta])

end cards

end sow.stream
