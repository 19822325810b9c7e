import Mathlib.Data.List.Nodup
import Mathlib.Data.List.Perm.Subperm
import Mathlib.Order.Lattice
import Mathlib.Tactic

/-! A queue that is drained from its front, at most `limit` tickets a round, and
whose unserved tickets keep their places. -/

namespace sow.queue

variable {T : Type} (stays served : T → Bool) (limit : Nat)

/-- Of the first `limit` tickets those that stay keep their places; the others leave. -/
def round (q : List T) : List T := (q.take limit).filter stays ++ q.drop limit

/-- A ticket that is served stands among the first `limit`. -/
def Reached (q : List T) : Prop := ∃ t ∈ q.take limit, served t = true

/-- A ticket that is served has fewer than `limit` tickets that stay before it. -/
def Reachable (q : List T) : Prop :=
  ∃ before t after, q = before ++ t :: after ∧ served t = true ∧ (before.filter stays).length < limit

variable {stays served limit}

theorem round_sublist (q : List T) : (round stays limit q).Sublist q := by
  conv_rhs => rw [← List.take_append_drop limit q]
  exact List.Sublist.append List.filter_sublist (List.Sublist.refl _)

theorem mem_round_iff {q : List T} (hnd : q.Nodup) {t : T} :
    t ∈ round stays limit q ↔ t ∈ q ∧ (t ∈ q.take limit → stays t = true) := by
  have hsplit := List.take_append_drop limit q
  rw [← hsplit, List.nodup_append] at hnd
  rw [round, List.mem_append, List.mem_filter]
  constructor
  · rintro (⟨htake, hstays⟩ | hdrop)
    · exact ⟨List.mem_of_mem_take htake, fun _ => hstays⟩
    · exact ⟨List.mem_of_mem_drop hdrop, fun htake => absurd rfl (hnd.2.2 t htake t hdrop)⟩
  · rintro ⟨hmem, hstays⟩
    rw [← hsplit, List.mem_append] at hmem
    exact hmem.imp_left fun htake => ⟨htake, hstays htake⟩

theorem Reached.reachable {q : List T} (h : Reached served limit q) : Reachable stays served limit q := by
  obtain ⟨t, hmem, hserved⟩ := h
  obtain ⟨before, rest, htake⟩ := List.append_of_mem hmem
  refine ⟨before, t, rest ++ q.drop limit, ?_, hserved, ?_⟩
  · conv_lhs => rw [← List.take_append_drop limit q, htake]
    simp
  · have hlength := congrArg List.length htake
    rw [List.length_take, List.length_append, List.length_cons] at hlength
    have hfilter := before.length_filter_le stays
    omega

/-- A round brings no ticket nearer than the tickets that stay allow. -/
theorem Reachable.of_round {q : List T} (h : Reachable stays served limit (round stays limit q)) :
    Reachable stays served limit q := by
  obtain ⟨before, t, after, hround, hserved, hfew⟩ := h
  have hmem : t ∈ round stays limit q := hround ▸ List.mem_append_right _ List.mem_cons_self
  by_cases htaken : t ∈ q.take limit
  · exact Reached.reachable ⟨t, htaken, hserved⟩
  · -- Every ticket of the round's first part stands before `t`.
    obtain ⟨rest, hbefore, hdrop⟩ : ∃ rest, before = (q.take limit).filter stays ++ rest ∧ q.drop limit = rest ++ t :: after := by
      rcases List.append_eq_append_iff.mp hround with h | ⟨rest, hfirst, hlast⟩
      · exact h
      · cases rest with
        | nil => exact ⟨[], by simpa using hfirst.symm, hlast.symm⟩
        | cons u rest =>
          obtain ⟨rfl, -⟩ := List.cons.inj hlast
          refine absurd (List.mem_of_mem_filter (p := stays) (?_ : t ∈ (q.take limit).filter stays)) htaken
          rw [hfirst]
          exact List.mem_append_right _ List.mem_cons_self
    refine ⟨q.take limit ++ rest, t, after, ?_, hserved, ?_⟩
    · rw [List.append_assoc, ← hdrop, List.take_append_drop]
    · rw [hbefore, List.filter_append, List.filter_filter] at hfew
      simpa using hfew

/-- A ticket that is reachable is among the first, or a ticket before it leaves. -/
theorem Reachable.reached_or_shorter {q before after : List T} {t : T} (hq : q = before ++ t :: after)
    (hserved : served t = true) (hfew : (before.filter stays).length < limit) :
    Reached served limit q ∨ ∃ before', before'.length < before.length ∧
      round stays limit q = before' ++ t :: after ∧ (before'.filter stays).length < limit := by
  by_cases hshort : before.length < limit
  · refine .inl ⟨t, ?_, hserved⟩
    rw [hq, List.take_append, List.mem_append]
    right
    rw [List.take_cons (by omega)]
    exact List.mem_cons_self
  · right
    refine ⟨(before.take limit).filter stays ++ before.drop limit, ?_, ?_, ?_⟩
    · have hfirst : ((before.take limit).filter stays).length < limit := by
        refine lt_of_le_of_lt ?_ hfew
        exact ((List.take_sublist limit before).filter stays).length_le
      rw [List.length_append, List.length_drop]
      omega
    · rw [round, hq, List.take_append_of_le_length (by omega), List.drop_append_of_le_length (by omega), List.append_assoc]
    · conv at hfew => rw [← List.take_append_drop limit before, List.filter_append]
      rw [List.filter_append, List.filter_filter]
      simpa using hfew

/-- Round after round, a ticket that is served comes among the first exactly if
    it is reachable from the start. -/
theorem exists_reached_iff {q : List T} :
    (∃ n, Reached served limit ((round stays limit)^[n] q)) ↔ Reachable stays served limit q := by
  constructor
  · rintro ⟨n, hreached⟩
    induction n generalizing q with
    | zero => exact hreached.reachable
    | succ n ih => exact (ih hreached).of_round
  · rintro ⟨before, t, after, hq, hserved, hfew⟩
    generalize hlength : before.length = k
    induction k using Nat.strong_induction_on generalizing q before with
    | _ k ih =>
      rcases Reachable.reached_or_shorter hq hserved hfew with hreached | ⟨before', hlt, hround, hfew'⟩
      · exact ⟨0, hreached⟩
      · obtain ⟨n, hn⟩ := ih before'.length (hlength ▸ hlt) before' hround hfew' rfl
        exact ⟨n + 1, hn⟩

variable {α β : Type} [LinearOrder β] {rank : α → β} {history listed : List α} {keep : Nat}

/-- Of a history in rising order, what is listed newest first: a member of the last `keep`
    entries of the history that is listed at all stands among the first `keep` of the list. -/
theorem mem_take_of_mem_drop (hhistory : history.Pairwise (rank · < rank ·)) (hlisted : listed.Pairwise (rank · > rank ·))
    (hsubset : listed ⊆ history) {x : α} (hx : x ∈ history.drop (history.length - keep)) (hmem : x ∈ listed) :
    x ∈ listed.take keep := by
  obtain ⟨newer, older, hsplit⟩ := List.append_of_mem hmem
  obtain ⟨before, after, hdrop⟩ := List.append_of_mem hx
  have hlength : (history.drop (history.length - keep)).length ≤ keep := by
    rw [List.length_drop]
    omega
  have hafter : after.length < keep := by
    rw [hdrop, List.length_append, List.length_cons] at hlength
    omega
  have hwhole : history = (history.take (history.length - keep) ++ before) ++ x :: after := by
    rw [List.append_assoc, ← hdrop, List.take_append_drop]
  -- what is listed before `x` comes after it in the history
  rw [hsplit] at hlisted hsubset
  obtain ⟨hnewer, -, hgreater⟩ := List.pairwise_append.mp hlisted
  have hsub : newer ⊆ after := by
    intro y hy
    have hxy : rank x < rank y := hgreater y hy x List.mem_cons_self
    have hyHistory := hsubset (List.mem_append_left _ hy)
    rw [hwhole] at hyHistory hhistory
    rcases List.mem_append.mp hyHistory with hearlier | hlater
    · have hyx : rank y < rank x := (List.pairwise_append.mp hhistory).2.2 y hearlier x List.mem_cons_self
      exact absurd hxy (lt_asymm hyx)
    · rcases List.mem_cons.mp hlater with rfl | hlater
      · exact absurd hxy (lt_irrefl _)
      · exact hlater
  have hnodup : newer.Nodup := hnewer.imp fun {a b} hab heq => absurd hab (by rw [heq]; exact lt_irrefl _)
  have hcount : newer.length < keep := Nat.lt_of_le_of_lt (List.subperm_of_subset hnodup hsub).length_le hafter
  rw [hsplit, List.take_append, List.mem_append]
  refine .inr ?_
  have hpos : keep - newer.length = (keep - newer.length - 1) + 1 := by omega
  rw [hpos, List.take_succ_cons]
  exact List.mem_cons_self

/-- The newest entry that is listed heads the list. -/
theorem head?_eq_getLast? (hhistory : history.Pairwise (rank · < rank ·)) (hlisted : listed.Pairwise (rank · > rank ·))
    (hsubset : listed ⊆ history) {x : α} (hlast : history.getLast? = some x) (hmem : x ∈ listed) :
    listed.head? = some x := by
  have hx : x ∈ history.drop (history.length - 1) := by
    obtain ⟨older, rfl⟩ := List.getLast?_eq_some_iff.mp hlast
    rw [List.length_append, List.length_singleton, Nat.add_sub_cancel, List.drop_left]
    exact List.mem_singleton_self x
  have htake := mem_take_of_mem_drop hhistory hlisted hsubset hx hmem
  cases listed with
  | nil => cases hmem
  | cons y listed =>
    rw [List.take_succ_cons, List.take_zero, List.mem_singleton] at htake
    rw [htake]
    rfl

end sow.queue
