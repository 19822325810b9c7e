import Sow.Js.String

namespace sow.js

section segments

variable {sep : UInt16} {a b s t : JsString}

/-- A text without separators is its own segment. -/
theorem split_of_not_mem (h : sep ∉ s) : split sep s = [s] := by
  have hsplit := split_join sep (List.cons_ne_nil s []) (by simpa using h)
  rwa [join_singleton] at hsplit

/-- The last segment grows with the text. -/
theorem split_append {init : List JsString} {last : JsString} (hs : split sep s = init ++ [last]) (ht : sep ∉ t) :
    split sep (s ++ t) = init ++ [last ++ t] := by
  have hparts : ∀ part ∈ init ++ [last], sep ∉ part := by
    intro part hpart
    rw [← hs] at hpart
    exact not_mem_of_mem_split hpart
  have hjoin : join [sep] (init ++ [last ++ t]) = s ++ t := by
    rw [← join_split sep s, hs]
    cases init with
    | nil => simp
    | cons p init =>
      rw [join_append (List.cons_ne_nil _ _) (List.cons_ne_nil _ _), join_append (List.cons_ne_nil _ _) (List.cons_ne_nil _ _)]
      simp
  rw [← hjoin, split_join sep (by simp)]
  intro part hpart
  rcases List.mem_append.mp hpart with h | h
  · exact hparts part (List.mem_append_left _ h)
  · rw [List.mem_singleton.mp h, List.mem_append, not_or]
    exact ⟨hparts last (by simp), ht⟩

/-- The first segment is what stands before the first separator. -/
theorem split_eq_cons {first : JsString} {rest : List JsString} (h : split sep s = first :: rest) :
    s = first ∧ rest = [] ∨ ∃ r, s = first ++ sep :: r ∧ split sep r = rest := by
  cases rest with
  | nil =>
    left
    rw [← join_split sep s, h]
    exact ⟨join_singleton _ _, rfl⟩
  | cons next rest =>
    right
    refine ⟨join [sep] (next :: rest), ?_, ?_⟩
    · rw [← join_split sep s, h, join_cons_cons, List.singleton_append]
    · refine split_join sep (List.cons_ne_nil _ _) fun part hpart => ?_
      exact not_mem_of_mem_split (s := s) (by rw [h]; exact List.mem_cons_of_mem _ hpart)

/-- Two separators in a row enclose an empty segment, and another follows it. -/
theorem split_of_includes (h : includes s [sep, sep] = true) :
    ∃ before after, split sep s = before ++ [] :: after ∧ after ≠ [] := by
  obtain ⟨i, hi⟩ := Option.isSome_iff_exists.mp h
  have hs := indexOf_split hi
  refine ⟨split sep (s.take i), split sep (s.drop (i + 2)), ?_, split_ne_nil _ _⟩
  have hshape : s = s.take i ++ sep :: ([] ++ sep :: s.drop (i + 2)) := by simpa using hs
  conv => lhs; rw [hshape]
  rw [split_append_sep, split_append_sep, split_of_not_mem List.not_mem_nil]
  rfl

end segments

theorem trimmed_of_eq {s : JsString} (h : s = trim s) : Trimmed s := by
  rw [h]
  exact trimmed_trim s

end sow.js
