import Herald.Proofs.Text.Blank

/-! Phrases in a text, its pieces, and what is left of it at its ends. A text holds a phrase where the phrase
stands in it in one stretch; a word is a piece of a text if the separator stands at both of its ends, counting
one before and one behind the text. -/
namespace Herald.Text

theorem isSome_dropLead {lead s : List Char} : (dropLead lead s).isSome = true ↔ lead <+: s := by
  rw [Option.isSome_iff_exists]
  exact exists_congr fun rest => dropLead_eq_some_iff.trans eq_comm

theorem contains_iff {phrase s : List Char} : contains phrase s = true ↔ phrase <:+: s := by
  induction s with
  | nil =>
    rw [List.infix_nil, contains, cutAt]
    split <;> simp [*]
  | cons c s ih =>
    rw [List.infix_cons_iff, ← isSome_dropLead, ← ih, contains, cutAt, contains]
    cases dropLead phrase (c :: s) <;> simp

/-! ### Pieces -/

theorem cons_joinWith {sep : Char} {pieces : List (List Char)} (some_ : pieces ≠ []) :
    sep :: joinWith sep pieces ++ [sep] = pieces.flatMap (sep :: ·) ++ [sep] := by
  induction pieces with
  | nil => exact absurd rfl some_
  | cons piece pieces ih =>
    cases pieces with
    | nil => simp [joinWith]
    | cons next pieces =>
      have joined : joinWith sep (piece :: next :: pieces) = piece ++ sep :: joinWith sep (next :: pieces) := rfl
      rw [joined, List.flatMap_cons, List.append_assoc, ← ih (by simp)]
      simp

theorem splitAt_enclosed (sep : Char) (s : List Char) :
    splitAt sep (sep :: s ++ [sep]) = [] :: (splitAt sep s ++ [[]]) :=
  calc splitAt sep (sep :: s ++ [sep])
      = splitAt sep ([] ++ sep :: s) ++ splitAt sep [] := splitAt_append sep (sep :: s) []
    _ = [] :: (splitAt sep s ++ [[]]) := by rw [splitAt_append]; rfl

theorem mem_splitAt_iff {sep : Char} {s word : List Char} :
    word ∈ splitAt sep s ↔ sep ∉ word ∧ sep :: word ++ [sep] <:+: sep :: s ++ [sep] := by
  constructor
  · intro mem
    obtain ⟨before, after, pieces⟩ := List.append_of_mem mem
    obtain ⟨rest, closed⟩ : ∃ rest, after.flatMap (sep :: ·) ++ [sep] = sep :: rest := by
      cases after <;> simp
    refine ⟨not_mem_of_mem_splitAt mem, before.flatMap (sep :: ·), rest, ?_⟩
    calc before.flatMap (sep :: ·) ++ (sep :: word ++ [sep]) ++ rest
        = before.flatMap (sep :: ·) ++ (sep :: word ++ (after.flatMap (sep :: ·) ++ [sep])) := by
          rw [closed]
          simp
      _ = (before ++ word :: after).flatMap (sep :: ·) ++ [sep] := by simp
      _ = sep :: s ++ [sep] := by
          rw [← pieces, ← cons_joinWith (splitAt_ne_nil sep s), joinWith_splitAt]
  · rintro ⟨absent, a, b, whole⟩
    have cut : splitAt sep a ++ word :: splitAt sep b = [] :: (splitAt sep s ++ [[]]) := by
      rw [← splitAt_enclosed, ← whole, List.append_assoc, List.append_assoc, List.cons_append,
        splitAt_append, List.singleton_append, splitAt_append, splitAt_of_not_mem absent]
      rfl
    -- the pieces at both ends stand outside of the text
    obtain ⟨first, before, front⟩ := List.exists_cons_of_ne_nil (splitAt_ne_nil sep a)
    obtain ⟨after, last, back⟩ := (List.eq_nil_or_concat (splitAt sep b)).resolve_left (splitAt_ne_nil sep b)
    rw [front, back] at cut
    have inside : before ++ word :: after ++ [last] = splitAt sep s ++ [[]] := by
      simpa using (List.cons.inj cut).2
    rw [← (List.append_inj' inside rfl).1]
    simp

end Herald.Text
