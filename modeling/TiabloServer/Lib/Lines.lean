import Mathlib

/-!
# Lines

Texts are split at a separator, at all of its occurrences or at the first few.

## Main definitions

* `Lines.splitAtMost` — the pieces before the first separators, and the rest.
* `Lines.unlines` — lines, each with a separator behind it.

## Main results

* `Lines.split_unlines`, `Lines.splitAtMost_unlines` — the lines come back, and an empty piece.
-/

namespace Lines

variable {α : Type*} [DecidableEq α] (sep : α)

/-- The pieces of a text between separators. -/
def split : List α → List (List α)
  | [] => [[]]
  | c :: s => if c = sep then [] :: split s else (split s).modifyHead (c :: ·)

/-- The pieces before the first `n` separators, and the rest. -/
def splitAtMost : ℕ → List α → List (List α)
  | 0, s => [s]
  | n + 1, s =>
    if sep ∈ s then s.takeWhile (· ≠ sep) :: splitAtMost n (s.dropWhile (· ≠ sep)).tail else [s]

/-- Lines with a separator behind each of them. -/
def unlines (lines : List (List α)) : List α := lines.flatMap fun line => line ++ [sep]

variable {sep}

theorem split_append {line : List α} (h : sep ∉ line) (s : List α) :
    split sep (line ++ sep :: s) = line :: split sep s := by
  induction line with
  | nil => simp [split]
  | cons c line ih =>
    rw [List.mem_cons, not_or] at h
    rw [List.cons_append, split, if_neg (Ne.symm h.1), ih h.2]
    rfl

/-- No piece has a separator in it, and its elements are those of the text. -/
theorem mem_of_mem_split {s line : List α} (h : line ∈ split sep s) : sep ∉ line ∧ ∀ c ∈ line, c ∈ s := by
  induction s generalizing line with
  | nil =>
    obtain rfl := List.mem_singleton.1 h
    simp
  | cons c s ih =>
    rw [split] at h
    split_ifs at h with hc
    · rcases List.mem_cons.1 h with rfl | h
      · simp
      · obtain ⟨hsep, hmem⟩ := ih h
        exact ⟨hsep, fun x hx => List.mem_cons_of_mem c (hmem x hx)⟩
    · cases hsplit : split sep s with
      | nil =>
        rw [hsplit] at h
        cases h
      | cons first rest =>
        rw [hsplit] at h ih
        rcases List.mem_cons.1 h with rfl | h
        · obtain ⟨hsep, hmem⟩ := ih List.mem_cons_self
          refine ⟨fun hx => ?_, fun x hx => ?_⟩
          · rcases List.mem_cons.1 hx with rfl | hx
            · exact hc rfl
            · exact hsep hx
          · rcases List.mem_cons.1 hx with rfl | hx
            · exact List.mem_cons_self
            · exact List.mem_cons_of_mem c (hmem x hx)
        · obtain ⟨hsep, hmem⟩ := ih (List.mem_cons_of_mem _ h)
          exact ⟨hsep, fun x hx => List.mem_cons_of_mem c (hmem x hx)⟩

/-- **The lines come back**, and an empty piece behind the last separator. -/
theorem split_unlines {lines : List (List α)} (h : ∀ line ∈ lines, sep ∉ line) :
    split sep (unlines sep lines) = lines ++ [[]] := by
  induction lines with
  | nil => rfl
  | cons line lines ih =>
    obtain ⟨hline, hlines⟩ := List.forall_mem_cons.1 h
    have ih := ih hlines
    unfold unlines at ih ⊢
    rw [List.flatMap_cons, List.append_assoc, List.singleton_append, split_append hline, ih]
    rfl

/-- **The lines come back** if there are no more of them than pieces. -/
theorem splitAtMost_unlines {lines : List (List α)} (h : ∀ line ∈ lines, sep ∉ line) {n : ℕ}
    (hn : lines.length ≤ n) : splitAtMost sep n (unlines sep lines) = lines ++ [[]] := by
  induction lines generalizing n with
  | nil => cases n <;> rfl
  | cons line lines ih =>
    obtain ⟨hline, hlines⟩ := List.forall_mem_cons.1 h
    obtain ⟨n, rfl⟩ : ∃ m, n = m + 1 := ⟨n - 1, by rw [List.length_cons] at hn; omega⟩
    have hall : ∀ c ∈ line, decide (c ≠ sep) = true := by
      intro c hc
      simpa using fun heq : c = sep => hline (heq ▸ hc)
    have hunlines : unlines sep (line :: lines) = line ++ sep :: unlines sep lines := by
      simp [unlines]
    have htake : (line ++ sep :: unlines sep lines).takeWhile (· ≠ sep) = line := by
      rw [List.takeWhile_append_of_pos hall]
      simp
    have hdrop : (line ++ sep :: unlines sep lines).dropWhile (· ≠ sep) = sep :: unlines sep lines := by
      rw [List.dropWhile_append_of_pos hall]
      simp
    rw [splitAtMost, hunlines, if_pos (by simp), htake, hdrop, List.tail_cons,
      ih hlines (Nat.le_of_succ_le_succ hn)]
    rfl

end Lines
