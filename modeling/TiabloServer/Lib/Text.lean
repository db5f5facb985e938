import Mathlib

/-!
# Texts

A text is a list of characters of any type. This file has the search for the last occurrence of a
pattern, and texts that are joined by a separator.

## Main definitions

* `Text.rfind` — the last occurrence of a pattern that starts at a position or before it.

## Main results

* `Text.rfind_eq_some_iff` — what the search finds is an occurrence, and none follows it.
* `Text.intercalate_append` — two joins with a separator between them are one join.
* `Text.length_intercalate` — the length of a join.
-/

namespace Text

variable {α : Type*}

/-! ## Searching -/

section Search

variable [DecidableEq α] {s pat : List α}

/-- The start of the last occurrence of `pat` in `s` that starts at a position or before it. -/
def rfind (s pat : List α) : ℕ → Option ℕ
  | 0 => if pat <+: s then some 0 else none
  | pos + 1 => if pat <+: s.drop (pos + 1) then some (pos + 1) else rfind s pat pos

/-- The search finds nothing where there is no occurrence. -/
theorem rfind_eq_none_iff {pos : ℕ} : rfind s pat pos = none ↔ ∀ j ≤ pos, ¬ pat <+: s.drop j := by
  induction pos with
  | zero =>
    unfold rfind
    split_ifs with h <;> simp [h]
  | succ pos ih =>
    unfold rfind
    split_ifs with h
    · exact iff_of_false (fun hnone => nomatch hnone) fun hall => hall (pos + 1) le_rfl h
    · rw [ih]
      refine ⟨fun hall j hj => ?_, fun hall j hj => hall j (by omega)⟩
      rcases Nat.of_le_succ hj with hle | rfl
      · exact hall j hle
      · exact h

/-- **What the search finds** is an occurrence that starts at `pos` or before it, and none starts
after it up to `pos`. -/
theorem rfind_eq_some_iff {pos i : ℕ} : rfind s pat pos = some i ↔
      i ≤ pos ∧ pat <+: s.drop i ∧ ∀ j, i < j → j ≤ pos → ¬ pat <+: s.drop j := by
  induction pos with
  | zero =>
    unfold rfind
    split_ifs with h
    · constructor
      · intro hi
        obtain rfl := Option.some.inj hi
        exact ⟨le_rfl, by simpa using h, by omega⟩
      · rintro ⟨hi, -⟩
        rw [Nat.le_zero.1 hi]
    · simp only [false_iff]
      rintro ⟨hi, hpat, -⟩
      obtain rfl := Nat.le_zero.1 hi
      exact h (by simpa using hpat)
  | succ pos ih =>
    unfold rfind
    split_ifs with h
    · constructor
      · intro hi
        obtain rfl := Option.some.inj hi
        exact ⟨le_rfl, h, by omega⟩
      · rintro ⟨hi, -, hlast⟩
        by_contra hne
        exact hlast (pos + 1) (by have : i ≠ pos + 1 := fun e => hne (e ▸ rfl); omega) le_rfl h
    · rw [ih]
      constructor
      · rintro ⟨hi, hpat, hlast⟩
        refine ⟨by omega, hpat, fun j hij hj => ?_⟩
        rcases Nat.lt_or_ge pos j with hlt | hle
        · obtain rfl : j = pos + 1 := by omega
          exact h
        · exact hlast j hij hle
      · rintro ⟨hi, hpat, hlast⟩
        have hne : i ≠ pos + 1 := by
          rintro rfl
          exact h hpat
        exact ⟨by omega, hpat, fun j hij hj => hlast j hij (by omega)⟩

end Search

/-! ## Joining -/

/-- Two joins with a separator between them are one join. -/
theorem intercalate_append (sep : List α) {l l' : List (List α)} (hl : l ≠ []) (hl' : l' ≠ []) :
    sep.intercalate (l ++ l') = sep.intercalate l ++ sep ++ sep.intercalate l' := by
  induction l with
  | nil => exact absurd rfl hl
  | cons a l ih =>
    rcases eq_or_ne l [] with rfl | hne
    · simp [List.intercalate_cons_of_ne_nil hl']
    · rw [List.cons_append, List.intercalate_cons_of_ne_nil (by simp [hne]), ih hne,
        List.intercalate_cons_of_ne_nil hne]
      simp

/-- **The length of a join** with a separator of one character. -/
theorem length_intercalate (c : α) {l : List (List α)} (hl : l ≠ []) :
    ([c].intercalate l).length + 1 = (l.map fun a => a.length + 1).sum := by
  induction l with
  | nil => exact absurd rfl hl
  | cons a l ih =>
    rcases eq_or_ne l [] with rfl | hne
    · simp
    · have hrest := ih hne
      rw [List.intercalate_cons_of_ne_nil hne]
      simp only [List.length_append, List.length_singleton, List.map_cons, List.sum_cons] at hrest ⊢
      omega

end Text
