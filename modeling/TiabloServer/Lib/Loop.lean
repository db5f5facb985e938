import Mathlib

/-!
# Loops

A loop is a function from a state to the next state or to a result. It is run with fuel, which is a
bound on its rounds.

## Main definitions

* `Loop.run` — the rounds of a loop.
* `Loop.Reaches` — the states that a loop comes to.

## Main results

* `Loop.run_of_le` — more fuel changes no result.
* `Loop.run_invariant` — what rounds keep, a result has been found from.
* `Loop.total` — a loop whose rounds keep an invariant and decrease a measure ends, with what its
  last round has.
* `Loop.total_of_lt` — where the measure is a number, it bounds the rounds.
-/

namespace Loop

variable {σ ρ β : Type*}

/-- What a round of a loop ends with: the next state or the result. -/
inductive Round (σ ρ : Type*) where
  | next (s : σ)
  | done (r : ρ)

variable (round : σ → Round σ ρ)

/-- The result of a loop, if it ends within `fuel` rounds. -/
def run : ℕ → σ → Option ρ
  | 0, _ => none
  | fuel + 1, s =>
    match round s with
    | .next s' => run fuel s'
    | .done r => some r

variable {round}

theorem run_of_next {s s' : σ} (h : round s = .next s') (fuel : ℕ) :
    run round (fuel + 1) s = run round fuel s' := by
  rw [run, h]

theorem run_of_done {s : σ} {r : ρ} (h : round s = .done r) (fuel : ℕ) : run round (fuel + 1) s = some r := by
  rw [run, h]

/-- More fuel changes no result. -/
theorem run_of_le {s : σ} {r : ρ} {fuel fuel' : ℕ} (h : run round fuel s = some r)
    (hle : fuel ≤ fuel') : run round fuel' s = some r := by
  induction fuel generalizing s fuel' with
  | zero => cases h
  | succ fuel ih =>
    obtain ⟨fuel', rfl⟩ : ∃ n, fuel' = n + 1 := ⟨fuel' - 1, by omega⟩
    cases hround : round s with
    | next s' =>
      rw [run_of_next hround] at h ⊢
      exact ih h (by omega)
    | done r' =>
      rw [run_of_done hround] at h ⊢
      exact h

/-- **Total correctness.** A loop whose rounds keep `P` and decrease a measure ends from a state
with `P`, and its result has what the last round gives.

**Proof sketch.** Induction on the measure of the state: a round either ends the loop or leads to a
state with a smaller one. -/
theorem total [LT β] [WellFoundedLT β] (μ : σ → β) {P : σ → Prop} {Q : ρ → Prop}
    (hnext : ∀ s s', P s → round s = .next s' → P s' ∧ μ s' < μ s)
    (hdone : ∀ s r, P s → round s = .done r → Q r) {s : σ} (hs : P s) :
    ∃ r fuel, (∀ fuel', fuel ≤ fuel' → run round fuel' s = some r) ∧ Q r := by
  obtain ⟨m, hm⟩ : ∃ m, μ s = m := ⟨_, rfl⟩
  induction m using WellFoundedLT.induction generalizing s with
  | ind m ih =>
    subst hm
    cases hround : round s with
    | next s' =>
      obtain ⟨hs', hlt⟩ := hnext s s' hs hround
      obtain ⟨r, fuel, hrun, hr⟩ := ih (μ s') hlt hs' rfl
      refine ⟨r, fuel + 1, fun fuel' hle => ?_, hr⟩
      obtain ⟨n, rfl⟩ : ∃ n, fuel' = n + 1 := ⟨fuel' - 1, by omega⟩
      rw [run_of_next hround]
      exact hrun n (by omega)
    | done r =>
      refine ⟨r, 1, fun fuel' hle => ?_, hdone s r hs hround⟩
      exact run_of_le (run_of_done hround 0) hle

/-- A loop whose rounds decrease a number ends within that many rounds and one more. -/
theorem total_of_lt (μ : σ → ℕ) {P : σ → Prop} {Q : ρ → Prop}
    (hnext : ∀ s s', P s → round s = .next s' → P s' ∧ μ s' < μ s)
    (hdone : ∀ s r, P s → round s = .done r → Q r) {fuel : ℕ} {s : σ} (hs : P s) (hlt : μ s < fuel) :
    ∃ r, run round fuel s = some r ∧ Q r := by
  induction fuel generalizing s with
  | zero => exact absurd hlt (Nat.not_lt_zero _)
  | succ fuel ih =>
    cases hround : round s with
    | next s' =>
      obtain ⟨hs', hdecr⟩ := hnext s s' hs hround
      rw [run_of_next hround]
      exact ih hs' (by omega)
    | done r => exact ⟨r, run_of_done hround fuel, hdone s r hs hround⟩

/-- **Partial correctness.** What a loop ends with, if it ends. -/
theorem run_invariant {P : σ → Prop} {Q : ρ → Prop} (hnext : ∀ s s', P s → round s = .next s' → P s')
    (hdone : ∀ s r, P s → round s = .done r → Q r) {fuel : ℕ} {s : σ} {r : ρ} (hs : P s)
    (h : run round fuel s = some r) : Q r := by
  induction fuel generalizing s with
  | zero => cases h
  | succ fuel ih =>
    cases hround : round s with
    | next s' =>
      rw [run_of_next hround] at h
      exact ih (hnext s s' hs hround) h
    | done r' =>
      rw [run_of_done hround] at h
      exact Option.some.inj h ▸ hdone s r' hs hround

/-- The states that a loop comes to from `s`. -/
inductive Reaches (round : σ → Round σ ρ) (s : σ) : σ → Prop where
  | start : Reaches round s s
  | next {s' s'' : σ} (h : Reaches round s s') (hround : round s' = .next s'') : Reaches round s s''

/-- What rounds keep holds in all states that a loop comes to. -/
theorem Reaches.invariant {s s' : σ} {P : σ → Prop} (h : Reaches round s s') (hs : P s)
    (hnext : ∀ s s', P s → round s = .next s' → P s') : P s' := by
  induction h with
  | start => exact hs
  | next _ hround ih => exact hnext _ _ ih hround

end Loop
