import TiabloServer.Map.SightLine

/-!
# Lists of damage over time

`ConditionDamage::generateDamageList` (`creatures/combat/condition.cpp`) appends hits that fall from
a start value to 1 and add up to about an amount. The ratios, which are of type `double`, are taken
as rational numbers, and a sum that does not fit in `int32_t` is undefined.

## Main definitions

* `DamageList.Staged` — hits whose sum after each value is as close as it can be to the part of the
  amount.
* `DamageList.Approximates` — what the appended hits should be.

## Main results

* `DamageList.hits_spec` — the hits of one value.
* `DamageList.stages_spec` — those of all values from one down.
* `DamageList.approximates_iff` — the start values for which nothing overflows.
-/

namespace TiabloServer.DamageList

open Sight (int32)

/-! ## The function of the source -/

/-- `x1 < x2`, which is false when there is a division by zero. -/
def closer (sum i med : ℤ) : Bool :=
  if med = 0 then false else decide (|1 - ((sum : ℚ) + i) / med| < |1 - (sum : ℚ) / med|)

/-- The inner loop, whose value is `i + 1`. -/
def hits (i : ℕ) (med sum : ℤ) (list : List ℤ) : Option (ℤ × List ℤ) :=
  if sum + (i + 1) < 2 ^ 31 then
    if closer (sum + (i + 1)) (i + 1) med then hits i med (sum + (i + 1)) (list ++ [(i + 1 : ℤ)])
    else some (sum + (i + 1), list ++ [(i + 1 : ℤ)])
  else none
termination_by (2 ^ 31 - sum).toNat

/-- The outer loop, from a value down. -/
def stages (amount start : ℤ) : ℕ → ℤ → List ℤ → Option (List ℤ)
  | 0, _, list => some list
  | i + 1, sum, list => do
    let next ← int32 (start + 1)
    let product ← int32 ((next - (i + 1)) * amount)
    let (sum, list) ← hits i (product.tdiv start) sum list
    stages amount start i sum list

def generateDamageList (amount start : ℤ) (list : List ℤ) : Option (List ℤ) := do
  let amount ← int32 |amount|
  stages amount start start.toNat 0 list

/-! ## What the hits should be -/

/-- The part of the amount that the hits down to `i` should add up to. -/
def part (amount start i : ℤ) : ℤ := (start + 1 - i) * amount / start

/-- The hits of the values from one down, after those of greater ones with a sum. -/
inductive Staged (amount start : ℤ) : ℕ → ℤ → List ℤ → Prop
  | zero (sum : ℤ) : Staged amount start 0 sum []
  | succ {i : ℕ} {sum : ℤ} {rest : List ℤ} (k : ℕ) (hk : 1 ≤ k)
      (hclosest : ∀ j : ℕ, 1 ≤ j →
        |sum + k * (i + 1) - part amount start (i + 1)| ≤ |sum + j * (i + 1) - part amount start (i + 1)|)
      (h : Staged amount start i (sum + k * (i + 1)) rest) :
      Staged amount start (i + 1) sum (List.replicate k (i + 1 : ℤ) ++ rest)

/-- Hits are appended that do not increase, have each value, come as close to the parts of the
amount as they can, and add up to the amount or a little more. -/
def Approximates (amount start : ℤ) (list : List ℤ) : Prop :=
  ∃ damages, generateDamageList amount start list = some (list ++ damages) ∧
    Staged |amount| start start.toNat 0 damages ∧ damages.Pairwise (· ≥ ·) ∧
    (∀ v, 1 ≤ v → v ≤ start → v ∈ damages) ∧
    |amount| ≤ damages.sum ∧ damages.sum ≤ |amount| + start * (start + 1) / 2

/-! ## The hits of one value -/

/-- Another hit comes closer when the sum is more than half of it below. -/
theorem closer_iff {sum i med : ℤ} (hsum : 0 ≤ sum) (hi : 0 < i) (hmed : 0 ≤ med) :
    closer sum i med = true ↔ 2 * sum + i < 2 * med := by
  rcases hmed.eq_or_lt with rfl | hpos
  · refine iff_of_false (by simp [closer]) ?_
    omega
  have hq : (0 : ℚ) < med := by exact_mod_cast hpos
  have hdiv (a : ℤ) : |1 - (a : ℚ) / med| = (|med - a| : ℤ) / (med : ℚ) := by
    rw [one_sub_div hq.ne', abs_div, abs_of_pos hq]
    push_cast
    rfl
  have hfirst := hdiv (sum + i)
  rw [closer, if_neg hpos.ne', decide_eq_true_iff, hdiv sum]
  push_cast at hfirst ⊢
  rw [hfirst, div_lt_div_iff_of_pos_right hq]
  constructor
  · intro h
    have hint : |med - (sum + i)| < |med - sum| := by exact_mod_cast h
    rcases abs_cases (med - (sum + i)) with h1 | h1 <;> rcases abs_cases (med - sum) with h2 | h2 <;> omega
  · intro h
    have hint : |med - (sum + i)| < |med - sum| := by
      rcases abs_cases (med - (sum + i)) with h1 | h1 <;> rcases abs_cases (med - sum) with h2 | h2 <;> omega
    exact_mod_cast hint

theorem hits_of_closer {i : ℕ} {med sum : ℤ} (hsum : 0 ≤ sum) (hmed : 0 ≤ med) (hlt : sum + (i + 1) < 2 ^ 31)
    (h : 2 * (sum + (i + 1)) + (i + 1) < 2 * med) (list : List ℤ) :
    hits i med sum list = hits i med (sum + (i + 1)) (list ++ [(i + 1 : ℤ)]) := by
  rw [hits, if_pos hlt, if_pos ((closer_iff (by omega) (by omega) hmed).2 h)]

theorem hits_of_not_closer {i : ℕ} {med sum : ℤ} (hsum : 0 ≤ sum) (hmed : 0 ≤ med) (hlt : sum + (i + 1) < 2 ^ 31)
    (h : ¬ 2 * (sum + (i + 1)) + (i + 1) < 2 * med) (list : List ℤ) :
    hits i med sum list = some (sum + (i + 1), list ++ [(i + 1 : ℤ)]) := by
  rw [hits, if_pos hlt, if_neg fun hcloser => h ((closer_iff (by omega) (by omega) hmed).1 hcloser)]

/-- **The hits of one value** come as close to their part as they can, and are no more than one hit
or reach less than one beyond it.

**Proof sketch.** Induction on what is left to the greatest sum. While another hit comes closer it
is also the next one; when none does, more hits lead further away. -/
theorem hits_spec {i : ℕ} (med sum : ℤ) (hsum : 0 ≤ sum) (hmed : 0 ≤ med) (hlt : sum + (i + 1) < 2 ^ 31)
    (hpart : med + i < 2 ^ 31) (list : List ℤ) :
    ∃ k : ℕ, 1 ≤ k ∧ hits i med sum list = some (sum + k * (i + 1), list ++ List.replicate k (i + 1 : ℤ)) ∧
      (∀ j : ℕ, 1 ≤ j → |sum + k * (i + 1) - med| ≤ |sum + j * (i + 1) - med|) ∧
      (sum + k * (i + 1) ≤ sum + (i + 1) ∨ sum + k * (i + 1) ≤ med + i) := by
  obtain ⟨m, hm⟩ : ∃ m, (2 ^ 31 - sum).toNat = m := ⟨_, rfl⟩
  induction m using Nat.strong_induction_on generalizing sum list with
  | _ m ih =>
    have hmul (j : ℕ) (hj : 1 ≤ j) : (j : ℤ) * (i + 1) = (i + 1) + (j - 1 : ℕ) * (i + 1) := by
      obtain ⟨j, rfl⟩ := Nat.exists_eq_add_of_le' hj
      push_cast [Nat.add_sub_cancel]
      ring
    by_cases hcloser : 2 * (sum + (i + 1)) + (i + 1) < 2 * med
    · obtain ⟨k, hk, hrun, hclosest, hbound⟩ :=
        ih (2 ^ 31 - (sum + (i + 1))).toNat (by omega) (sum + (i + 1)) (by omega) (by omega)
          (list ++ [(i + 1 : ℤ)]) rfl
      have hnext : sum + ((k + 1 : ℕ) : ℤ) * (i + 1) = sum + (i + 1) + k * (i + 1) := by
        push_cast
        ring
      refine ⟨k + 1, by omega, ?_, fun j hj => ?_, ?_⟩
      · rw [hits_of_closer hsum hmed hlt hcloser, hrun, hnext, List.append_assoc, List.singleton_append,
          ← List.replicate_succ]
      · rw [hnext]
        rcases hj.eq_or_lt with rfl | hj
        · have hone := hclosest 1 le_rfl
          rw [Nat.cast_one, one_mul] at hone ⊢
          refine hone.trans ?_
          rw [abs_of_nonpos (by omega : sum + (i + 1) - med ≤ 0)]
          exact abs_le.2 ⟨by omega, by omega⟩
        · have hrest := hclosest (j - 1) (by omega)
          rw [hmul j (by omega), ← add_assoc sum (i + 1 : ℤ)]
          exact hrest
      · rw [hnext]
        omega
    · refine ⟨1, le_rfl, ?_, fun j hj => ?_, .inl ?_⟩
      · rw [hits_of_not_closer hsum hmed hlt hcloser, Nat.cast_one, one_mul]
        rfl
      · rw [Nat.cast_one, one_mul, hmul j hj]
        have hmore : ((j - 1 : ℕ) : ℤ) * (i + 1) = 0 ∨ (i + 1 : ℤ) ≤ ((j - 1 : ℕ) : ℤ) * (i + 1) := by
          rcases Nat.eq_zero_or_pos (j - 1) with h0 | hpos
          · exact .inl (by rw [h0]; simp)
          · exact .inr (le_mul_of_one_le_left (by omega) (by exact_mod_cast hpos))
        generalize ((j - 1 : ℕ) : ℤ) * (i + 1) = more at hmore
        rcases hmore with rfl | hmore
        · rw [add_zero]
        · refine le_trans (abs_le.2 ⟨?_, ?_⟩) (le_abs_self (sum + (i + 1 + more) - med))
          · omega
          · omega
      · rw [Nat.cast_one, one_mul]

/-- Hits that are appended fit in their sum. -/
theorem hits_lt {i : ℕ} {med sum : ℤ} {list : List ℤ} {r : ℤ × List ℤ} (h : hits i med sum list = some r) :
    sum + (i + 1) ≤ r.1 ∧ r.1 < 2 ^ 31 := by
  induction sum, list using hits.induct i med with
  | case1 sum list hlt hcloser ih =>
    rw [hits, if_pos hlt, if_pos hcloser] at h
    have := ih h
    omega
  | case2 sum list hlt hcloser =>
    rw [hits, if_pos hlt, if_neg hcloser] at h
    obtain rfl := Option.some.inj h
    exact ⟨le_rfl, hlt⟩
  | case3 sum list hlt =>
    rw [hits, if_neg hlt] at h
    cases h

/-! ## The hits of all values -/

section Stages

variable {amount start : ℤ}

theorem part_nonneg (ha : 0 ≤ amount) (hs : 1 ≤ start) {i : ℤ} (hi : i ≤ start + 1) : 0 ≤ part amount start i :=
  Int.ediv_nonneg (mul_nonneg (by omega) ha) (by omega)

theorem part_le (ha : 0 ≤ amount) (hs : 1 ≤ start) {i : ℤ} (hi : 1 ≤ i) : part amount start i ≤ amount := by
  refine Int.ediv_le_of_le_mul (by omega) ?_
  rw [mul_comm amount]
  exact mul_le_mul_of_nonneg_right (by omega) ha

theorem part_one (hs : 1 ≤ start) : part amount start 1 = amount := by
  rw [part, add_sub_cancel_right, Int.mul_ediv_cancel_left _ (by omega)]

/-- The hits of a value when nothing overflows before them. -/
theorem stages_succ (ha : 0 ≤ amount) (hs : 1 ≤ start) (hs' : start < 2 ^ 31 - 1) (hproduct : start * amount < 2 ^ 31)
    {i : ℕ} (hi : (i : ℤ) + 1 ≤ start) (sum : ℤ) (list : List ℤ) : stages amount start (i + 1) sum list =
      (hits i (part amount start (i + 1)) sum list).bind fun r => stages amount start i r.1 r.2 := by
  have hle : (start + 1 - (i + 1)) * amount ≤ start * amount := mul_le_mul_of_nonneg_right (by omega) ha
  have hnonneg : 0 ≤ (start + 1 - (i + 1)) * amount := mul_nonneg (by omega) ha
  have hnext : int32 (start + 1) = some (start + 1) := if_pos ⟨by omega, by omega⟩
  have hmul : int32 ((start + 1 - (i + 1)) * amount) = some ((start + 1 - (i + 1)) * amount) :=
    if_pos ⟨by omega, by omega⟩
  rw [stages, hnext]
  dsimp only [Option.bind_eq_bind, Option.bind_some]
  rw [hmul, Option.bind_some, Int.tdiv_eq_ediv_of_nonneg hnonneg]
  rfl

/-- **The hits of the values from `i` down** can be appended while their sum and that of the greater
values are within what the whole list may have.

**Proof sketch.** Induction on `i`. Either one hit of `i` is enough, which is one of those that
every list has, or the hits of `i` reach less than `i` beyond their part of the amount. -/
theorem stages_spec (extra : ℤ) (ha : 0 ≤ amount) (hs : 1 ≤ start) (hs' : start < 2 ^ 31 - 1)
    (hproduct : start * amount < 2 ^ 31) (hextra : amount ≤ extra + 1)
    (hfits : start * (start + 1) + 2 * extra < 2 ^ 32) {i : ℕ} (hi : (i : ℤ) ≤ start) (sum : ℤ) (hsum : 0 ≤ sum)
    (hbound : 2 * sum + i * (i + 1) ≤ start * (start + 1) + 2 * extra) (list : List ℤ) :
    ∃ damages, stages amount start i sum list = some (list ++ damages) ∧ Staged amount start i sum damages ∧
      2 * (sum + damages.sum) ≤ start * (start + 1) + 2 * extra := by
  induction i generalizing sum list with
  | zero =>
    refine ⟨[], by rw [List.append_nil]; rfl, .zero sum, ?_⟩
    simp only [List.sum_nil, add_zero]
    simpa using hbound
  | succ i ih =>
    push_cast at hi hbound
    have hsquare : (0 : ℤ) ≤ i * i := by positivity
    have hexpand : ((i : ℤ) + 1) * (i + 1 + 1) = i * i + 3 * i + 2 := by ring
    have hexpand' : (i : ℤ) * (i + 1) = i * i + i := by ring
    have hstart : (i : ℤ) * i + 3 * i + 2 ≤ start * (start + 1) := by
      rw [← hexpand]
      exact mul_le_mul hi (by omega) (by omega) (by omega)
    rw [hexpand] at hbound
    have hpart := part_le ha hs (i := i + 1) (by omega)
    obtain ⟨k, hk, hrun, hclosest, hsmall⟩ := hits_spec (i := i) (part amount start (i + 1)) sum hsum
      (part_nonneg ha hs (by omega)) (by omega) (by omega) list
    have hnonneg : 0 ≤ (k : ℤ) * (i + 1) := by positivity
    obtain ⟨damages, hstages, hstaged, htotal⟩ := ih (by omega) (sum + k * (i + 1)) (by omega)
      (by rw [hexpand']; omega) (list ++ List.replicate k (i + 1 : ℤ))
    refine ⟨List.replicate k (i + 1 : ℤ) ++ damages, ?_, .succ k hk hclosest hstaged, ?_⟩
    · rw [stages_succ ha hs hs' hproduct hi, hrun, Option.bind_some, hstages, List.append_assoc]
    · rw [List.sum_append, List.sum_replicate, nsmul_eq_mul]
      rw [add_assoc] at htotal
      exact htotal

/-- Hits of the values from `i` down fit in their sum with one hit each. -/
theorem stages_lt {i : ℕ} {sum : ℤ} {list r : List ℤ} (h : stages amount start i sum list = some r) :
    i = 0 ∨ 2 * sum + i * (i + 1) < 2 ^ 32 := by
  induction i generalizing sum list with
  | zero => exact .inl rfl
  | succ i ih =>
    right
    simp only [stages, Option.bind_eq_bind, Option.bind_eq_some_iff] at h
    obtain ⟨_, -, _, -, ⟨sum', list'⟩, hhits, hrest⟩ := h
    obtain ⟨hle, hlt⟩ := hits_lt hhits
    dsimp only at hle hlt
    have hexpand : ((i : ℤ) + 1) * (i + 1 + 1) = i * (i + 1) + 2 * (i + 1) := by ring
    push_cast
    rw [hexpand]
    rcases ih hrest with rfl | hrest
    · push_cast at hle ⊢
      omega
    · omega

/-! ## What they are -/

theorem Staged.le {i : ℕ} {sum : ℤ} {damages : List ℤ} (h : Staged amount start i sum damages) :
    ∀ v ∈ damages, v ≤ i := by
  induction h with
  | zero => simp
  | succ k hk hclosest h ih =>
    intro v hv
    push_cast
    rcases List.mem_append.1 hv with hv | hv
    · exact (List.eq_of_mem_replicate hv).le
    · have := ih v hv
      omega

theorem Staged.pairwise {i : ℕ} {sum : ℤ} {damages : List ℤ} (h : Staged amount start i sum damages) :
    damages.Pairwise (· ≥ ·) := by
  induction h with
  | zero => exact .nil
  | succ k hk hclosest h ih =>
    refine List.pairwise_append.2 ⟨List.pairwise_replicate.2 (.inr le_rfl), ih, fun a ha b hb => ?_⟩
    obtain rfl := List.eq_of_mem_replicate ha
    have := h.le b hb
    omega

theorem Staged.mem {i : ℕ} {sum : ℤ} {damages : List ℤ} (h : Staged amount start i sum damages) {v : ℤ}
    (hv : 1 ≤ v) (hvi : v ≤ i) : v ∈ damages := by
  induction h with
  | zero =>
    push_cast at hvi
    omega
  | succ k hk hclosest h ih =>
    push_cast at hvi
    rcases hvi.eq_or_lt with rfl | hlt
    · exact List.mem_append_left _ (List.mem_replicate.2 ⟨by omega, rfl⟩)
    · exact List.mem_append_right _ (ih (by omega))

/-- The last hits, of 1, reach the amount. -/
theorem Staged.amount_le (hs : 1 ≤ start) {i : ℕ} {sum : ℤ} {damages : List ℤ}
    (h : Staged amount start i sum damages) (hi : 1 ≤ i) : amount ≤ sum + damages.sum := by
  induction h with
  | zero => omega
  | @succ i sum rest k hk hclosest h ih =>
    rw [List.sum_append, List.sum_replicate, nsmul_eq_mul, ← add_assoc]
    rcases Nat.eq_zero_or_pos i with rfl | hpos
    · cases h
      rw [List.sum_nil, add_zero]
      push_cast at hclosest ⊢
      simp only [mul_one, part_one hs] at hclosest ⊢
      by_contra hlt
      have hnear := hclosest (amount - sum).toNat (by omega)
      rw [Int.toNat_of_nonneg (by omega), add_sub_cancel, sub_self, abs_zero] at hnear
      have := abs_nonpos_iff.1 hnear
      omega
    · exact ih hpos

end Stages

/-! ## The start values -/

theorem fits_of_le {amount start : ℤ} (ha : 0 ≤ amount) (hs : 1 ≤ start) (hproduct : start * amount < 2 ^ 31)
    (hstart : start ≤ 65535) : start * (start + 1) + 2 * max (amount - 1) 0 < 2 ^ 32 := by
  rcases hs.eq_or_lt with rfl | h1
  · omega
  rcases hstart.eq_or_lt with rfl | h2
  · omega
  rcases le_or_gt start 32768 with hle | hgt
  · have hsquare : start * (start + 1) ≤ 32768 * (32768 + 1) := mul_le_mul hle (by omega) (by omega) (by omega)
    have hamount : 2 * amount ≤ start * amount := mul_le_mul_of_nonneg_right (by omega) ha
    omega
  · have hsquare : start * (start + 1) ≤ 65534 * (65534 + 1) :=
      mul_le_mul (by omega) (by omega) (by omega) (by omega)
    have hamount : 32769 * amount ≤ start * amount := mul_le_mul_of_nonneg_right (by omega) ha
    omega

theorem not_approximates_of_gt {amount start : ℤ} (h : 65535 < start) (list : List ℤ) :
    ¬ Approximates amount start list := by
  rintro ⟨damages, hrun, -⟩
  rw [generateDamageList] at hrun
  simp only [Option.bind_eq_bind, Option.bind_eq_some_iff] at hrun
  obtain ⟨_, -, hstages⟩ := hrun
  rcases stages_lt hstages with h0 | hlt
  · omega
  · rw [Int.toNat_of_nonneg (by omega)] at hlt
    have hsquare : 65536 * (65536 + 1) ≤ start * (start + 1) := mul_le_mul (by omega) (by omega) (by omega) (by omega)
    omega

/-- **The damage list** is what it should be exactly when the hits of one each do not overflow their
sum, which is when the start value is at most 65535. -/
theorem approximates_iff (amount start : ℤ) (hs : 1 ≤ start) (hproduct : start * |amount| < 2 ^ 31) (list : List ℤ) :
    Approximates amount start list ↔ start ≤ 65535 := by
  constructor
  · intro h
    by_contra hgt
    exact not_approximates_of_gt (by omega) list h
  · intro hstart
    have ha : 0 ≤ |amount| := abs_nonneg amount
    have hfits := fits_of_le ha hs hproduct hstart
    have htoNat : (start.toNat : ℤ) = start := Int.toNat_of_nonneg (by omega)
    obtain ⟨damages, hrun, hstaged, htotal⟩ := stages_spec (max (|amount| - 1) 0) ha hs (by omega) hproduct
      (by omega) hfits (i := start.toNat) (by omega) 0 le_rfl (by rw [htoNat]; omega) list
    have hle : |amount| ≤ start * |amount| := le_mul_of_one_le_left ha hs
    refine ⟨damages, ?_, hstaged, hstaged.pairwise, fun v hv hvs => hstaged.mem hv (by omega), ?_, ?_⟩
    · have hint : int32 |amount| = some |amount| := if_pos ⟨by omega, by omega⟩
      rw [generateDamageList, hint]
      exact hrun
    · have hreach := hstaged.amount_le hs (by omega)
      omega
    · rw [zero_add] at htotal
      omega

theorem approximates_iff_poison : Approximates (-50) 5 [] ↔ (5 : ℤ) ≤ 65535 :=
  approximates_iff (-50) 5 (by decide) (by decide) []

/-- The hits of one each overflow their sum. -/
theorem not_approximates_long : ¬ Approximates 0 65536 [] := not_approximates_of_gt (by decide) []

end TiabloServer.DamageList
