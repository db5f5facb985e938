import TiabloServer.Map.SightLine

/-!
# The search for a target

`Monster::searchTarget` (`creatures/monsters/monster.cpp`) collects candidates from the target list
and picks one of them by its distance, its health or the damage that it has done. The search for a
random target is left out, and so is the choice of a search. A value that overflows `int32_t` is
undefined.

## Main definitions

* `TargetSearch.Monster.PicksBest` — the creature that is selected has the least cost of all
  candidates.
* `TargetSearch.Monster.Fair` — the condition on the candidates and their order.

## Main results

* `TargetSearch.leastOf_eq_iff` — a loop that looks for a minimum finds the first of the least.
* `TargetSearch.lastOver_best_iff` — when the candidate that is taken for its damage has done the
  most.
* `TargetSearch.picksBest_iff` — the best candidate is picked exactly under the condition.
-/

namespace TiabloServer.TargetSearch

open Sight (int32)

/-! ## The function of the source -/

structure Creature where
  id : ℕ
  position : Position
  faction : ℕ
  health : ℤ
  deriving DecidableEq

inductive SearchType
  | NEAREST
  | HP
  | DAMAGE

/-- The monster, with what it sees of the creatures. Damage is only counted when there is some. -/
structure Monster where
  position : Position
  targetDistance : ℤ
  /-- The creatures of the target list that have not expired. -/
  targetList : List Creature
  damageMap : ℕ → Option ℤ
  isTarget : Creature → Bool
  canUseAttack : Creature → Bool
  selectTarget : Creature → Bool
  damageMap_pos : ∀ id total, damageMap id = some total → 0 < total

namespace Monster

variable (m : Monster)

/-- The larger of the distances in x and in y. -/
def distance (c : Creature) : ℤ :=
  max |(m.position.x.toNat : ℤ) - c.position.x.toNat| |(m.position.y.toNat : ℤ) - c.position.y.toNat|

def resultList : List Creature :=
  m.targetList.filter fun c => m.isTarget c && (m.targetDistance = 1 || m.canUseAttack c)

/-- The loop of `TARGETSEARCH_NEAREST`, after the first candidate. -/
def nearest (factionOffset : ℤ) : List Creature → Creature → ℤ → Creature
  | [], getTarget, _ => getTarget
  | c :: l, getTarget, minRange =>
    let distance := m.distance c + factionOffset
    if distance < minRange then nearest factionOffset l c distance else nearest factionOffset l getTarget minRange

/-- The loop of `TARGETSEARCH_HP`, after the first candidate. -/
def weakest : List Creature → Creature → ℤ → ℤ → Option Creature
  | [], getTarget, _, _ => some getTarget
  | c :: l, getTarget, minHp, factionOffset => do
    let hp ← int32 (c.health + factionOffset)
    let factionOffset := (c.faction : ℤ) * 100000
    if hp < minHp then weakest l c hp factionOffset else weakest l getTarget minHp factionOffset

/-- The loop of `TARGETSEARCH_DAMAGE`, after the first candidate. -/
def strongest : List Creature → Creature → ℤ → Option Creature
  | [], getTarget, _ => some getTarget
  | c :: l, getTarget, mostDamage =>
    match m.damageMap c.id with
    | none => strongest l getTarget mostDamage
    | some total => do
      let damage ← int32 (total + c.faction * 100000)
      if damage > mostDamage then strongest l c total else strongest l getTarget mostDamage

/-- The target that is chosen from the candidates. -/
def getTarget : SearchType → List Creature → Option Creature
  | _, [] => none
  | _, [c] => some c
  | .NEAREST, c :: l => some (m.nearest (c.faction * 100) l c (m.distance c))
  | .HP, c :: l => do
    let factionOffset := (c.faction : ℤ) * 100000
    let minHp ← int32 (c.health + factionOffset)
    weakest l c minHp factionOffset
  | .DAMAGE, c :: l => m.strongest l c 0

/-- `searchTarget`: the creature that is selected, if there is one. -/
def searchTarget (searchType : SearchType) : Option (Option Creature) :=
  match m.resultList with
  | [] => some none
  | c :: l => do
    let target ← m.getTarget searchType (c :: l)
    if m.selectTarget target then return target
    return m.targetList.find? m.selectTarget

/-! ## What should be picked -/

end Monster

/-- The first of the least. -/
def FirstLeast (l : List (Creature × ℤ)) (e : Creature × ℤ) : Prop :=
  ∃ before after, l = before ++ e :: after ∧ (∀ b ∈ before, e.2 < b.2) ∧ ∀ a ∈ after, e.2 ≤ a.2

namespace Monster

variable (m : Monster)

/-- What a search should minimise. -/
def cost : SearchType → Creature → ℤ
  | .NEAREST, c => m.distance c + c.faction * 100
  | .HP, c => c.health + c.faction * 100000
  | .DAMAGE, c => -((m.damageMap c.id).getD 0 + c.faction * 100000)

/-- A candidate of the least cost is selected. -/
def PicksBest (searchType : SearchType) : Prop :=
  ∃ c ∈ m.resultList, m.searchTarget searchType = some (some c) ∧
    ∀ x ∈ m.resultList, m.cost searchType c ≤ m.cost searchType x

/-- Candidates with the health that the loop compares, which has the faction of the candidate
before. -/
def shifted : ℤ → List Creature → List (Creature × ℤ)
  | _, [] => []
  | factionOffset, c :: l => (c, c.health + factionOffset) :: shifted ((c.faction : ℤ) * 100000) l

/-- The candidates with what the loops for a minimum compare: only the first is without an offset
for its distance, which the others get from the first, and the health of the others has the offset
of the one before. -/
def compared : SearchType → List Creature → List (Creature × ℤ)
  | .NEAREST, c :: l => (c, m.distance c) :: l.map fun x => (x, m.distance x + c.faction * 100)
  | .HP, c :: l => shifted (c.faction * 100000) (c :: l)
  | _, _ => []

/-- Candidates that have done damage, with it. -/
def entries (l : List Creature) : List (Creature × ℤ) :=
  l.filterMap fun c => (m.damageMap c.id).map fun total => (c, total)

/-- The candidates come in an order in which the best one is found: of the least that is compared
the first also has the least cost; or a candidate after the first has done the most damage, with its
faction, and none after it has done more with its faction than it has without; or only the first has
done damage, or none has, and the first is the best. No value overflows. -/
def Fair : SearchType → Prop
  | .NEAREST => ∃ e, FirstLeast (m.compared .NEAREST m.resultList) e ∧
      ∀ x ∈ m.resultList, m.cost .NEAREST e.1 ≤ m.cost .NEAREST x
  | .HP => (m.resultList.tail = [] ∨ ∀ e ∈ m.compared .HP m.resultList, -2 ^ 31 ≤ e.2 ∧ e.2 < 2 ^ 31) ∧
      ∃ e, FirstLeast (m.compared .HP m.resultList) e ∧ ∀ x ∈ m.resultList, m.cost .HP e.1 ≤ m.cost .HP x
  | .DAMAGE => (∀ e ∈ m.entries m.resultList.tail, e.2 + (e.1.faction : ℤ) * 100000 < 2 ^ 31) ∧
      ((∃ before e after, m.entries m.resultList.tail = before ++ e :: after ∧
          (∀ x ∈ m.resultList, m.cost .DAMAGE e.1 ≤ m.cost .DAMAGE x) ∧
          ∀ a ∈ after, a.2 + (a.1.faction : ℤ) * 100000 ≤ e.2) ∨
        m.entries m.resultList.tail = [] ∧
          ∀ c ∈ m.resultList.head?, ∀ x ∈ m.resultList, m.cost .DAMAGE c ≤ m.cost .DAMAGE x)

end Monster

/-! ## Loops for a minimum -/

/-- The loop that keeps the least so far. -/
def leastOf (p : Creature × ℤ) (l : List (Creature × ℤ)) : Creature × ℤ :=
  l.foldl (fun least e => if e.2 < least.2 then e else least) p

theorem leastOf_of_le {p : Creature × ℤ} {l : List (Creature × ℤ)} (h : ∀ e ∈ l, p.2 ≤ e.2) : leastOf p l = p := by
  induction l with
  | nil => rfl
  | cons e l ih =>
    rw [leastOf, List.foldl_cons, if_neg (h e List.mem_cons_self).not_gt]
    exact ih fun a ha => h a (List.mem_cons_of_mem _ ha)

theorem leastOf_append {p e : Creature × ℤ} {before after : List (Creature × ℤ)} (hp : e.2 < p.2)
    (hbefore : ∀ b ∈ before, e.2 < b.2) (hafter : ∀ a ∈ after, e.2 ≤ a.2) :
    leastOf p (before ++ e :: after) = e := by
  induction before generalizing p with
  | nil =>
    rw [List.nil_append, leastOf, List.foldl_cons, if_pos hp]
    exact leastOf_of_le hafter
  | cons b before ih =>
    have hb : e.2 < b.2 := hbefore b List.mem_cons_self
    have hrest : ∀ c ∈ before, e.2 < c.2 := fun c hc => hbefore c (List.mem_cons_of_mem _ hc)
    rw [List.cons_append, leastOf, List.foldl_cons]
    split_ifs
    · exact ih hb hrest
    · exact ih hp hrest

theorem firstLeast_leastOf (p : Creature × ℤ) (l : List (Creature × ℤ)) : FirstLeast (p :: l) (leastOf p l) := by
  induction l using List.reverseRecOn with
  | nil => exact ⟨[], [], rfl, by simp, by simp⟩
  | append_singleton l a ih =>
    obtain ⟨before, after, hsplit, hbefore, hafter⟩ := ih
    have hstep : leastOf p (l ++ [a]) = if a.2 < (leastOf p l).2 then a else leastOf p l := by
      rw [leastOf, List.foldl_append]
      rfl
    rw [hstep]
    split_ifs with hlt
    · refine ⟨p :: l, [], rfl, fun b hb => ?_, by simp⟩
      rw [hsplit, List.mem_append, List.mem_cons] at hb
      rcases hb with hb | rfl | hb
      · exact hlt.trans (hbefore b hb)
      · exact hlt
      · exact hlt.trans_le (hafter b hb)
    · refine ⟨before, after ++ [a], ?_, hbefore, fun b hb => ?_⟩
      · rw [← List.cons_append, hsplit, List.append_assoc, List.cons_append]
      · rcases List.mem_append.1 hb with hb | hb
        · exact hafter b hb
        · obtain rfl := List.mem_singleton.1 hb
          exact not_lt.1 hlt

/-- A loop that looks for a minimum finds the first of the least. -/
theorem leastOf_eq_iff {p e : Creature × ℤ} {l : List (Creature × ℤ)} :
    leastOf p l = e ↔ FirstLeast (p :: l) e := by
  constructor
  · rintro rfl
    exact firstLeast_leastOf p l
  · rintro ⟨before, after, hsplit, hbefore, hafter⟩
    cases before with
    | nil =>
      obtain ⟨rfl, rfl⟩ := List.cons.inj hsplit
      exact leastOf_of_le hafter
    | cons b before =>
      obtain ⟨rfl, rfl⟩ := List.cons.inj hsplit
      exact leastOf_append (hbefore p List.mem_cons_self) (fun c hc => hbefore c (List.mem_cons_of_mem _ hc)) hafter

section Loops

variable {m : Monster}

theorem nearest_eq (factionOffset : ℤ) (l : List Creature) (c : Creature) (minRange : ℤ) :
    m.nearest factionOffset l c minRange =
      (leastOf (c, minRange) (l.map fun x => (x, m.distance x + factionOffset))).1 := by
  induction l generalizing c minRange with
  | nil => rfl
  | cons x l ih =>
    rw [Monster.nearest, List.map_cons, leastOf, List.foldl_cons]
    dsimp only
    split_ifs
    · exact ih x _
    · exact ih c _

theorem int32_eq_some {n : ℤ} (h : -2 ^ 31 ≤ n ∧ n < 2 ^ 31) : int32 n = some n := if_pos h

theorem int32_eq_none {n : ℤ} (h : ¬ (-2 ^ 31 ≤ n ∧ n < 2 ^ 31)) : int32 n = none := if_neg h

theorem weakest_eq_some_iff {l : List Creature} {c t : Creature} {minHp factionOffset : ℤ} :
    Monster.weakest l c minHp factionOffset = some t ↔
      (∀ e ∈ Monster.shifted factionOffset l, -2 ^ 31 ≤ e.2 ∧ e.2 < 2 ^ 31) ∧
        (leastOf (c, minHp) (Monster.shifted factionOffset l)).1 = t := by
  induction l generalizing c minHp factionOffset with
  | nil => simp [Monster.weakest, Monster.shifted, leastOf]
  | cons x l ih =>
    rw [Monster.weakest, Monster.shifted, leastOf, List.foldl_cons, List.forall_mem_cons]
    by_cases hx : -2 ^ 31 ≤ x.health + factionOffset ∧ x.health + factionOffset < 2 ^ 31
    · rw [int32_eq_some hx]
      dsimp only [Option.bind_eq_bind, Option.bind_some]
      rw [and_iff_right hx]
      split_ifs
      · exact ih
      · exact ih
    · rw [int32_eq_none hx]
      exact iff_of_false nofun fun h => hx h.1.1

/-- The loop over those that have done damage. -/
def lastOver (p : Creature × ℤ) (l : List (Creature × ℤ)) : Creature × ℤ :=
  l.foldl (fun most e => if e.2 + (e.1.faction : ℤ) * 100000 > most.2 then e else most) p

theorem strongest_eq_some_iff {l : List Creature} {c t : Creature} {mostDamage : ℤ} :
    m.strongest l c mostDamage = some t ↔ (∀ e ∈ m.entries l, e.2 + (e.1.faction : ℤ) * 100000 < 2 ^ 31) ∧
        (lastOver (c, mostDamage) (m.entries l)).1 = t := by
  induction l generalizing c mostDamage with
  | nil => simp [Monster.strongest, Monster.entries, lastOver]
  | cons x l ih =>
    cases htotal : m.damageMap x.id with
    | none =>
      have hskip : m.entries (x :: l) = m.entries l := List.filterMap_cons_none (by rw [htotal]; rfl)
      rw [Monster.strongest, htotal, hskip]
      exact ih
    | some total =>
      have htake : m.entries (x :: l) = (x, total) :: m.entries l :=
        List.filterMap_cons_some (by rw [htotal]; rfl)
      have hpos := m.damageMap_pos x.id total htotal
      rw [Monster.strongest, htotal, htake, lastOver, List.foldl_cons, List.forall_mem_cons]
      dsimp only
      by_cases hx : total + (x.faction : ℤ) * 100000 < 2 ^ 31
      · rw [int32_eq_some ⟨by omega, hx⟩, and_iff_right hx]
        dsimp only [Option.bind_eq_bind, Option.bind_some]
        split_ifs
        · exact ih
        · exact ih
      · rw [int32_eq_none fun h => hx h.2]
        exact iff_of_false nofun fun h => hx h.1.1

theorem lastOver_cons (p e : Creature × ℤ) (l : List (Creature × ℤ)) :
    lastOver p (e :: l) = lastOver (if e.2 + (e.1.faction : ℤ) * 100000 > p.2 then e else p) l := rfl

/-- The last candidate that is taken for its damage, if one is. -/
theorem lastOver_spec (p : Creature × ℤ) (l : List (Creature × ℤ)) :
    (lastOver p l = p ∧ ∀ e ∈ l, e.2 + (e.1.faction : ℤ) * 100000 ≤ p.2) ∨
      ∃ before after, l = before ++ lastOver p l :: after ∧
        ∀ a ∈ after, a.2 + (a.1.faction : ℤ) * 100000 ≤ (lastOver p l).2 := by
  induction l generalizing p with
  | nil => exact .inl ⟨rfl, by simp⟩
  | cons e l ih =>
    rw [lastOver_cons]
    split_ifs with hlt
    · refine .inr ?_
      rcases ih e with ⟨heq, hle⟩ | ⟨before, after, hsplit, hafter⟩
      · rw [heq]
        exact ⟨[], l, rfl, hle⟩
      · exact ⟨e :: before, after, congrArg (e :: ·) hsplit, hafter⟩
    · rcases ih p with ⟨heq, hle⟩ | ⟨before, after, hsplit, hafter⟩
      · exact .inl ⟨heq, List.forall_mem_cons.2 ⟨not_lt.1 hlt, hle⟩⟩
      · exact .inr ⟨e :: before, after, congrArg (e :: ·) hsplit, hafter⟩

theorem lastOver_of_le {p : Creature × ℤ} {l : List (Creature × ℤ)}
    (h : ∀ e ∈ l, e.2 + (e.1.faction : ℤ) * 100000 ≤ p.2) : lastOver p l = p := by
  induction l with
  | nil => rfl
  | cons e l ih =>
    rw [lastOver_cons, if_neg (h e List.mem_cons_self).not_gt]
    exact ih fun a ha => h a (List.mem_cons_of_mem _ ha)

theorem mem_entries {l : List Creature} {e : Creature × ℤ} (h : e ∈ m.entries l) :
    e.1 ∈ l ∧ m.damageMap e.1.id = some e.2 := by
  obtain ⟨c, hc, heq⟩ := List.mem_filterMap.1 h
  obtain ⟨total, htotal, rfl⟩ := Option.map_eq_some_iff.1 heq
  exact ⟨hc, htotal⟩

theorem cost_of_mem_entries {l : List Creature} {e : Creature × ℤ} (h : e ∈ m.entries l) :
    m.cost .DAMAGE e.1 = -(e.2 + (e.1.faction : ℤ) * 100000) := by
  rw [Monster.cost, (mem_entries h).2]
  rfl

/-- **The candidate that is taken for its damage** has done the most, with its faction, exactly when
one that has is not followed by another that has done more with its faction than it has without.

**Proof sketch.** If one that has done the most is not taken, then because the candidate that is the
target then has done as much without its faction, and so has done the most too. -/
theorem lastOver_best_iff {first : Creature} {l : List Creature} :
    (∀ x ∈ first :: l, m.cost .DAMAGE (lastOver (first, 0) (m.entries l)).1 ≤ m.cost .DAMAGE x) ↔
      (∃ before e after, m.entries l = before ++ e :: after ∧
          (∀ x ∈ first :: l, m.cost .DAMAGE e.1 ≤ m.cost .DAMAGE x) ∧
          ∀ a ∈ after, a.2 + (a.1.faction : ℤ) * 100000 ≤ e.2) ∨
        m.entries l = [] ∧ ∀ x ∈ first :: l, m.cost .DAMAGE first ≤ m.cost .DAMAGE x := by
  have hpos {e : Creature × ℤ} (he : e ∈ m.entries l) : 0 < e.2 := m.damageMap_pos _ _ (mem_entries he).2
  constructor
  · intro hbest
    rcases lastOver_spec (first, 0) (m.entries l) with ⟨heq, hle⟩ | ⟨before, after, hsplit, hafter⟩
    · refine .inr ⟨List.eq_nil_iff_forall_not_mem.2 fun e he => ?_, ?_⟩
      · have h1 := hpos he
        have h2 := hle e he
        dsimp only at h2
        omega
      · rw [heq] at hbest
        exact hbest
    · exact .inl ⟨before, _, after, hsplit, hbest, hafter⟩
  · rintro (⟨before, e, after, hsplit, hbest, hafter⟩ | ⟨hnil, hbest⟩)
    · have hmem : e ∈ m.entries l := by
        rw [hsplit]
        simp
      have hcost := cost_of_mem_entries hmem
      have hfold : lastOver (first, 0) (m.entries l) = lastOver (lastOver (first, 0) before) (e :: after) := by
        rw [hsplit, lastOver, List.foldl_append]
        rfl
      rw [hfold, lastOver_cons]
      split_ifs with hlt
      · rw [lastOver_of_le hafter]
        exact hbest
      · -- The target so far has done as much without its faction.
        have hge : e.2 + (e.1.faction : ℤ) * 100000 ≤ (lastOver (first, 0) before).2 := not_lt.1 hlt
        have hold : lastOver (first, 0) before ∈ m.entries l := by
          rcases lastOver_spec (first, 0) before with ⟨heq, -⟩ | ⟨before', after', hsplit', -⟩
          · rw [heq] at hge
            have := hpos hmem
            dsimp only at hge
            omega
          · rw [hsplit]
            refine List.mem_append_left _ ?_
            generalize lastOver (first, 0) before = t at hsplit' ⊢
            rw [hsplit']
            simp
        have holdCost := cost_of_mem_entries hold
        have hlast : lastOver (lastOver (first, 0) before) after = lastOver (first, 0) before := by
          refine lastOver_of_le fun a ha => ?_
          have := hafter a ha
          omega
        rw [hlast]
        intro x hx
        have := hbest x hx
        omega
    · rw [hnil]
      exact hbest

end Loops

/-! ## The search -/

section Search

variable {m : Monster}

/-- The target that is chosen is the best. -/
def ChoosesBest (m : Monster) (searchType : SearchType) : Prop :=
  ∃ c ∈ m.resultList, m.getTarget searchType m.resultList = some c ∧
    ∀ x ∈ m.resultList, m.cost searchType c ≤ m.cost searchType x

theorem FirstLeast.mem {l : List (Creature × ℤ)} {e : Creature × ℤ} (h : FirstLeast l e) : e ∈ l := by
  obtain ⟨before, after, rfl, -⟩ := h
  simp

theorem mem_of_mem_shifted {factionOffset : ℤ} {l : List Creature} {e : Creature × ℤ}
    (h : e ∈ Monster.shifted factionOffset l) : e.1 ∈ l := by
  induction l generalizing factionOffset with
  | nil => cases h
  | cons c l ih =>
    rw [Monster.shifted] at h
    rcases List.mem_cons.1 h with rfl | h
    · exact List.mem_cons_self
    · exact List.mem_cons_of_mem _ (ih h)

theorem mem_of_mem_compared {searchType : SearchType} {l : List Creature} {e : Creature × ℤ}
    (h : e ∈ m.compared searchType l) : e.1 ∈ l := by
  cases l with
  | nil => cases searchType <;> cases h
  | cons c l =>
    cases searchType with
    | NEAREST =>
      rcases List.mem_cons.1 h with rfl | h
      · exact List.mem_cons_self
      · obtain ⟨x, hx, rfl⟩ := List.mem_map.1 h
        exact List.mem_cons_of_mem _ hx
    | HP => exact mem_of_mem_shifted h
    | DAMAGE => cases h

theorem getTarget_nearest (c : Creature) (l : List Creature) : m.getTarget .NEAREST (c :: l) =
    some (leastOf (c, m.distance c) (l.map fun x => (x, m.distance x + (c.faction : ℤ) * 100))).1 := by
  rw [← nearest_eq]
  cases l <;> rfl

theorem getTarget_hp_iff {c t : Creature} {l : List Creature} : m.getTarget .HP (c :: l) = some t ↔
    (l = [] ∨ ∀ e ∈ m.compared .HP (c :: l), -2 ^ 31 ≤ e.2 ∧ e.2 < 2 ^ 31) ∧
      (leastOf (c, c.health + (c.faction : ℤ) * 100000) (Monster.shifted ((c.faction : ℤ) * 100000) l)).1 = t := by
  cases l with
  | nil => simp [Monster.getTarget, Monster.shifted, leastOf]
  | cons x l =>
    have htarget : m.getTarget .HP (c :: x :: l) = (int32 (c.health + (c.faction : ℤ) * 100000)).bind fun minHp =>
        Monster.weakest (x :: l) c minHp ((c.faction : ℤ) * 100000) := rfl
    rw [htarget, Monster.compared, Monster.shifted, List.forall_mem_cons, or_iff_right (List.cons_ne_nil x l)]
    by_cases hc : -2 ^ 31 ≤ c.health + (c.faction : ℤ) * 100000 ∧ c.health + (c.faction : ℤ) * 100000 < 2 ^ 31
    · rw [and_iff_right hc, int32_eq_some hc]
      exact weakest_eq_some_iff
    · rw [int32_eq_none hc]
      exact iff_of_false nofun fun h => hc h.1.1

theorem getTarget_damage (c : Creature) (l : List Creature) : m.getTarget .DAMAGE (c :: l) = m.strongest l c 0 := by
  cases l <;> rfl

theorem choosesBest_iff {first : Creature} {l : List Creature} (h : m.resultList = first :: l)
    (searchType : SearchType) : ChoosesBest m searchType ↔ m.Fair searchType := by
  cases searchType with
  | NEAREST =>
    rw [ChoosesBest, Monster.Fair, h]
    constructor
    · rintro ⟨c, -, hchosen, hbest⟩
      rw [getTarget_nearest] at hchosen
      refine ⟨_, leastOf_eq_iff.1 rfl, ?_⟩
      rw [Option.some.inj hchosen]
      exact hbest
    · rintro ⟨e, hfirst, hbest⟩
      refine ⟨e.1, mem_of_mem_compared hfirst.mem, ?_, hbest⟩
      rw [getTarget_nearest, leastOf_eq_iff.2 hfirst]
  | HP =>
    rw [ChoosesBest, Monster.Fair, h]
    constructor
    · rintro ⟨c, -, hchosen, hbest⟩
      obtain ⟨hrange, hleast⟩ := getTarget_hp_iff.1 hchosen
      refine ⟨hrange, _, leastOf_eq_iff.1 rfl, ?_⟩
      rw [hleast]
      exact hbest
    · rintro ⟨hrange, e, hfirst, hbest⟩
      refine ⟨e.1, mem_of_mem_compared hfirst.mem, getTarget_hp_iff.2 ⟨hrange, ?_⟩, hbest⟩
      rw [leastOf_eq_iff.2 hfirst]
  | DAMAGE =>
    rw [ChoosesBest, Monster.Fair, h]
    have hmem : (lastOver (first, 0) (m.entries l)).1 ∈ first :: l := by
      rcases lastOver_spec (first, 0) (m.entries l) with ⟨heq, -⟩ | ⟨before, after, hsplit, -⟩
      · rw [heq]
        exact List.mem_cons_self
      · refine List.mem_cons_of_mem _ (mem_entries (m := m) ?_).1
        generalize lastOver (first, 0) (m.entries l) = t at hsplit ⊢
        rw [hsplit]
        simp
    have hhead : (∀ c ∈ (first :: l).head?, ∀ x ∈ first :: l, m.cost .DAMAGE c ≤ m.cost .DAMAGE x) ↔
        ∀ x ∈ first :: l, m.cost .DAMAGE first ≤ m.cost .DAMAGE x := by
      simp
    rw [List.tail_cons, hhead, ← lastOver_best_iff]
    constructor
    · rintro ⟨c, -, hchosen, hbest⟩
      rw [getTarget_damage] at hchosen
      obtain ⟨hrange, hlast⟩ := strongest_eq_some_iff.1 hchosen
      refine ⟨hrange, ?_⟩
      rw [hlast]
      exact hbest
    · rintro ⟨hrange, hbest⟩
      refine ⟨_, hmem, ?_, hbest⟩
      rw [getTarget_damage]
      exact strongest_eq_some_iff.2 ⟨hrange, rfl⟩

theorem searchTarget_eq {searchType : SearchType} (hne : m.resultList ≠ [])
    (hselect : ∀ c, m.getTarget searchType m.resultList = some c → m.selectTarget c = true) :
    m.searchTarget searchType = (m.getTarget searchType m.resultList).map some := by
  rw [Monster.searchTarget]
  cases hresult : m.resultList with
  | nil => exact absurd hresult hne
  | cons c l =>
    dsimp only
    rw [← hresult]
    cases htarget : m.getTarget searchType m.resultList with
    | none => rfl
    | some t =>
      simp [hselect t htarget]

end Search

/-- **The best candidate is selected**, where the first choice is accepted, exactly when the
candidates come in an order in which it is found; and in all such orders those that are selected
cost the same. -/
theorem picksBest_iff (m : Monster) (searchType : SearchType) (hne : m.resultList ≠ [])
    (hselect : ∀ c, m.getTarget searchType m.resultList = some c → m.selectTarget c = true) :
    (m.PicksBest searchType ↔ m.Fair searchType) ∧
      ∀ targetList, targetList.Perm m.targetList → m.PicksBest searchType →
        { m with targetList := targetList }.PicksBest searchType →
          ∀ c c', m.searchTarget searchType = some (some c) →
            { m with targetList := targetList }.searchTarget searchType = some (some c') →
              m.cost searchType c = m.cost searchType c' := by
  constructor
  · obtain ⟨first, l, hresult⟩ := List.exists_cons_of_ne_nil hne
    rw [← choosesBest_iff hresult, ChoosesBest, Monster.PicksBest, searchTarget_eq hne hselect]
    simp
  · rintro targetList hperm ⟨d, hd, hsearch, hbest⟩ ⟨d', hd', hsearch', hbest'⟩ c c' hc hc'
    obtain rfl : d = c := Option.some.inj (Option.some.inj (hsearch.symm.trans hc))
    obtain rfl : d' = c' := Option.some.inj (Option.some.inj (hsearch'.symm.trans hc'))
    have hresult : ({ m with targetList := targetList } : Monster).resultList.Perm m.resultList := hperm.filter _
    exact le_antisymm (hbest d' (hresult.mem_iff.1 hd')) (hbest' d (hresult.mem_iff.2 hd))

/-! ## Two targets -/

/-- A monster with two targets of another faction, of which the second is nearer. -/
def hunter : Monster where
  position := ⟨100, 100, 7⟩
  targetDistance := 1
  targetList := [⟨1, ⟨105, 100, 7⟩, 1, 100⟩, ⟨2, ⟨101, 100, 7⟩, 1, 100⟩]
  damageMap _ := none
  isTarget _ := true
  canUseAttack _ := true
  selectTarget _ := true
  damageMap_pos := nofun

/-- The same monster, which the second target has hurt most. -/
def wounded : Monster :=
  { hunter with
    damageMap := fun id => if id = 2 then some 50 else if id = 1 then some 20 else none
    damageMap_pos := fun id total h => by
      split_ifs at h <;> cases h <;> decide }

/-- The second target has done the most damage. -/
theorem picksBest_iff_wounded : wounded.PicksBest .DAMAGE := by
  refine (picksBest_iff wounded .DAMAGE (by decide) fun _ _ => rfl).1.2 ⟨by decide, Or.inl ?_⟩
  exact ⟨[], (⟨2, ⟨101, 100, 7⟩, 1, 100⟩, 50), [], by decide, by decide, by decide⟩

/-- The first is kept, because the distance of the second counts with the faction and its own does
not. -/
theorem not_picksBest_hunter : ¬ hunter.PicksBest .NEAREST := by
  rintro ⟨c, -, hsearch, hbest⟩
  have hfirst : hunter.searchTarget .NEAREST = some (some ⟨1, ⟨105, 100, 7⟩, 1, 100⟩) := by decide
  obtain rfl := Option.some.inj (Option.some.inj (hfirst.symm.trans hsearch))
  have hsecond := hbest ⟨2, ⟨101, 100, 7⟩, 1, 100⟩ (by decide)
  revert hsecond
  decide

end TiabloServer.TargetSearch
