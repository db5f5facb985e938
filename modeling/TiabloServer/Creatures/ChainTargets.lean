import TiabloServer.Map.SpectatorSearch

/-!
# The targets of a chain

`Combat::pickChainTargets` (`creatures/combat/combat.cpp`). A chain goes from creature to creature,
each time to the closest one in range that is valid from the last one, and creatures found invalid
are not looked at again. With backtracking it goes on from an earlier target where there is none.
Targets are listed under the position of the creature that the chain came from.

The answers of `isValidChainTarget` are given. Spectators are searched for on the map, with nothing
cached.

## Main definitions

* `loop`, `pickChainTargets` — the function of the source, with fuel for its loop.
* `Chained` — the order in which the targets have been picked.

## Main results

* `pickChainTargets_picks` — the targets that are picked.
* `length_pickChainTargets_le` — how many there are.
-/

namespace TiabloServer.ChainTargets

/-! ## The function of the source -/

section Source

variable {γ : Type*} [DecidableEq γ]

/-- A call of `pickChainTargets`: `isValidChainTarget` takes the current and the potential
target. -/
structure Pick (γ : Type*) where
  w : CreatureMap γ
  caster : γ
  isValidChainTarget : γ → γ → Bool
  chainDistance : UInt8
  maxTargets : UInt8
  backtracking : Bool
  initialTarget : Option γ

/-- The result: targets under positions. -/
abbrev ResultMap (γ : Type*) := List (Position × List γ)

variable (p : Pick γ)

def getPosition (c : γ) : Position := (p.w.creatures c).getD ⟨0, 0, 0⟩

/-- The search around a creature. -/
def query (currentTarget : γ) : Spectators.Query :=
  ⟨getPosition p currentTarget, false, false, p.chainDistance.toNat, p.chainDistance.toNat,
    p.chainDistance.toNat, p.chainDistance.toNat⟩

/-- The `spectators` of a round. -/
def spectators (currentTarget : γ) : List γ :=
  Spectators.search p.w (query p currentTarget) (query p currentTarget).range

/-- The square of `getEuclideanDistance`. -/
def squaredDistance (p1 p2 : Position) : ℤ :=
  ((p1.x.toNat : ℤ) - p2.x.toNat) ^ 2 + ((p1.y.toNat : ℤ) - p2.y.toNat) ^ 2

/-- The `visited`, and the `closestSpectator` with its distance. -/
structure Scan (γ : Type*) where
  visited : List γ
  closest : Option (γ × ℤ)

/-- A round of the loop over the spectators. -/
def consider (currentTarget : γ) (s : Scan γ) (spectator : γ) : Scan γ :=
  if spectator ∈ s.visited then s
  else if !p.isValidChainTarget currentTarget spectator then
    { s with visited := spectator :: s.visited }
  else
    let distance := squaredDistance (getPosition p currentTarget) (getPosition p spectator)
    if s.closest.all fun closest => decide (distance < closest.2) then
      { s with closest := some (spectator, distance) }
    else s

/-- The loop over the spectators. -/
def scan (visited : List γ) (currentTarget : γ) : Scan γ :=
  (spectators p currentTarget).foldl (consider p currentTarget) ⟨visited, none⟩

/-- A target is listed under a position. -/
def push (pos : Position) (id : γ) : ResultMap γ → ResultMap γ
  | [] => [(pos, [id])]
  | (pos', vec) :: rest =>
    if pos' = pos then (pos', vec ++ [id]) :: rest else (pos', vec) :: push pos id rest

/-- The variables of the loop; the last of `targets` comes first. -/
structure State (γ : Type*) where
  targets : List γ
  visited : List γ
  resultMap : ResultMap γ
  maxTargets : UInt8
  backtrackingAttempts : ℕ

/-- The variables before the loop. -/
def start : State γ :=
  match p.initialTarget with
  | some initialTarget =>
    if initialTarget ≠ p.caster then
      ⟨[initialTarget], [initialTarget], [(getPosition p p.caster, [initialTarget])], p.maxTargets, 10⟩
    else ⟨[p.caster], [], [], p.maxTargets + 1, 10⟩
  | none => ⟨[p.caster], [], [], p.maxTargets + 1, 10⟩

/-- The condition of the loop. -/
def Continues (s : State γ) : Prop :=
  s.targets.length ≤ s.maxTargets.toNat ∧ 0 < s.backtrackingAttempts

instance (s : State γ) : Decidable (Continues s) := inferInstanceAs (Decidable (_ ∧ _))

/-- A closest spectator is added to the chain. -/
def extend (s : State γ) (currentTarget closest : γ) (visited : List γ) : State γ where
  targets := closest :: s.targets
  visited := closest :: visited
  resultMap := push (getPosition p currentTarget) closest s.resultMap
  maxTargets := s.maxTargets
  backtrackingAttempts := s.backtrackingAttempts

/-- The last target is taken off the chain. -/
def backtrack (s : State γ) (rest visited : List γ) : State γ :=
  { s with targets := rest, visited := visited, backtrackingAttempts := s.backtrackingAttempts - 1 }

/-- The loop; none if the fuel does not suffice. -/
def loop : ℕ → State γ → Option (State γ)
  | 0, _ => none
  | fuel + 1, s =>
    match s.targets with
    | [] => some s
    | currentTarget :: rest =>
      if Continues s then
        match (scan p s.visited currentTarget).closest with
        | some (closest, _) =>
          loop fuel (extend p s currentTarget closest (scan p s.visited currentTarget).visited)
        | none =>
          if p.backtracking then loop fuel (backtrack s rest (scan p s.visited currentTarget).visited)
          else some { s with visited := (scan p s.visited currentTarget).visited }
      else some s

def pickChainTargets (fuel : ℕ) : Option (ResultMap γ) := (loop p fuel (start p)).map (·.resultMap)

end Source

/-! ## Chains -/

section Chains

variable {γ : Type*} [DecidableEq γ] (p : Pick γ)

/-- The creature ids of a result. -/
def ids (resultMap : ResultMap γ) : List γ := resultMap.flatMap (·.2)

/-- The range of the searches. -/
def reach : ℤ := if p.chainDistance = 0 then 11 else p.chainDistance.toNat

/-- A creature is on the floor of another one and in range of it. -/
def InRange (t c : γ) : Prop :=
  ∃ q, p.w.creatures c = some q ∧ q.z = (getPosition p t).z ∧
    |(q.x.toNat : ℤ) - (getPosition p t).x.toNat| ≤ reach p ∧
    |(q.y.toNat : ℤ) - (getPosition p t).y.toNat| ≤ reach p

/-- A creature is listed under the position of another one, from which it is valid and near. -/
def ListedFrom (near : γ → γ → Prop) (resultMap : ResultMap γ) (t c : γ) : Prop :=
  near t c ∧ p.isValidChainTarget t c = true ∧ ∃ e ∈ resultMap, e.1 = getPosition p t ∧ c ∈ e.2

/-- A creature is the initial target, listed under the position of the caster. -/
def IsInitial (resultMap : ResultMap γ) (c : γ) : Prop :=
  p.initialTarget = some c ∧ c ≠ p.caster ∧ ∃ e ∈ resultMap, e.1 = getPosition p p.caster ∧ c ∈ e.2

/-- A creature that spectators have been searched around: a target, or the caster of a chain without
initial target. -/
def Member (order : List γ) (t : γ) : Prop :=
  (t = p.caster ∧ ∀ c, p.initialTarget = some c → c = p.caster) ∨ t ∈ order

/-- Targets, the last one first, each of which is the initial one or listed under the position of
one before it, or of the caster. -/
def Chained (near : γ → γ → Prop) (resultMap : ResultMap γ) : List γ → Prop
  | [] => True
  | c :: before =>
    ((before = [] ∧ IsInitial p resultMap c) ∨
      ∃ t, Member p before t ∧ ListedFrom p near resultMap t c) ∧ Chained near resultMap before

/-- A creature is within the distance of a chain. -/
def Within (t c : γ) : Prop :=
  ∃ q, p.w.creatures c = some q ∧ q.z = (getPosition p t).z ∧
    |(q.x.toNat : ℤ) - (getPosition p t).x.toNat| ≤ p.chainDistance.toNat ∧
    |(q.y.toNat : ℤ) - (getPosition p t).y.toNat| ≤ p.chainDistance.toNat

/-- No creature in range of the last target is left: each is listed, or not valid from it or from a
member of the chain that it has been in range of. -/
def Exhausted (order : List γ) : Prop :=
  ∀ c, InRange p (order.headD p.caster) c → c ∈ order ∨
    p.isValidChainTarget (order.headD p.caster) c = false ∨
    ∃ t, Member p order t ∧ InRange p t c ∧ p.isValidChainTarget t c = false

end Chains

/-! ## Lists of targets -/

section Lists

variable {γ : Type*} {p : Pick γ}

theorem mem_push {pos : Position} {id : γ} {resultMap : ResultMap γ} :
    ∃ e ∈ push pos id resultMap, e.1 = pos ∧ id ∈ e.2 := by
  induction resultMap with
  | nil => exact ⟨(pos, [id]), List.mem_singleton_self _, rfl, List.mem_singleton_self _⟩
  | cons e rest ih =>
    rw [push]
    split_ifs with hpos
    · exact ⟨_, List.mem_cons_self, hpos, List.mem_append_right _ (List.mem_singleton_self _)⟩
    · obtain ⟨e', he', h⟩ := ih
      exact ⟨e', List.mem_cons_of_mem _ he', h⟩

/-- What is listed stays so. -/
theorem mem_push_of_mem {pos pos' : Position} {id c : γ} {resultMap : ResultMap γ}
    (h : ∃ e ∈ resultMap, e.1 = pos' ∧ c ∈ e.2) : ∃ e ∈ push pos id resultMap, e.1 = pos' ∧ c ∈ e.2 := by
  induction resultMap with
  | nil => simp at h
  | cons e rest ih =>
    obtain ⟨e', he', hpos', hc⟩ := h
    rw [push]
    split_ifs with hpos
    · obtain rfl | he' := List.mem_cons.1 he'
      · exact ⟨_, List.mem_cons_self, hpos', List.mem_append_left _ hc⟩
      · exact ⟨e', List.mem_cons_of_mem _ he', hpos', hc⟩
    · obtain rfl | he' := List.mem_cons.1 he'
      · exact ⟨_, List.mem_cons_self, hpos', hc⟩
      · obtain ⟨e'', he'', h⟩ := ih ⟨e', he', hpos', hc⟩
        exact ⟨e'', List.mem_cons_of_mem _ he'', h⟩

theorem ids_push (pos : Position) (id : γ) (resultMap : ResultMap γ) :
    (ids (push pos id resultMap)).Perm (id :: ids resultMap) := by
  induction resultMap with
  | nil => exact List.Perm.refl _
  | cons e rest ih =>
    rw [push]
    split_ifs with hpos
    · simp only [ids, List.flatMap_cons, List.append_assoc, List.singleton_append]
      exact List.perm_middle
    · simp only [ids, List.flatMap_cons] at ih ⊢
      exact (ih.append_left e.2).trans List.perm_middle

theorem Chained.push {near : γ → γ → Prop} {resultMap : ResultMap γ} {order : List γ}
    (h : Chained p near resultMap order) (pos : Position) (id : γ) :
    Chained p near (push pos id resultMap) order := by
  induction order with
  | nil => trivial
  | cons c before ih =>
    obtain ⟨hfrom, hbefore⟩ := h
    refine ⟨?_, ih hbefore⟩
    obtain ⟨hempty, hinitial, hne, hlisted⟩ | ⟨t, ht, hrange, hvalid, hlisted⟩ := hfrom
    · exact .inl ⟨hempty, hinitial, hne, mem_push_of_mem hlisted⟩
    · exact .inr ⟨t, ht, hrange, hvalid, mem_push_of_mem hlisted⟩

end Lists

/-! ## Rounds -/

section Rounds

variable {γ : Type*} [DecidableEq γ] {p : Pick γ}

/-- What the loop over the spectators finds, of those that it went through. -/
structure Scanned (p : Pick γ) (visited : List γ) (t : γ) (l : List γ) (s : Scan γ) : Prop where
  mem_visited : ∀ c, c ∈ s.visited ↔ c ∈ visited ∨ (c ∈ l ∧ p.isValidChainTarget t c = false)
  of_closest : ∀ c d, s.closest = some (c, d) → c ∈ l ∧ c ∉ visited ∧ p.isValidChainTarget t c = true
  of_none : s.closest = none → ∀ c ∈ l, c ∈ visited ∨ p.isValidChainTarget t c = false

theorem Scanned.consider {visited l : List γ} {t : γ} {s : Scan γ} (h : Scanned p visited t l s) (c : γ) :
    Scanned p visited t (l ++ [c]) (consider p t s c) := by
  have hmem (a : γ) : a ∈ l ++ [c] ↔ a ∈ l ∨ a = c := by rw [List.mem_append, List.mem_singleton]
  have hkeeps (a : γ) (d : ℤ) (ha : s.closest = some (a, d)) :
      a ∈ l ++ [c] ∧ a ∉ visited ∧ p.isValidChainTarget t a = true :=
    ⟨(hmem a).2 (.inl (h.of_closest a d ha).1), (h.of_closest a d ha).2⟩
  rw [ChainTargets.consider]
  by_cases hvisited : c ∈ s.visited
  · -- visited before, or found invalid before
    rw [if_pos hvisited]
    have hc := (h.mem_visited c).1 hvisited
    refine ⟨fun a => ?_, hkeeps, fun hnone a ha => ?_⟩
    · rw [h.mem_visited, hmem]
      constructor
      · rintro (ha | ⟨ha, hinvalid⟩)
        · exact .inl ha
        · exact .inr ⟨.inl ha, hinvalid⟩
      · rintro (ha | ⟨ha | rfl, hinvalid⟩)
        · exact .inl ha
        · exact .inr ⟨ha, hinvalid⟩
        · exact hc
    · obtain ha | rfl := (hmem a).1 ha
      · exact h.of_none hnone a ha
      · exact hc.imp id And.right
  · rw [if_neg hvisited]
    have hc : c ∉ visited := fun hc => hvisited ((h.mem_visited c).2 (.inl hc))
    cases hvalid : p.isValidChainTarget t c with
    | false =>
      simp only [Bool.not_false, if_true]
      refine ⟨fun a => ?_, hkeeps, fun hnone a ha => ?_⟩
      · rw [List.mem_cons, h.mem_visited, hmem]
        constructor
        · rintro (rfl | ha | ⟨ha, hinvalid⟩)
          · exact .inr ⟨.inr rfl, hvalid⟩
          · exact .inl ha
          · exact .inr ⟨.inl ha, hinvalid⟩
        · rintro (ha | ⟨ha | rfl, hinvalid⟩)
          · exact .inr (.inl ha)
          · exact .inr (.inr ⟨ha, hinvalid⟩)
          · exact .inl rfl
      · obtain ha | rfl := (hmem a).1 ha
        · exact h.of_none hnone a ha
        · exact .inr hvalid
    | true =>
      have hvisited' (a : γ) : a ∈ s.visited ↔
          a ∈ visited ∨ (a ∈ l ++ [c] ∧ p.isValidChainTarget t a = false) := by
        rw [h.mem_visited, hmem]
        constructor
        · rintro (ha | ⟨ha, hinvalid⟩)
          · exact .inl ha
          · exact .inr ⟨.inl ha, hinvalid⟩
        · rintro (ha | ⟨ha | rfl, hinvalid⟩)
          · exact .inl ha
          · exact .inr ⟨ha, hinvalid⟩
          · exact absurd (hvalid.symm.trans hinvalid) Bool.noConfusion
      simp only [Bool.not_true, Bool.false_eq_true, if_false]
      split_ifs with hcloser
      · refine ⟨hvisited', fun a d ha => ?_, nofun⟩
        obtain ⟨rfl, -⟩ := Prod.mk.inj (Option.some.inj ha)
        exact ⟨(hmem c).2 (.inr rfl), hc, hvalid⟩
      · refine ⟨hvisited', hkeeps, fun hnone => ?_⟩
        exact absurd (by rw [hnone]; rfl) hcloser

theorem scanned (p : Pick γ) (visited : List γ) (t : γ) :
    Scanned p visited t (spectators p t) (scan p visited t) := by
  rw [scan]
  induction spectators p t using List.reverseRecOn with
  | nil => exact ⟨fun c => by simp, nofun, nofun⟩
  | append_singleton l c ih =>
    rw [List.foldl_append]
    exact ih.consider c

/-! ## The spectators of the map -/

section Spectators

variable {isPlayer : γ → Bool}

omit [DecidableEq γ] in
theorem mem_spectators (h : CreatureMap.WellFormed isPlayer p.w) {t c : γ} :
    c ∈ spectators p t ↔ InRange p t c := by
  rw [spectators, Spectators.mem_search h, Spectators.Sees, InRange]
  refine exists_congr fun q => and_congr_right fun _ => ?_
  rw [Spectators.visible_iff]
  simp only [query, Spectators.Query.range, Spectators.floors, Spectators.getOffsetZ, abs_le]
  have hz : q.z = (getPosition p t).z ↔ q.z.toNat = (getPosition p t).z.toNat := UInt8.toNat_inj.symm
  have hd : p.chainDistance = 0 ↔ p.chainDistance.toNat = 0 := UInt8.toNat_inj.symm
  have hreach : reach p = if p.chainDistance.toNat = 0 then 11 else (p.chainDistance.toNat : ℤ) := by
    simp only [reach, hd]
  rw [hz, hreach]
  simp only [Nat.cast_eq_zero, MAP_MAX_VIEW_PORT_X, MAP_MAX_VIEW_PORT_Y, Bool.false_eq_true, if_false,
    false_imp_iff, true_and]
  by_cases hzero : p.chainDistance.toNat = 0
  · simp only [hzero, if_true]
    omega
  · simp only [hzero, if_false]
    omega

/-- A change of the map changes the position of at most one creature. -/
theorem creatures_step (isPlayer : γ → Bool) (w : CreatureMap γ) (step : CreatureMap.Step γ) :
    ∃ U : Finset γ, ∀ a, a ∉ U → (w.step isPlayer step).creatures a = w.creatures a := by
  cases step with
  | setTile position =>
    refine ⟨∅, fun a _ => ?_⟩
    rw [CreatureMap.step, CreatureMap.setTile]
    repeat' split
    all_goals rfl
  | placeCreature c dest =>
    refine ⟨{c}, fun a ha => ?_⟩
    rw [CreatureMap.step, CreatureMap.placeCreature]
    split
    · exact Function.update_of_ne (Finset.notMem_singleton.1 ha) _ _
    · rfl
  | moveCreature c newPos =>
    refine ⟨{c}, fun a ha => ?_⟩
    rw [CreatureMap.step, CreatureMap.moveCreature]
    repeat' split
    all_goals first
      | rfl
      | simp only [Function.update_of_ne (Finset.notMem_singleton.1 ha)]
  | removeCreature c =>
    refine ⟨{c}, fun a ha => ?_⟩
    rw [CreatureMap.step, CreatureMap.removeCreature]
    repeat' split
    all_goals first
      | rfl
      | exact Function.update_of_ne (Finset.notMem_singleton.1 ha) _ _

/-- There are finitely many creatures on the map. -/
theorem exists_creatures (isPlayer : γ → Bool) (steps : List (CreatureMap.Step γ)) :
    ∃ U : Finset γ, ∀ c, (CreatureMap.run isPlayer steps).creatures c ≠ none → c ∈ U := by
  induction steps using List.reverseRecOn with
  | nil => exact ⟨∅, fun c h => absurd rfl h⟩
  | append_singleton steps step ih =>
    obtain ⟨U, hU⟩ := ih
    obtain ⟨V, hV⟩ := creatures_step isPlayer (CreatureMap.run isPlayer steps) step
    refine ⟨U ∪ V, fun a ha => ?_⟩
    rw [CreatureMap.run, List.foldl_append] at ha
    by_cases haV : a ∈ V
    · exact Finset.mem_union_right _ haV
    · exact Finset.mem_union_left _ (hU a fun hnone => ha ((hV a haV).trans hnone))

end Spectators

/-! ## The loop -/

/-- The targets so far, the last one first, and what the variables of the loop hold. -/
structure Inv (p : Pick γ) (order : List γ) (s : State γ) : Prop where
  ids_perm : (ids s.resultMap).Perm order
  nodup : order.Nodup
  visited_of_mem : ∀ c ∈ order, c ∈ s.visited
  of_visited : ∀ c ∈ s.visited, c ∈ order ∨
    ∃ t, Member p order t ∧ InRange p t c ∧ p.isValidChainTarget t c = false
  of_targets : ∀ c ∈ s.targets, Member p order c
  chained : Chained p (InRange p) s.resultMap order
  head_eq : p.backtracking = false → s.targets.head? = some (order.headD p.caster)
  length_eq : p.backtracking = false →
    s.targets.length + p.maxTargets.toNat = order.length + s.maxTargets.toNat
  attempts_eq : p.backtracking = false → s.backtrackingAttempts = 10

theorem inv_start (p : Pick γ) (hmax : p.maxTargets.toNat < 255) : ∃ order, Inv p order (start p) := by
  have hnext : (p.maxTargets + 1).toNat = p.maxTargets.toNat + 1 := by
    rw [UInt8.toNat_add, UInt8.toNat_one]
    omega
  have hcaster (h : ∀ c, p.initialTarget = some c → c = p.caster) :
      Inv p [] ⟨[p.caster], [], [], p.maxTargets + 1, 10⟩ :=
    ⟨List.Perm.refl _, List.nodup_nil, nofun, nofun, fun c hc => .inl ⟨List.mem_singleton.1 hc, h⟩, trivial,
      fun _ => rfl, fun _ => by rw [hnext, List.length_singleton, List.length_nil]; omega, fun _ => rfl⟩
  rw [start]
  cases hinitial : p.initialTarget with
  | none => exact ⟨[], hcaster (by rw [hinitial]; exact nofun)⟩
  | some t =>
    simp only
    split_ifs with ht
    · refine ⟨[t], List.Perm.refl _, List.nodup_singleton t, fun c hc => hc, fun c hc => .inl hc,
        fun c hc => .inr hc, ⟨.inl ⟨rfl, hinitial, ht, ?_⟩, trivial⟩, fun _ => rfl, fun _ => rfl, fun _ => rfl⟩
      exact ⟨_, List.mem_singleton_self _, rfl, List.mem_singleton_self _⟩
    · refine ⟨[], hcaster fun c hc => ?_⟩
      rw [← Option.some.inj (hinitial.symm.trans hc)]
      exact not_not.1 ht

omit [DecidableEq γ] in
theorem Inv.extend {order : List γ} {s : State γ} (h : Inv p order s) {t c : γ} (ht : t ∈ s.targets)
    {visited : List γ} (hvisited : ∀ a, a ∈ visited → a ∈ s.visited ∨
      (InRange p t a ∧ p.isValidChainTarget t a = false)) (hkeeps : ∀ a ∈ s.visited, a ∈ visited)
    (hrange : InRange p t c) (hnew : c ∉ s.visited) (hvalid : p.isValidChainTarget t c = true) :
    Inv p (c :: order) (extend p s t c visited) := by
  have horder (a : γ) (ha : Member p order a) : Member p (c :: order) a :=
    ha.imp id (List.mem_cons_of_mem _)
  refine ⟨(ids_push _ _ _).trans (h.ids_perm.cons c), ?_, ?_, ?_, ?_, ?_, fun _ => rfl, ?_, h.attempts_eq⟩
  · exact List.nodup_cons.2 ⟨fun hc => hnew (h.visited_of_mem c hc), h.nodup⟩
  · rintro a ha
    obtain rfl | ha := List.mem_cons.1 ha
    · exact List.mem_cons_self
    · exact List.mem_cons_of_mem _ (hkeeps a (h.visited_of_mem a ha))
  · rintro a ha
    obtain rfl | ha := List.mem_cons.1 ha
    · exact .inl List.mem_cons_self
    · obtain ha | ⟨ha, hinvalid⟩ := hvisited a ha
      · obtain ha | ⟨b, hb, hfrom⟩ := h.of_visited a ha
        · exact .inl (List.mem_cons_of_mem _ ha)
        · exact .inr ⟨b, horder b hb, hfrom⟩
      · exact .inr ⟨t, horder t (h.of_targets t ht), ha, hinvalid⟩
  · rintro a ha
    obtain rfl | ha := List.mem_cons.1 ha
    · exact .inr List.mem_cons_self
    · exact horder a (h.of_targets a ha)
  · exact ⟨.inr ⟨t, h.of_targets t ht, hrange, hvalid, mem_push⟩, h.chained.push _ _⟩
  · intro hbacktracking
    have hlength := h.length_eq hbacktracking
    simp only [ChainTargets.extend, List.length_cons]
    omega

omit [DecidableEq γ] in
theorem Inv.backtrack {order : List γ} {s : State γ} (h : Inv p order s) {t : γ} {rest : List γ}
    (ht : s.targets = t :: rest) {visited : List γ} (hvisited : ∀ a, a ∈ visited → a ∈ s.visited ∨
      (InRange p t a ∧ p.isValidChainTarget t a = false)) (hkeeps : ∀ a ∈ s.visited, a ∈ visited)
    (hbacktracking : p.backtracking = true) : Inv p order (backtrack s rest visited) := by
  have hno : p.backtracking ≠ false := by simp [hbacktracking]
  have hcurrent := h.of_targets t (by rw [ht]; exact List.mem_cons_self)
  refine ⟨h.ids_perm, h.nodup, fun a ha => hkeeps a (h.visited_of_mem a ha), fun a ha => ?_,
    fun a ha => h.of_targets a (by rw [ht]; exact List.mem_cons_of_mem _ ha), h.chained,
    fun h => absurd h hno, fun h => absurd h hno, fun h => absurd h hno⟩
  obtain ha | ⟨ha, hinvalid⟩ := hvisited a ha
  · exact h.of_visited a ha
  · exact .inr ⟨t, hcurrent, ha, hinvalid⟩

/-- The creatures that are not visited, and the attempts that are left. -/
def remaining (U : Finset γ) (s : State γ) : ℕ :=
  (U.filter (· ∉ s.visited)).card + s.backtrackingAttempts

theorem remaining_lt {U : Finset γ} {s s' : State γ} (hkeeps : ∀ a ∈ s.visited, a ∈ s'.visited)
    {c : γ} (hU : c ∈ U) (hnew : c ∉ s.visited) (hc : c ∈ s'.visited)
    (hattempts : s'.backtrackingAttempts = s.backtrackingAttempts) : remaining U s' < remaining U s := by
  rw [remaining, remaining, hattempts]
  refine Nat.add_lt_add_right (Finset.card_lt_card ?_) _
  refine Finset.ssubset_iff_of_subset (fun a ha => ?_) |>.2 ⟨c, ?_, ?_⟩
  · obtain ⟨haU, ha⟩ := Finset.mem_filter.1 ha
    exact Finset.mem_filter.2 ⟨haU, fun h => ha (hkeeps a h)⟩
  · exact Finset.mem_filter.2 ⟨hU, hnew⟩
  · exact fun h => (Finset.mem_filter.1 h).2 hc

theorem remaining_backtrack {U : Finset γ} {s : State γ} {rest visited : List γ}
    (hkeeps : ∀ a ∈ s.visited, a ∈ visited) (hattempts : 0 < s.backtrackingAttempts) :
    remaining U (backtrack s rest visited) < remaining U s := by
  have hle : (U.filter (· ∉ visited)).card ≤ (U.filter (· ∉ s.visited)).card := by
    refine Finset.card_le_card fun a ha => ?_
    obtain ⟨haU, ha⟩ := Finset.mem_filter.1 ha
    exact Finset.mem_filter.2 ⟨haU, fun h => ha (hkeeps a h)⟩
  exact add_lt_add_of_le_of_lt hle (Nat.sub_lt hattempts one_pos)

/-- A state from which the loop does not go on. -/
theorem loop_of_stop {order : List γ} {s : State γ} (h : Inv p order s) (hstop : s.targets = [] ∨ ¬Continues s) :
    (∀ fuel, 0 < fuel → loop p fuel s = some s) ∧
      (p.backtracking = false → ¬order.length ≤ p.maxTargets.toNat) := by
  constructor
  · rintro (_ | fuel) hfuel
    · exact absurd hfuel (lt_irrefl 0)
    · rw [loop]
      split
      · rfl
      · next t rest ht =>
        rw [if_neg (hstop.resolve_left (by simp [ht]))]
  · intro hbacktracking hle
    have hhead := h.head_eq hbacktracking
    have hlength := h.length_eq hbacktracking
    have hattempts := h.attempts_eq hbacktracking
    refine hstop.elim (fun hempty => by simp [hempty] at hhead) fun hno => hno ⟨by omega, by omega⟩

/-- A round of the loop. -/
theorem loop_round {s : State γ} {t : γ} {rest : List γ} (ht : s.targets = t :: rest) (hgo : Continues s)
    (fuel : ℕ) : loop p (fuel + 1) s =
      match (scan p s.visited t).closest with
      | some (closest, _) => loop p fuel (extend p s t closest (scan p s.visited t).visited)
      | none =>
        if p.backtracking then loop p fuel (backtrack s rest (scan p s.visited t).visited)
        else some { s with visited := (scan p s.visited t).visited } := by
  rw [loop]
  split
  · next hempty => exact absurd (hempty.symm.trans ht) (List.cons_ne_nil t rest).symm
  · next t' rest' ht' =>
    obtain ⟨rfl, rfl⟩ := List.cons.inj (ht.symm.trans ht')
    rw [if_pos hgo]

/-- **The loop ends**, with every fuel that is large enough, and without backtracking it ends early
only where no creature is left. -/
theorem loop_ends {isPlayer : γ → Bool} (hw : CreatureMap.WellFormed isPlayer p.w) {U : Finset γ}
    (hU : ∀ c, p.w.creatures c ≠ none → c ∈ U) (n : ℕ) {order : List γ} {s : State γ} (h : Inv p order s)
    (hn : remaining U s ≤ n) : ∃ order' s', (∀ fuel, n < fuel → loop p fuel s = some s') ∧ Inv p order' s' ∧
      (p.backtracking = false → order'.length ≤ p.maxTargets.toNat → Exhausted p order') := by
  induction n generalizing order s with
  | zero =>
    have hstop : ¬Continues s := fun hgo => by
      have hattempts := hgo.2
      rw [remaining] at hn
      omega
    obtain ⟨hloop, hfull⟩ := loop_of_stop h (.inr hstop)
    exact ⟨order, s, hloop, h, fun hb hle => absurd hle (hfull hb)⟩
  | succ n ih =>
    by_cases hstop : s.targets = [] ∨ ¬Continues s
    · obtain ⟨hloop, hfull⟩ := loop_of_stop h hstop
      exact ⟨order, s, fun fuel hfuel => hloop fuel (by omega), h, fun hb hle => absurd hle (hfull hb)⟩
    · obtain ⟨hne, hgo⟩ := not_or.1 hstop
      obtain ⟨t, rest, ht⟩ := List.exists_cons_of_ne_nil hne
      have hgo := not_not.1 hgo
      have hscan := scanned p s.visited t
      have hkeeps : ∀ a ∈ s.visited, a ∈ (scan p s.visited t).visited := fun a ha =>
        (hscan.mem_visited a).2 (.inl ha)
      have hvisited : ∀ a, a ∈ (scan p s.visited t).visited → a ∈ s.visited ∨
          (InRange p t a ∧ p.isValidChainTarget t a = false) := fun a ha =>
        ((hscan.mem_visited a).1 ha).imp id fun ha => ⟨(mem_spectators hw).1 ha.1, ha.2⟩
      have hround := loop_round (p := p) ht hgo
      cases hclosest : (scan p s.visited t).closest with
      | some closest =>
        obtain ⟨c, d⟩ := closest
        obtain ⟨hspectator, hnew, hvalid⟩ := hscan.of_closest c d hclosest
        have hrange := (mem_spectators hw).1 hspectator
        have hcU : c ∈ U := by
          obtain ⟨q, hq, -⟩ := hrange
          exact hU c (by rw [hq]; exact Option.some_ne_none q)
        have hnext := h.extend (by rw [ht]; exact List.mem_cons_self) hvisited hkeeps hrange hnew hvalid
        have hlt : remaining U (extend p s t c (scan p s.visited t).visited) < remaining U s :=
          remaining_lt (fun a ha => List.mem_cons_of_mem _ (hkeeps a ha)) hcU hnew List.mem_cons_self rfl
        obtain ⟨order', s', hloop, hrest⟩ := ih hnext (by omega)
        refine ⟨order', s', fun fuel hfuel => ?_, hrest⟩
        obtain ⟨fuel, rfl⟩ := Nat.exists_eq_add_of_lt (Nat.zero_lt_of_lt hfuel)
        rw [zero_add, hround, hclosest]
        exact hloop fuel (by omega)
      | none =>
        cases hbacktracking : p.backtracking with
        | true =>
          have hnext := h.backtrack ht hvisited hkeeps hbacktracking
          have hlt : remaining U (backtrack s rest (scan p s.visited t).visited) < remaining U s :=
            remaining_backtrack hkeeps hgo.2
          obtain ⟨order', s', hloop, hrest⟩ := ih hnext (by omega)
          refine ⟨order', s', fun fuel hfuel => ?_, ?_⟩
          · obtain ⟨fuel, rfl⟩ := Nat.exists_eq_add_of_lt (Nat.zero_lt_of_lt hfuel)
            rw [zero_add, hround, hclosest]
            simp only [hbacktracking, if_true]
            exact hloop fuel (by omega)
          · rw [hbacktracking] at hrest
            exact hrest
        | false =>
          -- the chain ends, since no spectator is left
          have hhead := h.head_eq hbacktracking
          rw [ht] at hhead
          have hlast : t = order.headD p.caster := Option.some.inj hhead
          have hcurrent := h.of_targets t (by rw [ht]; exact List.mem_cons_self)
          refine ⟨order, { s with visited := (scan p s.visited t).visited }, fun fuel hfuel => ?_, ?_, ?_⟩
          · obtain ⟨fuel, rfl⟩ := Nat.exists_eq_add_of_lt (Nat.zero_lt_of_lt hfuel)
            rw [zero_add, hround, hclosest]
            simp only [hbacktracking, Bool.false_eq_true, if_false]
          · refine { h with visited_of_mem := fun a ha => hkeeps a (h.visited_of_mem a ha), of_visited := ?_ }
            rintro a ha
            obtain ha | ⟨ha, hinvalid⟩ := hvisited a ha
            · exact h.of_visited a ha
            · exact .inr ⟨t, hcurrent, ha, hinvalid⟩
          · rintro - - a ha
            rw [← hlast] at ha ⊢
            obtain ha' | hinvalid := hscan.of_none hclosest a ((mem_spectators hw).2 ha)
            · exact (h.of_visited a ha').imp id .inr
            · exact .inr (.inl hinvalid)

/-! ## What is picked -/

/-- **What `pickChainTargets` picks**: distinct creatures, each the initial one or listed under the
position of a creature before it or the caster, from which it is valid and in range, until no
creature is left. -/
structure Picks (p : Pick γ) (resultMap : ResultMap γ) : Prop where
  nodup : (ids resultMap).Nodup
  chained : ∃ order, order.Perm (ids resultMap) ∧ Chained p (InRange p) resultMap order ∧
    (p.backtracking = false → order.length < p.maxTargets.toNat → Exhausted p order)
  not_caster : (∀ t, p.isValidChainTarget t p.caster = false) → p.caster ∉ ids resultMap

omit [DecidableEq γ] in
theorem Chained.valid {near : γ → γ → Prop} {resultMap : ResultMap γ} {order : List γ}
    (h : Chained p near resultMap order) {c : γ} (hc : c ∈ order) : c ≠ p.caster ∨ ∃ t, p.isValidChainTarget t c = true := by
  induction order with
  | nil => exact absurd hc List.not_mem_nil
  | cons a before ih =>
    obtain rfl | hc := List.mem_cons.1 hc
    · obtain ⟨-, -, hne, -⟩ | ⟨t, -, -, hvalid, -⟩ := h.1
      · exact .inl hne
      · exact .inr ⟨t, hvalid⟩
    · exact ih h.2 hc

/-- The end of a call. -/
theorem pickChainTargets_ends {isPlayer : γ → Bool} {steps : List (CreatureMap.Step γ)}
    (hw : p.w = CreatureMap.run isPlayer steps) (hmax : p.maxTargets.toNat < 255) :
    ∃ n order s, (∀ fuel, n < fuel → pickChainTargets p fuel = some s.resultMap) ∧ Inv p order s ∧
      (p.backtracking = false → order.length ≤ p.maxTargets.toNat → Exhausted p order) := by
  have hwf : CreatureMap.WellFormed isPlayer p.w := by
    rw [hw]
    exact CreatureMap.wellFormed_run isPlayer steps
  obtain ⟨U, hU⟩ := exists_creatures isPlayer steps
  rw [← hw] at hU
  obtain ⟨order, hstart⟩ := inv_start p hmax
  obtain ⟨order', s', hloop, hinv, hexhausted⟩ := loop_ends hwf hU (remaining U (start p)) hstart le_rfl
  refine ⟨remaining U (start p), order', s', fun fuel hfuel => ?_, hinv, hexhausted⟩
  rw [pickChainTargets, hloop fuel hfuel]
  rfl

omit [DecidableEq γ] in
theorem Inv.picks {order : List γ} {s : State γ} (h : Inv p order s)
    (hexhausted : p.backtracking = false → order.length ≤ p.maxTargets.toNat → Exhausted p order) :
    Picks p s.resultMap where
  nodup := h.ids_perm.nodup_iff.2 h.nodup
  chained := ⟨order, h.ids_perm.symm, h.chained, fun hb hlt => hexhausted hb hlt.le⟩
  not_caster hinvalid hcaster := by
    obtain hne | ⟨t, hvalid⟩ := h.chained.valid (h.ids_perm.mem_iff.1 hcaster)
    · exact hne rfl
    · rw [hinvalid t] at hvalid
      exact Bool.false_ne_true hvalid

/-- The targets that a chain should have: the caster is none of them, there are at most
`maxTargets`, each is within the distance of the chain, and without backtracking no creature that is
valid from the last one is left. -/
structure PicksBounded (p : Pick γ) (resultMap : ResultMap γ) : Prop where
  nodup : (ids resultMap).Nodup
  not_caster : p.caster ∉ ids resultMap
  length_le : (ids resultMap).length ≤ p.maxTargets.toNat
  chained : ∃ order, order.Perm (ids resultMap) ∧ Chained p (Within p) resultMap order ∧
    (p.backtracking = false → order.length < p.maxTargets.toNat → ∀ c, InRange p (order.headD p.caster) c →
      c ∈ order ∨ p.isValidChainTarget (order.headD p.caster) c = false)

/-- What a call returns with enough fuel. -/
def Returns (p : Pick γ) (resultMap : ResultMap γ) : Prop :=
  ∃ n, ∀ fuel, n < fuel → pickChainTargets p fuel = some resultMap

theorem Returns.ends {isPlayer : γ → Bool} {steps : List (CreatureMap.Step γ)}
    {resultMap : ResultMap γ} (h : Returns p resultMap) (hw : p.w = CreatureMap.run isPlayer steps)
    (hmax : p.maxTargets.toNat < 255) : ∃ order, (ids resultMap).Perm order ∧ order.Nodup ∧
      (p.backtracking = false → order.length ≤ p.maxTargets.toNat → Exhausted p order) := by
  obtain ⟨n, hn⟩ := h
  obtain ⟨m, order, s, hm, hinv, hexhausted⟩ := pickChainTargets_ends hw hmax
  have heq := (hn (n + m + 1) (by omega)).symm.trans (hm (n + m + 1) (by omega))
  rw [Option.some.inj heq]
  exact ⟨order, hinv.ids_perm, hinv.nodup, hexhausted⟩

/-! ## How many -/

/-- What bounds the list: each of the ten attempts at backtracking makes room for one more
target. -/
structure Bounded (p : Pick γ) (s : State γ) : Prop where
  spent : (ids s.resultMap).length + s.maxTargets.toNat + s.backtrackingAttempts ≤
    p.maxTargets.toNat + s.targets.length + 10
  length_le : (ids s.resultMap).length ≤ p.maxTargets.toNat + if p.backtracking then 10 else 1
  attempts : p.backtracking = false → s.backtrackingAttempts = 10

theorem bounded_start (p : Pick γ) : Bounded p (start p) := by
  have hone : 1 ≤ if p.backtracking then 10 else 1 := by split <;> decide
  -- the limit starts again from 0 if it overflows
  have hnext : (p.maxTargets + 1).toNat ≤ p.maxTargets.toNat + 1 := by
    rw [UInt8.toNat_add]
    exact Nat.mod_le _ _
  have hcaster : Bounded p ⟨[p.caster], [], [], p.maxTargets + 1, 10⟩ := by
    refine ⟨?_, Nat.zero_le _, fun _ => rfl⟩
    simp only [ids, List.flatMap_nil, List.length_nil, List.length_singleton]
    omega
  unfold start
  split
  · split_ifs
    · exact ⟨by simp [ids, Nat.add_comm], by simp [ids]; omega, fun _ => rfl⟩
    · exact hcaster
  · exact hcaster

omit [DecidableEq γ] in
theorem Bounded.extend {s : State γ} (h : Bounded p s) (hgo : Continues s) (t c : γ) (visited : List γ) :
    Bounded p (extend p s t c visited) := by
  have hspent := h.spent
  have hlength := (ids_push (getPosition p t) c s.resultMap).length_eq
  obtain ⟨htargets, hattempts⟩ := hgo
  refine ⟨?_, ?_, h.attempts⟩
  · simp only [ChainTargets.extend, hlength, List.length_cons]
    omega
  · simp only [ChainTargets.extend, hlength, List.length_cons]
    cases hb : p.backtracking with
    | true =>
      simp only [if_true]
      omega
    | false =>
      have hten := h.attempts hb
      simp only [Bool.false_eq_true, if_false]
      omega

omit [DecidableEq γ] in
theorem Bounded.backtrack {s : State γ} (h : Bounded p s) (hgo : Continues s) {t : γ} {rest : List γ}
    (ht : s.targets = t :: rest) (hb : p.backtracking = true) (visited : List γ) :
    Bounded p (backtrack s rest visited) := by
  have hspent := h.spent
  have hattempts := hgo.2
  refine ⟨?_, h.length_le, fun hno => absurd (hb.symm.trans hno) (by decide)⟩
  rw [ht, List.length_cons] at hspent
  simp only [ChainTargets.backtrack]
  omega

theorem Bounded.loop {fuel : ℕ} {s s' : State γ} (h : Bounded p s) (hloop : loop p fuel s = some s') :
    Bounded p s' := by
  induction fuel generalizing s with
  | zero => exact nomatch hloop
  | succ fuel ih =>
    unfold ChainTargets.loop at hloop
    split at hloop
    · exact Option.some.inj hloop ▸ h
    next t rest ht =>
    split at hloop
    · next hgo =>
      split at hloop
      · exact ih (h.extend hgo _ _ _) hloop
      · split at hloop
        · next hb => exact ih (h.backtrack hgo ht hb _) hloop
        · obtain rfl := Option.some.inj hloop
          exact ⟨h.spent, h.length_le, h.attempts⟩
    · exact Option.some.inj hloop ▸ h

/-- **No call** lists more than one target above the limit, or ten with backtracking, whatever is
valid. -/
theorem length_pickChainTargets_le (p : Pick γ) (fuel : ℕ) : (ids ((pickChainTargets p fuel).getD [])).length ≤
    p.maxTargets.toNat + if p.backtracking then 10 else 1 := by
  rw [pickChainTargets]
  cases hloop : loop p fuel (start p) with
  | none => exact Nat.zero_le _
  | some s => exact ((bounded_start p).loop hloop).length_le

end Rounds

/-! ## Chains of three -/

/-- A caster and two other creatures. -/
inductive Fighter where
  | caster
  | left
  | right
  deriving DecidableEq

instance : Fintype Fighter := ⟨{.caster, .left, .right}, fun c => by cases c <;> decide⟩

/-- Two creatures next to each other, away from the caster. -/
def place : Fighter → Position
  | .caster => ⟨100, 100, 7⟩
  | .left => ⟨105, 100, 7⟩
  | .right => ⟨105, 101, 7⟩

/-- The creatures are placed. -/
def arena : List (CreatureMap.Step Fighter) :=
  [.setTile (place .caster), .placeCreature .caster (place .caster), .setTile (place .left),
    .placeCreature .left (place .left), .setTile (place .right), .placeCreature .right (place .right)]

/-- A chain among them, without backtracking. -/
def brawl (isValid : Fighter → Fighter → Bool) (chainDistance maxTargets : UInt8)
    (initialTarget : Option Fighter) : Pick Fighter where
  w := CreatureMap.run (fun _ => true) arena
  caster := .caster
  isValidChainTarget := isValid
  chainDistance := chainDistance
  maxTargets := maxTargets
  backtracking := false
  initialTarget := initialTarget

theorem creatures_arena (c : Fighter) : (CreatureMap.run (fun _ => true) arena).creatures c = some (place c) := by
  cases c <;> decide

section Brawl

variable {isValid : Fighter → Fighter → Bool} {chainDistance maxTargets : UInt8}
  {initialTarget : Option Fighter}

theorem getPosition_brawl (c : Fighter) :
    getPosition (brawl isValid chainDistance maxTargets initialTarget) c = place c := by
  rw [getPosition, brawl, creatures_arena]
  rfl

theorem inRange_brawl (h : 5 ≤ reach (brawl isValid chainDistance maxTargets initialTarget)) (t c : Fighter) :
    InRange (brawl isValid chainDistance maxTargets initialTarget) t c := by
  have hnear : (place c).z = (place t).z ∧ |((place c).x.toNat : ℤ) - (place t).x.toNat| ≤ 5 ∧
      |((place c).y.toNat : ℤ) - (place t).y.toNat| ≤ 5 := by
    cases t <;> cases c <;> decide
  refine ⟨place c, creatures_arena c, ?_⟩
  rw [getPosition_brawl]
  exact ⟨hnear.1, hnear.2.1.trans h, hnear.2.2.trans h⟩

end Brawl

/-- Everybody but the caster is valid. -/
def others (_ c : Fighter) : Bool := decide (c ≠ .caster)

theorem ends_brawl {isValid : Fighter → Fighter → Bool} {chainDistance maxTargets : UInt8}
    {initialTarget : Option Fighter} {resultMap : ResultMap Fighter}
    (h : Returns (brawl isValid chainDistance maxTargets initialTarget) resultMap)
    (hmax : maxTargets.toNat < 255) : ∃ order, (ids resultMap).Perm order ∧ order.Nodup ∧
      (order.length ≤ maxTargets.toNat →
        Exhausted (brawl isValid chainDistance maxTargets initialTarget) order) := by
  have hw : (brawl isValid chainDistance maxTargets initialTarget).w =
      CreatureMap.run (fun _ => true) arena := rfl
  obtain ⟨order, hperm, hnodup, hexhausted⟩ := h.ends hw hmax
  exact ⟨order, hperm, hnodup, hexhausted rfl⟩

theorem length_le_three {order : List Fighter} (h : order.Nodup) : order.length ≤ 3 :=
  h.length_le_card

/-- A caster that is valid is listed. -/
theorem caster_listed {resultMap : ResultMap Fighter}
    (h : Returns (brawl (fun _ _ => true) 8 254 (some .left)) resultMap) : Fighter.caster ∈ ids resultMap := by
  obtain ⟨order, hperm, hnodup, hexhausted⟩ := ends_brawl h (by decide)
  have hlength := length_le_three hnodup
  have hend := hexhausted (hlength.trans (by decide))
  obtain hc | hinvalid | ⟨t, -, -, hinvalid⟩ := hend .caster (inRange_brawl (by decide) _ _)
  · exact hperm.mem_iff.2 hc
  · exact absurd hinvalid Bool.noConfusion
  · exact absurd hinvalid Bool.noConfusion

/-- Without a limit both of the others are listed. -/
theorem others_listed {chainDistance maxTargets : UInt8} {order : List Fighter}
    (hreach : 5 ≤ reach (brawl others chainDistance maxTargets none))
    (h : Exhausted (brawl others chainDistance maxTargets none) order)
    {c : Fighter} (hc : c ≠ .caster) : c ∈ order := by
  have hvalid (t : Fighter) : (brawl others chainDistance maxTargets
      none).isValidChainTarget t c = true := decide_eq_true hc
  obtain hmem | hinvalid | ⟨t, -, -, hinvalid⟩ := h c (inRange_brawl hreach _ _)
  · exact hmem
  · exact absurd (hinvalid.symm.trans (hvalid _)) Bool.noConfusion
  · exact absurd (hinvalid.symm.trans (hvalid _)) Bool.noConfusion

/-- With a limit of 1 two creatures are listed. -/
theorem two_listed {resultMap : ResultMap Fighter} (h : Returns (brawl others 8 1 none) resultMap) :
    1 < (ids resultMap).length := by
  obtain ⟨order, hperm, hnodup, hexhausted⟩ := ends_brawl h (by decide)
  rw [hperm.length_eq]
  by_contra hone
  have hend := hexhausted (not_lt.1 hone)
  have hleft := others_listed (by decide) hend (c := .left) (by decide)
  have hright := others_listed (by decide) hend (c := .right) (by decide)
  obtain ⟨a, rfl⟩ := List.length_eq_one_iff.1 (le_antisymm (not_lt.1 hone) (List.length_pos_of_mem hleft))
  rw [List.mem_singleton] at hleft hright
  exact absurd (hleft.trans hright.symm) (by decide)

theorem Chained.exists_first {p : Pick Fighter} {near : Fighter → Fighter → Prop}
    {resultMap : ResultMap Fighter} {order : List Fighter} (h : Chained p near resultMap order)
    (hne : order ≠ []) : ∃ c, IsInitial p resultMap c ∨ ListedFrom p near resultMap p.caster c := by
  induction order with
  | nil => exact absurd rfl hne
  | cons c before ih =>
    cases before with
    | nil =>
      obtain ⟨-, hinitial⟩ | ⟨t, ⟨rfl, -⟩ | ht, hlisted⟩ := h.1
      · exact ⟨c, .inl hinitial⟩
      · exact ⟨c, .inr hlisted⟩
      · exact absurd ht List.not_mem_nil
    | cons d before => exact ih h.2 (List.cons_ne_nil d before)

/-- With a distance of 0 a creature is listed that is not at the place of the caster. -/
theorem not_picksBounded_viewPort {resultMap : ResultMap Fighter} (h : Returns (brawl others 0 5 none) resultMap) :
    ¬PicksBounded (brawl others 0 5 none) resultMap := by
  intro hbounded
  obtain ⟨order, hperm, hnodup, hexhausted⟩ := ends_brawl h (by decide)
  have hlength := length_le_three hnodup
  have hleft := others_listed (by decide) (hexhausted (hlength.trans (by decide))) (c := .left) (by decide)
  obtain ⟨order', hperm', hchained, -⟩ := hbounded.chained
  have hleft' := (hperm'.trans hperm).mem_iff.2 hleft
  obtain ⟨c, ⟨hinitial, -⟩ | ⟨⟨q, hq, -, hx, -⟩, hvalid, -⟩⟩ :=
    hchained.exists_first (List.ne_nil_of_mem hleft')
  · exact absurd hinitial (Option.some_ne_none c).symm
  · obtain rfl := Option.some.inj ((creatures_arena c).symm.trans hq)
    rw [getPosition_brawl] at hx
    cases c with
    | caster => exact absurd hvalid (by decide)
    | left => exact absurd hx (by decide)
    | right => exact absurd hx (by decide)

/-- The right one is valid from the left one only, and the left one from the caster only. -/
def inTurn (t c : Fighter) : Bool := decide ((t = .caster ∧ c = .left) ∨ (t = .left ∧ c = .right))

/-- A creature that is not valid from the caster is not looked at again. -/
theorem ids_inTurn {resultMap : ResultMap Fighter} (h : Returns (brawl inTurn 8 5 none) resultMap) :
    ids resultMap = [.left] := by
  obtain ⟨n, hn⟩ := h
  have hpick := hn (n + 1 + 1) (by omega)
  have hwf : CreatureMap.WellFormed (fun _ => true) (brawl inTurn 8 5 none).w :=
    CreatureMap.wellFormed_run _ arena
  have hmem (t c : Fighter) : c ∈ spectators (brawl inTurn 8 5 none) t :=
    (mem_spectators hwf).2 (inRange_brawl (by decide) t c)
  -- the first round finds the left one, and visits the right one
  have hfirst := scanned (brawl inTurn 8 5 none) [] .caster
  have hclosest : ∃ d, (scan (brawl inTurn 8 5 none) [] .caster).closest = some (.left, d) := by
    cases hclosest : (scan (brawl inTurn 8 5 none) [] .caster).closest with
    | none =>
      obtain hvisited | hinvalid := hfirst.of_none hclosest .left (hmem _ _)
      · exact absurd hvisited List.not_mem_nil
      · exact absurd hinvalid (by decide)
    | some closest =>
      obtain ⟨c, d⟩ := closest
      have hvalid := (hfirst.of_closest c d hclosest).2.2
      have hc : c = .left := by
        cases c with
        | left => rfl
        | caster => exact absurd hvalid (by decide)
        | right => exact absurd hvalid (by decide)
      exact ⟨d, by rw [hc]⟩
  have hright : Fighter.right ∈ (scan (brawl inTurn 8 5 none) [] .caster).visited :=
    (hfirst.mem_visited _).2 (.inr ⟨hmem _ _, by decide⟩)
  generalize hvisited : (scan (brawl inTurn 8 5 none) [] .caster).visited = visited at hright
  -- the second round finds nothing
  have hsecond := scanned (brawl inTurn 8 5 none) (.left :: visited) .left
  have hnone : (scan (brawl inTurn 8 5 none) (.left :: visited) .left).closest = none := by
    cases hclosest : (scan (brawl inTurn 8 5 none) (.left :: visited) .left).closest with
    | none => rfl
    | some closest =>
      obtain ⟨c, d⟩ := closest
      obtain ⟨-, hnew, hvalid⟩ := hsecond.of_closest c d hclosest
      cases c with
      | left => exact absurd List.mem_cons_self hnew
      | caster => exact absurd hvalid (by decide)
      | right => exact absurd (List.mem_cons_of_mem _ hright) hnew
  obtain ⟨d, hclosest⟩ := hclosest
  have hstart : start (brawl inTurn 8 5 none) = ⟨[.caster], [], [], 6, 10⟩ := rfl
  have hend : (loop (brawl inTurn 8 5 none) (n + 1) (extend (brawl inTurn 8 5 none) ⟨[.caster], [], [], 6, 10⟩
      .caster .left visited)).map (fun s => ids s.resultMap) = some [.left] := by
    have hscan : (scan (brawl inTurn 8 5 none) (extend (brawl inTurn 8 5 none) ⟨[.caster], [], [], 6, 10⟩
        .caster .left visited).visited .left).closest = none := hnone
    have hgo : Continues (extend (brawl inTurn 8 5 none) ⟨[.caster], [], [], 6, 10⟩ .caster .left visited) :=
      ⟨(by decide : 2 ≤ 6), (by decide : 0 < 10)⟩
    have htargets : (extend (brawl inTurn 8 5 none) ⟨[.caster], [], [], 6, 10⟩ .caster .left visited).targets =
      Fighter.left :: [Fighter.caster] := rfl
    rw [loop_round htargets hgo, hscan]
    rfl
  rw [pickChainTargets, hstart, loop_round rfl (by decide), hclosest] at hpick
  simp only [hvisited] at hpick
  obtain ⟨s, hs, rfl⟩ := Option.map_eq_some_iff.1 hpick
  rw [hs] at hend
  exact Option.some.inj hend

/-- The chain stops although the right one is valid from the left one. -/
theorem not_picksBounded_inTurn {resultMap : ResultMap Fighter} (h : Returns (brawl inTurn 8 5 none) resultMap) :
    ¬PicksBounded (brawl inTurn 8 5 none) resultMap := by
  intro hbounded
  obtain ⟨order, hperm, -, hstop⟩ := hbounded.chained
  rw [ids_inTurn h] at hperm
  obtain rfl := List.perm_singleton.1 hperm
  obtain hmem | hinvalid := hstop rfl (by decide) .right (inRange_brawl (by decide) _ _)
  · exact absurd hmem (by decide)
  · exact absurd hinvalid (by decide)

end TiabloServer.ChainTargets
