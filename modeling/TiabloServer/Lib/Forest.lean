import Mathlib

/-!
# Totals in a forest

A forest of nodes, each with at most one parent and a list of children. Every node has a value of
its own, and keeps the total of the values below it. When a value changes, the difference is added
to the totals of all nodes above; this file says that this keeps the totals right.

## Main definitions

* `Forest.Balanced` — the total of a node is the sum of the values and totals of its children.
* `Forest.below` — the nodes below a node.

## Main results

* `Forest.balanced_push` — totals stay right when a difference is added along a chain.
* `Forest.Ranked.raise` — no node is above itself after a root has been put below another node.
* `Forest.total_eq_below` — a total is the sum of the values of all nodes below.
-/

namespace Forest

variable {N M : Type*} {parent parent' : N → Option N} {children : N → List N} {r : N → ℕ}

/-! ## Chains -/

/-- A node and the nodes above it, at most `fuel` of them. -/
def chain (parent : N → Option N) : ℕ → N → List N
  | 0, _ => []
  | fuel + 1, n => n :: (parent n).elim [] (chain parent fuel)

/-- The nodes above a node end after at most `fuel` of them. -/
def Rooted (parent : N → Option N) : ℕ → N → Prop
  | 0, _ => False
  | fuel + 1, n => ∀ p, parent n = some p → Rooted parent fuel p

/-- No node is above itself: ranks grow from a node to its parent. -/
def Ranked (parent : N → Option N) (r : N → ℕ) : Prop :=
  ∀ x p, parent x = some p → r x < r p

theorem chain_of_none {fuel : ℕ} {n : N} (h : parent n = none) : chain parent (fuel + 1) n = [n] := by
  simp [chain, h]

theorem chain_of_some {fuel : ℕ} {n p : N} (h : parent n = some p) :
    chain parent (fuel + 1) n = n :: chain parent fuel p := by
  simp [chain, h]

/-- What is in a chain is its first node or of higher rank. -/
theorem Ranked.lt_of_mem_chain (hr : Ranked parent r) {fuel : ℕ} {n m : N}
    (h : m ∈ chain parent fuel n) : m = n ∨ r n < r m := by
  induction fuel generalizing n with
  | zero => exact nomatch h
  | succ fuel ih =>
    cases hp : parent n with
    | none =>
      rw [chain_of_none hp] at h
      exact Or.inl (List.mem_singleton.1 h)
    | some p =>
      rw [chain_of_some hp] at h
      rcases List.mem_cons.1 h with h | h
      · exact Or.inl h
      · rcases ih h with rfl | hlt
        · exact Or.inr (hr n m hp)
        · exact Or.inr ((hr n p hp).trans hlt)

/-- No node is above itself. -/
theorem Ranked.notMem_chain (hr : Ranked parent r) {fuel : ℕ} {n p : N} (hp : parent n = some p) :
    n ∉ chain parent fuel p := by
  intro h
  have hlt := hr n p hp
  rcases hr.lt_of_mem_chain h with rfl | hlt'
  · exact lt_irrefl _ hlt
  · exact lt_asymm hlt hlt'

theorem Ranked.nodup_chain (hr : Ranked parent r) (fuel : ℕ) (n : N) : (chain parent fuel n).Nodup := by
  induction fuel generalizing n with
  | zero => exact List.nodup_nil
  | succ fuel ih =>
    cases hp : parent n with
    | none =>
      rw [chain_of_none hp]
      exact List.nodup_singleton n
    | some p =>
      rw [chain_of_some hp]
      exact List.nodup_cons.2 ⟨hr.notMem_chain hp, ih p⟩

theorem mem_chain_self {fuel : ℕ} {n : N} (h : Rooted parent fuel n) : n ∈ chain parent fuel n := by
  cases fuel with
  | zero => exact h.elim
  | succ fuel => exact List.mem_cons_self

/-- What is in a chain is its first node or a parent. -/
theorem eq_or_parent_of_mem_chain {fuel : ℕ} {n m : N} (hm : m ∈ chain parent fuel n) :
    m = n ∨ ∃ x, parent x = some m := by
  induction fuel generalizing n with
  | zero => exact nomatch hm
  | succ fuel ih =>
    cases hp : parent n with
    | none =>
      rw [chain_of_none hp] at hm
      exact Or.inl (List.mem_singleton.1 hm)
    | some p =>
      rw [chain_of_some hp] at hm
      rcases List.mem_cons.1 hm with hm | hm
      · exact Or.inl hm
      · rcases ih hm with rfl | hparent
        · exact Or.inr ⟨n, hp⟩
        · exact Or.inr hparent

/-- A chain that ends at a root has the parent of each of its nodes. -/
theorem parent_mem_chain {fuel : ℕ} {n m p : N} (h : Rooted parent fuel n)
    (hm : m ∈ chain parent fuel n) (hp : parent m = some p) : p ∈ chain parent fuel n := by
  induction fuel generalizing n with
  | zero => exact h.elim
  | succ fuel ih =>
    cases hn : parent n with
    | none =>
      rw [chain_of_none hn] at hm
      obtain rfl := List.mem_singleton.1 hm
      exact nomatch hn.symm.trans hp
    | some q =>
      rw [chain_of_some hn] at hm ⊢
      rcases List.mem_cons.1 hm with rfl | hm
      · obtain rfl := Option.some.inj (hn.symm.trans hp)
        exact List.mem_cons_of_mem m (mem_chain_self (h q hn))
      · exact List.mem_cons_of_mem n (ih (h q hn) hm)

/-- A chain only depends on the parents of its nodes. -/
theorem chain_congr {fuel : ℕ} {n : N} (h : ∀ m ∈ chain parent fuel n, parent' m = parent m) :
    chain parent' fuel n = chain parent fuel n := by
  induction fuel generalizing n with
  | zero => rfl
  | succ fuel ih =>
    have hn := h n List.mem_cons_self
    cases hp : parent n with
    | none => rw [chain_of_none hp, chain_of_none (hn.trans hp)]
    | some p =>
      rw [chain_of_some hp] at h ⊢
      rw [chain_of_some (hn.trans hp), ih fun m hm => h m (List.mem_cons_of_mem n hm)]

/-- Whether a chain ends at a root only depends on the parents of its nodes. -/
theorem rooted_congr {fuel : ℕ} {n : N} (h : ∀ m ∈ chain parent fuel n, parent' m = parent m)
    (hn : Rooted parent fuel n) : Rooted parent' fuel n := by
  induction fuel generalizing n with
  | zero => exact hn
  | succ fuel ih =>
    intro p hp
    rw [h n List.mem_cons_self] at hp
    rw [chain_of_some hp] at h
    exact ih (fun m hm => h m (List.mem_cons_of_mem n hm)) (hn p hp)

/-- A chain that does not end at a root uses up its fuel. -/
theorem length_chain {fuel : ℕ} {n : N} (h : ¬ Rooted parent fuel n) : (chain parent fuel n).length = fuel := by
  induction fuel generalizing n with
  | zero => rfl
  | succ fuel ih =>
    simp only [Rooted, not_forall] at h
    obtain ⟨p, hp, hnot⟩ := h
    rw [chain_of_some hp, List.length_cons, ih hnot]

/-- **Every chain ends at a root** when there are fewer nodes than fuel. -/
theorem Ranked.rooted (hr : Ranked parent r) {S : Finset N} {fuel : ℕ} (hfuel : S.card < fuel)
    (hS : ∀ x p, parent x = some p → p ∈ S) {n : N} (hn : n ∈ S) : Rooted parent fuel n := by
  classical
  by_contra hnot
  have hsub : ∀ fuel n, n ∈ S → ∀ m ∈ chain parent fuel n, m ∈ S := by
    intro fuel
    induction fuel with
    | zero => exact fun _ _ _ hm => nomatch hm
    | succ fuel ih =>
      intro n hn m hm
      cases hp : parent n with
      | none =>
        rw [chain_of_none hp] at hm
        exact List.mem_singleton.1 hm ▸ hn
      | some p =>
        rw [chain_of_some hp] at hm
        rcases List.mem_cons.1 hm with rfl | hm
        · exact hn
        · exact ih p (hS n p hp) m hm
  have hcard : (chain parent fuel n).toFinset.card ≤ S.card :=
    Finset.card_le_card fun m hm => hsub fuel n hn m (List.mem_toFinset.1 hm)
  rw [List.toFinset_card_of_nodup (hr.nodup_chain fuel n), length_chain hnot] at hcard
  omega

/-- More fuel does not make a chain longer that ends at a root. -/
theorem chain_succ {fuel : ℕ} {n : N} (h : Rooted parent fuel n) :
    chain parent (fuel + 1) n = chain parent fuel n := by
  induction fuel generalizing n with
  | zero => exact h.elim
  | succ fuel ih =>
    cases hp : parent n with
    | none => rw [chain_of_none hp, chain_of_none hp]
    | some p => rw [chain_of_some hp, chain_of_some hp, ih (h p hp)]

/-- What is above the parent is above the child. -/
theorem mem_chain_of_parent {fuel : ℕ} {x n m : N} (hp : parent x = some n)
    (hx : Rooted parent fuel x) (hm : m ∈ chain parent fuel n) : m ∈ chain parent fuel x := by
  rw [← chain_succ hx, chain_of_some hp]
  exact List.mem_cons_of_mem x hm

/-- Ranks still grow when parents have been taken away. -/
theorem Ranked.detach (hr : Ranked parent r) (h : ∀ x p, parent' x = some p → parent x = some p) :
    Ranked parent' r :=
  fun x p hp => hr x p (h x p hp)

/-- **No node is above itself** after a root has been put below a node that is not below it. -/
theorem Ranked.raise [DecidableEq N] (hr : Ranked parent r) {fuel : ℕ} {c x : N}
    (hrooted : Rooted parent fuel c) (hx : x ∉ chain parent fuel c)
    (hparent : ∀ y, parent' y = if y = x then some c else parent y) :
    Ranked parent' fun n => r n + if n ∈ chain parent fuel c then r x + 1 else 0 := by
  intro y p hy
  rw [hparent] at hy
  dsimp only
  split_ifs at hy with hyx
  · obtain rfl := Option.some.inj hy
    subst hyx
    rw [if_neg hx, if_pos (mem_chain_self hrooted)]
    omega
  · have hlt := hr y p hy
    by_cases hmem : y ∈ chain parent fuel c
    · rw [if_pos hmem, if_pos (parent_mem_chain hrooted hmem hy)]
      omega
    · rw [if_neg hmem]
      omega

/-! ## Totals -/

/-- Parents and children agree, and no node is twice among the children of another. -/
structure Links (parent : N → Option N) (children : N → List N) : Prop where
  mem_iff : ∀ x n, x ∈ children n ↔ parent x = some n
  nodup : ∀ n, (children n).Nodup

/-- Parents and children agree after a root has been put below a node. -/
theorem Links.attach [DecidableEq N] {children' : N → List N} (h : Links parent children) {c x : N}
    (hx : parent x = none) (hparent : ∀ y, parent' y = if y = x then some c else parent y)
    (hc : (children' c).Perm (x :: children c)) (hn : ∀ n, n ≠ c → children' n = children n) :
    Links parent' children' := by
  have hnot : ∀ n, x ∉ children n := by
    intro n hmem
    exact nomatch hx.symm.trans ((h.mem_iff x n).1 hmem)
  constructor
  · intro y n
    rw [hparent]
    by_cases hnc : n = c
    · subst hnc
      rw [hc.mem_iff, List.mem_cons, h.mem_iff]
      by_cases hyx : y = x
      · simp [hyx]
      · simp [hyx]
    · rw [hn n hnc, h.mem_iff]
      by_cases hyx : y = x
      · subst hyx
        simp [hx, Ne.symm hnc]
      · simp [hyx]
  · intro n
    by_cases hnc : n = c
    · subst hnc
      exact hc.nodup_iff.2 (List.nodup_cons.2 ⟨hnot n, h.nodup n⟩)
    · rw [hn n hnc]
      exact h.nodup n

/-- Parents and children agree after a node has been taken from its parent. -/
theorem Links.detach [DecidableEq N] {children' : N → List N} (h : Links parent children) {c x : N}
    (hx : parent x = some c) (hparent : ∀ y, parent' y = if y = x then none else parent y)
    (hc : children' c = (children c).erase x) (hn : ∀ n, n ≠ c → children' n = children n) :
    Links parent' children' := by
  constructor
  · intro y n
    rw [hparent]
    by_cases hnc : n = c
    · subst hnc
      rw [hc, (h.nodup n).mem_erase_iff, h.mem_iff]
      by_cases hyx : y = x
      · simp [hyx]
      · simp [hyx]
    · rw [hn n hnc, h.mem_iff]
      by_cases hyx : y = x
      · subst hyx
        simp [hx, Ne.symm hnc]
      · simp [hyx]
  · intro n
    by_cases hnc : n = c
    · subst hnc
      rw [hc]
      exact (h.nodup n).erase x
    · rw [hn n hnc]
      exact h.nodup n

section Totals

variable [AddCommGroup M] {own own' total total' : N → M}

/-- The total of a node is the sum of the values and totals of its children. -/
def Balanced (children : N → List N) (own total : N → M) (n : N) : Prop :=
  total n = ((children n).map fun x => own x + total x).sum

/-- Of a list without repetitions a value counts once. -/
theorem sum_ite_eq [DecidableEq N] {l : List N} (hl : l.Nodup) (c : N) (δ : M) :
    (l.map fun x => if x = c then δ else 0).sum = if c ∈ l then δ else 0 := by
  rw [List.sum_map_ite_eq l (fun _ => δ) (fun _ => 0) c, hl.count]
  split_ifs <;> simp

/-- Exactly one child of each node of a chain is in the chain, apart from the first node, which has
none. -/
theorem sum_children_chain [DecidableEq N] (hlinks : Links parent children)
    (hr : Ranked parent r) {fuel : ℕ} {c : N} (hrooted : Rooted parent fuel c) (n : N) (δ : M) :
    ((children n).map fun x => if x ∈ chain parent fuel c then δ else 0).sum =
      if n ∈ chain parent fuel c ∧ n ≠ c then δ else 0 := by
  induction fuel generalizing c with
  | zero => exact hrooted.elim
  | succ fuel ih =>
    have hself := sum_ite_eq (hlinks.nodup n) c δ
    cases hp : parent c with
    | none =>
      have hnot : c ∉ children n := by
        rw [hlinks.mem_iff, hp]
        exact nofun
      rw [if_neg hnot] at hself
      simp only [chain_of_none hp, List.mem_singleton, hself]
      rw [if_neg fun h => h.2 h.1]
    | some p =>
      have hcp : c ∉ chain parent fuel p := hr.notMem_chain hp
      have hsplit : ∀ x, (if x ∈ chain parent (fuel + 1) c then δ else 0) =
          (if x = c then δ else 0) + if x ∈ chain parent fuel p then δ else 0 := by
        intro x
        rw [chain_of_some hp]
        by_cases hxc : x = c
        · subst hxc
          simp [hcp]
        · simp [hxc]
      have hmem : c ∈ children n ↔ p = n := by
        rw [hlinks.mem_iff, hp, Option.some.injEq]
      simp only [hsplit, List.sum_map_add, hself, ih (hrooted p hp), hmem]
      rw [chain_of_some hp]
      by_cases hnp : p = n
      · subst hnp
        have hne : p ≠ c := by
          rintro rfl
          exact hcp (mem_chain_self (hrooted p hp))
        simp [mem_chain_self (hrooted p hp), hne]
      · have hne : n ∈ chain parent fuel p → n ≠ c := by
          rintro h rfl
          exact hcp h
        by_cases hn : n ∈ chain parent fuel p
        · simp [hnp, hn, hne hn, Ne.symm hnp]
        · by_cases hnc : n = c
          · subst hnc
            simp [hnp, hn]
          · simp [hnp, hn, hnc]

/-- **Totals stay right** when a node's children come to weigh `δ` more and `δ` is added to its
total and to all totals above. -/
theorem balanced_push [DecidableEq N] (hlinks : Links parent children) (hr : Ranked parent r)
    {fuel : ℕ} {c : N} (hrooted : Rooted parent fuel c) {δ : M}
    (htotal : ∀ n, total' n = total n + if n ∈ chain parent fuel c then δ else 0)
    (hc : ((children c).map fun x => own x + total x).sum = total c + δ)
    {n : N} (hn : n ≠ c → Balanced children own total n) : Balanced children own total' n := by
  have hsum : ((children n).map fun x => own x + total' x).sum =
      ((children n).map fun x => own x + total x).sum +
        if n ∈ chain parent fuel c ∧ n ≠ c then δ else 0 := by
    rw [← sum_children_chain hlinks hr hrooted, ← List.sum_map_add]
    simp only [htotal, add_assoc]
  rw [Balanced, hsum, htotal]
  by_cases hnc : n = c
  · subst hnc
    simp [mem_chain_self hrooted, hc]
  · rw [hn hnc]
    simp [hnc]

end Totals

/-! ## Below a node -/

/-- The nodes below a node, at most `fuel` levels of them. -/
def below (children : N → List N) : ℕ → N → List N
  | 0, _ => []
  | fuel + 1, n => (children n).flatMap fun x => x :: below children fuel x

/-- A total is the sum of the values of all nodes below, when ranks are bounded by the fuel. -/
theorem total_eq_below_of_le [AddCommGroup M] {own total : N → M} (hlinks : Links parent children)
    (hr : Ranked parent r) (hbalanced : ∀ n, Balanced children own total n) {fuel : ℕ} {n : N}
    (hn : r n ≤ fuel) : total n = ((below children fuel n).map own).sum := by
  induction fuel generalizing n with
  | zero =>
    have hnone : children n = [] := by
      refine List.eq_nil_iff_forall_not_mem.2 fun x hx => ?_
      have hlt := hr x n ((hlinks.mem_iff x n).1 hx)
      omega
    rw [hbalanced n, hnone]
    rfl
  | succ fuel ih =>
    have hflat : ∀ l : List N, (∀ x ∈ l, r x ≤ fuel) →
        (l.map fun x => own x + total x).sum =
          ((l.flatMap fun x => x :: below children fuel x).map own).sum := by
      intro l
      induction l with
      | nil => exact fun _ => rfl
      | cons x l ih' =>
        intro hl
        rw [List.map_cons, List.sum_cons, ih' fun y hy => hl y (List.mem_cons_of_mem x hy),
          List.flatMap_cons, List.map_append, List.sum_append, List.map_cons, List.sum_cons,
          ih (hl x List.mem_cons_self)]
    rw [hbalanced n, below]
    refine hflat _ fun x hx => ?_
    have hlt := hr x n ((hlinks.mem_iff x n).1 hx)
    omega

/-- In a finite forest ranks can be chosen no higher than the number of nodes that have a parent:
the rank of a node is the number of nodes below it. -/
theorem Ranked.exists_le (hr : Ranked parent r) {S : Finset N} {fuel : ℕ}
    (hrooted : ∀ n ∈ S, Rooted parent fuel n) (hS : ∀ x p, parent x = some p → x ∈ S) :
    ∃ r' : N → ℕ, Ranked parent r' ∧ ∀ n, r' n ≤ S.card := by
  classical
  refine ⟨fun n => (S.filter fun x => n ∈ chain parent fuel x ∧ x ≠ n).card, fun y p hy => ?_,
    fun n => Finset.card_filter_le _ _⟩
  have hyS := hS y p hy
  refine Finset.card_lt_card (Finset.ssubset_iff_of_subset (fun x hx => ?_) |>.2 ⟨y, ?_, ?_⟩)
  · obtain ⟨hxS, hmem, hxy⟩ := Finset.mem_filter.1 hx
    refine Finset.mem_filter.2 ⟨hxS, parent_mem_chain (hrooted x hxS) hmem hy, ?_⟩
    rintro rfl
    rcases hr.lt_of_mem_chain hmem with h | h
    · exact hxy h.symm
    · exact lt_asymm h (hr y x hy)
  · refine Finset.mem_filter.2 ⟨hyS, parent_mem_chain (hrooted y hyS)
      (mem_chain_self (hrooted y hyS)) hy, ?_⟩
    rintro rfl
    exact lt_irrefl _ (hr y y hy)
  · exact fun h => (Finset.mem_filter.1 h).2.2 rfl

/-- **A total is the sum of the values of all nodes below.** -/
theorem total_eq_below [AddCommGroup M] {own total : N → M} (hlinks : Links parent children)
    (hr : Ranked parent r) (hbalanced : ∀ n, Balanced children own total n) {S : Finset N}
    (hS : ∀ x p, parent x = some p → x ∈ S ∧ p ∈ S) (n : N) :
    total n = ((below children S.card n).map own).sum := by
  obtain ⟨r', hr', hle⟩ := hr.exists_le
    (fun n hn => hr.rooted (Nat.lt_succ_self _) (fun x p h => (hS x p h).2) hn)
    fun x p h => (hS x p h).1
  exact total_eq_below_of_le hlinks hr' hbalanced (hle n)

end Forest
