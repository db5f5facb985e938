import TiabloServer.Items.Holding
import TiabloServer.Items.Move

/-!
# Destinations

Where `queryDestination` leads. Asked with no index in particular it stays in the tree of the
cylinder, but for a floor change; on a tile it names the item on top of the stack there.

## Main results

* `Items.queryDestination_within` — the destination lies in the tree.
* `Items.destination_tile` — the item at a destination that is a tile.
-/

namespace TiabloServer.Items

variable {cfg : Config} {w : World}

/-! ## The tree of an inventory -/

/-- A container leads to a container. -/
theorem Container.queryDestination_item (cfg : Config) (w : World) (n : ℕ) (index : ℤ) (x : ℕ)
    (destItem : Option ℕ) (flags : ℕ) :
    ∃ m, (Container.queryDestination cfg w n index x destItem flags).cylinder = .item m := by
  unfold Container.queryDestination
  cases (w.items n).container with
  | none => exact ⟨n, rfl⟩
  | some k =>
    dsimp only
    by_cases hlocked : ¬ k.unlocked
    · exact ⟨n, by rw [if_pos hlocked]⟩
    by_cases hup : index = 254
    · rw [if_neg hlocked, if_pos hup]
      split
      · exact ⟨_, rfl⟩
      · exact ⟨n, rfl⟩
    · rw [if_neg hlocked, if_neg hup]
      split
      · exact ⟨_, rfl⟩
      · by_cases hstack : ¬ hasBitSet FLAG_IGNOREAUTOSTACK flags ∧
            (w.items x).isStackable cfg.types ∧ (w.items x).parent ≠ some (.item n)
        · rw [if_pos hstack]
          refine ⟨n, ?_⟩
          split_ifs
          all_goals first
            | rfl
            | (split <;> rfl)
        · exact ⟨n, by rw [if_neg hstack]⟩

/-- The slots lead to the inventory, or to the containers on them. -/
theorem Player.findSlot_outcome (cfg : Config) {p : ℕ} (x flags : ℕ) (autoStack : Bool)
    {l containers : List ℕ} (hcontainers : ∀ y ∈ containers, y ∈ w.contents (.player p))
    (hl : ∀ i ∈ l, i ∈ slots) :
    match Player.findSlot cfg w p x flags autoStack containers l with
    | .inl d => d.cylinder = .player p
    | .inr cs => ∀ y ∈ cs, y ∈ w.contents (.player p) := by
  induction l generalizing containers with
  | nil => exact hcontainers
  | cons i l ih =>
    have hl' : ∀ j ∈ l, j ∈ slots := fun j hj => hl j (List.mem_cons_of_mem i hj)
    unfold Player.findSlot
    dsimp only
    cases hi : (w.players p).inventory i with
    | none =>
      dsimp only
      split_ifs
      · rfl
      · exact ih hcontainers hl'
    | some y =>
      dsimp only
      split_ifs
      · exact ih hcontainers hl'
      · rfl
      · refine ih (fun z hz => ?_) hl'
        rcases List.mem_append.1 hz with hz | hz
        · exact hcontainers z hz
        · obtain rfl := List.mem_singleton.1 hz
          exact w.mem_contents_player.2 ⟨i, hl i List.mem_cons_self, hi⟩
      · exact ih hcontainers hl'

/-- The search for a stack passes containers of its list. -/
theorem Player.findStack_containers {p x : ℕ} {l containers cs : List ℕ} {n m : ℕ}
    (h : Player.findStack cfg w p x n containers l = .inr (m, cs)) : ∀ y ∈ cs, y ∈ containers ∨ y ∈ l := by
  induction l generalizing n containers with
  | nil =>
    obtain ⟨rfl, rfl⟩ := Prod.mk.inj (Sum.inr.inj h)
    exact fun y hy => Or.inl hy
  | cons z l ih =>
    unfold Player.findStack at h
    intro y hy
    split_ifs at h
    · exact (ih h y hy).imp_right (List.mem_cons_of_mem z)
    · rcases ih h y hy with hy | hy
      · rcases List.mem_append.1 hy with hy | hy
        · exact Or.inl hy
        · exact Or.inr (List.mem_singleton.1 hy ▸ List.mem_cons_self)
      · exact Or.inr (List.mem_cons_of_mem z hy)
    · exact (ih h y hy).imp_right (List.mem_cons_of_mem z)

/-- The containers that the search goes through are held by the player. -/
theorem Player.findContainer_within {p x flags : ℕ} {autoStack : Bool} {index : ℤ} {fuel : ℕ}
    {containers : List ℕ} (h : ∀ c ∈ containers, Holds w {.player p} c) : Within w {.player p}
      (Player.findContainer cfg w p x flags autoStack index fuel containers).cylinder := by
  induction fuel generalizing containers with
  | zero => exact Or.inl rfl
  | succ fuel ih =>
    cases containers with
    | nil => exact Or.inl rfl
    | cons c containers =>
      have hc : Holds w {.player p} c := h c List.mem_cons_self
      have hcs : ∀ y ∈ containers, Holds w {.player p} y := fun y hy =>
        h y (List.mem_cons_of_mem c hy)
      have hin : ∀ y ∈ w.itemlist c, Holds w {.player p} y := fun y hy => .nested hc hy
      unfold Player.findContainer
      dsimp only
      by_cases hplace : ¬ (autoStack ∧ (w.items x).isStackable cfg.types)
      · rw [if_pos hplace]
        split
        · exact Or.inr ⟨c, hc, rfl⟩
        · refine ih fun y hy => ?_
          rcases List.mem_append.1 hy with hy | hy
          · exact hcs y hy
          · exact hin y (List.mem_of_mem_filter hy)
      · rw [if_neg hplace]
        split
        · exact Or.inr ⟨c, hc, rfl⟩
        · rename_i hstack
          split_ifs
          · exact Or.inr ⟨c, hc, rfl⟩
          · refine ih fun y hy => ?_
            rcases Player.findStack_containers hstack y hy with hy | hy
            · exact hcs y hy
            · exact hin y hy

/-- Asked for no place in particular, a player leads to himself or to a container in his
inventory. -/
theorem Player.queryDestination_within (cfg : Config) (w : World) (p : ℕ) {index : ℤ}
    (hindex : index = 0 ∨ index = INDEX_WHEREEVER) (x : ℕ) (destItem : Option ℕ) (flags : ℕ) :
    Within w {.player p} (Player.queryDestination cfg w p index x destItem flags).cylinder := by
  unfold Player.queryDestination
  rw [if_pos hindex]
  dsimp only
  have hslots : ∀ i ∈ List.range' CONST_SLOT_FIRST (CONST_SLOT_AMMO + 1 - CONST_SLOT_FIRST),
      i ∈ slots := by decide
  have hnone : ∀ y ∈ ([] : List ℕ), y ∈ w.contents (.player p) := nofun
  have h := Player.findSlot_outcome cfg x flags (!hasBitSet FLAG_IGNOREAUTOSTACK flags) hnone hslots
  cases hd : Player.findSlot cfg w p x flags (!hasBitSet FLAG_IGNOREAUTOSTACK flags) []
      (List.range' CONST_SLOT_FIRST (CONST_SLOT_AMMO + 1 - CONST_SLOT_FIRST)) with
  | inl d =>
    rw [hd] at h
    exact Or.inl h
  | inr cs =>
    rw [hd] at h
    exact Player.findContainer_within fun c hc => holds_of_mem rfl (h c hc)

/-- A player leads to himself or to an item. -/
theorem Player.queryDestination_cylinder (cfg : Config) (w : World) (p : ℕ) (index : ℤ) (x : ℕ)
    (destItem : Option ℕ) (flags : ℕ) :
    (Player.queryDestination cfg w p index x destItem flags).cylinder = .player p ∨
      ∃ m, (Player.queryDestination cfg w p index x destItem flags).cylinder = .item m := by
  by_cases hindex : index = 0 ∨ index = INDEX_WHEREEVER
  · rcases Player.queryDestination_within cfg w p hindex x destItem flags with h | ⟨m, -, h⟩
    · exact Or.inl h
    · exact Or.inr ⟨m, h⟩
  · unfold Player.queryDestination
    rw [if_neg hindex]
    dsimp only
    split_ifs
    · exact Or.inl rfl
    · split
      · exact Or.inr ⟨_, rfl⟩
      · exact Or.inl rfl

/-! ## All cylinders -/

/-- A destination that is a tile comes with the item on top of the stack there. -/
theorem queryDestination_tile {c : Cylinder} {index : ℤ} {x : ℕ} {destItem : Option ℕ}
    {flags t : ℕ} (h : (queryDestination cfg w c index x destItem flags).cylinder = .tile t) :
    (queryDestination cfg w c index x destItem flags).destItem = (w.tiles t).downItems.head? := by
  cases c with
  | item n =>
    obtain ⟨m, hm⟩ := Container.queryDestination_item cfg w n index x destItem flags
    exact nomatch hm.symm.trans h
  | player p =>
    rcases Player.queryDestination_cylinder cfg w p index x destItem flags with
      hp | ⟨m, hm⟩
    · exact nomatch hp.symm.trans h
    · exact nomatch hm.symm.trans h
  | tile u =>
    obtain rfl : (w.tiles u).floorChange.getD u = t := Cylinder.tile.inj h
    rfl

/-- The item at the destination of a move, when that is a tile. -/
theorem destination_tile {a : MoveArgs} {t : ℕ} (h : (a.destination cfg w).cylinder = .tile t) :
    (a.destination cfg w).destItem = (w.tiles t).downItems.head? := by
  have hloop : ∀ (n : ℕ) (d : Destination),
      (resolveDestination cfg w a.item (n + 1) d).cylinder = .tile t →
        (resolveDestination cfg w a.item (n + 1) d).destItem = (w.tiles t).downItems.head? := by
    intro n
    induction n with
    | zero =>
      intro d hd
      simp only [resolveDestination] at hd ⊢
      split_ifs at hd ⊢ <;> exact queryDestination_tile hd
    | succ n ih =>
      intro d hd
      rw [resolveDestination] at hd ⊢
      split_ifs at hd ⊢
      · exact queryDestination_tile hd
      · exact ih _ hd
  exact hloop 15 _ h

/-- Asked for no place in particular, a container leads to itself. -/
theorem queryDestination_item_wherever (cfg : Config) (w : World) (n x flags : ℕ) :
    (queryDestination cfg w (.item n) INDEX_WHEREEVER x none flags).cylinder = .item n := by
  simp only [queryDestination, Container.queryDestination]
  cases (w.items n).container with
  | none => rfl
  | some k =>
    dsimp only
    have hup : INDEX_WHEREEVER ≠ 254 := by decide
    by_cases hlocked : ¬ k.unlocked
    · rw [if_pos hlocked]
    · simp only [if_neg hlocked, if_neg hup, ite_self, ne_eq, not_true_eq_false, false_and,
        decide_false, if_false]
      have hnone : ∀ o : Option ℕ, o.filter (fun _ => false) = none := by
        intro o
        cases o <;> rfl
      rw [hnone]
      dsimp only
      split_ifs
      all_goals first
        | rfl
        | (split <;> rfl)

/-- The cylinders whose trees an addition may reach: its destination, and where this leads to. -/
def addCylinders (cfg : Config) (w : World) (c : Cylinder) (index : ℤ) (x flags : ℕ) :
    Set Cylinder :=
  {c, (queryDestination cfg w c index x none flags).cylinder}

end TiabloServer.Items
