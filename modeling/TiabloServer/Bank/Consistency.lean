import TiabloServer.Bank.Bank
import TiabloServer.Items.AddFrame

/-!
# Runs of moves, additions and payments

`Game::internalMoveItem`, `Game::internalAddItem` of a new item, `Game::addMoney` and
`Game::removeMoney` (`game/game.cpp`), one after the other. Whatever they are asked for, and whether
they succeed or not, no item comes to lie in two places or twice in one, and the parent of each item
is where it lies.

## Main definitions

* `Consistency.Consistent` — a world whose items and parents agree.
* `Consistency.Step` — what is done to the world.

## Main results

* `Consistency.run_consistent` — a consistent world stays so in every run.
-/

namespace TiabloServer.Consistency

open Items ReturnValue

variable {cfg : Config} {types : ItemTypes} {w w' : World}

/-- Every item lies in one place at most, and once there, and its parent is that place. -/
structure Consistent (types : ItemTypes) (w : World) : Prop where
  wf : w.WF types
  linked : w.Linked

/-- An item as `Item::CreateItem` makes it: a container is empty and no stack. -/
structure NewItem (types : ItemTypes) where
  item : Item
  empty : ∀ c ∈ item.container, c.itemlist = []
  stack : item.isStackable types = true → item.container = none

/-- What is done to the world; `balance` is what the account of the player has when he pays. -/
inductive Step (types : ItemTypes) where
  | internalMoveItem (a : MoveArgs)
  | internalAddItem (new : NewItem types) (toCylinder : Cylinder) (index : ℤ) (flags : ℕ)
  | addMoney (p money flags : ℕ)
  | removeMoney (p money flags : ℕ) (useBalance : Bool) (balance : ℕ)

def step (cfg : Config) (w : World) : Step cfg.types → World
  | .internalMoveItem a => (Items.internalMoveItem cfg a w).1
  | .internalAddItem new toCylinder index flags =>
    (Items.internalAddItem cfg (w.create new.item) toCylinder w.size index flags false).1
  | .addMoney p money flags => Items.addMoney cfg w p money flags
  | .removeMoney p money flags useBalance balance =>
    (Items.removeMoney cfg w p money flags useBalance balance).2.1

/-! ## New items -/

/-- A new item lies nowhere. -/
theorem nowhere_create (hw : w.WF types) (new : NewItem types) (d : Cylinder) :
    w.size ∉ (w.create new.item).contents d := fun hd =>
  (hw.live d _ (hw.contents_create_empty new.empty d ▸ hd)).false

theorem Consistent.create (h : Consistent types w) (new : NewItem types) :
    Consistent types (w.create new.item) := by
  refine ⟨h.wf.create_empty new.empty new.stack, fun c y hy => ?_⟩
  rw [h.wf.contents_create_empty new.empty] at hy
  rw [w.items_create_of_ne _ (h.wf.live c y hy).ne]
  exact h.linked c y hy

/-! ## Operations -/

/-- An addition of an item that lies nowhere. -/
theorem Consistent.internalAddItem (h : Consistent cfg.types w) {x : ℕ} (hx : ∀ d, x ∉ w.contents d)
    (hlive : x < w.size) (c : Cylinder) (index : ℤ) (flags : ℕ) :
    Consistent cfg.types (internalAddItem cfg w c x index flags false).1 := by
  refine addRounds_induction (D := fun _ => True)
    (P := fun w w' => Consistent cfg.types w → Consistent cfg.types w') (fun _ => id)
    (fun h h' => h' ∘ h) (fun w i hw hi h => ⟨hw.create hi, h.linked.create hw hi⟩)
    (fun w d y n hw _ hstack h => ?_) (fun w d index x hw _ hx hlive h => ?_) _ h.wf hx hlive trivial
    (fun _ _ _ _ => trivial) h
  · exact ⟨(updateThing_restacked hw hstack n).wf, h.linked.updateThing d y _ n⟩
  · exact ⟨hw.addThing d index hx hlive, h.linked.addThing hw hx hlive d index⟩

/-- A stack of coins goes to the player or, where he does not take it, to his tile. -/
theorem Consistent.addCoins (h : Consistent cfg.types w) (p flags : ℕ) (coins : ℕ × ℕ) :
    Consistent cfg.types (addCoins cfg w p flags coins) := by
  let new : NewItem cfg.types := ⟨createStack cfg.types coins.1 coins.2, nofun, fun _ => rfl⟩
  have hnew : Consistent cfg.types (w.create new.item) := h.create new
  have hnowhere := nowhere_create h.wf new
  have hlive : w.size < (w.create new.item).size := Nat.lt_succ_self _
  unfold Items.addCoins
  dsimp only
  split_ifs with hret
  · -- the player has refused the coins, and nothing has changed
    have hsame : (Items.internalAddItem cfg (w.create new.item) (.player p) w.size INDEX_WHEREEVER flags
        false).1 = w.create new.item := by
      rw [Items.internalAddItem, addRounds_ret] at hret
      rw [Items.internalAddItem, addRounds_refused hret]
    rw [hsame]
    split
    · exact hnew
    · exact hnew.internalAddItem hnowhere hlive _ _ _
  · exact hnew.internalAddItem hnowhere hlive _ _ _

theorem Consistent.addMoney (h : Consistent cfg.types w) (p money flags : ℕ) :
    Consistent cfg.types (addMoney cfg w p money flags) := by
  unfold Items.addMoney
  induction coinStacks money generalizing w with
  | nil => exact h
  | cons coins l ih => exact ih (h.addCoins p flags coins)

theorem Consistent.internalRemoveItem (h : Consistent cfg.types w) (x count : ℕ) :
    Consistent cfg.types (internalRemoveItem cfg w x count) := by
  unfold Items.internalRemoveItem
  split
  · exact h
  · split_ifs
    · exact h
    · exact ⟨h.wf.removeThing _ x count, h.linked.removeThing h.wf _ x count⟩

/-- The loop of `removeMoney`, also where it ends before all is paid. -/
theorem Consistent.removeCoins (h : Consistent cfg.types w) (p flags money : ℕ) (map : List (ℕ × ℕ)) :
    Consistent cfg.types (removeCoins cfg p flags w money map).1 := by
  induction map generalizing w money with
  | nil => exact h
  | cons e map ih =>
    obtain ⟨total, item⟩ := e
    unfold Items.removeCoins
    split_ifs
    · exact ih (h.internalRemoveItem item _) _
    · exact (h.addMoney p _ flags).internalRemoveItem item _
    · exact h.internalRemoveItem item _

theorem Consistent.removeMoney (h : Consistent cfg.types w) (p money flags : ℕ) (useBalance : Bool)
    (balance : ℕ) : Consistent cfg.types (removeMoney cfg w p money flags useBalance balance).2.1 := by
  have hloop := h.removeCoins p flags money (moneyMap w p)
  unfold Items.removeMoney
  dsimp only
  by_cases hzero : money = 0
  · rw [if_pos hzero]
    exact h
  rw [if_neg hzero]
  generalize Items.removeCoins cfg p flags w money (moneyMap w p) = r at hloop ⊢
  obtain ⟨w', rest⟩ := r
  generalize (((moneyMap w p).map Prod.fst).sum % 2 ^ 64 + _) % 2 ^ 64 = carried
  split
  · exact h
  · cases rest <;> exact hloop

/-! ## Runs -/

theorem Consistent.step (h : Consistent cfg.types w) (a : Step cfg.types) :
    Consistent cfg.types (step cfg w a) := by
  cases a with
  | internalMoveItem a => exact ⟨h.wf.internalMoveItem a, h.linked.internalMoveItem cfg h.wf a⟩
  | internalAddItem new c index flags =>
    exact (h.create new).internalAddItem (nowhere_create h.wf new) (Nat.lt_succ_self _) c index flags
  | addMoney p money flags => exact h.addMoney p money flags
  | removeMoney p money flags useBalance balance => exact h.removeMoney p money flags useBalance balance

/-- **A consistent world stays so in every run**: no item is in two places, and each is where its
parent says. -/
theorem run_consistent (cfg : Config) (h : Consistent cfg.types w) (steps : List (Step cfg.types)) :
    Consistent cfg.types (Runs.run (step cfg) w steps) :=
  Runs.invariant_of_step (Consistency.step cfg) (fun _ a h => h.step a) h steps

/-- Three gold pieces are handed out, and two of them paid. -/
theorem run_consistent_vault :
    Consistent Bank.vaultTypes (Runs.run (step (plainConfig Bank.vaultTypes)) Bank.vault.world
      [.addMoney 0 3 0, .removeMoney 0 2 0 true 0]) :=
  run_consistent (plainConfig Bank.vaultTypes) ⟨Bank.vault_wf.wf, Bank.vault_wf.linked⟩ _

end TiabloServer.Consistency
