import TiabloServer.Items.Stacks

/-!
# Plans of moves

What `planMove` can answer: a refusal or a plan, in the world that it was asked in or in the one
after an exchange.

## Main definitions

* `Items.exchangedItem` — the item that the move exchanges, if it does.
* `Items.PlanOutcome` — a refusal, or a plan whose item may be removed.

## Main results

* `Items.planMove_of_none`, `Items.planMove_of_some` — the outcomes without and with an exchange.
-/

namespace TiabloServer.Items

open ReturnValue

variable {cfg : Config} {w : World} {a : MoveArgs}

/-- An item that may be removed lies in the cylinder, and no more of a stack than there is is
removed. -/
theorem of_queryRemove {c : Cylinder} {x n flags : ℕ} (h : queryRemove cfg w c x n flags = RETURNVALUE_NOERROR) :
    w.getThingIndex cfg.types c x ≠ -1 ∧ n ≠ 0 ∧
      ((w.items x).isStackable cfg.types = true → n ≤ (w.items x).getItemCount) := by
  unfold queryRemove at h
  by_cases h1 : w.getThingIndex cfg.types c x = -1
  · simp [h1] at h
  by_cases h2 : n = 0 ∨ (w.items x).isStackable cfg.types = true ∧ n > (w.items x).getItemCount
  · simp only [if_neg h1, if_pos h2] at h
    exact absurd h (by decide)
  obtain ⟨hn, hle⟩ := not_or.1 h2
  exact ⟨h1, hn, fun hs => not_lt.1 fun hlt => hle ⟨hs, hlt⟩⟩

/-- The item at the destination that the move exchanges with the source, if it comes to that. -/
def exchangedItem (cfg : Config) (a : MoveArgs) (w : World) : Option ℕ :=
  let d := a.destination cfg w
  if d.destItem = some a.item then none
  else if queryRemove cfg w a.fromCylinder a.item 1 d.flags ≠ RETURNVALUE_NOERROR then none
  else if queryAdd cfg w d.cylinder d.index a.item (a.moveCount cfg w d.cylinder) d.flags a.actor ≠
      RETURNVALUE_NEEDEXCHANGE then none
  else d.destItem.filter fun y => decide (checkExchange cfg a w d y = .exchange)

/-- What holds of a plan that the checks make in the world `w`. -/
structure Planned (cfg : Config) (a : MoveArgs) (w : World) (d : Destination) (p : MovePlan) :
    Prop where
  world : p.world = w
  cylinder : p.toCylinder = d.cylinder
  index : p.index = d.index
  item : p.toItem ≠ some a.item
  dest : ∀ y ∈ p.toItem, d.destItem = some y
  remove : queryRemove cfg w a.fromCylinder a.item p.m d.flags = RETURNVALUE_NOERROR
  part : p.ret ≠ RETURNVALUE_NOERROR → (w.items a.item).isStackable cfg.types = true
  trade : ∀ y ∈ a.tradeItem, .item y ∉ d.cylinder :: w.parents d.cylinder

/-- What the checks answer in the world `w`: they refuse the move, or plan it. -/
inductive PlanOutcome (cfg : Config) (a : MoveArgs) (w : World) (d : Destination) :
    World × ReturnValue ⊕ MovePlan → Prop
  | refused (ret : ReturnValue) (hret : d.destItem = some a.item ∨ ret ≠ RETURNVALUE_NOERROR) :
      PlanOutcome cfg a w d (.inl (w, ret))
  | planned (p : MovePlan) (h : Planned cfg a w d p) : PlanOutcome cfg a w d (.inr p)

theorem checkMove_outcome {d : Destination} {toItem : Option ℕ} {count : ℕ}
    (hitem : toItem ≠ some a.item) (hdest : ∀ y ∈ toItem, d.destItem = some y) :
    PlanOutcome cfg a w d (checkMove cfg a w d toItem count) := by
  unfold checkMove
  by_cases h1 : (queryMaxCount cfg w d.cylinder d.index a.item count d.flags).1 ≠
      RETURNVALUE_NOERROR ∧
      (queryMaxCount cfg w d.cylinder d.index a.item count d.flags).2 = 0
  · simpa only [if_pos h1] using .refused _ (Or.inr h1.1)
  by_cases h2 : queryRemove cfg w a.fromCylinder a.item (a.movedCount cfg w count
      (queryMaxCount cfg w d.cylinder d.index a.item count d.flags).2) d.flags ≠ RETURNVALUE_NOERROR
  · simpa only [if_neg h1, if_pos h2] using .refused _ (Or.inr h2)
  by_cases h3 : (a.tradeItem.any fun y => .item y ∈ d.cylinder :: w.parents d.cylinder) = true
  · simpa only [if_neg h1, if_neg h2, if_pos h3] using .refused _ (Or.inr nofun)
  · simp only [if_neg h1, if_neg h2, if_neg h3]
    refine .planned _ ⟨rfl, rfl, rfl, hitem, hdest, not_not.1 h2, fun hret => ?_, fun y hy hin => ?_⟩
    · by_contra hstack
      exact hret (if_neg fun h => hstack h.1)
    · rw [Option.mem_def.1 hy] at h3
      exact h3 (by simpa using hin)

theorem checkExchange_refuse {d : Destination} {y : ℕ} {ret : ReturnValue}
    (h : checkExchange cfg a w d y = .refuse ret) : ret ≠ RETURNVALUE_NOERROR := by
  unfold checkExchange at h
  dsimp only at h
  split_ifs at h with h1 h2
  · exact ExchangeCheck.refuse.inj h ▸ h1
  · exact ExchangeCheck.refuse.inj h ▸ h2.1

/-- Without an exchange the outcome is one in the world before. -/
theorem planMove_of_none (h : exchangedItem cfg a w = none) :
    PlanOutcome cfg a w (a.destination cfg w) (planMove cfg a w) := by
  unfold exchangedItem at h
  unfold planMove
  by_cases h1 : (a.destination cfg w).destItem = some a.item
  · simpa only [if_pos h1] using .refused _ (Or.inl h1)
  simp only [if_neg h1] at h ⊢
  by_cases h2 : queryRemove cfg w a.fromCylinder a.item 1 (a.destination cfg w).flags ≠
      RETURNVALUE_NOERROR
  · simpa only [if_pos h2] using .refused _ (Or.inr h2)
  simp only [if_neg h2] at h ⊢
  cases hto : (a.destination cfg w).destItem with
  | none =>
    dsimp only
    split_ifs with h3
    · exact .refused _ (Or.inr h3)
    · exact checkMove_outcome nofun nofun
  | some y =>
    dsimp only
    have hy : some y ≠ some a.item := hto ▸ h1
    have hdest : ∀ z ∈ some y, (a.destination cfg w).destItem = some z := fun z hz => hto.trans hz
    by_cases h3 : queryAdd cfg w (a.destination cfg w).cylinder (a.destination cfg w).index a.item
        (a.moveCount cfg w (a.destination cfg w).cylinder) (a.destination cfg w).flags a.actor =
        RETURNVALUE_NEEDEXCHANGE
    · simp only [if_neg (not_not.2 h3), hto] at h
      rw [if_pos h3]
      cases hc : checkExchange cfg a w (a.destination cfg w) y with
      | refuse ret => exact .refused _ (Or.inr (checkExchange_refuse hc))
      | skip => exact checkMove_outcome hy hdest
      | exchange => simp [hc] at h
    · rw [if_neg h3]
      split_ifs with h4
      · exact .refused _ (Or.inr h4)
      · exact checkMove_outcome hy hdest

theorem destItem_of_exchangedItem {y : ℕ} (h : exchangedItem cfg a w = some y) :
    (a.destination cfg w).destItem = some y := by
  unfold exchangedItem at h
  dsimp only at h
  split_ifs at h
  exact (Option.filter_eq_some_iff.1 h).1

/-- With an exchange the outcome is one in the world after it. -/
theorem planMove_of_some {y : ℕ} (h : exchangedItem cfg a w = some y) : y ≠ a.item ∧
      queryRemove cfg w a.fromCylinder a.item 1 (a.destination cfg w).flags = RETURNVALUE_NOERROR ∧
      queryRemove cfg w (a.destination cfg w).cylinder y (w.items y).getItemCount
        (a.destination cfg w).flags = RETURNVALUE_NOERROR ∧
      PlanOutcome cfg a (exchangeItem cfg a w (a.destination cfg w) y) (a.destination cfg w)
        (planMove cfg a w) := by
  unfold exchangedItem at h
  unfold planMove
  by_cases h1 : (a.destination cfg w).destItem = some a.item
  · simp [h1] at h
  simp only [if_neg h1] at h ⊢
  by_cases h2 : queryRemove cfg w a.fromCylinder a.item 1 (a.destination cfg w).flags ≠
      RETURNVALUE_NOERROR
  · simp [h2] at h
  simp only [if_neg h2] at h ⊢
  split_ifs at h with h3
  obtain ⟨hto, hcheck⟩ := Option.filter_eq_some_iff.1 h
  have hcheck' : checkExchange cfg a w (a.destination cfg w) y = .exchange := by simpa using hcheck
  have hremove : queryRemove cfg w (a.destination cfg w).cylinder y (w.items y).getItemCount
      (a.destination cfg w).flags = RETURNVALUE_NOERROR := by
    unfold checkExchange at hcheck'
    dsimp only at hcheck'
    split_ifs at hcheck' with h4 h5 h6
    exact not_not.1 h6
  refine ⟨fun e => h1 (e ▸ hto), not_not.1 h2, hremove, ?_⟩
  simp only [hto, if_pos (not_not.1 h3), hcheck']
  split_ifs with h4
  · exact .refused _ (Or.inr h4)
  · exact checkMove_outcome nofun nofun

/-! ## How much is moved -/

/-! ## What a transfer puts where -/

theorem mem_of_stackOnto {c d : Cylinder} {x m y : ℕ} {toItem : Option ℕ}
    (h : y ∈ (stackOnto cfg w c x toItem m).1.contents d) : y ∈ w.contents d := by
  unfold stackOnto at h
  split at h
  · exact h
  · exact mem_of_updateThing h

theorem size_stackOnto (cfg : Config) (w : World) (c : Cylinder) (x m : ℕ) (toItem : Option ℕ) :
    (stackOnto cfg w c x toItem m).1.size = w.size := by
  unfold stackOnto
  split
  · rfl
  · exact size_updateThing _ _ _ _ _

/-- A transfer puts nothing anywhere but its item and a new one. -/
theorem mem_of_transferItem {p : MovePlan} {d : Cylinder} {y : ℕ} (h : y ∈ (transferItem cfg a p).contents d) :
    y ∈ p.world.contents d ∨ y = a.item ∨ p.world.size ≤ y := by
  have hnone : ∀ w n, (newStack cfg.types w a.item n).container = none := fun w =>
    newStack_container cfg.types w a.item
  simp only [transferItem] at h
  split_ifs at h
  · rw [addClone] at h
    rcases mem_of_addThing h with h | rfl
    · exact Or.inl (mem_of_removeThing (mem_of_stackOnto (World.mem_of_create (hnone _ _) h)))
    · exact Or.inr (Or.inr (by simp [size_stackOnto]))
  · exact Or.inl (mem_of_removeThing (mem_of_stackOnto h))
  · rcases mem_of_addThing h with h | rfl
    · exact Or.inl (mem_of_removeThing h)
    · exact Or.inr (Or.inl rfl)

/-! ## Well-formed worlds -/

theorem nowhere_of_removed (hw : w.WF cfg.types) {c : Cylinder} {x k flags : ℕ}
    (hremove : queryRemove cfg w c x k flags = RETURNVALUE_NOERROR)
    (hk : (w.items x).isStackable cfg.types = false ∨ k = (w.items x).getItemCount) (d : Cylinder) :
    x ∉ (removeThing cfg.types w c x k).contents d := by
  obtain ⟨hindex, -, -⟩ := of_queryRemove hremove
  intro hd
  have htaken := removeThing_taken hw hindex (hk.imp_right Or.inl)
  exact ((htaken.mem d x).1 hd).2 rfl

theorem World.WF.exchangeItem (hw : w.WF cfg.types) {d : Destination} {y flags : ℕ}
    (hremove : queryRemove cfg w d.cylinder y (w.items y).getItemCount flags =
      RETURNVALUE_NOERROR) : (exchangeItem cfg a w d y).WF cfg.types := by
  have hlive : y < (Items.removeThing cfg.types w d.cylinder y (w.items y).getItemCount).size := by
    rw [size_removeThing]
    exact hw.live _ y (World.mem_contents_of_getThingIndex (of_queryRemove hremove).1)
  have hwf := hw.removeThing d.cylinder y (w.items y).getItemCount
  have hnowhere := nowhere_of_removed hw hremove (Or.inr rfl)
  unfold Items.exchangeItem addThingAnywhere
  cases a.fromCylinder with
  | item n => exact hwf.addThing (.item n) 0 hnowhere hlive
  | player p => exact hwf
  | tile t => exact hwf.addThing (.tile t) 0 hnowhere hlive

theorem World.WF.stackOnto (hw : w.WF cfg.types) {x : ℕ}
    (hstack : (w.items x).isStackable cfg.types = true) (c : Cylinder) (toItem : Option ℕ) (m : ℕ) :
    (stackOnto cfg w c x toItem m).1.WF cfg.types := by
  unfold Items.stackOnto
  cases hfilter : toItem.filter fun y => (w.items x).equals (w.items y) with
  | none => exact hw
  | some y =>
    obtain ⟨-, hequals⟩ := Option.filter_eq_some_iff.1 hfilter
    exact (updateThing_restacked hw (Item.isStackable_of_equals hequals hstack) _).wf

theorem World.WF.addClone (hw : w.WF cfg.types) (c : Cylinder) (index : ℤ) (x n : ℕ) :
    (addClone cfg w c index x n).WF cfg.types := by
  have hnone := newStack_container cfg.types w x n
  refine (hw.create hnone).addThing _ _ (fun d hd => ?_) (Nat.lt_succ_self w.size)
  rw [hw.contents_create hnone] at hd
  exact (hw.live d _ hd).false

theorem World.WF.transferItem {p : MovePlan} (hw : p.world.WF cfg.types) {flags : ℕ}
    (hremove : queryRemove cfg p.world a.fromCylinder a.item p.m flags = RETURNVALUE_NOERROR) :
    (transferItem cfg a p).WF cfg.types := by
  have hwf := hw.removeThing a.fromCylinder a.item p.m
  unfold Items.transferItem
  dsimp only
  split_ifs with hstack hrest
  · exact (hwf.stackOnto hstack _ _ _).addClone _ _ _ _
  · exact hwf.stackOnto hstack _ _ _
  · rw [Item.isStackable, Item.type, id_removeThing hw] at hstack
    refine hwf.addThing _ _ (nowhere_of_removed hw hremove (Or.inl (Bool.eq_false_iff.2 hstack))) ?_
    rw [size_removeThing]
    exact hw.live _ _ (World.mem_contents_of_getThingIndex (of_queryRemove hremove).1)

/-- **Worlds stay well-formed under moves.** -/
theorem World.WF.internalMoveItem (hw : w.WF cfg.types) (a : MoveArgs) :
    (internalMoveItem cfg a w).1.WF cfg.types := by
  have houtcome : ∀ {w₁ d}, w₁.WF cfg.types → PlanOutcome cfg a w₁ d (planMove cfg a w) →
      (Items.internalMoveItem cfg a w).1.WF cfg.types := by
    intro w₁ d hw₁ h
    unfold Items.internalMoveItem
    generalize planMove cfg a w = r at h ⊢
    cases h with
    | refused ret _ => exact hw₁
    | planned p h =>
      obtain rfl := h.world
      exact hw₁.transferItem h.remove
  cases hex : exchangedItem cfg a w with
  | none => exact houtcome hw (planMove_of_none hex)
  | some y =>
    obtain ⟨-, -, hremove, h⟩ := planMove_of_some hex
    exact houtcome (hw.exchangeItem hremove) h

end TiabloServer.Items
