import TiabloServer.Items.Decay

/-!
# The registry of decaying items

In a run of careful steps the registry holds every item that decays exactly once, under the time at
which it is due, and an event is pending for the first of them. A step is not careful if it takes an
item that decays out of this state behind the back of the registry, copies this state to a clone, or
stops an item that `checkDecay` has already taken or on whose key it stands.

## Main definitions

* `Decay.Careful` — the steps that leave no trace of an item behind.
* `Decay.Inv` — what the steps keep, also while `checkDecay` is going on.

## Main results

* `Decay.stopDecay_inv`, `Decay.startDecay_inv` — the operations keep the invariant.
* `Decay.run_registry` — the registry is right in every state of a run of careful steps.
-/

namespace TiabloServer.Decay

open Item

/-! ## What is asked of the registry -/

/-- The items that `checkDecay` has taken and not looked at yet. -/
def State.collected (s : State) : List ℕ :=
  match s.checking with
  | none => []
  | some check => check.tempItems

/-- An item decays and is due at `t`. -/
def State.Decays (s : State) (i : ℕ) (t : ℤ) : Prop :=
  ∃ item, s.items i = some item ∧ item.getDecaying = .decayingTrue ∧
    item.attributes.durationTimestamp = some t

/-- The registry holds every item that decays once, under the time at which it is due, an event is
pending for every key, and `checkDecay` still has its position in the map. -/
structure Registry (s : State) : Prop where
  once : (s.decayMap.flatMap Prod.snd).Nodup
  sorted : s.decayMap.Pairwise fun kv kv' => kv.1 < kv'.1
  listed : s.checking = none → ∀ i t, (∃ items, (t, items) ∈ s.decayMap ∧ i ∈ items) ↔ s.Decays i t
  pending : s.checking = none → ∀ kv ∈ s.decayMap, ∃ e ∈ s.events, e.2 ≤ kv.1 + 50
  position : ∀ check, s.checking = some check → check.erased = false

/-- An item that is stopped keeps the time it had left. -/
def KeepsDuration (s : State) (i : ℕ) : Prop :=
  ∀ t, (∃ items, (t, items) ∈ s.decayMap ∧ i ∈ items) →
    ∃ item, (stopDecay s i).items i = some item ∧
      item.attributes.duration = some (max 0 (t - s.now))

/-- The new type of an item writes its decay state. -/
def Item.StartsOver (item : Item) (type : ItemType) : Prop :=
  (defaultDuration type = 0 ∧ type.stopTime = false ∧ type.decayTo < 0) ∨
    (0 < defaultDuration type ∧ (item.type.stopTime = false ∨ item.attributes.duration = none))

/-- An item that may be stopped: `checkDecay` has not taken it and does not stand on a key that only
this item has, and the time left fits 32 bits. -/
structure MayStop (s : State) (i : ℕ) : Prop where
  notCollected : i ∉ s.collected
  notPosition : ∀ check t, s.checking = some check → check.position = some t →
    Agenda.find t s.decayMap ≠ some [i]
  inRange : ∀ t, (t, i) ∈ Agenda.entries s.decayMap → -2 ^ 31 ≤ t - s.now ∧ t - s.now < 2 ^ 31

/-- A step that leaves no trace of an item behind. -/
def Careful (s : State) : Step → Prop
  | .stopDecay i => MayStop s i
  | .startDecay i => ∀ item, s.items i = some item → item.canDecay = false →
      item.getDecaying = .decayingTrue → MayStop s i
  | .setID i type => ∀ item, s.items i = some item → item.getDecaying = .decayingTrue →
      ¬ item.StartsOver type
  | .clone i _ => ∀ item, s.items i = some item → item.getDecaying ≠ .decayingTrue
  | _ => True

@[simp]
theorem State.items_setItem_self (s : State) (i : ℕ) (item : Item) :
    (s.setItem i item).items i = some item := Function.update_self _ _ _

theorem State.items_setItem_of_ne (s : State) {i j : ℕ} (item : Item) (h : j ≠ i) :
    (s.setItem i item).items j = s.items j := Function.update_of_ne h _ _

/-! ## The invariant -/

/-- An event is pending for a key, or `checkDecay` will schedule one. -/
def State.Covered (s : State) (t : ℤ) : Prop :=
  (∃ e ∈ s.events, e.2 ≤ t + 50) ∨
    ∃ check k, s.checking = some check ∧ check.position = some k ∧ k ≤ t

/-- What careful steps keep. -/
structure Inv (s : State) : Prop where
  wf : Agenda.WF s.decayMap
  once : ((Agenda.entries s.decayMap).map Prod.snd).Nodup
  listed : ∀ t i, (t, i) ∈ Agenda.entries s.decayMap ↔ s.Decays i t ∧ i ∉ s.collected
  taken : ∀ i ∈ s.collected, ∃ item, s.items i = some item ∧ item.getDecaying = .decayingTrue
  takenOnce : s.collected.Nodup
  duration : ∀ t i, (t, i) ∈ Agenda.entries s.decayMap → ∀ item, s.items i = some item →
    item.attributes.duration.isSome
  covered : ∀ kv ∈ s.decayMap, s.Covered kv.1
  position : ∀ check, s.checking = some check → check.erased = false ∧
    ∀ k, check.position = some k → s.now ≤ k

namespace Inv

variable {s : State}

/-- What holds inside a run makes the registry right. -/
theorem registry (h : Inv s) : Registry s := by
  refine ⟨?_, h.wf.sorted, ?_, ?_, fun check hcheck => (h.position check hcheck).1⟩
  · rw [← Agenda.map_snd_entries]
    exact h.once
  · intro hnone i t
    rw [← Agenda.mem_entries, h.listed]
    simp [State.collected, hnone]
  · intro hnone kv hkv
    rcases h.covered kv hkv with hevent | ⟨check, k, hcheck, -⟩
    · exact hevent
    · rw [hnone] at hcheck
      cases hcheck

/-- An item that does not decay is neither in the map nor taken. -/
theorem notMem_of_ne {item : Item} {i : ℕ} (h : Inv s) (hitem : s.items i = some item)
    (hne : item.getDecaying ≠ .decayingTrue) : (∀ t, (t, i) ∉ Agenda.entries s.decayMap) ∧ i ∉ s.collected := by
  refine ⟨?_, ?_⟩
  · intro t hmem
    obtain ⟨⟨item', hitem', htrue, -⟩, -⟩ := (h.listed t i).1 hmem
    rw [hitem] at hitem'
    cases hitem'
    exact hne htrue
  · intro hmem
    obtain ⟨item', hitem', htrue⟩ := h.taken i hmem
    rw [hitem] at hitem'
    cases hitem'
    exact hne htrue

/-- The items outside a set of items are as before. -/
theorem decays_congr {s' : State} {i : ℕ} {t : ℤ} (h : s'.items i = s.items i) : s'.Decays i t ↔ s.Decays i t := by
  rw [State.Decays, State.Decays, h]

/-- An item that is not in the map and not taken may become any that does not decay. -/
theorem setItem {i : ℕ} {item : Item} (h : Inv s)
    (hmap : ∀ t, (t, i) ∉ Agenda.entries s.decayMap) (htaken : i ∉ s.collected)
    (hne : item.getDecaying ≠ .decayingTrue) : Inv (s.setItem i item) := by
  refine ⟨h.wf, h.once, ?_, ?_, h.takenOnce, ?_, h.covered, h.position⟩
  · intro t j
    by_cases hj : j = i
    · subst hj
      refine iff_of_false (hmap t) ?_
      rintro ⟨⟨item', hitem', htrue, -⟩, -⟩
      rw [State.items_setItem_self] at hitem'
      cases hitem'
      exact hne htrue
    · rw [decays_congr (s := s) (Function.update_of_ne hj _ _)]
      exact h.listed t j
  · intro j hj
    have hne' : j ≠ i := fun heq => htaken (heq ▸ hj)
    obtain ⟨item', hitem', htrue⟩ := h.taken j hj
    exact ⟨item', (Function.update_of_ne hne' _ _).trans hitem', htrue⟩
  · intro t j hmem item' hitem'
    have hne' : j ≠ i := fun heq => hmap t (heq ▸ hmem)
    exact h.duration t j hmem item' ((Function.update_of_ne hne' _ _).symm.trans hitem')

/-- An item may change in any way that leaves its attributes. -/
theorem alter {i : ℕ} {item item' : Item} (h : Inv s) (hitem : s.items i = some item)
    (hattr : item'.attributes = item.attributes) : Inv (s.setItem i item') := by
  have hget : item'.getDecaying = item.getDecaying := by rw [getDecaying, getDecaying, hattr]
  have hself : (s.setItem i item').items i = some item' := Function.update_self _ _ _
  refine ⟨h.wf, h.once, ?_, ?_, h.takenOnce, ?_, h.covered, h.position⟩
  · intro t j
    by_cases hj : j = i
    · subst hj
      refine (h.listed t j).trans (and_congr_left' ⟨?_, ?_⟩)
      · rintro ⟨item₀, hitem₀, htrue, hts⟩
        rw [hitem] at hitem₀
        cases hitem₀
        exact ⟨item', hself, hget.trans htrue, (congrArg _ hattr).trans hts⟩
      · rintro ⟨item₀, hitem₀, htrue, hts⟩
        rw [hself] at hitem₀
        cases hitem₀
        exact ⟨item, hitem, hget.symm.trans htrue, (congrArg _ hattr.symm).trans hts⟩
    · rw [decays_congr (s := s) (Function.update_of_ne hj _ _)]
      exact h.listed t j
  · intro j hj
    obtain ⟨item₀, hitem₀, htrue⟩ := h.taken j hj
    by_cases heq : j = i
    · subst heq
      rw [hitem] at hitem₀
      cases hitem₀
      exact ⟨item', hself, hget.trans htrue⟩
    · exact ⟨item₀, (Function.update_of_ne heq _ _).trans hitem₀, htrue⟩
  · intro t j hmem item₀ hitem₀
    by_cases heq : j = i
    · subst heq
      rw [hself] at hitem₀
      cases hitem₀
      rw [hattr]
      exact h.duration t j hmem item hitem
    · exact h.duration t j hmem item₀ ((Function.update_of_ne heq _ _).symm.trans hitem₀)

/-- **An item leaves the map** and no longer decays. -/
theorem unlist {s' : State} {i : ℕ} {t : ℤ} {item : Item} (h : Inv s)
    (hperm : (Agenda.entries s.decayMap).Perm ((t, i) :: Agenda.entries s'.decayMap))
    (hitems : s'.items = Function.update s.items i (some item))
    (hne : item.getDecaying ≠ .decayingTrue) (hwf : Agenda.WF s'.decayMap)
    (hkeys : ∀ kv ∈ s'.decayMap, ∃ v, (kv.1, v) ∈ s.decayMap) (hnow : s'.now = s.now)
    (hevents : s'.events = s.events) (hchecking : s'.checking = s.checking) : Inv s' := by
  have hcollected : s'.collected = s.collected := by rw [State.collected, State.collected, hchecking]
  have hmem : ∀ t' j, (t', j) ∈ Agenda.entries s.decayMap ↔
      (t', j) = (t, i) ∨ (t', j) ∈ Agenda.entries s'.decayMap := by
    intro t' j
    rw [hperm.mem_iff, List.mem_cons]
  have honce := h.once
  rw [(hperm.map Prod.snd).nodup_iff, List.map_cons, List.nodup_cons] at honce
  have hout : ∀ t', (t', i) ∉ Agenda.entries s'.decayMap := by
    intro t' ht'
    exact honce.1 (List.mem_map.2 ⟨(t', i), ht', rfl⟩)
  have hi := ((h.listed t i).1 ((hmem t i).2 (Or.inl rfl)))
  refine ⟨hwf, honce.2, ?_, ?_, hcollected ▸ h.takenOnce, ?_, ?_, ?_⟩
  · intro t' j
    rw [hcollected]
    by_cases hj : j = i
    · subst hj
      refine iff_of_false (hout t') ?_
      rintro ⟨⟨item', hitem', htrue, -⟩, -⟩
      rw [hitems, Function.update_self] at hitem'
      cases hitem'
      exact hne htrue
    · rw [decays_congr (s := s) (by rw [hitems, Function.update_of_ne hj]), ← h.listed, hmem]
      simp [hj]
  · intro j hj
    rw [hcollected] at hj
    have hne' : j ≠ i := fun heq => hi.2 (heq ▸ hj)
    obtain ⟨item', hitem', htrue⟩ := h.taken j hj
    exact ⟨item', by rw [hitems, Function.update_of_ne hne', hitem'], htrue⟩
  · intro t' j hj item' hitem'
    have hne' : j ≠ i := fun heq => hout t' (heq ▸ hj)
    rw [hitems, Function.update_of_ne hne'] at hitem'
    exact h.duration t' j ((hmem t' j).2 (Or.inr hj)) item' hitem'
  · intro kv hkv
    obtain ⟨v, hv⟩ := hkeys kv hkv
    rcases h.covered _ hv with hc | hc
    · exact Or.inl (hevents ▸ hc)
    · exact Or.inr (hchecking ▸ hc)
  · rw [hchecking, hnow]
    exact h.position

/-- An item that `checkDecay` has not taken and that is not in the map does not decay. -/
theorem ne_of_notMem {i : ℕ} {item : Item} {t : ℤ} (h : Inv s)
    (hmap : ∀ t, (t, i) ∉ Agenda.entries s.decayMap) (htaken : i ∉ s.collected)
    (hitem : s.items i = some item) (ht : item.attributes.durationTimestamp = some t) :
    item.getDecaying ≠ .decayingTrue := by
  intro htrue
  exact hmap t ((h.listed t i).2 ⟨⟨item, hitem, htrue, ht⟩, htaken⟩)

/-- The map has an item only under its own time. -/
theorem mem_find {i : ℕ} {item : Item} {t t' : ℤ} (h : Inv s) (hitem : s.items i = some item)
    (ht : item.attributes.durationTimestamp = some t) (hmem : (t', i) ∈ Agenda.entries s.decayMap) :
    t' = t ∧ ∃ v, Agenda.find t s.decayMap = some v ∧ i ∈ v := by
  obtain ⟨⟨item', hitem', -, ht'⟩, -⟩ := (h.listed t' i).1 hmem
  rw [hitem] at hitem'
  cases hitem'
  rw [ht] at ht'
  cases ht'
  obtain ⟨v, hv, hi⟩ := Agenda.mem_entries.1 hmem
  exact ⟨rfl, v, h.wf.find_eq hv, hi⟩

/-- An item that does not decay may be stopped. -/
theorem mayStop_of_ne {i : ℕ} {item : Item} (h : Inv s) (hitem : s.items i = some item)
    (hne : item.getDecaying ≠ .decayingTrue) : MayStop s i := by
  obtain ⟨hmap, htaken⟩ := h.notMem_of_ne hitem hne
  refine ⟨htaken, ?_, fun t ht => absurd ht (hmap t)⟩
  intro check t _ _ hfind
  exact hmap t (Agenda.mem_entries.2 ⟨[i], Agenda.mem_of_find hfind, List.mem_singleton_self i⟩)

end Inv

/-! ## Stopping -/

/-- **What `stopDecay` does** with an item: nothing, if it has no decay state or another item alone
is under its time; it removes the decay state of an item without a time, and the time of one that is
not under it; and an item that it finds leaves the map. -/
theorem stopDecay_cases (s : State) {i : ℕ} {item : Item} (hitem : s.items i = some item) :
    (stopDecay s i = s ∧ (item.attributes.decayState = none ∨
      ∃ t j, item.attributes.durationTimestamp = some t ∧
        Agenda.find t s.decayMap = some [j] ∧ i ≠ j)) ∨
    (item.attributes.durationTimestamp = none ∧
      stopDecay s i =
        s.setItem i (item.withAttributes { item.attributes with decayState := none })) ∨
    (∃ t, item.attributes.durationTimestamp = some t ∧
      (∀ v, Agenda.find t s.decayMap = some v → i ∉ v) ∧
      stopDecay s i =
        s.setItem i (item.withAttributes { item.attributes with durationTimestamp := none })) ∨
    (∃ t, item.attributes.durationTimestamp = some t ∧ Agenda.find t s.decayMap = some [i] ∧
      stopDecay s i = (s.setItem i (item.stopped s.now)).erase t) ∨
    ∃ t v, item.attributes.durationTimestamp = some t ∧ Agenda.find t s.decayMap = some v ∧
      v ≠ [i] ∧ i ∈ v ∧
      stopDecay s i = { s.setItem i (item.stopped s.now) with
        decayMap := Agenda.put t (Agenda.swapRemove i v) s.decayMap } := by
  rw [stopDecay]
  simp only [hitem]
  split_ifs with hstate
  · exact Or.inl ⟨rfl, Or.inl hstate⟩
  · split
    · rename_i ht
      exact Or.inr (Or.inl ⟨ht, rfl⟩)
    · rename_i t ht
      split
      · rename_i hfind
        refine Or.inr (Or.inr (Or.inl ⟨t, ht, ?_, rfl⟩))
        intro v hv
        rw [hfind] at hv
        cases hv
      · rename_i j hfind
        split_ifs with hj
        · subst hj
          exact Or.inr (Or.inr (Or.inr (Or.inl ⟨t, ht, hfind, rfl⟩)))
        · exact Or.inl ⟨rfl, Or.inr ⟨t, j, ht, hfind, hj⟩⟩
      · rename_i v hnot hfind
        split_ifs with hi
        · refine Or.inr (Or.inr (Or.inr (Or.inr ⟨t, v, ht, hfind, ?_, hi, rfl⟩)))
          intro hv
          exact hnot i hv
        · refine Or.inr (Or.inr (Or.inl ⟨t, ht, ?_, rfl⟩))
          intro v' hv'
          rw [hfind] at hv'
          cases hv'
          exact hi

theorem getDecaying_stopped (item : Item) (now : ℤ) : (item.stopped now).getDecaying ≠ .decayingTrue := by
  rw [Item.stopped, getDecaying, attributes_withAttributes]
  exact DecayState.noConfusion

/-- What is left of a list without an item that was not its only one. -/
theorem swapRemove_ne_nil {i : ℕ} {v : List ℕ} (hi : i ∈ v) (hv : v ≠ [i]) : Agenda.swapRemove i v ≠ [] := by
  intro hnil
  have hperm := Agenda.swapRemove_perm hi
  rw [hnil] at hperm
  exact hv (List.perm_singleton.1 hperm)

/-- **Stopping an item keeps the invariant**: an item in the map leaves it, and another one stays
out. -/
theorem stopDecay_inv {s : State} {i : ℕ} (h : Inv s) (hstop : MayStop s i) : Inv (stopDecay s i) := by
  cases hitem : s.items i with
  | none =>
    rw [stopDecay, hitem]
    exact h
  | some item =>
    rcases stopDecay_cases s hitem with ⟨heq, -⟩ | ⟨ht, heq⟩ | ⟨t, ht, hfind, heq⟩ |
      ⟨t, ht, hfind, heq⟩ | ⟨t, v, ht, hfind, hv, hi, heq⟩
    · rw [heq]
      exact h
    · rw [heq]
      refine h.setItem ?_ hstop.notCollected ?_
      · intro t hmem
        obtain ⟨⟨item', hitem', -, ht'⟩, -⟩ := (h.listed t i).1 hmem
        rw [hitem] at hitem'
        cases hitem'
        rw [ht] at ht'
        cases ht'
      · rw [getDecaying, attributes_withAttributes]
        exact DecayState.noConfusion
    · rw [heq]
      have hmap : ∀ t', (t', i) ∉ Agenda.entries s.decayMap := by
        intro t' hmem
        obtain ⟨-, v, hv, hi⟩ := h.mem_find hitem ht hmem
        exact hfind v hv hi
      exact h.setItem hmap hstop.notCollected (h.ne_of_notMem hmap hstop.notCollected hitem ht :)
    · rw [heq]
      have hchecking : ((s.setItem i (item.stopped s.now)).erase t).checking = s.checking := by
        cases hcheck : s.checking with
        | none =>
          show s.checking.map _ = none
          rw [hcheck]
          rfl
        | some check =>
          have hposition : check.position ≠ some t := by
            intro hp
            exact hstop.notPosition check t hcheck hp hfind
          show s.checking.map _ = some check
          rw [hcheck, Option.map_some, decide_eq_false hposition, Bool.or_false]
      exact h.unlist (Agenda.entries_drop hfind) rfl (getDecaying_stopped item s.now)
        (h.wf.sublist (Agenda.drop_sublist t s.decayMap))
        (fun kv hkv => ⟨kv.2, (Agenda.drop_sublist t s.decayMap).subset hkv⟩) rfl rfl hchecking
    · rw [heq]
      exact h.unlist (Agenda.entries_put hfind hi) rfl (getDecaying_stopped item s.now)
        (h.wf.put t (swapRemove_ne_nil hi hv))
        (fun kv hkv => (Agenda.mem_keys_put hkv).2) rfl rfl rfl

theorem int32_sub {t now : ℤ} (h : -2 ^ 31 ≤ t - now) (h' : t - now < 2 ^ 31) :
    int32 (int32 t - int32 now) = t - now := by
  rw [int32, int32, int32, Int.bmod_sub_bmod, Int.sub_bmod_bmod]
  refine Int.bmod_eq_of_le_mul_two ?_ ?_ <;> norm_num <;> omega

/-- **An item that is stopped** keeps the time it had left. -/
theorem keepsDuration {s : State} {i : ℕ} (h : Inv s) (hstop : MayStop s i) : KeepsDuration s i := by
  intro t hlisted
  have hmem := Agenda.mem_entries.2 hlisted
  obtain ⟨⟨item, hitem, htrue, ht⟩, -⟩ := (h.listed t i).1 hmem
  obtain ⟨-, v, hv, hi⟩ := h.mem_find hitem ht hmem
  have hduration := h.duration t i hmem item hitem
  obtain ⟨hlow, hhigh⟩ := hstop.inRange t hmem
  have hstopped : (item.stopped s.now).attributes.duration = some (max 0 (t - s.now)) := by
    rw [Item.stopped, if_pos hduration, attributes_withAttributes, setDuration,
      attributes_withAttributes, getDuration, if_pos (Or.inl htrue), ht, Option.getD_some,
      int32_sub hlow hhigh]
    simp
  rcases stopDecay_cases s hitem with ⟨-, hnone | ⟨t', j, ht', hfind, hj⟩⟩ | ⟨hnone, -⟩ |
    ⟨t', ht', hfind, -⟩ | ⟨t', ht', hfind, heq⟩ | ⟨t', v', ht', hfind, -, -, heq⟩
  · rw [getDecaying, hnone] at htrue
    cases htrue
  · rw [ht] at ht'
    cases ht'
    rw [hv] at hfind
    cases hfind
    exact absurd (List.mem_singleton.1 hi) hj
  · rw [ht] at hnone
    cases hnone
  · rw [ht] at ht'
    cases ht'
    exact absurd hi (hfind v hv)
  · rw [heq]
    exact ⟨_, State.items_setItem_self _ _ _, hstopped⟩
  · rw [heq]
    exact ⟨_, State.items_setItem_self _ _ _, hstopped⟩

/-! ## Starting -/

theorem int32_le {x : ℤ} (h : 0 ≤ x) : int32 x ≤ x := by
  rw [int32, Int.bmod_def]
  have hmod : x % ((2 ^ 32 : ℕ) : ℤ) ≤ x := by omega
  split_ifs <;> omega

/-- An event that is scheduled comes no later than 50 ms after the time it is for. -/
theorem scheduleEvent_covers (s : State) {delay : ℤ} (h : 0 ≤ delay) :
    ∃ e ∈ (s.scheduleEvent delay).events, e.2 ≤ s.now + delay + 50 := by
  refine ⟨_, List.mem_cons_self, ?_⟩
  have hle := int32_le h
  show s.now + max 50 (int32 delay) ≤ s.now + delay + 50
  omega

theorem State.Covered.mono {s : State} {t t' : ℤ} (h : s.Covered t) (hle : t ≤ t') : s.Covered t' := by
  rcases h with ⟨e, he, hdue⟩ | ⟨check, k, hcheck, hk, hkt⟩
  · exact Or.inl ⟨e, he, by omega⟩
  · exact Or.inr ⟨check, k, hcheck, hk, hkt.trans hle⟩

/-- Other events do not matter, as long as every key is covered. -/
theorem Inv.setEvents {s s' : State} (h : Inv s) (hitems : s'.items = s.items)
    (hmap : s'.decayMap = s.decayMap) (hnow : s'.now = s.now) (hchecking : s'.checking = s.checking)
    (hcovered : ∀ kv ∈ s.decayMap, s'.Covered kv.1) : Inv s' := by
  have hcollected : s'.collected = s.collected := by rw [State.collected, State.collected, hchecking]
  have hdecays : ∀ i t, s'.Decays i t ↔ s.Decays i t :=
    fun i t => Inv.decays_congr (congrFun hitems i)
  refine ⟨hmap ▸ h.wf, hmap ▸ h.once, ?_, ?_, hcollected ▸ h.takenOnce, ?_, ?_, ?_⟩
  · intro t i
    rw [hmap, hdecays, hcollected]
    exact h.listed t i
  · rw [hcollected, hitems]
    exact h.taken
  · rw [hmap, hitems]
    exact h.duration
  · rw [hmap]
    exact hcovered
  · rw [hchecking, hnow]
    exact h.position

/-- The event for a new item leaves everything else, and the new time and all keys are covered. -/
theorem planEvent_spec {s : State} {duration : ℤ} (h : Inv s) (hpos : 0 < duration) :
    Inv (planEvent s (s.now + duration) duration) ∧
      (planEvent s (s.now + duration) duration).Covered (s.now + duration) ∧
      (planEvent s (s.now + duration) duration).items = s.items ∧
      (planEvent s (s.now + duration) duration).decayMap = s.decayMap ∧
      (planEvent s (s.now + duration) duration).now = s.now ∧
      (planEvent s (s.now + duration) duration).checking = s.checking := by
  cases hm : s.decayMap with
  | nil =>
    rw [planEvent, hm]
    refine ⟨h.setEvents rfl rfl rfl rfl ?_, Or.inl (scheduleEvent_covers s hpos.le), rfl, hm, rfl,
      rfl⟩
    rw [hm]
    intro kv hkv
    cases hkv
  | cons kv m =>
    obtain ⟨first, items⟩ := kv
    have hsorted := h.wf.sorted
    rw [hm] at hsorted
    have hfirst : ∀ kv ∈ s.decayMap, first ≤ kv.1 := by
      intro kv hkv
      rw [hm] at hkv
      rcases List.mem_cons.1 hkv with rfl | hkv
      · exact le_rfl
      · exact ((List.pairwise_cons.1 hsorted).1 kv hkv).le
    rw [planEvent, hm]
    simp only
    split_ifs with hlt
    · have hcovers : (s.stopEvent.scheduleEvent duration).Covered (s.now + duration) :=
        Or.inl (scheduleEvent_covers s.stopEvent hpos.le)
      refine ⟨h.setEvents rfl rfl rfl rfl ?_, hcovers, rfl, hm, rfl, rfl⟩
      intro kv hkv
      exact hcovers.mono (hlt.le.trans (hfirst kv hkv))
    · have hmem : (first, items) ∈ s.decayMap := hm ▸ List.mem_cons_self
      exact ⟨h, (h.covered _ hmem).mono (not_lt.1 hlt), rfl, hm, rfl, rfl⟩

/-- **An item that does not decay** and has a duration is put into the map. -/
theorem register_inv {s : State} {i : ℕ} {item : Item} {duration : ℤ} (h : Inv s)
    (hitem : s.items i = some item) (hne : item.getDecaying ≠ .decayingTrue)
    (hduration : item.attributes.duration.isSome) (hpos : 0 < duration) : Inv (register s i duration) := by
  obtain ⟨hplan, hcovered, hitems, hmap, hnow, hchecking⟩ := planEvent_spec h hpos
  have hcollected : (planEvent s (s.now + duration) duration).collected = s.collected := by
    rw [State.collected, State.collected, hchecking]
  obtain ⟨hout, htaken⟩ := h.notMem_of_ne hitem hne
  rw [register]
  simp only [hitems, hitem]
  generalize planEvent s (s.now + duration) duration = p at *
  rw [← hmap] at hout
  rw [← hcollected] at htaken
  have hperm := Agenda.entries_push (s.now + duration) i p.decayMap
  refine ⟨hplan.wf.push _ _, ?_, ?_, ?_, hplan.takenOnce, ?_, ?_, hplan.position⟩
  · rw [(hperm.map Prod.snd).nodup_iff, List.map_cons, List.nodup_cons]
    refine ⟨?_, hplan.once⟩
    rintro hmem
    obtain ⟨⟨t, j⟩, hj, rfl⟩ := List.mem_map.1 hmem
    exact hout t hj
  · intro t j
    rw [hperm.mem_iff, List.mem_cons]
    by_cases hj : j = i
    · subst hj
      constructor
      · rintro (heq | hmem)
        · cases heq
          exact ⟨⟨_, State.items_setItem_self _ _ _, rfl, rfl⟩, htaken⟩
        · exact absurd hmem (hout t)
      · rintro ⟨⟨item', hitem', -, ht⟩, -⟩
        rw [show ({ p.setItem j _ with decayMap := _ } : State).items j = _ from
          State.items_setItem_self p j _] at hitem'
        cases hitem'
        cases ht
        exact Or.inl rfl
    · have hne' : (t, j) ≠ (s.now + duration, i) := by
        intro heq
        exact hj (congrArg Prod.snd heq)
      rw [or_iff_right hne']
      exact (hplan.listed t j).trans
        (and_congr_left' (Inv.decays_congr (State.items_setItem_of_ne p _ hj)).symm)
  · intro j hj
    have hne' : j ≠ i := fun heq => htaken (heq ▸ hj)
    obtain ⟨item', hitem', htrue⟩ := hplan.taken j hj
    exact ⟨item', (State.items_setItem_of_ne p _ hne').trans hitem', htrue⟩
  · intro t j hmem item' hitem'
    by_cases hj : j = i
    · subst hj
      rw [show ({ p.setItem j _ with decayMap := _ } : State).items j = _ from
        State.items_setItem_self p j _] at hitem'
      cases hitem'
      exact hduration
    · rw [hperm.mem_iff, List.mem_cons] at hmem
      refine hplan.duration t j (hmem.resolve_left fun heq => hj (congrArg Prod.snd heq)) item' ?_
      exact (State.items_setItem_of_ne p _ hj).symm.trans hitem'
  · intro kv hkv
    rcases Agenda.mem_keys_push (k := kv.1) (v := kv.2) hkv with heq | ⟨w, hw⟩
    · rw [heq]
      exact hcovered
    · exact hplan.covered (kv.1, w) hw

/-- An item that does not decay is stopped to one that does not decay, with its duration. -/
theorem stopDecay_item {s : State} {i : ℕ} {item : Item} (hitem : s.items i = some item)
    (hne : item.getDecaying ≠ .decayingTrue) (hduration : item.attributes.duration.isSome) :
    ∃ item', (stopDecay s i).items i = some item' ∧ item'.getDecaying ≠ .decayingTrue ∧
      item'.attributes.duration.isSome := by
  have hstopped : (item.stopped s.now).attributes.duration.isSome := by
    rw [Item.stopped, if_pos hduration]
    rfl
  rcases stopDecay_cases s hitem with ⟨heq, -⟩ | ⟨-, heq⟩ | ⟨t, -, -, heq⟩ | ⟨t, -, -, heq⟩ |
    ⟨t, v, -, -, -, -, heq⟩
  · rw [heq]
    exact ⟨item, hitem, hne, hduration⟩
  · rw [heq]
    exact ⟨_, State.items_setItem_self _ _ _, DecayState.noConfusion, hduration⟩
  · rw [heq]
    exact ⟨_, State.items_setItem_self _ _ _, hne, hduration⟩
  · rw [heq]
    exact ⟨_, State.items_setItem_self _ _ _, getDecaying_stopped item s.now, hstopped⟩
  · rw [heq]
    exact ⟨_, State.items_setItem_self _ _ _, getDecaying_stopped item s.now, hstopped⟩

theorem isSome_of_getD_pos {duration : Option ℤ} (h : 0 < duration.getD 0) : duration.isSome := by
  cases duration with
  | none => exact absurd h (lt_irrefl 0)
  | some d => rfl

/-- **Starting an item keeps the invariant.** -/
theorem startDecay_inv {s : State} {i : ℕ} (h : Inv s)
    (hcareful : ∀ item, s.items i = some item → item.canDecay = false →
      item.getDecaying = .decayingTrue → MayStop s i) : Inv (startDecay s i) := by
  rw [startDecay]
  cases hitem : s.items i with
  | none => exact h
  | some item =>
    simp only
    split_ifs with hstop hskip hpos hts
    · refine stopDecay_inv h ?_
      rcases hstop with hstate | ⟨hcan, htrue⟩
      · exact h.mayStop_of_ne hitem (by rw [hstate]; exact DecayState.noConfusion)
      · exact hcareful item hitem hcan htrue
    · exact h
    all_goals
      obtain ⟨-, hne⟩ := not_or.1 hskip
    · have hduration := isSome_of_getD_pos hpos
      obtain ⟨item', hitem', hne', hduration'⟩ := stopDecay_item hitem hne hduration
      exact register_inv (stopDecay_inv h (h.mayStop_of_ne hitem hne)) hitem' hne' hduration' hpos
    · exact register_inv h hitem hne (isSome_of_getD_pos hpos) hpos
    · exact h

/-! ## The event -/

/-- **The event takes the items that are due**, and keeps the first key that is not as its
position. -/
theorem checkDecay_inv {s : State} (h : Inv s) (event : ℕ) : Inv (checkDecay s event) := by
  rw [checkDecay]
  split
  · exact h
  · rename_i hnone
    split_ifs with hevent
    · have hempty : s.collected = [] := by rw [State.collected, hnone]
      have hsplit : Agenda.entries s.decayMap =
          Agenda.entries (s.decayMap.takeWhile fun kv => kv.1 ≤ s.now) ++
            Agenda.entries (s.decayMap.dropWhile fun kv => kv.1 ≤ s.now) := by
        rw [← Agenda.entries_append, List.takeWhile_append_dropWhile]
      have hrest := h.wf.sublist (List.dropWhile_sublist fun kv => kv.1 ≤ s.now)
      have hlisted : ∀ t i, (t, i) ∈ Agenda.entries s.decayMap ↔ s.Decays i t := by
        intro t i
        rw [h.listed, hempty]
        simp
      have honce := h.once
      rw [hsplit, List.map_append, List.nodup_append] at honce
      obtain ⟨hdue, hkept, hapart⟩ := honce
      rw [Agenda.map_snd_entries] at hdue
      have hmem : ∀ t i, (t, i) ∈ Agenda.entries (s.decayMap.dropWhile fun kv => kv.1 ≤ s.now) →
          (t, i) ∈ Agenda.entries s.decayMap := by
        intro t i hti
        rw [hsplit]
        exact List.mem_append_right _ hti
      refine ⟨hrest, hkept, ?_, ?_, hdue, ?_, ?_, ?_⟩
      · intro t i
        show _ ↔ s.Decays i t ∧ i ∉ List.flatMap Prod.snd _
        rw [← hlisted, ← Agenda.map_snd_entries]
        constructor
        · intro hti
          refine ⟨hmem t i hti, ?_⟩
          intro hi
          exact hapart i hi i (List.mem_map.2 ⟨(t, i), hti, rfl⟩) rfl
        · rintro ⟨hti, hi⟩
          rw [hsplit, List.mem_append] at hti
          exact hti.resolve_left fun hdue => hi (List.mem_map.2 ⟨(t, i), hdue, rfl⟩)
      · intro i hi
        change i ∈ List.flatMap Prod.snd _ at hi
        rw [← Agenda.map_snd_entries] at hi
        obtain ⟨⟨t, j⟩, hj, rfl⟩ := List.mem_map.1 hi
        have hdecays := (hlisted t j).1 (by rw [hsplit]; exact List.mem_append_left _ hj)
        obtain ⟨item, hitem, htrue, -⟩ := hdecays
        exact ⟨item, hitem, htrue⟩
      · intro t i hti
        exact h.duration t i (hmem t i hti)
      · intro kv hkv
        cases hm : s.decayMap.dropWhile fun kv => kv.1 ≤ s.now with
        | nil =>
          change kv ∈ s.decayMap.dropWhile _ at hkv
          rw [hm] at hkv
          cases hkv
        | cons first m =>
          change kv ∈ s.decayMap.dropWhile _ at hkv
          refine Or.inr ⟨_, first.1, rfl, ?_, ?_⟩
          · rfl
          · have hsorted := hrest.sorted
            rw [hm] at hsorted hkv
            rcases List.mem_cons.1 hkv with rfl | hkv
            · exact le_rfl
            · exact ((List.pairwise_cons.1 hsorted).1 kv hkv).le
      · intro check hcheck
        cases hcheck
        refine ⟨rfl, ?_⟩
        intro k hk
        obtain ⟨first, hfirst, rfl⟩ := Option.map_eq_some_iff.1 hk
        have hnot := List.head?_dropWhile_not (fun kv : ℤ × List ℕ => decide (kv.1 ≤ s.now))
          s.decayMap
        rw [hfirst] at hnot
        simp only [decide_eq_false_iff_not, not_le] at hnot
        exact hnot.le
    · exact h

/-- **An item that was taken** no longer decays. -/
theorem checkItem_inv {s : State} (h : Inv s) : Inv (checkItem s) := by
  rw [checkItem]
  split
  · rename_i i tempItems position erased hcheck
    have hcollected : s.collected = i :: tempItems := by rw [State.collected, hcheck]
    obtain ⟨item, hitem, -⟩ := h.taken i (hcollected ▸ List.mem_cons_self)
    have hnodup := h.takenOnce
    rw [hcollected, List.nodup_cons] at hnodup
    have hout : ∀ t, (t, i) ∉ Agenda.entries s.decayMap := by
      intro t hti
      exact ((h.listed t i).1 hti).2 (hcollected ▸ List.mem_cons_self)
    simp only [hitem]
    generalize hitem' : (if item.canDecay = true then item
      else item.setDuration (item.getDuration s.now)).setDecaying .decayingFalse = item'
    have hne : item'.getDecaying ≠ .decayingTrue := by
      rw [← hitem']
      exact DecayState.noConfusion
    refine ⟨h.wf, h.once, ?_, ?_, hnodup.2, ?_, ?_, ?_⟩
    · intro t j
      by_cases hj : j = i
      · subst hj
        refine iff_of_false (hout t) ?_
        rintro ⟨⟨item₀, hitem₀, htrue, -⟩, -⟩
        rw [State.items_setItem_self] at hitem₀
        cases hitem₀
        exact hne htrue
      · refine (h.listed t j).trans (and_congr (Inv.decays_congr ?_).symm ?_)
        · exact State.items_setItem_of_ne _ _ hj
        · rw [hcollected, List.mem_cons, not_or]
          exact and_iff_right hj
    · intro j hj
      change j ∈ tempItems at hj
      have hne' : j ≠ i := fun heq => hnodup.1 (heq ▸ hj)
      obtain ⟨item₀, hitem₀, htrue⟩ := h.taken j (hcollected ▸ List.mem_cons_of_mem i hj)
      exact ⟨item₀, (State.items_setItem_of_ne _ _ hne').trans hitem₀, htrue⟩
    · intro t j hj item₀ hitem₀
      have hne' : j ≠ i := fun heq => hout t (heq ▸ hj)
      exact h.duration t j hj item₀ ((State.items_setItem_of_ne _ _ hne').symm.trans hitem₀)
    · intro kv hkv
      rcases h.covered kv hkv with hc | ⟨check, k, hcheck', hk, hle⟩
      · exact Or.inl hc
      · rw [hcheck] at hcheck'
        cases hcheck'
        exact Or.inr ⟨_, k, rfl, hk, hle⟩
    · intro check hcheck'
      cases hcheck'
      exact ⟨(h.position _ hcheck).1, (h.position _ hcheck).2⟩
  · exact h

/-- **At its end** the event is scheduled for the position it has kept. -/
theorem checkEnd_inv {s : State} (h : Inv s) : Inv (checkEnd s) := by
  rw [checkEnd]
  split
  · rename_i position erased hcheck
    have hcollected : s.collected = [] := by rw [State.collected, hcheck]
    have hmain : ∀ s' : State, s'.items = s.items → s'.decayMap = s.decayMap →
        s'.checking = none → (∀ kv ∈ s.decayMap, s'.Covered kv.1) → Inv s' := by
      intro s' hitems hmap hnone hcovered
      have hcollected' : s'.collected = s.collected := by rw [State.collected, hnone, hcollected]
      refine ⟨hmap ▸ h.wf, hmap ▸ h.once, ?_, ?_, hcollected' ▸ h.takenOnce, ?_, ?_, ?_⟩
      · intro t i
        rw [hmap, hcollected']
        exact (h.listed t i).trans (and_congr_left' (Inv.decays_congr (congrFun hitems i)).symm)
      · rw [hcollected', hitems]
        exact h.taken
      · rw [hmap, hitems]
        exact h.duration
      · rw [hmap]
        exact hcovered
      · intro check hcheck'
        rw [hnone] at hcheck'
        cases hcheck'
    cases position with
    | none =>
      refine hmain _ rfl rfl rfl ?_
      intro kv hkv
      rcases h.covered kv hkv with hc | ⟨check, k, hcheck', hk, -⟩
      · exact Or.inl hc
      · rw [hcheck] at hcheck'
        cases hcheck'
        cases hk
    | some t =>
      refine hmain _ rfl rfl rfl ?_
      have hfuture := (h.position _ hcheck).2 t rfl
      intro kv hkv
      rcases h.covered kv hkv with ⟨e, he, hdue⟩ | ⟨check, k, hcheck', hk, hle⟩
      · exact Or.inl ⟨e, List.mem_cons_of_mem _ he, hdue⟩
      · rw [hcheck] at hcheck'
        cases hcheck'
        cases hk
        have hdelay : 0 ≤ t - s.now := by omega
        obtain ⟨e, he, hdue⟩ := scheduleEvent_covers { s with checking := none } hdelay
        refine Or.inl ⟨e, he, ?_⟩
        change e.2 ≤ s.now + (t - s.now) + 50 at hdue
        omega
  · exact h

/-! ## Other steps -/

/-- An id change that does not start over leaves the attributes. -/
theorem attributes_setID {item : Item} {type : ItemType} (h : ¬ item.StartsOver type) :
    (item.setID type).attributes = item.attributes := by
  obtain ⟨hstop, hpending⟩ := not_or.1 h
  rw [setID]
  simp only [if_neg hstop]
  rw [if_neg]
  · rfl
  · rintro ⟨hpos, hor⟩
    refine hpending ⟨hpos, hor.imp_right fun hnone => ?_⟩
    exact Option.isNone_iff_eq_none.1 hnone

/-- Removing the duration leaves the decay state. -/
theorem getDecaying_map (item : Item) :
    getDecaying { item with
      attributePtr := item.attributePtr.map fun a => { a with duration := none } } =
      item.getDecaying := by
  obtain ⟨type, removed, disabled, attributePtr⟩ := item
  cases attributePtr <;> rfl

/-- An item that does not decay does not after an id change. -/
theorem getDecaying_setID {item : Item} {type : ItemType} (h : item.getDecaying ≠ .decayingTrue) :
    (item.setID type).getDecaying ≠ .decayingTrue := by
  rw [setID]
  simp only
  split_ifs
  -- With a state written the item is pending or stopping, and otherwise its state stays.
  any_goals exact DecayState.noConfusion
  any_goals exact h
  all_goals
    rw [getDecaying_map]
    first | exact DecayState.noConfusion | exact h

theorem getDecaying_create (type : ItemType) : (create type).getDecaying ≠ .decayingTrue := by
  rw [getDecaying, Item.attributes, create]
  split_ifs <;> exact DecayState.noConfusion

theorem getDecaying_clone {item : Item} (h : item.getDecaying ≠ .decayingTrue) :
    item.clone.getDecaying ≠ .decayingTrue := by
  rw [Item.clone]
  cases hattr : item.attributePtr with
  | none => exact getDecaying_create item.type
  | some attributes =>
    rw [getDecaying, Item.attributes, hattr] at h
    exact h

/-- **Every careful step keeps the invariant.** -/
theorem step_inv {s : State} {a : Step} (h : Inv s) (hcareful : Careful s a) : Inv (step s a) := by
  cases a with
  | elapse ms =>
    rw [step]
    split_ifs with hnone
    · refine ⟨h.wf, h.once, h.listed, h.taken, h.takenOnce, h.duration, h.covered, ?_⟩
      intro check hcheck
      change s.checking = some check at hcheck
      rw [hnone] at hcheck
      cases hcheck
    · exact h
  | otherEvents n => exact ⟨h.wf, h.once, h.listed, h.taken, h.takenOnce, h.duration, h.covered, h.position⟩
  | place i removed decayDisabled =>
    rw [step]
    cases hitem : s.items i with
    | none => exact h
    | some item => exact h.alter hitem rfl
  | startDecay i => exact startDecay_inv h hcareful
  | stopDecay i => exact stopDecay_inv h hcareful
  | setID i type =>
    rw [step]
    cases hitem : s.items i with
    | none => exact h
    | some item =>
      by_cases htrue : item.getDecaying = .decayingTrue
      · exact h.alter hitem (attributes_setID (hcareful item hitem htrue))
      · obtain ⟨hmap, htaken⟩ := h.notMem_of_ne hitem htrue
        exact h.setItem hmap htaken (getDecaying_setID htrue)
  | clone i j =>
    rw [step]
    cases hi : s.items i with
    | none => exact h
    | some item =>
      cases hj : s.items j with
      | some other => exact h
      | none =>
        refine h.setItem ?_ ?_ (getDecaying_clone (hcareful item hi))
        · intro t hmem
          obtain ⟨⟨item', hitem', -⟩, -⟩ := (h.listed t j).1 hmem
          rw [hj] at hitem'
          cases hitem'
        · intro hmem
          obtain ⟨item', hitem', -⟩ := h.taken j hmem
          rw [hj] at hitem'
          cases hitem'
  | checkDecay event => exact checkDecay_inv h event
  | checkItem => exact checkItem_inv h
  | checkEnd => exact checkEnd_inv h

/-! ## Runs -/

/-- Nothing is registered yet, and no item decays. -/
structure State.Initial (s : State) : Prop where
  decayMap : s.decayMap = []
  checking : s.checking = none
  items : ∀ i item, s.items i = some item → item.getDecaying ≠ .decayingTrue

theorem State.Initial.inv {s : State} (h : s.Initial) : Inv s := by
  have hempty : s.collected = [] := by rw [State.collected, h.checking]
  refine ⟨?_, ?_, ?_, ?_, hempty ▸ List.nodup_nil, ?_, ?_, ?_⟩
  · rw [h.decayMap]
    exact ⟨.nil, fun kv hkv => by cases hkv⟩
  · rw [h.decayMap]
    exact List.nodup_nil
  · intro t i
    rw [h.decayMap]
    refine iff_of_false List.not_mem_nil ?_
    rintro ⟨⟨item, hitem, htrue, -⟩, -⟩
    exact h.items i item hitem htrue
  · rw [hempty]
    intro i hi
    cases hi
  · rw [h.decayMap]
    intro t i hti
    cases hti
  · rw [h.decayMap]
    intro kv hkv
    cases hkv
  · intro check hcheck
    rw [h.checking] at hcheck
    cases hcheck

/-- **The registry is right** in every state of a run of careful steps, and an item that may be
stopped there keeps the time it had left. -/
theorem run_registry {s : State} (h : s.Initial) {l : List Step} (hl : Runs.Meets step Careful s l) :
    Registry (Runs.run step s l) ∧
      ∀ i, MayStop (Runs.run step s l) i → KeepsDuration (Runs.run step s l) i := by
  have hinv := Runs.invariant step (fun _ _ hinv hcareful => step_inv hinv hcareful) h.inv hl
  exact ⟨hinv.registry, fun i hstop => keepsDuration hinv hstop⟩

/-- A torch that burns for a minute, and an item of a type that does not decay. -/
def torchType : ItemType := ⟨2, 60, false⟩

/-- One torch with its duration. -/
def oneTorch : State where
  now := 1000
  items i := if i = 0 then
    some ⟨torchType, false, false, some ⟨some .decayingPending, some 60000, none, false⟩⟩ else none
  decayMap := []
  eventId := 0
  events := []
  lastEventId := 0
  checking := none

theorem initial_oneTorch : oneTorch.Initial := by
  refine ⟨rfl, rfl, ?_⟩
  intro i item hitem
  rw [oneTorch] at hitem
  simp only at hitem
  split_ifs at hitem
  cases hitem
  exact DecayState.noConfusion

/-- The torch starts to burn, and is checked when a minute has passed. -/
def burning : List Step := [.startDecay 0, .elapse 60000, .checkDecay 1, .checkItem, .checkEnd]

theorem run_registry_torch :
    ((Runs.run step oneTorch (burning.take 2)).decayMap, (Runs.run step oneTorch burning).decayMap) =
        ([(61000, [0])], []) ∧
      Registry (Runs.run step oneTorch burning) ∧
        ∀ i, MayStop (Runs.run step oneTorch burning) i → KeepsDuration (Runs.run step oneTorch burning) i := by
  refine ⟨by decide +kernel, run_registry initial_oneTorch ⟨?_, trivial, trivial, trivial, trivial, trivial⟩⟩
  intro item hitem hcan
  cases hitem
  cases hcan

/-- A clone of a burning torch burns as well and is not in the registry. -/
theorem not_run_registry :
    ¬ ∀ (s : State) (l : List Step), s.Initial →
      Registry (Runs.run step s l) ∧ ∀ i, KeepsDuration (Runs.run step s l) i := by
  intro hall
  have hregistry := (hall oneTorch [.startDecay 0, .clone 0 1] initial_oneTorch).1
  have hlisted := hregistry.listed rfl 1 61000
  have hdecays : (Runs.run step oneTorch [.startDecay 0, .clone 0 1]).Decays 1 61000 :=
    ⟨_, rfl, rfl, rfl⟩
  obtain ⟨items, hmem, hi⟩ := hlisted.2 hdecays
  change (61000, items) ∈ [((61000 : ℤ), [0])] at hmem
  rw [List.mem_singleton] at hmem
  cases hmem
  exact absurd hi (by decide)

end TiabloServer.Decay
