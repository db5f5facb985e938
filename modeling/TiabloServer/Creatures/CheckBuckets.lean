import TiabloServer.Lib.Runs

/-!
# Buckets of creatures to check

`Game::addCreatureCheck`, `Game::removeCreatureCheck` and `Game::checkCreatures` (`game/game.cpp`).
A creature is in one of ten lists, and each call of `checkCreatures` goes through one of them up to
the size it had at its start. A creature whose check has been removed is taken out of the list: the
last creature of the list takes its place. What the creatures do meanwhile may add others to the end
of the same list.

A creature without health is told of its death instead of being made to think; both are thinking
here.

## Main definitions

* `CreatureCheck.Sound` — what a round of the loop does.
* `CreatureCheck.TakesLast` — the creature that takes a place comes from the part that is gone
  through.

## Main results

* `CreatureCheck.run_bucketed` — the flags tell the creatures in the lists, in every state of every
  run.
* `CreatureCheck.run_checks` — calls are complete in all runs in which places are taken by creatures
  of the part that is gone through.
-/

namespace TiabloServer.CreatureCheck

def EVENT_CREATURECOUNT : ℕ := 10

/-- A call of `checkCreatures` that has not returned. Of the creatures that were in the list at its
start, `thought` are those that have thought, and `swept` those that were reached without their
check. -/
structure Walk (α : Type) where
  it : ℕ
  fin : ℕ
  present : List α
  thought : List α
  swept : List α

/-- The flags of the creatures, the lists and the list whose turn is next. -/
structure State (α : Type) where
  creatureCheck : α → Bool
  inCheckCreaturesVector : α → Bool
  checkCreatureLists : Fin EVENT_CREATURECOUNT → List α
  index : Fin EVENT_CREATURECOUNT
  walk : Option (Walk α)

/-- What happens: `uniform_random` is an argument of an addition. Between the rounds of a call
stands what the creature of the last round did. -/
inductive Action (α : Type) where
  | addCreatureCheck (creature : α) (random : Fin EVENT_CREATURECOUNT)
  | removeCreatureCheck (creature : α)
  | checkCreatures
  | round

section Lists

variable {α : Type}

/-- The last element takes the place `i`. -/
def swapRemove (l : List α) (i : ℕ) : List α :=
  match l.getLast? with
  | some last => (l.set i last).dropLast
  | none => l

end Lists

section Step

variable {α : Type} [DecidableEq α]

def State.init : State α := ⟨fun _ => false, fun _ => false, fun _ => [], ⟨0, by decide⟩, none⟩

def addCreatureCheck (s : State α) (creature : α) (random : Fin EVENT_CREATURECOUNT) : State α :=
  let s := { s with creatureCheck := Function.update s.creatureCheck creature true }
  if s.inCheckCreaturesVector creature then s
  else
    { s with
      inCheckCreaturesVector := Function.update s.inCheckCreaturesVector creature true
      checkCreatureLists := Function.update s.checkCreatureLists random
        (s.checkCreatureLists random ++ [creature]) }

def removeCreatureCheck (s : State α) (creature : α) : State α :=
  if s.inCheckCreaturesVector creature then
    { s with creatureCheck := Function.update s.creatureCheck creature false }
  else s

/-- The list of the call. -/
def State.list (s : State α) : List α := s.checkCreatureLists s.index

/-- A call starts, if there is none. -/
def beginCheck (s : State α) : State α :=
  match s.walk with
  | some _ => s
  | none => { s with walk := some ⟨0, s.list.length, s.list, [], []⟩ }

/-- The creature thinks. -/
def think (s : State α) (w : Walk α) (creature : α) : State α :=
  { s with walk := some { w with it := w.it + 1, thought := w.thought ++ [creature] } }

/-- The creature is taken out of the list. -/
def sweep (s : State α) (w : Walk α) (creature : α) : State α :=
  { s with
    inCheckCreaturesVector := Function.update s.inCheckCreaturesVector creature false
    checkCreatureLists := Function.update s.checkCreatureLists s.index (swapRemove s.list w.it)
    walk := some { w with fin := w.fin - 1, swept := w.swept ++ [creature] } }

/-- The call returns, and the next list has its turn. -/
def endCheck (s : State α) : State α :=
  { s with index := ⟨(s.index + 1) % EVENT_CREATURECOUNT, Nat.mod_lt _ (by decide)⟩, walk := none }

/-- One round of the loop of `checkCreatures`, or its end. -/
def checkRound (s : State α) : State α :=
  match s.walk with
  | none => s
  | some w =>
    if w.it < w.fin then
      match s.list[w.it]? with
      | none => s
      | some creature => if s.creatureCheck creature then think s w creature else sweep s w creature
    else endCheck s

def step (s : State α) : Action α → State α
  | .addCreatureCheck creature random => addCreatureCheck s creature random
  | .removeCreatureCheck creature => removeCreatureCheck s creature
  | .checkCreatures => beginCheck s
  | .round => checkRound s

/-- How often a creature is in the lists. -/
def State.occurrences (s : State α) (creature : α) : ℕ :=
  ∑ i, (s.checkCreatureLists i).count creature

/-- **The flags tell the lists**: a creature with the flag is in one list, once, and others are in
none. -/
def Bucketed (s : State α) : Prop :=
  ∀ creature, s.occurrences creature = if s.inCheckCreaturesVector creature then 1 else 0

/-- **What a round does.** It reads inside of the list, and a creature thinks if and only if its
check is set. At the end of the call, those who have thought and those who have been taken out are
the creatures that were in the list, each of them once. -/
def Sound (s : State α) : Action α → Prop
  | .round => ∀ w, s.walk = some w →
    if w.it < w.fin then
      ∃ creature, s.list[w.it]? = some creature ∧
        step s .round = if s.creatureCheck creature then think s w creature else sweep s w creature
    else (w.thought ++ w.swept).Perm w.present ∧ w.present.Nodup
  | _ => True

/-- The last creature takes a place of the part that is still to be gone through only if it is of
this part: no one has been added to the list during the call. -/
def TakesLast (s : State α) : Action α → Prop
  | .round => ∀ w creature, s.walk = some w → w.it + 1 < w.fin → s.list[w.it]? = some creature →
    s.creatureCheck creature = false → s.list.length = w.fin
  | _ => True

end Step

/-! ## Taking a creature out -/

section Removal

variable {α : Type}

theorem exists_split {l : List α} {i : ℕ} {creature : α} (h : l[i]? = some creature) :
    ∃ a b, l = a ++ creature :: b ∧ a.length = i := by
  obtain ⟨hi, rfl⟩ := List.getElem?_eq_some_iff.1 h
  refine ⟨l.take i, l.drop (i + 1), ?_, List.length_take_of_le hi.le⟩
  rw [← List.drop_eq_getElem_cons hi, List.take_append_drop]

theorem swapRemove_append_singleton (a : List α) (creature : α) : swapRemove (a ++ [creature]) a.length = a := by
  rw [swapRemove, List.getLast?_append_of_ne_nil _ (by simp)]
  simp

theorem swapRemove_append_cons (a b : List α) (creature last : α) :
    swapRemove (a ++ creature :: (b ++ [last])) a.length = a ++ last :: b := by
  have hl : a ++ creature :: (b ++ [last]) = (a ++ creature :: b) ++ [last] := by simp
  have hlast : (a ++ creature :: (b ++ [last])).getLast? = some last := by
    rw [hl, List.getLast?_append_of_ne_nil _ (by simp)]
    rfl
  rw [swapRemove, hlast]
  dsimp only
  rw [List.set_append_right _ _ (le_refl _), Nat.sub_self, List.set_cons_zero]
  rw [show a ++ last :: (b ++ [last]) = (a ++ last :: b) ++ [last] by simp, List.dropLast_concat]

/-- The other creatures stay in the list. -/
theorem perm_swapRemove (a b : List α) (creature : α) :
    (creature :: swapRemove (a ++ creature :: b) a.length).Perm (a ++ creature :: b) := by
  rcases List.eq_nil_or_concat b with rfl | ⟨b, last, rfl⟩
  · rw [swapRemove_append_singleton]
    exact List.perm_append_singleton creature a |>.symm
  · rw [List.concat_eq_append, swapRemove_append_cons]
    have hmove : (last :: b).Perm (b ++ [last]) := (List.perm_append_singleton last b).symm
    exact ((hmove.append_left a).cons creature).trans List.perm_middle.symm

/-- What is behind the place is what was behind it, in another order. -/
theorem perm_drop_swapRemove (a b : List α) (creature : α) :
    ((swapRemove (a ++ creature :: b) a.length).drop a.length).Perm ((a ++ creature :: b).drop (a.length + 1)) := by
  rw [← List.drop_drop, List.drop_left, List.drop_one, List.tail_cons]
  rcases List.eq_nil_or_concat b with rfl | ⟨b, last, rfl⟩
  · rw [swapRemove_append_singleton, List.drop_length]
  · rw [List.concat_eq_append, swapRemove_append_cons, List.drop_left]
    exact (List.perm_append_singleton last b).symm

theorem length_swapRemove (a b : List α) (creature : α) :
    (swapRemove (a ++ creature :: b) a.length).length = a.length + b.length := by
  have hlength := (perm_swapRemove a b creature).length_eq
  simp only [List.length_cons, List.length_append] at hlength
  omega

end Removal

/-! ## The flags -/

section Flags

variable {α : Type} [DecidableEq α]

/-- One list is another one: how often a creature is in the lists. -/
theorem occurrences_update (s : State α) (i : Fin EVENT_CREATURECOUNT) (l : List α) (creature : α) :
    (∑ j, (Function.update s.checkCreatureLists i l j).count creature) + (s.checkCreatureLists i).count creature =
      s.occurrences creature + l.count creature := by
  have hnew : ∀ j, (Function.update s.checkCreatureLists i l j).count creature =
      Function.update (fun j => (s.checkCreatureLists j).count creature) i (l.count creature) j :=
    fun j => Function.apply_update (fun _ l => l.count creature) s.checkCreatureLists i l j
  simp only [hnew]
  rw [Finset.sum_update_of_mem (Finset.mem_univ i), State.occurrences,
    ← Finset.add_sum_erase _ _ (Finset.mem_univ i), Finset.sdiff_singleton_eq_erase]
  omega

theorem bucketed_init : Bucketed (State.init (α := α)) := fun _ => by
  rw [State.occurrences]
  exact Finset.sum_eq_zero fun _ _ => rfl

/-- A creature that is taken out is in the lists once less. -/
theorem occurrences_sweep (s : State α) (w : Walk α) {creature : α} (h : s.list[w.it]? = some creature)
    (c : α) : (sweep s w creature).occurrences c + (if creature = c then 1 else 0) = s.occurrences c := by
  obtain ⟨a, b, hlist, ha⟩ := exists_split h
  have hcount := (perm_swapRemove a b creature).count_eq c
  have hupdate := occurrences_update s s.index (swapRemove s.list w.it) c
  rw [List.count_cons, ha, ← hlist] at hcount
  rw [State.list] at hcount hupdate
  simp only [beq_iff_eq] at hcount
  rw [State.occurrences, sweep, State.list]
  dsimp only
  omega

theorem occurrences_addCreatureCheck (s : State α) (creature : α) (random : Fin EVENT_CREATURECOUNT) (c : α)
    (h : s.inCheckCreaturesVector creature = false) :
    (addCreatureCheck s creature random).occurrences c = s.occurrences c + if creature = c then 1 else 0 := by
  have hupdate := occurrences_update s random (s.checkCreatureLists random ++ [creature]) c
  rw [List.count_append, List.count_singleton] at hupdate
  simp only [beq_iff_eq] at hupdate
  rw [addCreatureCheck]
  dsimp only
  rw [h, if_neg Bool.false_ne_true, State.occurrences]
  dsimp only
  omega

/-- What a round does, if it does anything. -/
theorem checkRound_cases (s : State α) :
    checkRound s = s ∨ checkRound s = endCheck s ∨
      ∃ w creature, s.walk = some w ∧ w.it < w.fin ∧ s.list[w.it]? = some creature ∧
        checkRound s = if s.creatureCheck creature then think s w creature else sweep s w creature := by
  rw [checkRound]
  cases hwalk : s.walk with
  | none => exact Or.inl rfl
  | some w =>
    dsimp only
    by_cases hit : w.it < w.fin
    · rw [if_pos hit]
      cases hread : s.list[w.it]? with
      | none => exact Or.inl rfl
      | some creature => exact Or.inr (Or.inr ⟨w, creature, rfl, hit, hread, rfl⟩)
    · rw [if_neg hit]
      exact Or.inr (Or.inl rfl)

/-- **One step** keeps the flags and the lists together. -/
theorem bucketed_step {s : State α} (h : Bucketed s) (action : Action α) : Bucketed (step s action) := by
  cases action with
  | addCreatureCheck creature random =>
    intro c
    have hc := h c
    rw [step]
    cases hflag : s.inCheckCreaturesVector creature with
    | true =>
      have hsame : (addCreatureCheck s creature random).inCheckCreaturesVector = s.inCheckCreaturesVector := by
        rw [addCreatureCheck]
        dsimp only
        rw [hflag, if_pos rfl]
      have hlists : (addCreatureCheck s creature random).occurrences c = s.occurrences c := by
        rw [addCreatureCheck]
        dsimp only
        rw [hflag, if_pos rfl]
        rfl
      rw [hlists, hsame]
      exact hc
    | false =>
      have hnew : (addCreatureCheck s creature random).inCheckCreaturesVector =
          Function.update s.inCheckCreaturesVector creature true := by
        rw [addCreatureCheck]
        dsimp only
        rw [hflag, if_neg Bool.false_ne_true]
      rw [occurrences_addCreatureCheck s creature random c hflag, hc, hnew]
      by_cases hcreature : creature = c
      · subst hcreature
        rw [Function.update_self, hflag, if_pos rfl]
        rfl
      · rw [Function.update_of_ne (Ne.symm hcreature), if_neg hcreature, Nat.add_zero]
  | removeCreatureCheck creature =>
    rw [step, removeCreatureCheck]
    split_ifs
    · exact h
    · exact h
  | checkCreatures =>
    rw [step, beginCheck]
    cases s.walk with
    | none => exact h
    | some w => exact h
  | round =>
    rw [step]
    rcases checkRound_cases s with heq | heq | ⟨w, creature, -, -, hread, heq⟩
    · rw [heq]
      exact h
    · rw [heq]
      exact h
    · rw [heq]
      split_ifs
      · exact h
      · intro c
        have hc := h c
        have hsweep := occurrences_sweep s w hread c
        have hnew : (sweep s w creature).inCheckCreaturesVector =
            Function.update s.inCheckCreaturesVector creature false := rfl
        rw [hc] at hsweep
        rw [hnew]
        by_cases hcreature : creature = c
        · subst hcreature
          rw [Function.update_self, if_neg Bool.false_ne_true]
          rw [if_pos rfl] at hsweep
          split_ifs at hsweep
          omega
        · rw [Function.update_of_ne (Ne.symm hcreature)]
          rw [if_neg hcreature] at hsweep
          exact hsweep

/-- **Every run**: the flags tell the creatures in the lists. -/
theorem run_bucketed (actions : List (Action α)) : Bucketed (Runs.run step State.init actions) := by
  have hstep : ∀ (s : State α) action, Bucketed s → Bucketed (step s action) :=
    fun _ action h => bucketed_step h action
  exact Runs.invariant_of_step step hstep bucketed_init actions

/-- In a list of the buckets no creature is twice. -/
theorem Bucketed.nodup {s : State α} (h : Bucketed s) (i : Fin EVENT_CREATURECOUNT) :
    (s.checkCreatureLists i).Nodup := by
  rw [List.nodup_iff_count_le_one]
  intro c
  have hle : (s.checkCreatureLists i).count c ≤ s.occurrences c :=
    Finset.single_le_sum (f := fun j => (s.checkCreatureLists j).count c) (fun _ _ => Nat.zero_le _)
      (Finset.mem_univ i)
  refine hle.trans ?_
  rw [h c]
  split_ifs <;> omega

end Flags

/-! ## A call -/

section Calls

variable {α : Type}

/-- The part of the list that is still to be gone through. -/
def rest (s : State α) (w : Walk α) : List α := (s.list.take w.fin).drop w.it

/-- **During a call**: the part to go through lies in the list, and with those who have thought and
those who have been taken out it has the creatures that were in the list at the start. -/
structure Walking (s : State α) (w : Walk α) : Prop where
  it_le : w.it ≤ w.fin
  fin_le : w.fin ≤ s.list.length
  nodup : w.present.Nodup
  perm : (w.thought ++ w.swept ++ rest s w).Perm w.present

/-- More creatures at the end of the list do not matter to a call. -/
theorem Walking.append {s s' : State α} {w : Walk α} (h : Walking s w) {l : List α}
    (hlist : s'.list = s.list ++ l) : Walking s' w where
  it_le := h.it_le
  fin_le := by
    rw [hlist, List.length_append]
    exact h.fin_le.trans (Nat.le_add_right _ _)
  nodup := h.nodup
  perm := by
    rw [rest, hlist, List.take_append_of_le_length h.fin_le]
    exact h.perm

theorem rest_eq_cons {s : State α} {w : Walk α} (hfin : w.fin ≤ s.list.length) {creature : α}
    (hit : w.it < w.fin) (hread : s.list[w.it]? = some creature) :
    rest s w = creature :: (s.list.take w.fin).drop (w.it + 1) := by
  have hlength : (s.list.take w.fin).length = w.fin := List.length_take_of_le hfin
  have hlt : w.it < (s.list.take w.fin).length := by rwa [hlength]
  have hget : (s.list.take w.fin)[w.it]? = some creature := by
    rw [List.getElem?_take_of_lt hit, hread]
  rw [rest, List.drop_eq_getElem_cons hlt, (List.getElem?_eq_some_iff.1 hget).2]

/-- The creature that is reached thinks. -/
theorem Walking.think {s : State α} {w : Walk α} (h : Walking s w) {creature : α} (hit : w.it < w.fin)
    (hread : s.list[w.it]? = some creature) :
    Walking (think s w creature) { w with it := w.it + 1, thought := w.thought ++ [creature] } where
  it_le := hit
  fin_le := h.fin_le
  nodup := h.nodup
  perm := by
    refine List.Perm.trans ?_ h.perm
    rw [rest_eq_cons h.fin_le hit hread]
    change (w.thought ++ [creature] ++ w.swept ++ (s.list.take w.fin).drop (w.it + 1)).Perm _
    rw [List.append_assoc, List.append_assoc, List.append_assoc, List.singleton_append]
    exact (List.perm_middle.symm).append_left _

/-- The start of a call. -/
theorem Walking.start {s : State α} (h : s.list.Nodup) : Walking s ⟨0, s.list.length, s.list, [], []⟩ where
  it_le := Nat.zero_le _
  fin_le := le_refl _
  nodup := h
  perm := by
    rw [rest, List.take_length]
    rfl

variable [DecidableEq α]

/-- The creature that is reached is taken out, and the part that is left loses no one else. -/
theorem Walking.sweep {s : State α} {w : Walk α} (h : Walking s w) {creature : α} (hit : w.it < w.fin)
    (hread : s.list[w.it]? = some creature) (hlast : w.it + 1 < w.fin → s.list.length = w.fin) :
    Walking (sweep s w creature) { w with fin := w.fin - 1, swept := w.swept ++ [creature] } := by
  obtain ⟨a, b, hlist, ha⟩ := exists_split hread
  have hnew : (CreatureCheck.sweep s w creature).list = swapRemove s.list w.it := by
    rw [CreatureCheck.sweep, State.list]
    exact Function.update_self _ _ _
  have hlength : (swapRemove s.list w.it).length = a.length + b.length := by
    rw [hlist, ← ha, length_swapRemove]
  have hlong : s.list.length = a.length + 1 + b.length := by
    rw [hlist, List.length_append, List.length_cons]
    omega
  have hfin := h.fin_le
  refine ⟨Nat.le_sub_one_of_lt hit, ?_, h.nodup, ?_⟩
  · rw [hnew, hlength]
    dsimp only
    omega
  · refine List.Perm.trans ?_ h.perm
    rw [rest_eq_cons h.fin_le hit hread, rest, hnew]
    dsimp only
    have hleft : (((swapRemove s.list w.it).take (w.fin - 1)).drop w.it).Perm
        ((s.list.take w.fin).drop (w.it + 1)) := by
      rcases Nat.lt_or_ge (w.it + 1) w.fin with hmore | hdone
      · have hall := hlast hmore
        rw [List.take_of_length_le (by omega), List.take_of_length_le (by omega), hlist, ← ha]
        exact perm_drop_swapRemove a b creature
      · rw [List.drop_eq_nil_of_le (by rw [List.length_take]; omega),
          List.drop_eq_nil_of_le (by rw [List.length_take]; omega)]
    rw [← List.append_assoc, List.append_assoc, List.singleton_append]
    exact ((hleft.cons creature).append_left _)

/-- A call that goes on walks on. -/
def InWalk (s : State α) : Prop := ∀ w, s.walk = some w → Walking s w

theorem list_addCreatureCheck (s : State α) (creature : α) (random : Fin EVENT_CREATURECOUNT) :
    ∃ l, (addCreatureCheck s creature random).list = s.list ++ l := by
  rw [addCreatureCheck]
  dsimp only
  split_ifs with hflag
  · exact ⟨[], (List.append_nil _).symm⟩
  · rw [State.list, State.list]
    dsimp only
    by_cases hindex : s.index = random
    · rw [hindex, Function.update_self]
      exact ⟨[creature], rfl⟩
    · rw [Function.update_of_ne hindex]
      exact ⟨[], (List.append_nil _).symm⟩

theorem walk_addCreatureCheck (s : State α) (creature : α) (random : Fin EVENT_CREATURECOUNT) :
    (addCreatureCheck s creature random).walk = s.walk := by
  rw [addCreatureCheck]
  dsimp only
  split_ifs <;> rfl

/-- **One step** keeps calls walking, if places are taken by creatures of the part that is gone
through. -/
theorem inWalk_step {s : State α} (hb : Bucketed s) (h : InWalk s) {action : Action α}
    (htakes : TakesLast s action) : InWalk (step s action) := by
  cases action with
  | addCreatureCheck creature random =>
    intro w hw
    obtain ⟨l, hl⟩ := list_addCreatureCheck s creature random
    rw [step, walk_addCreatureCheck] at hw
    exact (h w hw).append hl
  | removeCreatureCheck creature =>
    rw [step, removeCreatureCheck]
    split_ifs
    · exact fun w hw => (h w hw).append (l := []) (List.append_nil _).symm
    · exact h
  | checkCreatures =>
    rw [step, beginCheck]
    cases hwalk : s.walk with
    | none =>
      intro w hw
      obtain rfl := Option.some.inj hw
      exact (Walking.start (hb.nodup s.index)).append (l := []) (List.append_nil _).symm
    | some w => exact h
  | round =>
    rw [step]
    rcases checkRound_cases s with heq | heq | ⟨w, creature, hwalk, hit, hread, heq⟩
    · rw [heq]
      exact h
    · rw [heq]
      intro w hw
      cases hw
    · rw [heq]
      split_ifs with hcheck
      · intro w' hw
        obtain rfl := Option.some.inj hw
        exact (h w hwalk).think hit hread
      · intro w' hw
        obtain rfl := Option.some.inj hw
        rw [Bool.not_eq_true] at hcheck
        exact (h w hwalk).sweep hit hread fun hmore => htakes w creature hwalk hmore hread hcheck

/-- What a round does in a call that walks. -/
theorem InWalk.sound {s : State α} (h : InWalk s) (action : Action α) : Sound s action := by
  cases action with
  | addCreatureCheck creature random => trivial
  | removeCreatureCheck creature => trivial
  | checkCreatures => trivial
  | round =>
    intro w hwalk
    have hw := h w hwalk
    split_ifs with hit
    · have hlt := lt_of_lt_of_le hit hw.fin_le
      refine ⟨s.list[w.it], List.getElem?_eq_getElem hlt, ?_⟩
      rw [step, checkRound, hwalk]
      dsimp only
      rw [if_pos hit, List.getElem?_eq_getElem hlt]
    · refine ⟨?_, hw.nodup⟩
      have hrest : rest s w = [] := by
        rw [rest, List.drop_eq_nil_of_le (by rw [List.length_take]; omega)]
      have hperm := hw.perm
      rwa [hrest, List.append_nil] at hperm

/-- **Every run**: the flags tell the creatures in the lists, and if places are always taken by
creatures of the part that is gone through, every call reads inside of its list and goes through it
completely. -/
theorem run_checks {actions : List (Action α)} (hruns : Runs.Meets step TakesLast State.init actions) :
    (∀ m, m <+: actions → Bucketed (Runs.run step State.init m)) ∧
      ∀ m action, m ++ [action] <+: actions → Sound (Runs.run step State.init m) action := by
  refine ⟨fun m _ => run_bucketed m, fun m action hm => ?_⟩
  have hstep : ∀ (s : State α) action, Bucketed s ∧ InWalk s → TakesLast s action →
      Bucketed (step s action) ∧ InWalk (step s action) :=
    fun _ action h htakes => ⟨bucketed_step h.1 action, inWalk_step h.1 h.2 htakes⟩
  have hbefore : m <+: actions := (List.prefix_append m [action]).trans hm
  have hinit : Bucketed (State.init (α := α)) ∧ InWalk (State.init (α := α)) :=
    ⟨bucketed_init, fun w hw => (by cases hw)⟩
  exact (Runs.invariant step hstep hinit (hruns.of_prefix step hbefore)).2.sound action

/-- Two creatures in one list, of which the first has lost its check when the list is gone
through. -/
def sweepingActions : List (Action ℕ) :=
  [.addCreatureCheck 1 ⟨0, by decide⟩, .addCreatureCheck 2 ⟨0, by decide⟩, .removeCreatureCheck 1,
    .checkCreatures, .round, .round, .round]

theorem meets_sweepingActions : Runs.Meets step TakesLast State.init sweepingActions := by
  refine ⟨trivial, trivial, trivial, trivial, ?_, ?_, ?_, trivial⟩
  · intro w creature hw _ _ _
    obtain rfl := Option.some.inj hw
    rfl
  · intro w creature hw hmore
    obtain rfl := Option.some.inj hw
    exact absurd hmore (by decide)
  · intro w creature hw hmore
    obtain rfl := Option.some.inj hw
    exact absurd hmore (by decide)

theorem run_checks_sweeping :
    (∀ m, m <+: sweepingActions → Bucketed (Runs.run step State.init m)) ∧
      ∀ m action, m ++ [action] <+: sweepingActions → Sound (Runs.run step State.init m) action :=
  run_checks meets_sweepingActions

/-- Three creatures in one list: the first adds a fourth to it when it thinks, and the second has
lost its check. -/
def addingActions : List (Action ℕ) :=
  [.addCreatureCheck 1 ⟨0, by decide⟩, .addCreatureCheck 2 ⟨0, by decide⟩,
    .addCreatureCheck 3 ⟨0, by decide⟩, .removeCreatureCheck 2, .checkCreatures, .round,
    .addCreatureCheck 4 ⟨0, by decide⟩, .round, .round]

/-- The fourth creature takes the place of the second, and the third does not think in this call. -/
theorem not_checks_adding :
    ¬ ((∀ m, m <+: addingActions ++ [.round] → Bucketed (Runs.run step State.init m)) ∧
      ∀ m action, m ++ [action] <+: addingActions ++ [.round] →
        Sound (Runs.run step State.init m) action) := by
  rintro ⟨-, hsound⟩
  have hend := hsound addingActions .round (List.prefix_refl _) ⟨2, 2, [1, 2, 3], [1, 4], [2]⟩ rfl
  rw [if_neg (by decide)] at hend
  exact absurd hend.1 (by decide)

end Calls

end TiabloServer.CreatureCheck
