import TiabloServer.Players.Prey

/-!
# Filling the grid of monsters

`PreySlot::reloadMonsterGrid` and `TaskHuntingSlot::reloadMonsterGrid` draw races until nine have
been taken. A race that is drawn comes on the black list, whether it is taken or not: it is taken
when its difficulty is still wanted, or when there have been ten tries.

## Main definitions

* `Prey.candidates` — the races of a difficulty that can be taken.
* `Prey.Fills` — the loop ends for draws in which each index recurs, with nine good races.

## Main results

* `Prey.Filling.draw` — what a round keeps.
* `Prey.fills_of_quotas` — the grid is filled where there are enough races of each difficulty.
* `Prey.not_filled_of_lt` — where there are not, draws that repeat each index 256 times never end.
* `Prey.fills_iff` — both slots are filled exactly when there are enough.
-/

namespace TiabloServer.Prey

/-! ## The functions of the source -/

/-- `TaskHuntingSlot::reloadMonsterGrid`, of the races of a slot. -/
def TaskHuntingSlot.reloadMonsterGrid (taskHuntingEnabled : Bool) (server : Server) (blackList : List UInt16)
    (level : ℕ) (draws : List (Fin server.bestiary.length)) : List UInt16 :=
  if !taskHuntingEnabled then []
  else if server.bestiary.length < 36 then []
  else drawMonsters server draws blackList (stagesOf level) 0 []

/-- The difficulties that `Stages` counts. -/
inductive Difficulty
  | one
  | two
  | three
  | four
  deriving DecidableEq, Repr

instance : Fintype Difficulty := ⟨{.one, .two, .three, .four}, fun d => by cases d <;> decide⟩

/-- The difficulty of a monster, by its stars. -/
def difficulty (stars : ℕ) : Difficulty :=
  if stars ≤ 1 then .one else if stars = 2 then .two else if stars = 3 then .three else .four

/-- What is still wanted of a difficulty. -/
def Stages.left (stages : Stages) : Difficulty → ℕ
  | .one => stages.one
  | .two => stages.two
  | .three => stages.three
  | .four => stages.four

/-- The variables of the loop. -/
structure Grid where
  blackList : List UInt16
  stages : Stages
  tries : ℕ
  raceIdList : List UInt16

section Grid

variable (server : Server)

/-- The difficulty of a race that gives experience. -/
def worth (raceId : UInt16) : Option (Difficulty) :=
  (server.getMonsterTypeByRaceId raceId).bind fun monster =>
    if monster.experience = 0 then none else some (difficulty monster.bestiaryStars)

/-- A round of the loop. -/
def draw (g : Grid) (i : Fin server.bestiary.length) : Grid :=
  if g.raceIdList.length < 9 then
    let raceId := server.bestiary.get i
    let g := { g with tries := (g.tries + 1) % 256 }
    if raceId ∈ g.blackList then g
    else
      let g := { g with blackList := g.blackList ++ [raceId] }
      match server.getMonsterTypeByRaceId raceId with
      | none => g
      | some monster =>
        if monster.experience = 0 then g
        else
          match tryMonster g.stages g.tries monster with
          | some (stages, tries) =>
            { g with stages := stages, tries := tries, raceIdList := g.raceIdList ++ [raceId] }
          | none => g
  else g

theorem foldl_draw_of_full {g : Grid} (h : ¬ g.raceIdList.length < 9)
    (draws : List (Fin server.bestiary.length)) : draws.foldl (draw server) g = g := by
  induction draws with
  | nil => rfl
  | cons i draws ih => rw [List.foldl_cons, draw, if_neg h, ih]

/-- The loop is made of its rounds. -/
theorem drawMonsters_eq (draws : List (Fin server.bestiary.length)) (g : Grid) :
    drawMonsters server draws g.blackList g.stages g.tries g.raceIdList =
      (draws.foldl (draw server) g).raceIdList := by
  induction draws generalizing g with
  | nil => rfl
  | cons i draws ih =>
    rw [drawMonsters, List.foldl_cons]
    by_cases hlt : g.raceIdList.length < 9
    · rw [if_pos hlt, draw, if_pos hlt]
      dsimp only
      split_ifs with hmem
      · exact ih { g with tries := (g.tries + 1) % 256 }
      · cases hmonster : server.getMonsterTypeByRaceId (server.bestiary.get i) with
        | none => exact ih ⟨_, _, _, _⟩
        | some monster =>
          dsimp only
          split_ifs with hexp
          · exact ih ⟨_, _, _, _⟩
          · cases htry : tryMonster g.stages ((g.tries + 1) % 256) monster with
            | none => exact ih ⟨_, _, _, _⟩
            | some taken => exact ih ⟨_, _, _, _⟩
    · rw [if_neg hlt, draw, if_neg hlt, foldl_draw_of_full server hlt]

end Grid

/-! ## Rounds -/

/-- A monster is taken because it is wanted, or after ten tries, or not at all. -/
theorem tryMonster_cases (stages : Stages) (tries : ℕ) (monster : MonsterType) :
    (∃ stages', tryMonster stages tries monster = some (stages', tries) ∧
      stages.left (difficulty monster.bestiaryStars) ≠ 0 ∧
      ∀ i, stages'.left i =
        if i = difficulty monster.bestiaryStars then stages.left i - 1 else stages.left i) ∨
    (stages.left (difficulty monster.bestiaryStars) = 0 ∧ 10 ≤ tries ∧
      tryMonster stages tries monster = some (stages, 0)) ∨
    (stages.left (difficulty monster.bestiaryStars) = 0 ∧ tries < 10 ∧
      tryMonster stages tries monster = none) := by
  have hrest (d : Difficulty) (hd : difficulty monster.bestiaryStars = d) (hzero : stages.left d = 0)
      (htry : tryMonster stages tries monster = if tries ≥ 10 then some (stages, 0) else none) :
      (stages.left (difficulty monster.bestiaryStars) = 0 ∧ 10 ≤ tries ∧
        tryMonster stages tries monster = some (stages, 0)) ∨
      (stages.left (difficulty monster.bestiaryStars) = 0 ∧ tries < 10 ∧
        tryMonster stages tries monster = none) := by
    rw [hd, htry]
    by_cases h : 10 ≤ tries
    · exact .inl ⟨hzero, h, if_pos h⟩
    · exact .inr ⟨hzero, not_le.1 h, if_neg h⟩
  obtain ⟨one, two, three, four⟩ := stages
  by_cases h1 : monster.bestiaryStars ≤ 1
  · have hd : difficulty monster.bestiaryStars = .one := if_pos h1
    by_cases hleft : one = 0
    · refine .inr (hrest .one hd hleft ?_)
      simp [tryMonster, hleft, show monster.bestiaryStars ≠ 2 by omega, show monster.bestiaryStars ≠ 3 by omega,
        show ¬ 4 ≤ monster.bestiaryStars by omega]
    · refine .inl ⟨⟨one - 1, two, three, four⟩, by simp [tryMonster, hleft, h1], by rw [hd]; exact hleft, ?_⟩
      rw [hd]
      intro i
      cases i <;> rfl
  by_cases h2 : monster.bestiaryStars = 2
  · have hd : difficulty monster.bestiaryStars = .two := by simp [difficulty, h2]
    by_cases hleft : two = 0
    · refine .inr (hrest .two hd hleft ?_)
      simp [tryMonster, hleft, h2]
    · refine .inl ⟨⟨one, two - 1, three, four⟩, by simp [tryMonster, hleft, h2], by rw [hd]; exact hleft, ?_⟩
      rw [hd]
      intro i
      cases i <;> rfl
  by_cases h3 : monster.bestiaryStars = 3
  · have hd : difficulty monster.bestiaryStars = .three := by simp [difficulty, h3]
    by_cases hleft : three = 0
    · refine .inr (hrest .three hd hleft ?_)
      simp [tryMonster, hleft, h3]
    · refine .inl ⟨⟨one, two, three - 1, four⟩, by simp [tryMonster, hleft, h3], by rw [hd]; exact hleft, ?_⟩
      rw [hd]
      intro i
      cases i <;> rfl
  · have hd : difficulty monster.bestiaryStars = .four := by simp [difficulty, h1, h2, h3]
    have h4 : 4 ≤ monster.bestiaryStars := by omega
    by_cases hleft : four = 0
    · refine .inr (hrest .four hd hleft ?_)
      simp [tryMonster, hleft, h1, h2, h3]
    · refine .inl ⟨⟨one, two, three, four - 1⟩, by simp [tryMonster, hleft, h1, h2, h3, h4],
        by rw [hd]; exact hleft, ?_⟩
      rw [hd]
      intro i
      cases i <;> rfl

section Rounds

variable {server : Server}

/-- What a round does with a race, while there are fewer than nine. -/
inductive Drawn (server : Server) (g : Grid) (raceId : UInt16) : Grid → Prop where
  | barred (h : raceId ∈ g.blackList) : Drawn server g raceId { g with tries := (g.tries + 1) % 256 }
  | worthless (h : raceId ∉ g.blackList) (hworth : worth server raceId = none) :
      Drawn server g raceId
        ⟨g.blackList ++ [raceId], g.stages, (g.tries + 1) % 256, g.raceIdList⟩
  | wanted (h : raceId ∉ g.blackList) (d : Difficulty) (hworth : worth server raceId = some d)
      (stages : Stages) (hleft : g.stages.left d ≠ 0)
      (hstages : ∀ i, stages.left i = if i = d then g.stages.left i - 1 else g.stages.left i) :
      Drawn server g raceId
        ⟨g.blackList ++ [raceId], stages, (g.tries + 1) % 256, g.raceIdList ++ [raceId]⟩
  | escaped (h : raceId ∉ g.blackList) (d : Difficulty) (hworth : worth server raceId = some d)
      (hleft : g.stages.left d = 0) (htries : 10 ≤ (g.tries + 1) % 256) :
      Drawn server g raceId ⟨g.blackList ++ [raceId], g.stages, 0, g.raceIdList ++ [raceId]⟩
  | wasted (h : raceId ∉ g.blackList) (d : Difficulty) (hworth : worth server raceId = some d)
      (hleft : g.stages.left d = 0) (htries : (g.tries + 1) % 256 < 10) :
      Drawn server g raceId
        ⟨g.blackList ++ [raceId], g.stages, (g.tries + 1) % 256, g.raceIdList⟩

theorem draw_drawn {g : Grid} (h : g.raceIdList.length < 9) (i : Fin server.bestiary.length) :
    Drawn server g (server.bestiary.get i) (draw server g i) := by
  rw [draw, if_pos h]
  dsimp only
  split_ifs with hmem
  · exact .barred hmem
  · cases hmonster : server.getMonsterTypeByRaceId (server.bestiary.get i) with
    | none => exact .worthless hmem (by rw [worth, hmonster]; rfl)
    | some monster =>
      dsimp only
      split_ifs with hexp
      · exact .worthless hmem (by rw [worth, hmonster]; exact if_pos hexp)
      · have hworth : worth server (server.bestiary.get i) = some (difficulty monster.bestiaryStars) := by
          rw [worth, hmonster]
          exact if_neg hexp
        rcases tryMonster_cases g.stages ((g.tries + 1) % 256) monster with
          ⟨stages, htry, hleft, hstages⟩ | ⟨hleft, htries, htry⟩ | ⟨hleft, htries, htry⟩
        · rw [htry]
          exact .wanted hmem _ hworth stages hleft hstages
        · rw [htry]
          exact .escaped hmem _ hworth hleft htries
        · rw [htry]
          exact .wasted hmem _ hworth hleft htries

end Rounds

/-! ## What rounds keep -/

section Spec

variable (server : Server)

/-- The races of a difficulty that can be taken. -/
def candidates (blackList : List UInt16) (i : Difficulty) : Finset UInt16 :=
  (server.bestiary.filter fun raceId => raceId ∉ blackList ∧ worth server raceId = some i).toFinset

/-- How many races of a difficulty have been taken. -/
def taken (raceIdList : List UInt16) (i : Difficulty) : ℕ :=
  (raceIdList.filter fun raceId => worth server raceId = some i).length

/-- Nine different races of the bestiary that are not on the black list. -/
structure Filled (blackList raceIdList : List UInt16) : Prop where
  length : raceIdList.length = 9
  nodup : raceIdList.Nodup
  good : ∀ raceId ∈ raceIdList, raceId ∈ server.bestiary ∧ raceId ∉ blackList

/-- Each index is drawn again and again. -/
def Recurs (f : ℕ → Fin server.bestiary.length) : Prop := ∀ i m, ∃ n, m ≤ n ∧ f n = i

/-- What the rounds keep: what is listed is good, the wanted ones are taken or still wanted, and a
race that has been drawn is listed unless no more of its difficulty are wanted. -/
structure Filling (blackList : List UInt16) (stages : Stages) (g : Grid) : Prop where
  barred : ∀ raceId ∈ blackList, raceId ∈ g.blackList
  nodup : g.raceIdList.Nodup
  length_le : g.raceIdList.length ≤ 9
  listed : ∀ raceId ∈ g.raceIdList, raceId ∈ server.bestiary ∧ raceId ∉ blackList ∧
    raceId ∈ g.blackList ∧ worth server raceId ≠ none
  quota : ∀ i, stages.left i ≤ g.stages.left i + taken server g.raceIdList i
  served : ∀ raceId ∈ g.blackList, raceId ∉ blackList → ∀ i, worth server raceId = some i →
    raceId ∈ g.raceIdList ∨ g.stages.left i = 0

/-- The grid after some draws. -/
def after (blackList : List UInt16) (level : ℕ) (f : ℕ → Fin server.bestiary.length) (n : ℕ) : Grid :=
  ((List.range n).map f).foldl (draw server) ⟨blackList, stagesOf level, 0, []⟩

end Spec

section Filling

variable {server : Server} {blackList : List UInt16} {stages : Stages} {g : Grid}

theorem taken_append (raceIdList : List UInt16) (raceId : UInt16) (i : Difficulty) :
    taken server (raceIdList ++ [raceId]) i =
      taken server raceIdList i + if worth server raceId = some i then 1 else 0 := by
  unfold taken
  split_ifs with h <;> simp [h]

variable (server) in
/-- The difficulties share the list. -/
theorem sum_taken_le (raceIdList : List UInt16) : ∑ i, taken server raceIdList i ≤ raceIdList.length := by
  induction raceIdList using List.reverseRecOn with
  | nil => simp [taken]
  | append_singleton l raceId ih =>
    simp only [taken_append, Finset.sum_add_distrib, List.length_append, List.length_singleton]
    refine Nat.add_le_add ih ?_
    cases worth server raceId with
    | none => simp
    | some d => simp

/-- They share all of it if it has no worthless race. -/
theorem sum_taken {raceIdList : List UInt16} (h : ∀ raceId ∈ raceIdList, worth server raceId ≠ none) :
    ∑ i, taken server raceIdList i = raceIdList.length := by
  induction raceIdList using List.reverseRecOn with
  | nil => simp [taken]
  | append_singleton l raceId ih =>
    have hworth := h raceId (by simp)
    simp only [taken_append, Finset.sum_add_distrib, List.length_append, List.length_singleton,
      ih fun r hr => h r (by simp [hr])]
    cases hd : worth server raceId with
    | none => exact absurd hd hworth
    | some d => simp

theorem Filling.start (blackList : List UInt16) (stages : Stages) :
    Filling server blackList stages ⟨blackList, stages, 0, []⟩ where
  barred _ h := h
  nodup := List.nodup_nil
  length_le := Nat.zero_le 9
  listed _ h := absurd h List.not_mem_nil
  quota _ := Nat.le_add_right _ _
  served _ h hne := absurd h hne

/-- A race that is taken. -/
theorem Filling.take (h : Filling server blackList stages g) (hlt : g.raceIdList.length < 9) {raceId : UInt16}
    (hmem : raceId ∈ server.bestiary) (hnot : raceId ∉ g.blackList) {d : Difficulty}
    (hworth : worth server raceId = some d) {stages' : Stages} {tries : ℕ}
    (hle : ∀ i, stages'.left i ≤ g.stages.left i)
    (hstages : ∀ i, g.stages.left i ≤ stages'.left i + if d = i then 1 else 0) :
    Filling server blackList stages ⟨g.blackList ++ [raceId], stages', tries, g.raceIdList ++ [raceId]⟩ where
  barred r hr := List.mem_append_left _ (h.barred r hr)
  nodup := by
    have hlisted : raceId ∉ g.raceIdList := fun hlisted => hnot (h.listed raceId hlisted).2.2.1
    simpa using h.nodup.concat hlisted
  length_le := by
    rw [List.length_append]
    exact hlt
  listed r hr := by
    rcases List.mem_append.1 hr with hr | hr
    · obtain ⟨hbestiary, hb, hg, hw⟩ := h.listed r hr
      exact ⟨hbestiary, hb, List.mem_append_left _ hg, hw⟩
    · obtain rfl := List.mem_singleton.1 hr
      exact ⟨hmem, fun hb => hnot (h.barred _ hb), by simp, by simp [hworth]⟩
  quota i := by
    have hquota := h.quota i
    have hi := hstages i
    rw [taken_append, hworth]
    simp only [Option.some.injEq]
    omega
  served r hr hb i hi := by
    rcases List.mem_append.1 hr with hr | hr
    · rcases h.served r hr hb i hi with hlisted | hzero
      · exact .inl (List.mem_append_left _ hlisted)
      · exact .inr (Nat.le_zero.1 (hzero ▸ hle i))
    · exact .inl (List.mem_append_right _ hr)

/-- A race that is not taken. -/
theorem Filling.leave (h : Filling server blackList stages g) {raceId : UInt16} {tries : ℕ}
    (hzero : ∀ d, worth server raceId = some d → g.stages.left d = 0) :
    Filling server blackList stages ⟨g.blackList ++ [raceId], g.stages, tries, g.raceIdList⟩ where
  barred r hr := List.mem_append_left _ (h.barred r hr)
  nodup := h.nodup
  length_le := h.length_le
  listed r hr := by
    obtain ⟨hbestiary, hb, hg, hw⟩ := h.listed r hr
    exact ⟨hbestiary, hb, List.mem_append_left _ hg, hw⟩
  quota := h.quota
  served r hr hb i hi := by
    rcases List.mem_append.1 hr with hr | hr
    · exact h.served r hr hb i hi
    · exact .inr (hzero i (List.mem_singleton.1 hr ▸ hi))

/-- **A round keeps it.** -/
theorem Filling.draw (h : Filling server blackList stages g) (i : Fin server.bestiary.length) :
    Filling server blackList stages (draw server g i) := by
  by_cases hlt : g.raceIdList.length < 9
  · have hmem : server.bestiary.get i ∈ server.bestiary := List.get_mem _ _
    have hdrawn := draw_drawn hlt i
    generalize Prey.draw server g i = g' at hdrawn ⊢
    cases hdrawn with
    | barred hnot => exact ⟨h.barred, h.nodup, h.length_le, h.listed, h.quota, h.served⟩
    | worthless hnot hworth => exact h.leave fun d hd => by rw [hworth] at hd; cases hd
    | wanted hnot d hworth stages' hleft hstages =>
      refine h.take hlt hmem hnot hworth (fun i => ?_) fun i => ?_
      · rw [hstages]
        split_ifs <;> omega
      · rw [hstages]
        by_cases hi : i = d
        · rw [if_pos hi, if_pos hi.symm]
          omega
        · rw [if_neg hi, if_neg (Ne.symm hi)]
          omega
    | escaped hnot d hworth hleft htries =>
      exact h.take hlt hmem hnot hworth (fun _ => le_rfl) fun _ => Nat.le_add_right _ _
    | wasted hnot d hworth hleft htries =>
      refine h.leave fun d' hd' => ?_
      rw [hworth] at hd'
      exact Option.some.inj hd' ▸ hleft
  · rw [Prey.draw, if_neg hlt]
    exact h

theorem after_succ (level : ℕ) (f : ℕ → Fin server.bestiary.length) (n : ℕ) :
    after server blackList level f (n + 1) = draw server (after server blackList level f n) (f n) := by
  simp [after, List.range_succ]

variable (server blackList) in
theorem filling_after (level : ℕ) (f : ℕ → Fin server.bestiary.length) (n : ℕ) :
    Filling server blackList (stagesOf level) (after server blackList level f n) := by
  induction n with
  | zero => exact Filling.start _ _
  | succ n ih =>
    rw [after_succ]
    exact ih.draw (f n)

/-- The two lists only grow. -/
theorem draw_grows (g : Grid) (i : Fin server.bestiary.length) :
    g.raceIdList.length ≤ (draw server g i).raceIdList.length ∧
      (∀ raceId ∈ g.blackList, raceId ∈ (draw server g i).blackList) ∧
      (g.raceIdList.length < 9 → server.bestiary.get i ∈ (draw server g i).blackList) := by
  by_cases hlt : g.raceIdList.length < 9
  · have hdrawn := draw_drawn hlt i
    generalize draw server g i = g' at hdrawn ⊢
    cases hdrawn with
    | barred hnot => exact ⟨le_rfl, fun _ h => h, fun _ => hnot⟩
    | worthless => exact ⟨le_rfl, fun _ h => List.mem_append_left _ h, fun _ => by simp⟩
    | wanted => exact ⟨by simp, fun _ h => List.mem_append_left _ h, fun _ => by simp⟩
    | escaped => exact ⟨by simp, fun _ h => List.mem_append_left _ h, fun _ => by simp⟩
    | wasted => exact ⟨le_rfl, fun _ h => List.mem_append_left _ h, fun _ => by simp⟩
  · rw [Prey.draw, if_neg hlt]
    exact ⟨le_rfl, fun _ h => h, fun h => absurd h hlt⟩

/-- While the grid is not filled, all that has been drawn is on the black list. -/
theorem drawn_mem_blackList (level : ℕ) (f : ℕ → Fin server.bestiary.length) (n : ℕ)
    (hlt : (after server blackList level f n).raceIdList.length < 9) :
    ∀ m < n, server.bestiary.get (f m) ∈ (after server blackList level f n).blackList := by
  induction n with
  | zero => intro m hm; omega
  | succ n ih =>
    intro m hm
    obtain ⟨hlength, hblack, hown⟩ := draw_grows (after server blackList level f n) (f n)
    rw [← after_succ] at hlength hblack hown
    have hlt' := hlength.trans_lt hlt
    rcases Nat.lt_succ_iff_lt_or_eq.1 hm with hm | rfl
    · exact hblack _ (ih hlt' m hm)
    · exact hown hlt'

/-! ## Enough races -/

/-- There is a time by which every index has been drawn. -/
theorem Recurs.all_drawn {f : ℕ → Fin server.bestiary.length} (hf : Recurs server f) :
    ∃ n, ∀ i, ∃ m < n, f m = i := by
  choose time hle htime using fun i => hf i 0
  refine ⟨Finset.univ.sup time + 1, fun i => ⟨time i, ?_, htime i⟩⟩
  exact Nat.lt_succ_of_le (Finset.le_sup (Finset.mem_univ i))

/-- Nine races are wanted at each level. -/
theorem sum_stagesOf (level : ℕ) : ∑ i, (stagesOf level).left i = 9 := by
  rw [stagesOf]
  split_ifs <;> rfl

/-- **Enough races** of each difficulty fill the grid.

**Proof sketch.** When every race has been drawn, of each difficulty either none are wanted any
more, so that the wanted ones have been taken, or all its races are listed. In both cases as many
are listed as were wanted, which are nine in all. -/
theorem fills_of_quotas {level : ℕ} (hquotas : ∀ i, (stagesOf level).left i ≤ (candidates server blackList i).card)
    {f : ℕ → Fin server.bestiary.length} (hf : Recurs server f) :
    ∃ n, Filled server blackList (after server blackList level f n).raceIdList := by
  obtain ⟨n, hn⟩ := hf.all_drawn
  have hkept := filling_after server blackList level f n
  refine ⟨n, le_antisymm hkept.length_le (not_lt.1 fun hlt => ?_), hkept.nodup,
    fun r hr => ⟨(hkept.listed r hr).1, (hkept.listed r hr).2.1⟩⟩
  have htaken (i : Difficulty) : (stagesOf level).left i ≤
      taken server (after server blackList level f n).raceIdList i := by
    by_cases hzero : (after server blackList level f n).stages.left i = 0
    · have hquota := hkept.quota i
      rwa [hzero, Nat.zero_add] at hquota
    · refine (hquotas i).trans ?_
      have hsub : candidates server blackList i ⊆
          ((after server blackList level f n).raceIdList.filter fun r => worth server r = some i).toFinset := by
        intro r hr
        simp only [candidates, List.mem_toFinset, List.mem_filter, decide_eq_true_eq] at hr ⊢
        obtain ⟨hbestiary, hb, hworth⟩ := hr
        obtain ⟨k, rfl⟩ := List.get_of_mem hbestiary
        obtain ⟨m, hm, rfl⟩ := hn k
        have hdrawn := drawn_mem_blackList level f n hlt m hm
        exact ⟨(hkept.served _ hdrawn hb i hworth).resolve_right hzero, hworth⟩
      exact (Finset.card_le_card hsub).trans (List.toFinset_card_le _)
  have hnine : ∑ i, (stagesOf level).left i = 9 := sum_stagesOf level
  have hsum := Finset.sum_le_sum fun i (_ : i ∈ Finset.univ) => htaken i
  have hlength := sum_taken_le server (after server blackList level f n).raceIdList
  omega

/-! ## Too few races -/

/-- Draws of each index 256 times in a row. -/
def repeated (hpos : 0 < server.bestiary.length) (m : ℕ) : Fin server.bestiary.length :=
  ⟨m / 256 % server.bestiary.length, Nat.mod_lt _ hpos⟩

theorem recurs_repeated (hpos : 0 < server.bestiary.length) : Recurs server (repeated hpos) := by
  intro i m
  refine ⟨256 * (i + server.bestiary.length * m), ?_, Fin.ext ?_⟩
  · have := Nat.le_mul_of_pos_left m hpos
    omega
  · show 256 * (i + server.bestiary.length * m) / 256 % server.bestiary.length = i
    rw [Nat.mul_div_cancel_left _ (by decide), Nat.add_mul_mod_self_left, Nat.mod_eq_of_lt i.isLt]

variable (blackList) in
/-- Along these draws no race is taken that is not wanted: the counter of the tries, of 8 bits, is
zero when the next race comes. -/
theorem repeated_wanted (hpos : 0 < server.bestiary.length) (level : ℕ) (n : ℕ) :
    ((after server blackList level (repeated hpos) n).raceIdList.length < 9 →
      (after server blackList level (repeated hpos) n).tries = n % 256) ∧
      ∀ i, (after server blackList level (repeated hpos) n).stages.left i +
        taken server (after server blackList level (repeated hpos) n).raceIdList i = (stagesOf level).left i := by
  induction n with
  | zero => exact ⟨fun _ => rfl, fun i => rfl⟩
  | succ n ih =>
    rw [after_succ]
    obtain ⟨htries, hquota⟩ := ih
    by_cases hlt' : (after server blackList level (repeated hpos) n).raceIdList.length < 9
    swap
    · rw [Prey.draw, if_neg hlt']
      exact ⟨fun h => absurd h hlt', hquota⟩
    have htries := htries hlt'
    have hblack : n % 256 ≠ 0 → server.bestiary.get (repeated hpos n) ∈
        (after server blackList level (repeated hpos) n).blackList := by
      intro hn
      have hsame : repeated hpos (n - 1) = repeated hpos n :=
        Fin.ext (by simp only [repeated]; rw [show (n - 1) / 256 = n / 256 by omega])
      rw [← hsame]
      exact drawn_mem_blackList level _ n hlt' (n - 1) (by omega)
    have hdrawn := draw_drawn hlt' (repeated hpos n)
    generalize after server blackList level (repeated hpos) n = g at *
    generalize Prey.draw server g (repeated hpos n) = g' at hdrawn ⊢
    have hone : (g.tries + 1) % 256 = (n + 1) % 256 := by omega
    cases hdrawn with
    | barred => exact ⟨fun _ => hone, hquota⟩
    | worthless => exact ⟨fun _ => hone, hquota⟩
    | wanted hnot d hworth stages hleft hstages =>
      refine ⟨fun _ => hone, fun i => ?_⟩
      have hi := hquota i
      simp only [taken_append, hworth, hstages, Option.some.injEq]
      by_cases hd : i = d
      · subst hd
        simp only [if_true]
        omega
      · rw [if_neg hd, if_neg (Ne.symm hd)]
        exact hi
    | escaped hnot d hworth hleft htries' =>
      -- only the first of the 256 draws is not barred, and it is the first try
      have hzero : n % 256 = 0 := not_not.1 fun hn => hnot (hblack hn)
      omega
    | wasted => exact ⟨fun _ => hone, hquota⟩

/-- **Too few races** of a difficulty: there are draws that never fill the grid. -/
theorem not_filled_of_lt (hpos : 0 < server.bestiary.length) {level : ℕ} {i : Difficulty}
    (hlt : (candidates server blackList i).card < (stagesOf level).left i) (n : ℕ) :
    ¬ Filled server blackList (after server blackList level (repeated hpos) n).raceIdList := by
  intro hfilled
  have hkept := filling_after server blackList level (repeated hpos) n
  have hquota := (repeated_wanted blackList hpos level n).2
  generalize after server blackList level (repeated hpos) n = g at *
  have hle (j : Difficulty) : taken server g.raceIdList j ≤ (stagesOf level).left j := by
    have := hquota j
    omega
  have hfew : taken server g.raceIdList i ≤ (candidates server blackList i).card := by
    have hnodup : (g.raceIdList.filter fun r => worth server r = some i).Nodup := hkept.nodup.filter _
    rw [taken, ← List.toFinset_card_of_nodup hnodup]
    refine Finset.card_le_card fun r hr => ?_
    simp only [candidates, List.mem_toFinset, List.mem_filter, decide_eq_true_eq] at hr ⊢
    exact ⟨(hkept.listed r hr.1).1, (hkept.listed r hr.1).2.1, hr.2⟩
  have hsum : ∑ j, taken server g.raceIdList j < ∑ j, (stagesOf level).left j :=
    Finset.sum_lt_sum (fun j _ => hle j) ⟨i, Finset.mem_univ i, hfew.trans_lt hlt⟩
  have hnine : ∑ j, (stagesOf level).left j = 9 := sum_stagesOf level
  have hlength := sum_taken fun r hr => (hkept.listed r hr).2.2.2
  have := hfilled.length
  omega

/-! ## Both slots -/

/-- Whatever is drawn, as long as each index recurs, the races that a function lists are complete in
the end. -/
def Fills (server : Server) (blackList : List UInt16)
    (raceIdList : List (Fin server.bestiary.length) → List UInt16) : Prop :=
  ∀ f, Recurs server f → ∃ n, Filled server blackList (raceIdList ((List.range n).map f))

theorem drawMonsters_after (level : ℕ) (f : ℕ → Fin server.bestiary.length) (n : ℕ) :
    drawMonsters server ((List.range n).map f) blackList (stagesOf level) 0 [] =
      (after server blackList level f n).raceIdList :=
  drawMonsters_eq server _ ⟨blackList, stagesOf level, 0, []⟩

theorem fills_drawMonsters (hpos : 0 < server.bestiary.length) (blackList : List UInt16) (level : ℕ) :
    Fills server blackList (fun draws => drawMonsters server draws blackList (stagesOf level) 0 []) ↔
      ∀ i, (stagesOf level).left i ≤ (candidates server blackList i).card := by
  simp only [Fills, drawMonsters_after]
  constructor
  · intro h i
    refine not_lt.1 fun hlt => ?_
    obtain ⟨n, hn⟩ := h (repeated hpos) (recurs_repeated hpos)
    exact not_filled_of_lt hpos hlt n hn
  · exact fun h f hf => fills_of_quotas h hf

theorem reloadMonsterGrid_enabled {slot : PreySlot} (henabled : server.preyEnabled = true)
    (hlength : 36 ≤ server.bestiary.length) (blackList : List UInt16) (level : ℕ) :
    (fun draws => (reloadMonsterGrid server slot blackList level draws).raceIdList) =
      fun draws => drawMonsters server draws blackList (stagesOf level) 0 [] := by
  funext draws
  simp [reloadMonsterGrid, henabled, not_lt.2 hlength]

theorem taskHunting_enabled (hlength : 36 ≤ server.bestiary.length) (blackList : List UInt16) (level : ℕ) :
    TaskHuntingSlot.reloadMonsterGrid true server blackList level =
      fun draws => drawMonsters server draws blackList (stagesOf level) 0 [] := by
  funext draws
  simp [TaskHuntingSlot.reloadMonsterGrid, not_lt.2 hlength]

end Filling

/-- **Both slots are filled**, whatever is drawn, exactly when there are as many races of each
difficulty that can be taken as are wanted at the level. -/
theorem fills_iff (server : Server) (henabled : server.preyEnabled = true)
    (hlength : 36 ≤ server.bestiary.length) (slot : PreySlot) (blackList : List UInt16) (level : ℕ) :
    (Fills server blackList (fun draws => (reloadMonsterGrid server slot blackList level draws).raceIdList) ↔
      ∀ i, (stagesOf level).left i ≤ (candidates server blackList i).card) ∧
    (Fills server blackList (TaskHuntingSlot.reloadMonsterGrid true server blackList level) ↔
      ∀ i, (stagesOf level).left i ≤ (candidates server blackList i).card) := by
  rw [reloadMonsterGrid_enabled henabled hlength, taskHunting_enabled hlength]
  exact ⟨fills_drawMonsters (by omega) blackList level, fills_drawMonsters (by omega) blackList level⟩

/-- A bestiary of 36 monsters that all have one star. -/
def easyBestiary : Server where
  preyEnabled := true
  bonusRerollPrice := 1
  selectionListPrice := 5
  bonusTime := 7200
  freeRerollTime := 72000
  rerollPriceLevel := 200
  bestiary := (List.range 36).map fun n => UInt16.ofNat (n + 1)
  getMonsterTypeByRaceId _ := some ⟨100, 1⟩
  zero_notMem := by decide

/-- An empty slot. -/
def lockedSlot : PreySlot := ⟨.None, .Locked, 0, [], 1, 0, 5, 0, 0⟩

/-- A bestiary with nine monsters of each difficulty. -/
def mixedBestiary : Server :=
  { easyBestiary with getMonsterTypeByRaceId := fun raceId => some ⟨100, raceId.toNat % 4 + 1⟩ }

theorem fills_iff_mixedBestiary :
    Fills mixedBestiary []
      (fun draws => (reloadMonsterGrid mixedBestiary lockedSlot [] 8 draws).raceIdList) := by
  refine (fills_iff mixedBestiary rfl (by decide) lockedSlot [] 8).1.2 fun i => ?_
  cases i <;> decide +kernel

/-- Three races of two stars are wanted at level 8, and there is none. -/
theorem not_fills_easyBestiary :
    ¬ Fills easyBestiary [] (fun draws => (reloadMonsterGrid easyBestiary lockedSlot [] 8 draws).raceIdList) ∧
      ¬ Fills easyBestiary [] (TaskHuntingSlot.reloadMonsterGrid true easyBestiary [] 8) := by
  have hnone : candidates easyBestiary [] .two = ∅ := by
    simp [candidates, worth, easyBestiary, difficulty]
  have hnot : ¬ Fills easyBestiary [] (fun draws => drawMonsters easyBestiary draws [] (stagesOf 8) 0 []) := by
    rw [fills_drawMonsters (by decide)]
    intro h
    have htwo := h .two
    rw [hnone] at htwo
    exact absurd htwo (by decide)
  rw [reloadMonsterGrid_enabled rfl (by decide), taskHunting_enabled (by decide)]
  exact ⟨hnot, hnot⟩

end TiabloServer.Prey
