import TiabloServer.Lib.Runs

/-!
# Prey slots

`IOPrey::parsePreyAction` and `IOPrey::checkPlayerPreys` (`io/ioprey.cpp`) on the three prey slots
of a player. A slot has a monster for some time, and is occupied while it has. A monster is chosen
from a list of nine, or, after cards have been paid, named by the client.

Gold is what the player carries and has in the bank. What is drawn at random and the time are
arguments.

## Main definitions

* `Prey.Charged` — gold and cards are taken by a call that changes the slots.
* `Prey.Fair` — the steps that keep the slots sound and charge for a change.

## Main results

* `Prey.mem_reloadMonsterGrid` — the monsters of a new list are registered.
* `Prey.run_sound` — the slots are sound in every state of a run of fair steps, and the times do not
  wrap.
-/

namespace TiabloServer.Prey

/-! ## Slots -/

inductive PreyDataState where
  | Locked
  | Inactive
  | Active
  | Selection
  | SelectionChangeMonster
  | ListSelection
  | WildcardSelection
deriving DecidableEq

inductive PreyBonus where
  | Damage
  | Defense
  | Experience
  | Loot
  | None
deriving DecidableEq

def PreyOption_None : UInt8 := 0
def PreyOption_AutomaticReroll : UInt8 := 1
def PreyOption_Locked : UInt8 := 2

/-- `PreyAction_t`; `other` are the bytes that are none. -/
inductive PreyAction where
  | ListReroll
  | BonusReroll
  | MonsterSelection
  | ListAll_Cards
  | ListAll_Selection
  | Option
  | other
deriving DecidableEq

structure PreySlot where
  bonus : PreyBonus
  state : PreyDataState
  option : UInt8
  raceIdList : List UInt16
  bonusRarity : ℕ
  selectedRaceId : UInt16
  bonusPercentage : ℕ
  bonusTimeLeft : UInt16
  freeRerollTimeStamp : ℤ
deriving DecidableEq

/-- The slots of a player, by their number, and what is paid with. -/
structure Player where
  preys : Fin 3 → PreySlot
  gold : ℕ
  preyCards : ℕ
  level : ℕ

/-- What the grid reads of a monster. -/
structure MonsterType where
  experience : ℕ
  bestiaryStars : ℕ

/-- The configuration, and the bestiary with its monsters, in the order of their races. No race has
the id 0, which stands for no monster. -/
structure Server where
  preyEnabled : Bool
  bonusRerollPrice : ℕ
  selectionListPrice : ℕ
  bonusTime : ℕ
  freeRerollTime : ℕ
  rerollPriceLevel : ℕ
  bestiary : List UInt16
  getMonsterTypeByRaceId : UInt16 → Option MonsterType
  zero_notMem : 0 ∉ bestiary

/-- What is drawn for a bonus: a type, a type other than the one before, and a rarity above the one
before. -/
structure Rolls where
  bonus : PreyBonus
  otherBonus : PreyBonus → PreyBonus
  rarity : ℕ → ℕ
  otherBonus_ne : ∀ b, otherBonus b ≠ b
  lt_rarity : ∀ n, n < 9 → n < rarity n

namespace PreySlot

variable (slot : PreySlot)

def isOccupied : Bool := slot.selectedRaceId ≠ 0 && slot.bonusTimeLeft > 0

def canSelect : Bool :=
  slot.state = .Selection || slot.state = .SelectionChangeMonster || slot.state = .ListSelection ||
    slot.state = .Inactive

def eraseBonus (maintainBonus : Bool) : PreySlot :=
  let slot := if maintainBonus then slot else { slot with bonus := .None, bonusPercentage := 5, bonusRarity := 1 }
  { slot with state := .Selection, option := PreyOption_None, selectedRaceId := 0, bonusTimeLeft := 0 }

def removeMonsterType (raceId : UInt16) : PreySlot :=
  { slot with raceIdList := slot.raceIdList.filter (· ≠ raceId) }

/-- With the highest rarity the type is drawn until it is another one. -/
def reloadBonusType (rolls : Rolls) : PreySlot :=
  { slot with bonus := if slot.bonusRarity = 10 then rolls.otherBonus slot.bonus else rolls.bonus }

def reloadBonusValue (rolls : Rolls) : PreySlot :=
  let rarity := if slot.bonusRarity ≥ 9 then 10 else rolls.rarity slot.bonusRarity
  { slot with
    bonusRarity := rarity
    bonusPercentage :=
      match slot.bonus with
      | .Damage => 2 * rarity + 5
      | .Defense => 2 * rarity + 10
      | _ => 3 * rarity + 10 }

end PreySlot

/-! ## The grid of monsters -/

/-- How many monsters of each difficulty are still wanted. -/
structure Stages where
  one : ℕ
  two : ℕ
  three : ℕ
  four : ℕ

def stagesOf (level : ℕ) : Stages :=
  let levelStage := level / 100
  if levelStage = 0 then ⟨3, 3, 2, 1⟩
  else if levelStage ≤ 2 then ⟨1, 3, 3, 2⟩
  else if levelStage ≤ 4 then ⟨1, 2, 3, 3⟩
  else ⟨1, 1, 3, 4⟩

section Grid

variable (server : Server)

/-- One of nine monsters: whether it is taken, with what is wanted then and the tries so far. After
ten tries any monster is taken. -/
def tryMonster (stages : Stages) (tries : ℕ) (monster : MonsterType) : Option (Stages × ℕ) :=
  if stages.one ≠ 0 ∧ monster.bestiaryStars ≤ 1 then some ({ stages with one := stages.one - 1 }, tries)
  else if stages.two ≠ 0 ∧ monster.bestiaryStars = 2 then some ({ stages with two := stages.two - 1 }, tries)
  else if stages.three ≠ 0 ∧ monster.bestiaryStars = 3 then
    some ({ stages with three := stages.three - 1 }, tries)
  else if stages.four ≠ 0 ∧ monster.bestiaryStars ≥ 4 then
    some ({ stages with four := stages.four - 1 }, tries)
  else if tries ≥ 10 then some (stages, 0)
  else none

/-- The loop of `reloadMonsterGrid` over the races that are drawn. -/
def drawMonsters : List (Fin server.bestiary.length) → List UInt16 → Stages → ℕ → List UInt16 → List UInt16
  | [], _, _, _, raceIdList => raceIdList
  | draw :: draws, blackList, stages, tries, raceIdList =>
    if raceIdList.length < 9 then
      let raceId := server.bestiary.get draw
      let tries := (tries + 1) % 256
      if raceId ∈ blackList then drawMonsters draws blackList stages tries raceIdList
      else
        let blackList := blackList ++ [raceId]
        match server.getMonsterTypeByRaceId raceId with
        | none => drawMonsters draws blackList stages tries raceIdList
        | some monster =>
          if monster.experience = 0 then drawMonsters draws blackList stages tries raceIdList
          else
            match tryMonster stages tries monster with
            | some (stages, tries) => drawMonsters draws blackList stages tries (raceIdList ++ [raceId])
            | none => drawMonsters draws blackList stages tries raceIdList
    else raceIdList

def reloadMonsterGrid (slot : PreySlot) (blackList : List UInt16) (level : ℕ)
    (draws : List (Fin server.bestiary.length)) : PreySlot :=
  let slot := { slot with raceIdList := [] }
  if !server.preyEnabled then slot
  else if server.bestiary.length < 36 then slot
  else { slot with raceIdList := drawMonsters server draws blackList (stagesOf level) 0 [] }

end Grid

/-! ## Actions -/

section Actions

variable (server : Server) (player : Player)

def Player.setPrey (slotId : Fin 3) (slot : PreySlot) : Player :=
  { player with preys := Function.update player.preys slotId slot }

def Player.usePreyCards (amount : UInt16) : Option Player :=
  if player.preyCards < amount.toNat then none
  else some { player with preyCards := player.preyCards - amount.toNat }

/-- `Game::removeMoney` of what is carried and in the bank. -/
def Player.removeMoney (money : ℕ) : Option Player :=
  if player.gold < money then none else some { player with gold := player.gold - money }

def Player.getPreyRerollPrice : ℕ := player.level * server.rerollPriceLevel % 2 ^ 32

/-- Whether `getPreyWithMonster` finds a slot. -/
def Player.getPreyWithMonster (raceId : UInt16) : Bool :=
  server.preyEnabled && ((player.preys 0).selectedRaceId = raceId || (player.preys 1).selectedRaceId = raceId ||
    (player.preys 2).selectedRaceId = raceId)

def Player.getPreyBlackList : List UInt16 :=
  [player.preys 0, player.preys 1, player.preys 2].flatMap fun slot =>
    (if slot.isOccupied then [slot.selectedRaceId] else []) ++ slot.raceIdList

/-- The time and what is drawn in a call. -/
structure Chance where
  now : ℤ
  rolls : Rolls
  draws : List (Fin server.bestiary.length)

/-- A slot without its monster, for another one. -/
def PreySlot.rerolled (slot : PreySlot) : PreySlot :=
  let slot := slot.eraseBonus true
  if slot.bonus ≠ .None then { slot with state := .SelectionChangeMonster } else slot

/-- `PreyAction_ListReroll`: paid for before the free one is due. -/
def listReroll (chance : Chance server) (slotId : Fin 3) : Player :=
  let slot := player.preys slotId
  let paid :=
    if slot.freeRerollTimeStamp > chance.now then
      (player.removeMoney (player.getPreyRerollPrice server)).map fun player => (player, slot)
    else
      some (player, { slot with freeRerollTimeStamp := chance.now + server.freeRerollTime * 1000 })
  match paid with
  | none => player
  | some (player, slot) =>
    let player := player.setPrey slotId slot.rerolled
    player.setPrey slotId
      (reloadMonsterGrid server (player.preys slotId) player.getPreyBlackList player.level chance.draws)

/-- `PreyAction_ListAll_Cards`. -/
def listAllCards (slotId : Fin 3) : Player :=
  match player.usePreyCards (UInt16.ofNat server.selectionListPrice) with
  | none => player
  | some player =>
    player.setPrey slotId
      { player.preys slotId with bonusTimeLeft := 0, selectedRaceId := 0, state := .ListSelection }

/-- The monster is the one of the slot from now on. -/
def select (chance : Chance server) (slotId : Fin 3) (raceId : UInt16) : Player :=
  let slot := player.preys slotId
  let slot :=
    if slot.bonus = .None then (slot.reloadBonusType chance.rolls).reloadBonusValue chance.rolls else slot
  let slot := { slot with state := .Active, selectedRaceId := raceId }
  player.setPrey slotId
    { slot.removeMonsterType raceId with bonusTimeLeft := UInt16.ofNat server.bonusTime }

/-- `PreyAction_ListAll_Selection`. -/
def listAllSelection (chance : Chance server) (slotId : Fin 3) (raceId : UInt16) : Player :=
  let slot := player.preys slotId
  if slot.isOccupied then player
  else if !slot.canSelect || slot.state ≠ .ListSelection then player
  else if player.getPreyWithMonster server raceId then player
  else select server player chance slotId raceId

/-- An `int32_t` that is compared with a `size_t`. -/
def toSizeT (n : ℤ) : ℕ := (n % 2 ^ 64).toNat

/-- `PreyAction_MonsterSelection`. -/
def monsterSelection (chance : Chance server) (slotId : Fin 3) (index : Int8) : Player :=
  let slot := player.preys slotId
  if slot.isOccupied then player
  else if !slot.canSelect || index = -1 || toSizeT (index.toInt + 1) > slot.raceIdList.length then player
  else
    match slot.raceIdList[index.toInt.toNat]? with
    | none => player
    | some raceId =>
      if player.getPreyWithMonster server raceId then player else select server player chance slotId raceId

/-- The bonus is drawn again, and its time starts anew. -/
def PreySlot.reloadBonus (rolls : Rolls) (slot : PreySlot) : PreySlot :=
  { (slot.reloadBonusType rolls).reloadBonusValue rolls with bonusTimeLeft := UInt16.ofNat server.bonusTime }

/-- `PreyAction_BonusReroll`. -/
def bonusReroll (chance : Chance server) (slotId : Fin 3) : Player :=
  let slot := player.preys slotId
  if !slot.isOccupied then player
  else
    match player.usePreyCards (UInt16.ofNat server.bonusRerollPrice) with
    | none => player
    | some player => player.setPrey slotId (slot.reloadBonus server chance.rolls)

/-- `PreyAction_Option`: cards for it must be there. -/
def setOption (slotId : Fin 3) (option : UInt8) : Player :=
  if option = PreyOption_AutomaticReroll ∧ player.preyCards < server.bonusRerollPrice then player
  else if option = PreyOption_Locked ∧ player.preyCards < server.selectionListPrice then player
  else player.setPrey slotId { player.preys slotId with option := option }

/-- `parsePreyAction`: the slot is the one of the client, and need not exist. -/
def parsePreyAction (chance : Chance server) (slotId : UInt8) (action : PreyAction) (option : UInt8)
    (index : Int8) (raceId : UInt16) : Player :=
  if h : slotId.toNat < 3 then
    let slotId : Fin 3 := ⟨slotId.toNat, h⟩
    if (player.preys slotId).state = .Locked then player
    else
      match action with
      | .ListReroll => listReroll server player chance slotId
      | .ListAll_Cards => listAllCards server player slotId
      | .ListAll_Selection => listAllSelection server player chance slotId raceId
      | .BonusReroll => bonusReroll server player chance slotId
      | .MonsterSelection => monsterSelection server player chance slotId index
      | .Option => setOption server player slotId option
      | .other => player
  else player

/-- The time of an occupied slot is over: cards are paid for a new bonus or the same monster, if the
slot says so and they are there. -/
def expireSlot (rolls : Rolls) (slotId : Fin 3) : Player :=
  let slot := player.preys slotId
  let erased := player.setPrey slotId (slot.eraseBonus false)
  if slot.option = PreyOption_AutomaticReroll then
    match player.usePreyCards (UInt16.ofNat server.bonusRerollPrice) with
    | some player => player.setPrey slotId (slot.reloadBonus server rolls)
    | none => erased
  else if slot.option = PreyOption_Locked then
    match player.usePreyCards (UInt16.ofNat server.selectionListPrice) with
    | some player => player.setPrey slotId { slot with bonusTimeLeft := UInt16.ofNat server.bonusTime }
    | none => erased
  else erased

/-- A slot in the loop of `checkPlayerPreys`. -/
def checkSlot (rolls : Fin 3 → Rolls) (amount : UInt8) (slotId : Fin 3) : Player :=
  let slot := player.preys slotId
  if slot.isOccupied then
    if slot.bonusTimeLeft ≤ amount.toUInt16 then expireSlot server player (rolls slotId) slotId
    else player.setPrey slotId { slot with bonusTimeLeft := slot.bonusTimeLeft - amount.toUInt16 }
  else player

def checkPlayerPreys (rolls : Fin 3 → Rolls) (amount : UInt8) : Player :=
  Runs.run (fun player slotId => checkSlot server player rolls amount slotId) player [0, 1, 2]

end Actions

section Steps

variable (server : Server)

/-- The calls. -/
inductive Action where
  | parsePreyAction (chance : Chance server) (slotId : UInt8) (action : PreyAction) (option : UInt8)
    (index : Int8) (raceId : UInt16)
  | checkPlayerPreys (rolls : Fin 3 → Rolls) (amount : UInt8)

def step (player : Player) : Action server → Player
  | .parsePreyAction chance slotId action option index raceId =>
    parsePreyAction server player chance slotId action option index raceId
  | .checkPlayerPreys rolls amount => checkPlayerPreys server player rolls amount

/-- **The slots are sound**: those that are occupied are the active ones, their monsters are in the
bestiary, and no two of them have the same. -/
structure Sound (player : Player) : Prop where
  active_iff : ∀ i, (player.preys i).isOccupied = true ↔ (player.preys i).state = .Active
  registered : ∀ i, (player.preys i).isOccupied = true → (player.preys i).selectedRaceId ∈ server.bestiary
  distinct : ∀ i j, i ≠ j → (player.preys i).isOccupied = true → (player.preys j).isOccupied = true →
    (player.preys i).selectedRaceId ≠ (player.preys j).selectedRaceId

/-- The monsters that can be chosen are in the bestiary. -/
def Listed (player : Player) : Prop := ∀ i, ∀ raceId ∈ (player.preys i).raceIdList, raceId ∈ server.bestiary

/-- Gold and cards are taken by a call that changes the slots. -/
def Charged (player player' : Player) : Prop :=
  player'.gold ≠ player.gold ∨ player'.preyCards ≠ player.preyCards → player'.preys ≠ player.preys

/-- How a time goes on: it stays, it is over, it starts anew, or it is less by an amount that it
had. -/
def TimeStep (amount : UInt8) (time time' : UInt16) : Prop :=
  time' = time ∨ time' = 0 ∨ time' = UInt16.ofNat server.bonusTime ∨
    amount.toNat < time.toNat ∧ time'.toNat = time.toNat - amount.toNat

/-- The amount by which times go on in a call. -/
def Action.amount : Action server → UInt8
  | .parsePreyAction .. => 0
  | .checkPlayerPreys _ amount => amount

/-- What is asked of a call: gold and cards are taken for a change, and no time wraps. -/
def Correct (player : Player) (action : Action server) : Prop :=
  Charged player (step server player action) ∧
    ∀ i, TimeStep server action.amount (player.preys i).bonusTimeLeft
      ((step server player action).preys i).bonusTimeLeft

/-! ## Fair steps -/

/-- A monster can be given to a slot: it is in the bestiary and no other slot has it, which is
looked for only if preys are enabled, and it comes with some time. -/
def CanBeGiven (player : Player) (raceId : UInt16) : Prop :=
  raceId ∈ server.bestiary ∧
    (server.preyEnabled = false → ∀ i, (player.preys i).isOccupied = true →
      (player.preys i).selectedRaceId ≠ raceId) ∧
    UInt16.ofNat server.bonusTime ≠ 0

/-- The actions that keep the slots sound and charge for a change. -/
def FairAction (player : Player) (chance : Chance server) (slotId : Fin 3) (index : Int8) (raceId : UInt16) :
    PreyAction → Prop
  | .ListReroll =>
    -- Another list for the same slot, or a slot that is not waiting for a choice already.
    let slot := player.preys slotId
    slot.freeRerollTimeStamp > chance.now → player.getPreyRerollPrice server ≠ 0 →
      slot.rerolled ≠ slot ∨
        (reloadMonsterGrid server slot (player.setPrey slotId slot.rerolled).getPreyBlackList player.level
          chance.draws).raceIdList ≠ slot.raceIdList
  | .ListAll_Cards =>
    -- The slot does not have the whole list already.
    let slot := player.preys slotId
    UInt16.ofNat server.selectionListPrice ≠ 0 →
      slot.bonusTimeLeft ≠ 0 ∨ slot.selectedRaceId ≠ 0 ∨ slot.state ≠ .ListSelection
  | .ListAll_Selection =>
    (player.preys slotId).isOccupied = false → (player.preys slotId).state = .ListSelection →
      player.getPreyWithMonster server raceId = false → CanBeGiven server player raceId
  | .MonsterSelection =>
    ∀ raceId, (player.preys slotId).raceIdList[index.toInt.toNat]? = some raceId →
      (player.preys slotId).isOccupied = false → player.getPreyWithMonster server raceId = false →
        CanBeGiven server player raceId
  | .BonusReroll => (player.preys slotId).isOccupied = true → UInt16.ofNat server.bonusTime ≠ 0
  | .Option => True
  | .other => True

/-- A slot whose time is over can be paid for, if it gets another time by it. -/
def FairSlot (amount : UInt8) (player : Player) (slotId : Fin 3) : Prop :=
  let slot := player.preys slotId
  slot.isOccupied = true → slot.bonusTimeLeft ≤ amount.toUInt16 →
    (slot.option = PreyOption_AutomaticReroll ∨ slot.option = PreyOption_Locked →
      UInt16.ofNat server.bonusTime ≠ 0) ∧
    (slot.option = PreyOption_Locked → UInt16.ofNat server.selectionListPrice ≠ 0 →
      UInt16.ofNat server.bonusTime ≠ slot.bonusTimeLeft)

/-- **Fair steps.** -/
def Fair (player : Player) : Action server → Prop
  | .parsePreyAction chance slotId action _ index raceId =>
    ∀ h : slotId.toNat < 3, FairAction server player chance ⟨slotId.toNat, h⟩ index raceId action
  | .checkPlayerPreys rolls amount =>
    Runs.Meets (fun player slotId => checkSlot server player rolls amount slotId) (FairSlot server amount)
      player [0, 1, 2]

end Steps

/-! ## Slots that change -/

section Slots

variable {server : Server} {player : Player}

/-- A slot by itself: occupied if active, with a registered monster, and with registered monsters to
choose. -/
structure SlotSound (server : Server) (slot : PreySlot) : Prop where
  active_iff : slot.isOccupied = true ↔ slot.state = .Active
  registered : slot.isOccupied = true → slot.selectedRaceId ∈ server.bestiary
  listed : ∀ raceId ∈ slot.raceIdList, raceId ∈ server.bestiary

/-- The slots are sound, and offer monsters of the bestiary. -/
def Kept (server : Server) (player : Player) : Prop := Sound server player ∧ Listed server player

theorem Kept.slot (h : Kept server player) (i : Fin 3) : SlotSound server (player.preys i) :=
  ⟨h.1.active_iff i, h.1.registered i, h.2 i⟩

@[simp]
theorem preys_setPrey_self (slotId : Fin 3) (slot : PreySlot) :
    (player.setPrey slotId slot).preys slotId = slot := Function.update_self _ _ _

theorem preys_setPrey_of_ne {slotId i : Fin 3} (h : i ≠ slotId) (slot : PreySlot) :
    (player.setPrey slotId slot).preys i = player.preys i := Function.update_of_ne h _ _

theorem setPrey_setPrey (slotId : Fin 3) (slot slot' : PreySlot) :
    (player.setPrey slotId slot).setPrey slotId slot' = player.setPrey slotId slot' := by
  rw [Player.setPrey, Player.setPrey, Player.setPrey]
  dsimp only
  rw [Function.update_idem]

/-- **One slot** is replaced by a sound one with a monster that no other slot has. -/
theorem Kept.setPrey (h : Kept server player) {slotId : Fin 3} {slot : PreySlot} (hslot : SlotSound server slot)
    (hfree : slot.isOccupied = true → ∀ j, j ≠ slotId → (player.preys j).isOccupied = true →
      (player.preys j).selectedRaceId ≠ slot.selectedRaceId) : Kept server (player.setPrey slotId slot) := by
  have hall : ∀ i, SlotSound server ((player.setPrey slotId slot).preys i) := by
    intro i
    by_cases hi : i = slotId
    · rw [hi, preys_setPrey_self]
      exact hslot
    · rw [preys_setPrey_of_ne hi]
      exact h.slot i
  refine ⟨⟨fun i => (hall i).active_iff, fun i => (hall i).registered, fun i j hij hi hj => ?_⟩,
    fun i => (hall i).listed⟩
  by_cases hi' : i = slotId
  · have hj' : j ≠ slotId := fun hj' => hij (hi'.trans hj'.symm)
    rw [hi', preys_setPrey_self] at hi ⊢
    rw [preys_setPrey_of_ne hj'] at hj ⊢
    exact (hfree hi j hj' hj).symm
  · rw [preys_setPrey_of_ne hi'] at hi ⊢
    by_cases hj' : j = slotId
    · rw [hj', preys_setPrey_self] at hj ⊢
      exact hfree hj i hi' hi
    · rw [preys_setPrey_of_ne hj'] at hj ⊢
      exact h.1.distinct i j hij hi hj

/-- One slot without a monster does not matter to the others. -/
theorem Kept.setPrey_empty (h : Kept server player) {slotId : Fin 3} {slot : PreySlot}
    (hoccupied : slot.isOccupied = false) (hstate : slot.state ≠ .Active)
    (hlisted : ∀ raceId ∈ slot.raceIdList, raceId ∈ server.bestiary) :
    Kept server (player.setPrey slotId slot) := by
  have hnot : slot.isOccupied ≠ true := by rw [hoccupied]; exact Bool.false_ne_true
  exact h.setPrey ⟨iff_of_false hnot hstate, fun h => absurd h hnot, hlisted⟩ fun h => absurd h hnot

/-- An occupied slot goes on with its monster. -/
theorem Kept.setPrey_same (h : Kept server player) {slotId : Fin 3} {slot : PreySlot}
    (hoccupied : (player.preys slotId).isOccupied = true) (htime : slot.bonusTimeLeft ≠ 0)
    (hstate : slot.state = (player.preys slotId).state)
    (hrace : slot.selectedRaceId = (player.preys slotId).selectedRaceId)
    (hlist : slot.raceIdList = (player.preys slotId).raceIdList) : Kept server (player.setPrey slotId slot) := by
  have hsound := h.slot slotId
  have hnew : slot.isOccupied = true := by
    rw [PreySlot.isOccupied, Bool.and_eq_true, decide_eq_true_iff, decide_eq_true_iff] at hoccupied ⊢
    exact ⟨hrace ▸ hoccupied.1, UInt16.pos_iff_ne_zero.2 htime⟩
  refine h.setPrey ⟨iff_of_true hnew ?_, fun _ => ?_, ?_⟩ fun _ j hj hjocc => ?_
  · rw [hstate]
    exact hsound.active_iff.1 hoccupied
  · rw [hrace]
    exact hsound.registered hoccupied
  · rw [hlist]
    exact hsound.listed
  · rw [hrace]
    exact h.1.distinct j slotId hj hjocc hoccupied

/-- What is paid does not matter to the slots. -/
theorem Kept.of_preys {player' : Player} (h : Kept server player) (hpreys : player'.preys = player.preys) :
    Kept server player' := by
  rw [Kept, Listed] at h ⊢
  obtain ⟨⟨hactive, hregistered, hdistinct⟩, hlisted⟩ := h
  constructor
  · constructor <;> rw [hpreys]
    · exact hactive
    · exact hregistered
    · exact hdistinct
  · rw [hpreys]
    exact hlisted

theorem usePreyCards_eq_some {amount : UInt16} {player' : Player} (h : player.usePreyCards amount = some player') :
    player'.preys = player.preys ∧ player'.gold = player.gold ∧
      player'.preyCards + amount.toNat = player.preyCards := by
  rw [Player.usePreyCards] at h
  split_ifs at h with hless
  obtain rfl := Option.some.inj h
  exact ⟨rfl, rfl, Nat.sub_add_cancel (Nat.le_of_not_lt hless)⟩

theorem removeMoney_eq_some {money : ℕ} {player' : Player} (h : player.removeMoney money = some player') :
    player'.preys = player.preys ∧ player'.preyCards = player.preyCards ∧ player'.level = player.level ∧
      player'.gold + money = player.gold := by
  rw [Player.removeMoney] at h
  split_ifs at h with hless
  obtain rfl := Option.some.inj h
  exact ⟨rfl, rfl, rfl, Nat.sub_add_cancel (Nat.le_of_not_lt hless)⟩

end Slots

/-! ## The calls -/

section Calls

variable {server : Server} {player : Player}

theorem mem_drawMonsters {draws : List (Fin server.bestiary.length)} {blackList : List UInt16} {stages : Stages}
    {tries : ℕ} {raceIdList : List UInt16} (h : ∀ raceId ∈ raceIdList, raceId ∈ server.bestiary) :
    ∀ raceId ∈ drawMonsters server draws blackList stages tries raceIdList, raceId ∈ server.bestiary := by
  induction draws generalizing blackList stages tries raceIdList with
  | nil => exact h
  | cons draw draws ih =>
    rw [drawMonsters]
    split_ifs with hlength
    · dsimp only
      split_ifs with hblack
      · exact ih h
      · cases server.getMonsterTypeByRaceId (server.bestiary.get draw) with
        | none => exact ih h
        | some monster =>
          dsimp only
          split_ifs with hexperience
          · exact ih h
          · cases tryMonster stages ((tries + 1) % 256) monster with
            | none => exact ih h
            | some wanted =>
              refine ih fun raceId hmem => ?_
              rcases List.mem_append.1 hmem with hmem | hmem
              · exact h raceId hmem
              · rw [List.mem_singleton.1 hmem]
                exact List.get_mem _ _
    · exact h

/-- **A new list** has monsters of the bestiary. -/
theorem mem_reloadMonsterGrid (slot : PreySlot) (blackList : List UInt16) (level : ℕ)
    (draws : List (Fin server.bestiary.length)) :
    ∀ raceId ∈ (reloadMonsterGrid server slot blackList level draws).raceIdList, raceId ∈ server.bestiary := by
  rw [reloadMonsterGrid]
  dsimp only
  split_ifs
  · exact fun _ h => absurd h List.not_mem_nil
  · exact fun _ h => absurd h List.not_mem_nil
  · exact mem_drawMonsters fun _ h => absurd h List.not_mem_nil

/-- **A call on one slot** keeps the slots sound, leaves the others, lets the time go on, and
charges for a change. -/
structure SlotCall (server : Server) (amount : UInt8) (slotId : Fin 3) (player player' : Player) : Prop where
  kept : Kept server player'
  others : ∀ i, i ≠ slotId → player'.preys i = player.preys i
  time : TimeStep server amount (player.preys slotId).bonusTimeLeft (player'.preys slotId).bonusTimeLeft
  charged : player'.gold ≠ player.gold ∨ player'.preyCards ≠ player.preyCards →
    player'.preys slotId ≠ player.preys slotId

theorem SlotCall.refl (h : Kept server player) (amount : UInt8) (slotId : Fin 3) :
    SlotCall server amount slotId player player where
  kept := h
  others _ _ := rfl
  time := Or.inl rfl
  charged hne := absurd hne (by simp)

/-- Another slot after a payment. -/
theorem SlotCall.paid {amount : UInt8} {slotId : Fin 3} {paid : Player} {slot : PreySlot}
    (hpreys : paid.preys = player.preys) (hkept : Kept server (player.setPrey slotId slot))
    (htime : TimeStep server amount (player.preys slotId).bonusTimeLeft slot.bonusTimeLeft)
    (hcharged : paid.gold ≠ player.gold ∨ paid.preyCards ≠ player.preyCards → slot ≠ player.preys slotId) :
    SlotCall server amount slotId player (paid.setPrey slotId slot) where
  kept := hkept.of_preys (by rw [Player.setPrey, Player.setPrey, hpreys])
  others i hi := by rw [preys_setPrey_of_ne hi, hpreys]
  time := by rwa [preys_setPrey_self]
  charged hne := by
    rw [preys_setPrey_self]
    exact hcharged hne

/-- Another slot without a payment. -/
theorem SlotCall.free {amount : UInt8} {slotId : Fin 3} {slot : PreySlot}
    (hkept : Kept server (player.setPrey slotId slot))
    (htime : TimeStep server amount (player.preys slotId).bonusTimeLeft slot.bonusTimeLeft) :
    SlotCall server amount slotId player (player.setPrey slotId slot) :=
  .paid rfl hkept htime fun hne => absurd hne (by simp)

theorem isOccupied_of_time {slot : PreySlot} (h : slot.bonusTimeLeft = 0) : slot.isOccupied = false := by
  rw [PreySlot.isOccupied, h]
  simp

theorem eraseBonus_empty (slot : PreySlot) (maintainBonus : Bool) :
    (slot.eraseBonus maintainBonus).bonusTimeLeft = 0 ∧ (slot.eraseBonus maintainBonus).state = .Selection ∧
      (slot.eraseBonus maintainBonus).raceIdList = slot.raceIdList := by
  cases maintainBonus <;> exact ⟨rfl, rfl, rfl⟩

theorem rerolled_empty (slot : PreySlot) : slot.rerolled.bonusTimeLeft = 0 ∧ slot.rerolled.state ≠ .Active := by
  rw [PreySlot.rerolled]
  split_ifs
  · exact ⟨(eraseBonus_empty slot true).1, by simp⟩
  · rw [(eraseBonus_empty slot true).2.1]
    exact ⟨(eraseBonus_empty slot true).1, by simp⟩

/-- The grid changes the list alone. -/
theorem reloadMonsterGrid_eq (slot : PreySlot) (blackList : List UInt16) (level : ℕ)
    (draws : List (Fin server.bestiary.length)) :
    reloadMonsterGrid server slot blackList level draws =
      { slot with raceIdList := (reloadMonsterGrid server slot blackList level draws).raceIdList } := by
  rw [reloadMonsterGrid]
  split_ifs <;> rfl

/-- The new list does not depend on the slot. -/
theorem raceIdList_reloadMonsterGrid (slot slot' : PreySlot) (blackList : List UInt16) (level : ℕ)
    (draws : List (Fin server.bestiary.length)) : (reloadMonsterGrid server slot blackList level draws).raceIdList =
      (reloadMonsterGrid server slot' blackList level draws).raceIdList := by
  rw [reloadMonsterGrid, reloadMonsterGrid]
  split_ifs <;> rfl

theorem raceIdList_rerolled (slot : PreySlot) : slot.rerolled.raceIdList = slot.raceIdList := by
  rw [PreySlot.rerolled]
  split_ifs
  · exact (eraseBonus_empty slot true).2.2
  · exact (eraseBonus_empty slot true).2.2

/-- A slot that waits for a choice from a new list. -/
theorem Kept.setPrey_grid (h : Kept server player) (slotId : Fin 3) (slot : PreySlot) (blackList : List UInt16)
    (level : ℕ) (draws : List (Fin server.bestiary.length)) :
    Kept server (player.setPrey slotId (reloadMonsterGrid server slot.rerolled blackList level draws)) := by
  have hgrid := reloadMonsterGrid_eq slot.rerolled blackList level draws
  refine h.setPrey_empty (isOccupied_of_time ?_) ?_ (mem_reloadMonsterGrid _ _ _ _)
  · rw [hgrid]
    exact (rerolled_empty slot).1
  · rw [hgrid]
    exact (rerolled_empty slot).2

theorem listReroll_call (h : Kept server player) {chance : Chance server} {slotId : Fin 3} {index : Int8}
    {raceId : UInt16} (hfair : FairAction server player chance slotId index raceId .ListReroll) :
    SlotCall server 0 slotId player (listReroll server player chance slotId) := by
  have htime : ∀ slot blackList level, TimeStep server 0 (player.preys slotId).bonusTimeLeft
      (reloadMonsterGrid server (PreySlot.rerolled slot) blackList level chance.draws).bonusTimeLeft := by
    intro slot blackList level
    rw [reloadMonsterGrid_eq]
    exact Or.inr (Or.inl (rerolled_empty slot).1)
  rw [listReroll]
  dsimp only
  by_cases hdue : (player.preys slotId).freeRerollTimeStamp > chance.now
  · rw [if_pos hdue]
    cases hpay : player.removeMoney (player.getPreyRerollPrice server) with
    | none => exact .refl h 0 slotId
    | some paid =>
      obtain ⟨hpreys, hcards, hlevel, hgold⟩ := removeMoney_eq_some hpay
      dsimp only [Option.map_some]
      rw [preys_setPrey_self, setPrey_setPrey]
      refine .paid hpreys (h.setPrey_grid slotId _ _ _ _) (htime _ _ _) fun hne heq => ?_
      have hprice : player.getPreyRerollPrice server ≠ 0 := by
        intro hprice
        rw [hprice, Nat.add_zero] at hgold
        rcases hne with hne | hne
        · exact hne hgold
        · exact hne hcards
      have hblack : (paid.setPrey slotId (player.preys slotId).rerolled).getPreyBlackList =
          (player.setPrey slotId (player.preys slotId).rerolled).getPreyBlackList := by
        rw [Player.getPreyBlackList, Player.getPreyBlackList, Player.setPrey, Player.setPrey, hpreys]
      have hlevels : (paid.setPrey slotId (player.preys slotId).rerolled).level = player.level := hlevel
      rw [hblack, hlevels] at heq
      have hlist := congrArg PreySlot.raceIdList heq
      rw [reloadMonsterGrid_eq] at heq
      rcases hfair hdue hprice with hslot | hgrid
      · rw [hlist, ← raceIdList_rerolled] at heq
        exact hslot heq
      · rw [raceIdList_reloadMonsterGrid _ (player.preys slotId)] at hlist
        exact hgrid hlist
  · rw [if_neg hdue]
    dsimp only
    rw [preys_setPrey_self, setPrey_setPrey]
    exact .free (h.setPrey_grid slotId _ _ _ _) (htime _ _ _)

theorem listAllCards_call (h : Kept server player) {chance : Chance server} {slotId : Fin 3} {index : Int8}
    {raceId : UInt16} (hfair : FairAction server player chance slotId index raceId .ListAll_Cards) :
    SlotCall server 0 slotId player (listAllCards server player slotId) := by
  rw [listAllCards]
  cases hpay : player.usePreyCards (UInt16.ofNat server.selectionListPrice) with
  | none => exact .refl h 0 slotId
  | some paid =>
    obtain ⟨hpreys, hgold, hcards⟩ := usePreyCards_eq_some hpay
    dsimp only
    rw [hpreys]
    refine .paid hpreys (h.setPrey_empty (isOccupied_of_time rfl) (by simp) (h.2 slotId))
      (Or.inr (Or.inl rfl)) fun hne heq => ?_
    have hprice : UInt16.ofNat server.selectionListPrice ≠ 0 := by
      intro hprice
      rw [hprice, UInt16.toNat_zero, Nat.add_zero] at hcards
      rcases hne with hne | hne
      · exact hne hgold
      · exact hne hcards
    have hslot := hfair hprice
    rw [← heq] at hslot
    simp at hslot

variable (player) in
/-- What a slot is that gets a monster. -/
theorem select_eq (chance : Chance server) (slotId : Fin 3) (raceId : UInt16) :
    ∃ slot, select server player chance slotId raceId = player.setPrey slotId slot ∧ slot.state = .Active ∧
      slot.selectedRaceId = raceId ∧ slot.bonusTimeLeft = UInt16.ofNat server.bonusTime ∧
      slot.raceIdList = (player.preys slotId).raceIdList.filter (· ≠ raceId) := by
  refine ⟨_, rfl, rfl, rfl, rfl, ?_⟩
  dsimp only [PreySlot.removeMonsterType]
  split_ifs <;> rfl

theorem ne_of_getPreyWithMonster {raceId : UInt16} (h : player.getPreyWithMonster server raceId = false)
    (henabled : server.preyEnabled = true) (i : Fin 3) : (player.preys i).selectedRaceId ≠ raceId := by
  rw [Player.getPreyWithMonster, henabled, Bool.true_and, Bool.or_eq_false_iff, Bool.or_eq_false_iff,
    decide_eq_false_iff_not, decide_eq_false_iff_not, decide_eq_false_iff_not] at h
  obtain ⟨⟨h0, h1⟩, h2⟩ := h
  fin_cases i
  · exact h0
  · exact h1
  · exact h2

/-- A slot gets a monster that can be given. -/
theorem select_call (h : Kept server player) {chance : Chance server} {slotId : Fin 3} {raceId : UInt16}
    (hnone : player.getPreyWithMonster server raceId = false) (hgiven : CanBeGiven server player raceId) :
    SlotCall server 0 slotId player (select server player chance slotId raceId) := by
  obtain ⟨hmem, hdisabled, htime⟩ := hgiven
  obtain ⟨slot, heq, hstate, hrace, htimeLeft, hlist⟩ :=
    select_eq player chance slotId raceId
  have hzero : raceId ≠ 0 := by
    rintro rfl
    exact server.zero_notMem hmem
  have hoccupied : slot.isOccupied = true := by
    rw [PreySlot.isOccupied, Bool.and_eq_true, decide_eq_true_iff, decide_eq_true_iff, hrace, htimeLeft]
    exact ⟨hzero, UInt16.pos_iff_ne_zero.2 htime⟩
  rw [heq]
  refine .free (h.setPrey ⟨iff_of_true hoccupied hstate, fun _ => hrace ▸ hmem, ?_⟩ ?_) ?_
  · intro r hr
    rw [hlist] at hr
    exact h.2 slotId r (List.mem_filter.1 hr).1
  · intro _ j _ hj
    rw [hrace]
    cases henabled : server.preyEnabled with
    | true => exact ne_of_getPreyWithMonster hnone henabled j
    | false => exact hdisabled henabled j hj
  · exact Or.inr (Or.inr (Or.inl htimeLeft))

theorem listAllSelection_call (h : Kept server player) {chance : Chance server} {slotId : Fin 3}
    {index : Int8} {raceId : UInt16}
    (hfair : FairAction server player chance slotId index raceId .ListAll_Selection) :
    SlotCall server 0 slotId player (listAllSelection server player chance slotId raceId) := by
  rw [listAllSelection]
  split_ifs with hoccupied hselect hmonster
  · exact .refl h 0 slotId
  · exact .refl h 0 slotId
  · exact .refl h 0 slotId
  · rw [Bool.not_eq_true] at hoccupied hmonster
    simp only [Bool.or_eq_true, decide_eq_true_iff, not_or, not_not, ne_eq] at hselect
    exact select_call h hmonster (hfair hoccupied hselect.2 hmonster)

theorem monsterSelection_call (h : Kept server player) {chance : Chance server} {slotId : Fin 3}
    {index : Int8} {raceId : UInt16}
    (hfair : FairAction server player chance slotId index raceId .MonsterSelection) :
    SlotCall server 0 slotId player (monsterSelection server player chance slotId index) := by
  rw [monsterSelection]
  split_ifs with hoccupied hselect
  · exact .refl h 0 slotId
  · exact .refl h 0 slotId
  · rw [Bool.not_eq_true] at hoccupied
    cases hread : (player.preys slotId).raceIdList[index.toInt.toNat]? with
    | none => exact .refl h 0 slotId
    | some r =>
      dsimp only
      split_ifs with hmonster
      · exact .refl h 0 slotId
      · rw [Bool.not_eq_true] at hmonster
        exact select_call h hmonster (hfair r hread hoccupied hmonster)

/-- A bonus that is drawn again is another one: its rarity is higher, or its type is another. -/
theorem reloadBonus_ne (rolls : Rolls) (slot : PreySlot) : slot.reloadBonus server rolls ≠ slot := by
  intro heq
  have hrarity := congrArg PreySlot.bonusRarity heq
  have hbonus := congrArg PreySlot.bonus heq
  rw [PreySlot.reloadBonus, PreySlot.reloadBonusValue, PreySlot.reloadBonusType] at hrarity hbonus
  dsimp only at hrarity hbonus
  split_ifs at hrarity with hhigh
  · rw [if_pos hrarity.symm] at hbonus
    exact rolls.otherBonus_ne slot.bonus hbonus
  · have hlt := rolls.lt_rarity slot.bonusRarity (Nat.lt_of_not_le hhigh)
    omega

theorem Kept.reloadBonus (h : Kept server player) {slotId : Fin 3}
    (hoccupied : (player.preys slotId).isOccupied = true) (htime : UInt16.ofNat server.bonusTime ≠ 0)
    (rolls : Rolls) : Kept server (player.setPrey slotId ((player.preys slotId).reloadBonus server rolls)) :=
  h.setPrey_same hoccupied htime rfl rfl rfl

theorem bonusReroll_call (h : Kept server player) {chance : Chance server} {slotId : Fin 3}
    {index : Int8} {raceId : UInt16} (hfair : FairAction server player chance slotId index raceId .BonusReroll) :
    SlotCall server 0 slotId player (bonusReroll server player chance slotId) := by
  rw [bonusReroll]
  split_ifs with hempty
  · exact .refl h 0 slotId
  · rw [Bool.not_eq_true, Bool.not_eq_false'] at hempty
    cases hpay : player.usePreyCards (UInt16.ofNat server.bonusRerollPrice) with
    | none => exact .refl h 0 slotId
    | some paid =>
      exact .paid (usePreyCards_eq_some hpay).1 (h.reloadBonus hempty (hfair hempty) _)
        (Or.inr (Or.inr (Or.inl rfl))) fun _ => reloadBonus_ne _ _

theorem setOption_call (h : Kept server player) (slotId : Fin 3) (option : UInt8) :
    SlotCall server 0 slotId player (setOption server player slotId option) := by
  have hslot := h.slot slotId
  rw [setOption]
  split_ifs
  · exact .refl h 0 slotId
  · exact .refl h 0 slotId
  · refine .free (h.setPrey ⟨hslot.active_iff, hslot.registered, hslot.listed⟩ ?_) (Or.inl rfl)
    exact fun hocc j hj hjocc => h.1.distinct j slotId hj hjocc hocc

/-- A slot whose time is over. -/
theorem expireSlot_call (h : Kept server player) {amount : UInt8} {slotId : Fin 3}
    (hoccupied : (player.preys slotId).isOccupied = true)
    (hover : (player.preys slotId).bonusTimeLeft ≤ amount.toUInt16)
    (hfair : FairSlot server amount player slotId) (rolls : Rolls) :
    SlotCall server amount slotId player (expireSlot server player rolls slotId) := by
  obtain ⟨htime, hlocked⟩ := hfair hoccupied hover
  have herased : SlotCall server amount slotId player
      (player.setPrey slotId ((player.preys slotId).eraseBonus false)) :=
    .free (h.setPrey_empty (isOccupied_of_time rfl) (by simp [PreySlot.eraseBonus])
      (by rw [(eraseBonus_empty _ _).2.2]; exact h.2 slotId)) (Or.inr (Or.inl rfl))
  rw [expireSlot]
  split_ifs with hreroll hlock
  · cases hpay : player.usePreyCards (UInt16.ofNat server.bonusRerollPrice) with
    | none => exact herased
    | some paid =>
      exact .paid (usePreyCards_eq_some hpay).1 (h.reloadBonus hoccupied (htime (Or.inl hreroll)) _)
        (Or.inr (Or.inr (Or.inl rfl))) fun _ => reloadBonus_ne _ _
  · cases hpay : player.usePreyCards (UInt16.ofNat server.selectionListPrice) with
    | none => exact herased
    | some paid =>
      obtain ⟨hpreys, hgold, hcards⟩ := usePreyCards_eq_some hpay
      refine .paid hpreys (h.setPrey_same hoccupied (htime (Or.inr hlock)) rfl rfl rfl)
        (Or.inr (Or.inr (Or.inl rfl))) fun hne heq => ?_
      have hprice : UInt16.ofNat server.selectionListPrice ≠ 0 := by
        intro hprice
        rw [hprice, UInt16.toNat_zero, Nat.add_zero] at hcards
        rcases hne with hne | hne
        · exact hne hgold
        · exact hne hcards
      exact hlocked hlock hprice (congrArg PreySlot.bonusTimeLeft heq)
  · exact herased

/-- One slot in the loop of `checkPlayerPreys`. -/
theorem checkSlot_call (h : Kept server player) {amount : UInt8} {slotId : Fin 3}
    (hfair : FairSlot server amount player slotId) (rolls : Fin 3 → Rolls) :
    SlotCall server amount slotId player (checkSlot server player rolls amount slotId) := by
  rw [checkSlot]
  split_ifs with hoccupied hover
  · exact expireSlot_call h hoccupied hover hfair _
  · have hless : amount.toNat < (player.preys slotId).bonusTimeLeft.toNat := by
      rw [UInt16.le_iff_toNat_le, UInt8.toNat_toUInt16] at hover
      omega
    have hsub : ((player.preys slotId).bonusTimeLeft - amount.toUInt16).toNat =
        (player.preys slotId).bonusTimeLeft.toNat - amount.toNat := by
      rw [UInt16.toNat_sub_of_le _ _ (by rw [UInt16.le_iff_toNat_le, UInt8.toNat_toUInt16]; omega),
        UInt8.toNat_toUInt16]
    refine .free (h.setPrey_same hoccupied ?_ rfl rfl rfl) (Or.inr (Or.inr (Or.inr ⟨hless, hsub⟩)))
    intro hzero
    dsimp only at hzero
    rw [hzero, UInt16.toNat_zero] at hsub
    omega
  · exact .refl h amount slotId

/-- **A call on some of the slots**, each of them once. -/
structure SlotsCall (server : Server) (amount : UInt8) (slots : List (Fin 3)) (player player' : Player) :
    Prop where
  kept : Kept server player'
  others : ∀ i, i ∉ slots → player'.preys i = player.preys i
  time : ∀ i, TimeStep server amount (player.preys i).bonusTimeLeft (player'.preys i).bonusTimeLeft
  charged : player'.gold ≠ player.gold ∨ player'.preyCards ≠ player.preyCards →
    ∃ i, player'.preys i ≠ player.preys i

theorem SlotsCall.refl (h : Kept server player) (amount : UInt8) (slots : List (Fin 3)) :
    SlotsCall server amount slots player player where
  kept := h
  others _ _ := rfl
  time _ := Or.inl rfl
  charged hne := absurd hne (by simp)

/-- What a call does to a slot that it comes to first stays so. -/
theorem SlotCall.cons {amount : UInt8} {slotId : Fin 3} {slots : List (Fin 3)} {next player' : Player}
    (hcall : SlotCall server amount slotId player next) (hnew : slotId ∉ slots)
    (hrest : SlotsCall server amount slots next player') :
    SlotsCall server amount (slotId :: slots) player player' where
  kept := hrest.kept
  others i hi := by
    obtain ⟨hne, hi⟩ := not_or.1 (mt List.mem_cons.2 hi)
    rw [hrest.others i hi, hcall.others i hne]
  time i := by
    by_cases hi : i = slotId
    · rw [hi, hrest.others slotId hnew]
      exact hcall.time
    · rw [← hcall.others i hi]
      exact hrest.time i
  charged hne := by
    by_cases hfirst : next.gold ≠ player.gold ∨ next.preyCards ≠ player.preyCards
    · exact ⟨slotId, by rw [hrest.others slotId hnew]; exact hcall.charged hfirst⟩
    · rw [not_or, not_not, not_not] at hfirst
      rw [← hfirst.1, ← hfirst.2] at hne
      obtain ⟨i, hi⟩ := hrest.charged hne
      by_cases heq : i = slotId
      · rw [heq, hrest.others slotId hnew] at hi
        exact absurd rfl hi
      · exact ⟨i, by rwa [hcall.others i heq] at hi⟩

theorem SlotCall.slots {amount : UInt8} {slotId : Fin 3} {player' : Player}
    (hcall : SlotCall server amount slotId player player') : SlotsCall server amount [slotId] player player' :=
  hcall.cons List.not_mem_nil (.refl hcall.kept amount [])

/-- **Which action it is**, or no action at all. -/
theorem parsePreyAction_call (h : Kept server player) {chance : Chance server} {slotId : UInt8}
    {action : PreyAction} {option : UInt8} {index : Int8} {raceId : UInt16}
    (hfair : Fair server player (.parsePreyAction chance slotId action option index raceId)) :
    ∃ slots, SlotsCall server 0 slots player
      (parsePreyAction server player chance slotId action option index raceId) := by
  rw [parsePreyAction]
  by_cases hslot : slotId.toNat < 3
  · rw [dif_pos hslot]
    have hfair := hfair hslot
    refine ⟨[⟨slotId.toNat, hslot⟩], ?_⟩
    dsimp only
    split_ifs
    · exact .refl h 0 _
    · cases action with
      | ListReroll => exact (listReroll_call h hfair).slots
      | BonusReroll => exact (bonusReroll_call h hfair).slots
      | MonsterSelection => exact (monsterSelection_call h hfair).slots
      | ListAll_Cards => exact (listAllCards_call h hfair).slots
      | ListAll_Selection => exact (listAllSelection_call h hfair).slots
      | Option => exact (setOption_call h _ option).slots
      | other => exact .refl h 0 _
  · rw [dif_neg hslot]
    exact ⟨[], .refl h 0 []⟩

/-- The loop of `checkPlayerPreys`, by induction on the slots it has still to come to. -/
theorem checkSlots_call (h : Kept server player) (rolls : Fin 3 → Rolls) (amount : UInt8)
    {slots : List (Fin 3)} (hnodup : slots.Nodup)
    (hfair : Runs.Meets (fun player slotId => checkSlot server player rolls amount slotId)
      (FairSlot server amount) player slots) : SlotsCall server amount slots player
      (Runs.run (fun player slotId => checkSlot server player rolls amount slotId) player slots) := by
  induction slots generalizing player with
  | nil => exact .refl h amount []
  | cons slotId slots ih =>
    obtain ⟨hnew, hnodup⟩ := List.nodup_cons.1 hnodup
    have hcall := checkSlot_call h hfair.1 rolls
    exact hcall.cons hnew (ih hcall.kept hnodup hfair.2)

/-- **A fair step** keeps the slots sound, and is correct. -/
theorem step_fair (h : Kept server player) {action : Action server} (hfair : Fair server player action) :
    Kept server (step server player action) ∧ Correct server player action := by
  have hcall : ∃ slots, SlotsCall server action.amount slots player (step server player action) := by
    cases action with
    | parsePreyAction chance slotId action option index raceId => exact parsePreyAction_call h hfair
    | checkPlayerPreys rolls amount =>
      exact ⟨[0, 1, 2], checkSlots_call h rolls amount (by decide) hfair⟩
  obtain ⟨slots, hcall⟩ := hcall
  refine ⟨hcall.kept, fun hne heq => ?_, hcall.time⟩
  obtain ⟨i, hi⟩ := hcall.charged hne
  exact hi (congrFun heq i)

end Calls

/-- **Runs of fair steps.** From sound slots with registered monsters to choose, the slots are sound
in every state, and every step takes gold and cards for a change alone and wraps no time. -/
theorem run_sound {server : Server} {player : Player} (h0 : Sound server player) (hlisted : Listed server player)
    {actions : List (Action server)} (hfair : Runs.Meets (step server) (Fair server) player actions) :
    (∀ before, before <+: actions → Sound server (Runs.run (step server) player before)) ∧
      ∀ before action, before ++ [action] <+: actions →
        Correct server (Runs.run (step server) player before) action := by
  have hkept : ∀ before, before <+: actions → Kept server (Runs.run (step server) player before) := by
    intro before hbefore
    exact Runs.invariant (step server) (P := Kept server) (fun _ _ h hfair => (step_fair h hfair).1)
      ⟨h0, hlisted⟩ (hfair.of_prefix (step server) hbefore)
  refine ⟨fun before hbefore => (hkept before hbefore).1, fun before action hbefore => ?_⟩
  have hmeets := hfair.of_prefix (step server) hbefore
  rw [Runs.meets_append] at hmeets
  have hstate := hkept before ((List.prefix_append before [action]).trans hbefore)
  exact (step_fair hstate hmeets.2.1).2

section Example

/-- A bestiary of one race. -/
def oneRace : Server where
  preyEnabled := true
  bonusRerollPrice := 1
  selectionListPrice := 5
  bonusTime := 7200
  freeRerollTime := 72000
  rerollPriceLevel := 200
  bestiary := [21]
  getMonsterTypeByRaceId _ := none
  zero_notMem := by decide

def emptySlot : PreySlot := ⟨.Damage, .Selection, PreyOption_None, [], 1, 0, 5, 0, 0⟩

def newPlayer : Player := ⟨fun _ => emptySlot, 1000, 10, 8⟩

def someChance : Chance oneRace where
  now := 0
  rolls := ⟨.Damage, fun b => if b = .Damage then .Defense else .Damage, fun n => n + 1,
    fun b => by cases b <;> decide, fun n _ => Nat.lt_succ_self n⟩
  draws := []

/-- Cards for the whole list, and then the race of the client. -/
def choose (raceId : UInt16) : List (Action oneRace) :=
  [.parsePreyAction someChance 0 .ListAll_Cards 0 0 0,
    .parsePreyAction someChance 0 .ListAll_Selection 0 0 raceId]

theorem sound_newPlayer : Sound oneRace newPlayer where
  active_iff := by decide
  registered := by decide
  distinct := by decide

theorem run_sound_choosing : Sound oneRace (Runs.run (step oneRace) newPlayer (choose 21)) := by
  refine (run_sound sound_newPlayer (by simp [Listed, newPlayer, emptySlot]) ?_).1 (choose 21)
    (List.prefix_refl _)
  refine ⟨fun _ _ => Or.inr (Or.inr (by simp [newPlayer, emptySlot])), ⟨fun _ _ _ _ => ?_, trivial⟩⟩
  exact ⟨by decide, fun hdisabled => absurd hdisabled (by decide), by decide⟩

/-- The client names a race of which nobody knows. -/
theorem not_sound_choosing :
    ¬ ∀ before, before <+: choose 22 → Sound oneRace (Runs.run (step oneRace) newPlayer before) := by
  intro hall
  have hsound := hall (choose 22) (List.prefix_refl _)
  exact absurd (hsound.registered 0 (by decide)) (by decide)

end Example

end TiabloServer.Prey
