import TiabloServer.Creatures.Conditions
import TiabloServer.Lib.Runs

/-!
# The conditions of a creature

`Creature` (`creature.cpp`) keeps its conditions in a list. Adding a condition refreshes the one
with the same type, id and sub id, or starts the new one and puts it at the end; removing and
executing go through the list with an iterator. What a condition does when it is started, executed,
refreshed or ended may add and remove other conditions in between, so that calls stand on a stack.

## Main definitions

* `ConditionList.Tidy` — the list has each key once, what was started and not ended, and not both of
  haste and paralyze.
* `ConditionList.Careful` — the steps that see the opposite of what they add and pull no condition
  away from under another call.
-/

namespace TiabloServer.ConditionList

open Conditions (ConditionType)

/-! ## State -/

/-- A condition: its key, and how long it lasts. -/
structure Condition where
  conditionType : ConditionType
  id : Int8
  subId : UInt32
  ticks : ℤ
  endTime : ℤ
  deriving DecidableEq, Repr

/-- Type, id and sub id. -/
def Condition.key (c : Condition) : ConditionType × Int8 × UInt32 := (c.conditionType, c.id, c.subId)

/-- A call that is going on. A position is a condition of the list, or `none` for the end. -/
inductive Frame where
  /-- `addCondition`, while `startCondition` is going on. -/
  | starting (c : ℕ)
  /-- `removeCondition` of a type, or of a type and an id; `delayed` says that a paralysis is not
  taken away before the next step (`getWalkDelay`), and `onAdd` that `onAddCondition` has called
  it. -/
  | removing (type : ConditionType) (id : Option Int8) (delayed onAdd : Bool) (position : Option ℕ)
  /-- `executeConditions`; `running` says that `executeCondition` is going on. -/
  | executing (running : Bool) (position : Option ℕ)
  deriving DecidableEq, Repr

/-- The position of a call in the list. -/
def Frame.position : Frame → Option ℕ
  | starting _ => none
  | removing _ _ _ _ position => position
  | executing _ position => position

/-- The creature. How often a condition was started and ended is history. -/
structure State where
  now : ℤ
  monster : Bool
  suppressed : ConditionType → Bool
  object : ℕ → Condition
  conditions : List ℕ
  frames : List Frame
  started : ℕ → ℕ
  ended : ℕ → ℕ

namespace State

/-- `Creature::getCondition` of a key. -/
def getCondition (s : State) (key : ConditionType × Int8 × UInt32) : Option ℕ :=
  s.conditions.find? fun c => (s.object c).key = key

/-- `Creature::hasCondition` with the sub id 0. -/
def hasCondition (s : State) (type : ConditionType) : Bool :=
  !s.suppressed type && s.conditions.any fun c =>
    (s.object c).conditionType = type && (s.object c).subId = 0 &&
      (s.now ≤ (s.object c).endTime || (s.object c).ticks = -1)

/-- Takes a condition out of the list and ends it. -/
def endCondition (s : State) (c : ℕ) : State :=
  { s with
    conditions := s.conditions.erase c
    ended := Function.update s.ended c (s.ended c + 1) }

end State

/-- The condition after one in the list. -/
def next (c : ℕ) : List ℕ → Option ℕ
  | [] => none
  | d :: l => if d = c then l.head? else next c l

/-- The type that `onAddCondition` takes away. -/
def opposite (type : ConditionType) : Option ConditionType :=
  if type = .paralyze then some .haste else if type = .haste then some .paralyze else none

/-! ## Steps -/

/-- A step: a call, which may come from a condition that is started, executed or ended, or the next
step of the call on top of the stack. -/
inductive Step where
  | elapse (ms : ℕ)
  /-- A type of conditions is suppressed, or no longer is. -/
  | suppress (type : ConditionType) (suppressed : Bool)
  /-- A condition is refreshed or executed, which changes its ticks and its end. -/
  | change (c : ℕ) (ticks endTime : ℤ)
  /-- `addCondition`; `suppressed` is `isSuppress` for the attacker. -/
  | addCondition (c : ℕ) (suppressed : Bool)
  /-- `startCondition` returns. -/
  | startReturns (result : Bool)
  /-- `removeCondition` of a type, or of a type and an id. -/
  | removeCondition (type : ConditionType) (id : Option Int8) (delayed : Bool)
  /-- `removeCondition` of a condition. -/
  | removeObject (c : ℕ)
  /-- The loop of `removeCondition` looks at its position. -/
  | removeNext
  | executeConditions
  /-- The loop of `executeConditions` looks at its position. -/
  | executeNext
  /-- `executeCondition` returns. -/
  | executeReturns (result : Bool)

/-- `addCondition` after `startCondition` has returned true. `Monster::onAddCondition` does not call
the one of `Creature`. -/
def startReturns (s : State) (c : ℕ) : State :=
  let s := { s with
    conditions := s.conditions ++ [c]
    started := Function.update s.started c (s.started c + 1) }
  if s.monster then s
  else
    match opposite (s.object c).conditionType with
    | none => s
    | some type =>
      if s.hasCondition type then
        { s with frames := .removing type none false true s.conditions.head? :: s.frames }
      else s

/-- The step function; a step that is not the next one does nothing. -/
def step (s : State) : Step → State
  | .elapse ms => { s with now := s.now + ms }
  | .suppress type suppressed => { s with suppressed := Function.update s.suppressed type suppressed }
  | .change c ticks endTime =>
    { s with
      object := Function.update s.object c ({ s.object c with ticks := ticks, endTime := endTime }) }
  | .addCondition c suppressed =>
    if suppressed then s
    else
      match s.getCondition (s.object c).key with
      | some _ => s
      | none => { s with frames := .starting c :: s.frames }
  | .startReturns result =>
    match s.frames with
    | .starting c :: frames =>
      if result then startReturns { s with frames := frames } c else { s with frames := frames }
    | _ => s
  | .removeCondition type id delayed =>
    { s with frames := .removing type id delayed false s.conditions.head? :: s.frames }
  | .removeObject c => if c ∈ s.conditions then s.endCondition c else s
  | .removeNext =>
    match s.frames with
    | .removing _ _ _ _ none :: frames => { s with frames := frames }
    | .removing type id delayed onAdd (some c) :: frames =>
      let position := next c s.conditions
      if (s.object c).conditionType = type ∧ ∀ i ∈ id, (s.object c).id = i then
        if delayed ∧ type = .paralyze then { s with frames := frames }
        else
          { s with frames := .removing type id delayed onAdd position :: frames }.endCondition c
      else { s with frames := .removing type id delayed onAdd position :: frames }
    | _ => s
  | .executeConditions => { s with frames := .executing false s.conditions.head? :: s.frames }
  | .executeNext =>
    match s.frames with
    | .executing false none :: frames => { s with frames := frames }
    | .executing false (some c) :: frames => { s with frames := .executing true (some c) :: frames }
    | _ => s
  | .executeReturns result =>
    match s.frames with
    | .executing true (some c) :: frames =>
      let s' := { s with frames := .executing false (next c s.conditions) :: frames }
      if result then s' else s'.endCondition c
    | _ => s

/-! ## What is asked of the list -/

/-- `onAddCondition` is taking conditions away. -/
def Frame.IsOnAdd : Frame → Prop
  | removing _ _ _ onAdd _ => onAdd = true
  | _ => False

/-- A haste and a paralysis are in the list. -/
def State.Both (s : State) : Prop :=
  (∃ c ∈ s.conditions, (s.object c).conditionType = .haste) ∧
    ∃ c ∈ s.conditions, (s.object c).conditionType = .paralyze

/-- **The list is tidy**: no key is there twice, what is in it was started once more than ended and
everything else as often, and haste and paralyze are not both there when no `addCondition` is about
to take one of them away. -/
structure Tidy (s : State) : Prop where
  keys : s.conditions.Pairwise fun c d => (s.object c).key ≠ (s.object d).key
  counts : ∀ c, s.started c = s.ended c + if c ∈ s.conditions then 1 else 0
  exclusive : (∀ frame ∈ s.frames, ¬ frame.IsOnAdd) → ¬ s.Both

/-- No call stands on a condition. -/
def Unused (frames : List Frame) (c : ℕ) : Prop :=
  ∀ frame ∈ frames, frame.position ≠ some c

/-- A step that can do no harm: a condition that was started has a key that is not in the list, and
what it takes away is seen if it is there; and no condition is taken away on which another call
stands. -/
def Careful (s : State) : Step → Prop
  | .startReturns _ => ∀ c frames, s.frames = .starting c :: frames →
      (∀ d ∈ s.conditions, (s.object d).key ≠ (s.object c).key) ∧
      ∀ type, opposite (s.object c).conditionType = some type →
        (∃ d ∈ s.conditions, (s.object d).conditionType = type) →
          s.monster = false ∧ s.hasCondition type
  | .removeObject c => Unused s.frames c
  | .removeNext => ∀ c, s.frames.head?.bind Frame.position = some c → Unused s.frames.tail c
  | .executeReturns _ => ∀ c, s.frames.head?.bind Frame.position = some c → Unused s.frames.tail c
  | _ => True

end TiabloServer.ConditionList
