import TiabloServer.Lib.Agenda
import TiabloServer.Lib.Runs

/-!
# Decaying items

`Decay` (`decay.cpp`) keeps the items that decay in lists under the time at which each is due. An
event of the dispatcher takes the items that are due and lets them decay, which may start and stop
the decay of others, and goes on from the position in the map at which it stopped to take items.

## Main definitions

* `Decay.checkDecay`, `Decay.checkItem`, `Decay.checkEnd` — the event, with what it calls in
  between.
* `Decay.step` — one step of the items, the registry or its event.
-/

namespace TiabloServer.Decay

/-! ## Items -/

/-- `ItemDecayState_t`. -/
inductive DecayState where
  | decayingFalse | decayingTrue | decayingPending | decayingStopping
  deriving DecidableEq, Repr

/-- What the type of an item says about its decay. -/
structure ItemType where
  decayTo : ℤ
  decayTime : ℕ
  stopTime : Bool
  deriving DecidableEq, Repr

/-- The attributes about the decay. -/
structure Attributes where
  decayState : Option DecayState
  duration : Option ℤ
  durationTimestamp : Option ℤ
  uniqueId : Bool
  deriving DecidableEq, Repr

/-- No attribute. -/
def Attributes.empty : Attributes := ⟨none, none, none, false⟩

/-- An item. `attributePtr` is `none` as long as no attribute was set. -/
structure Item where
  type : ItemType
  removed : Bool
  decayDisabled : Bool
  attributePtr : Option Attributes
  deriving DecidableEq, Repr

/-- A number as an `int32_t`. -/
def int32 (x : ℤ) : ℤ := Int.bmod x (2 ^ 32)

namespace Item

/-- The attributes of an item. -/
def attributes (item : Item) : Attributes := item.attributePtr.getD .empty

/-- `setAttribute` and `removeAttribute` of the attributes about the decay. -/
def withAttributes (item : Item) (attributes : Attributes) : Item :=
  { item with attributePtr := some attributes }

@[simp]
theorem attributes_withAttributes (item : Item) (attributes : Attributes) :
    (item.withAttributes attributes).attributes = attributes := rfl

/-- `Item::getDecaying`. -/
def getDecaying (item : Item) : DecayState := item.attributes.decayState.getD .decayingFalse

/-- `Item::setDecaying`. -/
def setDecaying (item : Item) (state : DecayState) : Item :=
  item.withAttributes { item.attributes with
    decayState := some state
    durationTimestamp :=
      if state = .decayingFalse then none else item.attributes.durationTimestamp }

/-- `Item::getDuration`. -/
def getDuration (item : Item) (now : ℤ) : ℤ :=
  if item.getDecaying = .decayingTrue ∨ item.getDecaying = .decayingStopping then
    max 0 (int32 (int32 (item.attributes.durationTimestamp.getD 0) - int32 now))
  else int32 (item.attributes.duration.getD 0)

/-- `Item::setDuration`. -/
def setDuration (item : Item) (time : ℤ) : Item :=
  item.withAttributes { item.attributes with duration := some (max 0 time) }

/-- `Item::canDecay`. -/
def canDecay (item : Item) : Bool :=
  !(item.removed || item.decayDisabled) && !(item.type.decayTo < 0 || item.type.decayTime = 0) &&
    !item.attributes.uniqueId

/-- The duration of a new item of a type, a `uint32_t`. -/
def defaultDuration (type : ItemType) : ℕ := type.decayTime * 1000 % 2 ^ 32

/-- `Item::setID`: the owner of a corpse is left out. -/
def setID (item : Item) (type : ItemType) : Item :=
  let newDuration := defaultDuration type
  let item' : Item := { item with type := type }
  let item' : Item :=
    if newDuration = 0 ∧ type.stopTime = false ∧ type.decayTo < 0 then
      let item'' : Item :=
        if item'.attributes.decayState.isSome then item'.setDecaying .decayingStopping else item'
      { item'' with attributePtr := item''.attributePtr.map fun a => { a with duration := none } }
    else item'
  if 0 < newDuration ∧ (item.type.stopTime = false ∨ item'.attributes.duration.isNone) then
    (item'.setDecaying .decayingPending).setDuration (int32 newDuration)
  else item'

/-- `Item::CreateItem` of a type. -/
def create (type : ItemType) : Item where
  type := type
  removed := false
  decayDisabled := false
  attributePtr :=
    if defaultDuration type ≠ 0 then
      some { Attributes.empty with duration := some (max 0 (int32 (defaultDuration type))) }
    else none

/-- `Item::clone`. -/
def clone (item : Item) : Item :=
  match item.attributePtr with
  | none => create item.type
  | some attributes => { create item.type with attributePtr := some attributes }

end Item

/-! ## The registry -/

/-- A run of `checkDecay` that is going on: the items it has taken, and its position in the map (the
key, or `none` at the end). `erased` says that the position was erased. -/
structure Check where
  tempItems : List ℕ
  position : Option ℤ
  erased : Bool
  deriving DecidableEq, Repr

/-- The items there are, `Decay` and the pending events with their times. -/
structure State where
  now : ℤ
  items : ℕ → Option Item
  decayMap : List (ℤ × List ℕ)
  eventId : ℕ
  events : List (ℕ × ℤ)
  lastEventId : ℕ
  checking : Option Check

namespace State

/-- Replaces an item. -/
def setItem (s : State) (i : ℕ) (item : Item) : State :=
  { s with items := Function.update s.items i (some item) }

/-- `Dispatcher::scheduleEvent` of `checkDecay`; `SCHEDULER_MINTICKS` is 50. The registry keeps the
lower 32 bits of the number. -/
def scheduleEvent (s : State) (delay : ℤ) : State :=
  { s with
    eventId := (s.lastEventId + 1) % 2 ^ 32
    events := (s.lastEventId + 1, s.now + max 50 (int32 delay)) :: s.events
    lastEventId := s.lastEventId + 1 }

/-- `Dispatcher::stopEvent` of the event the registry knows. -/
def stopEvent (s : State) : State :=
  { s with events := s.events.filter fun e => e.1 ≠ s.eventId }

/-- `decayMap.erase` at a key. -/
def erase (s : State) (t : ℤ) : State :=
  { s with
    decayMap := Agenda.drop t s.decayMap
    checking := s.checking.map fun check =>
      { check with erased := check.erased || decide (check.position = some t) } }

end State

/-- What `stopDecay` makes of an item that it found. -/
def Item.stopped (item : Item) (now : ℤ) : Item :=
  let item' := if item.attributes.duration.isSome then item.setDuration (item.getDuration now) else item
  item'.withAttributes { item'.attributes with decayState := none }

/-- `Decay::stopDecay`. -/
def stopDecay (s : State) (i : ℕ) : State :=
  match s.items i with
  | none => s
  | some item =>
    if item.attributes.decayState = none then s
    else
      match item.attributes.durationTimestamp with
      | none => s.setItem i (item.withAttributes { item.attributes with decayState := none })
      | some t =>
        match Agenda.find t s.decayMap with
        | none => s.setItem i (item.withAttributes { item.attributes with durationTimestamp := none })
        | some [j] => if i = j then (s.setItem i (item.stopped s.now)).erase t else s
        | some decayItems =>
          if i ∈ decayItems then
            { s.setItem i (item.stopped s.now) with
              decayMap := Agenda.put t (Agenda.swapRemove i decayItems) s.decayMap }
          else s.setItem i (item.withAttributes { item.attributes with durationTimestamp := none })

/-- The event for an item that is due at `timestamp`, if it is due before all others. -/
def planEvent (s : State) (timestamp duration : ℤ) : State :=
  match s.decayMap with
  | [] => s.scheduleEvent duration
  | (first, _) :: _ => if timestamp < first then s.stopEvent.scheduleEvent duration else s

/-- Puts an item into the registry. -/
def register (s : State) (i : ℕ) (duration : ℤ) : State :=
  let timestamp := s.now + duration
  let s := planEvent s timestamp duration
  match s.items i with
  | none => s
  | some item =>
    let item := item.setDecaying .decayingTrue
    { s.setItem i
        (item.withAttributes { item.attributes with durationTimestamp := some timestamp }) with
      decayMap := Agenda.push timestamp i s.decayMap }

/-- `Decay::startDecay`. What `internalDecayItem` calls are steps of their own. -/
def startDecay (s : State) (i : ℕ) : State :=
  match s.items i with
  | none => s
  | some item =>
    if item.getDecaying = .decayingStopping ∨
        item.canDecay = false ∧ item.getDecaying = .decayingTrue then stopDecay s i
    else if item.canDecay = false ∨ item.getDecaying = .decayingTrue then s
    else
      let duration := item.attributes.duration.getD 0
      if 0 < duration then
        register (if item.attributes.durationTimestamp.isSome then stopDecay s i else s) i duration
      else s

/-- `Decay::checkDecay`, when its event fires: takes the items that are due. -/
def checkDecay (s : State) (event : ℕ) : State :=
  match s.checking with
  | some _ => s
  | none =>
    if ∃ e ∈ s.events, e.1 = event ∧ e.2 ≤ s.now then
      let rest := s.decayMap.dropWhile fun kv => kv.1 ≤ s.now
      { s with
        events := s.events.filter fun e => e.1 ≠ event
        decayMap := rest
        checking := some
          ⟨(s.decayMap.takeWhile fun kv => kv.1 ≤ s.now).flatMap Prod.snd, rest.head?.map Prod.fst,
            false⟩ }
    else s

/-- The loop of `Decay::checkDecay` over the items it has taken. What `internalDecayItem` calls are
steps of their own. -/
def checkItem (s : State) : State :=
  match s.checking with
  | some ⟨i :: tempItems, position, erased⟩ =>
    let s := { s with checking := some ⟨tempItems, position, erased⟩ }
    match s.items i with
    | none => s
    | some item =>
      let item := if item.canDecay then item else item.setDuration (item.getDuration s.now)
      s.setItem i (item.setDecaying .decayingFalse)
  | _ => s

/-- The end of `Decay::checkDecay`: an event for the position it has kept. -/
def checkEnd (s : State) : State :=
  match s.checking with
  | some ⟨[], position, _⟩ =>
    let s := { s with checking := none }
    match position with
    | none => s
    | some t => s.scheduleEvent (t - s.now)
  | _ => s

/-- A step. The time of the server is read once for each turn of the dispatcher, so that it does not
change while `checkDecay` is going on. -/
inductive Step where
  /-- Time passes. -/
  | elapse (ms : ℕ)
  /-- Other events are scheduled. -/
  | otherEvents (n : ℕ)
  /-- An item comes into the world or leaves it, or may decay or not. -/
  | place (i : ℕ) (removed decayDisabled : Bool)
  | startDecay (i : ℕ)
  | stopDecay (i : ℕ)
  | setID (i : ℕ) (type : ItemType)
  /-- The item `j` is made as a clone of `i`. -/
  | clone (i j : ℕ)
  | checkDecay (event : ℕ)
  | checkItem
  | checkEnd

/-- The step function. -/
def step (s : State) : Step → State
  | .elapse ms => if s.checking = none then { s with now := s.now + ms } else s
  | .otherEvents n => { s with lastEventId := s.lastEventId + n }
  | .place i removed decayDisabled =>
    match s.items i with
    | none => s
    | some item => s.setItem i { item with removed := removed, decayDisabled := decayDisabled }
  | .startDecay i => startDecay s i
  | .stopDecay i => stopDecay s i
  | .setID i type =>
    match s.items i with
    | none => s
    | some item => s.setItem i (item.setID type)
  | .clone i j =>
    match s.items i, s.items j with
    | some item, none => s.setItem j item.clone
    | _, _ => s
  | .checkDecay event => checkDecay s event
  | .checkItem => checkItem s
  | .checkEnd => checkEnd s

end TiabloServer.Decay
