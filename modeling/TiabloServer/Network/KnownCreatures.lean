import TiabloServer.Lib.Runs

/-!
# The creatures that a client knows

`ProtocolGame::checkCreatureAsKnown` (`server/network/protocol/protocolgame.cpp`): a creature that
the client does not know yet is described in full, and when there are too many the client is told of
one to forget. The set is a hash set: the order in which it is gone through is any order, and may be
another one at each call.

## Main definitions

* `KnownCreatures.State` — what the server takes the client to know, and what the client knows.
* `KnownCreatures.Agree` — the two are the same set, of at most 1300 ids.

## Main results

* `KnownCreatures.exists_answer` — a creature to forget is found in every set of agreement.
* `KnownCreatures.run_agrees` — the sets agree in every state of every run.
-/

namespace TiabloServer.KnownCreatures

/-- Creatures that are known at most, the last one included. -/
def MAX_KNOWN : ℕ := 1300

/-- What the search for a creature to forget reads of a creature: the party, if it is a player, and
whether it can be seen. -/
structure Creature where
  player : Option (Option ℕ)
  canSee : Bool

/-- An order in which the elements of a hash set are gone through. -/
structure Iteration where
  order : Finset UInt32 → List UInt32
  nodup : ∀ s, (order s).Nodup
  mem : ∀ s x, x ∈ order s ↔ x ∈ s

/-- A call, with the party of the player, the creatures of the game and the order of the set at that
time. -/
structure Call where
  id : UInt32
  getParty : Option ℕ
  getCreatureByID : UInt32 → Option Creature
  iteration : Iteration

/-- `known` and, for a creature that is not known, `removedKnown`. -/
inductive Answer where
  | known
  | unknown (removedKnown : UInt32)
deriving DecidableEq

section Search

variable (call : Call)

/-- Creatures that are not seen may be forgotten, but no player of the same party. -/
def canForget (x : UInt32) : Bool :=
  match call.getCreatureByID x with
  | none => true
  | some creature =>
    match creature.player with
    | some party => call.getParty != party && !creature.canSee
    | none => !creature.canSee

/-- The first element, or the second one if the first is `id`; there is none if the set ends
before. -/
def anyone (id : UInt32) : List UInt32 → Option UInt32
  | [] => none
  | x :: l => if x = id then l.head? else some x

/-- The creature to forget. -/
def findRemoved (l : List UInt32) : Option UInt32 :=
  match l.find? fun x => x != call.id && canForget call x with
  | some x => some x
  | none => anyone call.id l

/-- `checkCreatureAsKnown`, with the set that it leaves. There is no answer if the end of the set is
read. -/
def checkCreatureAsKnown (knownCreatureSet : Finset UInt32) : Option (Finset UInt32 × Answer) :=
  if call.id ∈ knownCreatureSet then some (knownCreatureSet, .known)
  else
    let inserted := insert call.id knownCreatureSet
    if inserted.card > MAX_KNOWN then
      (findRemoved call (call.iteration.order inserted)).map fun x => (inserted.erase x, .unknown x)
    else some (inserted, .unknown 0)

end Search

/-- What the server takes the client to know, and what the client knows. -/
structure State where
  knownCreatureSet : Finset UInt32
  client : Finset UInt32

/-- A client at the start of a session. -/
def State.init : State := ⟨∅, ∅⟩

/-- What the client makes of an answer. -/
def onAnswer (id : UInt32) (client : Finset UInt32) : Answer → Finset UInt32
  | .known => client
  | .unknown removedKnown => insert id (if removedKnown ≠ 0 then client.erase removedKnown else client)

/-- A call and the message that follows it. -/
def step (s : State) (call : Call) : State :=
  match checkCreatureAsKnown call s.knownCreatureSet with
  | some (knownCreatureSet, answer) => ⟨knownCreatureSet, onAnswer call.id s.client answer⟩
  | none => s

/-- **Agreement**: the server and the client have the same set, of at most 1300 ids. -/
structure Agree (s : State) : Prop where
  same : s.knownCreatureSet = s.client
  card_le : s.knownCreatureSet.card ≤ MAX_KNOWN

/-- A call is answered, as known only if the client knows the creature, and never by forgetting
it. -/
def Answered (s : State) (call : Call) : Prop :=
  ∃ knownCreatureSet answer, checkCreatureAsKnown call s.knownCreatureSet = some (knownCreatureSet, answer) ∧
    (answer = .known → call.id ∈ s.client) ∧ answer ≠ .unknown call.id

/-! ## The search -/

variable {call : Call}

theorem mem_of_anyone {id x : UInt32} {l : List UInt32} (hnodup : l.Nodup) (h : anyone id l = some x) :
    x ∈ l ∧ x ≠ id := by
  cases l with
  | nil => cases h
  | cons y l =>
    rw [anyone] at h
    split_ifs at h with hy
    · have hx : x ∈ l := List.mem_of_head? h
      refine ⟨List.mem_cons_of_mem _ hx, ?_⟩
      rintro rfl
      exact (List.nodup_cons.1 hnodup).1 (hy ▸ hx)
    · obtain rfl := Option.some.inj h
      exact ⟨List.mem_cons_self, hy⟩

/-- What is found is in the set, and is not the creature that has just been inserted. -/
theorem mem_of_findRemoved {x : UInt32} {l : List UInt32} (hnodup : l.Nodup)
    (h : findRemoved call l = some x) : x ∈ l ∧ x ≠ call.id := by
  rw [findRemoved] at h
  cases hfind : l.find? fun x => x != call.id && canForget call x with
  | some y =>
    rw [hfind] at h
    obtain rfl := Option.some.inj h
    have hy := List.find?_some hfind
    rw [Bool.and_eq_true, bne_iff_ne] at hy
    exact ⟨List.mem_of_find?_eq_some hfind, hy.1⟩
  | none =>
    rw [hfind] at h
    exact mem_of_anyone hnodup h

/-- Of two elements one is found. -/
theorem exists_findRemoved {l : List UInt32} (h : 2 ≤ l.length) : ∃ x, findRemoved call l = some x := by
  rw [findRemoved]
  cases l.find? fun x => x != call.id && canForget call x with
  | some x => exact ⟨x, rfl⟩
  | none =>
    obtain ⟨x, y, l, rfl⟩ : ∃ x y m, l = x :: y :: m := by
      match l, h with
      | x :: y :: m, _ => exact ⟨x, y, m, rfl⟩
    dsimp only
    rw [anyone]
    split_ifs
    · exact ⟨y, rfl⟩
    · exact ⟨x, rfl⟩

theorem length_order (iteration : Iteration) (s : Finset UInt32) : (iteration.order s).length = s.card := by
  have hs : (iteration.order s).toFinset = s := by
    ext x
    rw [List.mem_toFinset, iteration.mem]
  rw [← List.toFinset_card_of_nodup (iteration.nodup s), hs]

/-! ## A call -/

/-- The three ways in which a call is answered. -/
inductive Outcome (call : Call) (s : Finset UInt32) : Finset UInt32 → Answer → Prop
  | known (h : call.id ∈ s) : Outcome call s s .known
  | room (h : call.id ∉ s) (hcard : s.card + 1 ≤ MAX_KNOWN) : Outcome call s (insert call.id s) (.unknown 0)
  | removed (h : call.id ∉ s) (x : UInt32) (hx : x ∈ s) :
    Outcome call s (insert call.id (s.erase x)) (.unknown x)

/-- **Every call is answered**, in one of the three ways. -/
theorem exists_answer (call : Call) (s : Finset UInt32) :
    ∃ s' answer, checkCreatureAsKnown call s = some (s', answer) ∧ Outcome call s s' answer := by
  rw [checkCreatureAsKnown]
  by_cases hmem : call.id ∈ s
  · rw [if_pos hmem]
    exact ⟨_, _, rfl, .known hmem⟩
  · rw [if_neg hmem]
    dsimp only
    rw [Finset.card_insert_of_notMem hmem]
    split_ifs with hcard
    · have hlength : 2 ≤ (call.iteration.order (insert call.id s)).length := by
        rw [length_order, Finset.card_insert_of_notMem hmem]
        exact le_trans (by decide) (Nat.succ_le_of_lt hcard)
      obtain ⟨x, hx⟩ := exists_findRemoved hlength
      obtain ⟨horder, hne⟩ := mem_of_findRemoved (call.iteration.nodup _) hx
      have hold : x ∈ s := Finset.mem_of_mem_insert_of_ne ((call.iteration.mem _ _).1 horder) hne
      refine ⟨_, _, by rw [hx]; rfl, ?_⟩
      rw [Finset.erase_insert_of_ne hne.symm]
      exact .removed hmem x hold
    · exact ⟨_, _, rfl, .room hmem (Nat.le_of_not_lt hcard)⟩

/-- What a step leaves, and how the call was answered. -/
theorem step_cases (s : State) (call : Call) : ∃ answer, checkCreatureAsKnown call s.knownCreatureSet =
        some ((step s call).knownCreatureSet, answer) ∧ (step s call).client = onAnswer call.id s.client answer ∧
      Outcome call s.knownCreatureSet (step s call).knownCreatureSet answer := by
  obtain ⟨s', answer, hcheck, houtcome⟩ := exists_answer call s.knownCreatureSet
  have hstep : step s call = ⟨s', onAnswer call.id s.client answer⟩ := by rw [step, hcheck]
  rw [hstep]
  exact ⟨answer, hcheck, rfl, houtcome⟩

/-- No id is zero. -/
def NonZero (s : State) : Prop := 0 ∉ s.knownCreatureSet

/-- **One call** keeps the agreement. -/
theorem agree_step {s : State} (h : Agree s) (hzero : NonZero s) {call : Call} (hid : call.id ≠ 0) :
    Agree (step s call) ∧ NonZero (step s call) := by
  obtain ⟨answer, -, hclient, houtcome⟩ := step_cases s call
  generalize step s call = s' at hclient houtcome
  obtain ⟨known', client'⟩ := s'
  dsimp only at hclient houtcome
  subst hclient
  cases houtcome with
  | known hmem => exact ⟨⟨h.same, h.card_le⟩, hzero⟩
  | room hmem hcard =>
    refine ⟨⟨?_, ?_⟩, ?_⟩
    · dsimp only [onAnswer]
      rw [if_neg (by simp), h.same]
    · dsimp only
      rw [Finset.card_insert_of_notMem hmem]
      exact hcard
    · rw [NonZero, Finset.mem_insert, not_or]
      exact ⟨hid.symm, hzero⟩
  | removed hmem x hx =>
    have hne : x ≠ 0 := by
      rintro rfl
      exact hzero hx
    refine ⟨⟨?_, ?_⟩, ?_⟩
    · dsimp only [onAnswer]
      rw [if_pos hne, h.same]
    · have hnew : call.id ∉ s.knownCreatureSet.erase x := fun hnew => hmem (Finset.mem_of_mem_erase hnew)
      dsimp only
      rw [Finset.card_insert_of_notMem hnew, Finset.card_erase_add_one hx]
      exact h.card_le
    · rw [NonZero, Finset.mem_insert, not_or]
      exact ⟨hid.symm, fun hmem' => hzero (Finset.mem_of_mem_erase hmem')⟩

/-- A call in a state of agreement is answered as it should be. -/
theorem answered {s : State} (h : Agree s) {call : Call} (hid : call.id ≠ 0) : Answered s call := by
  obtain ⟨answer, hcheck, -, houtcome⟩ := step_cases s call
  refine ⟨_, answer, hcheck, ?_⟩
  generalize (step s call).knownCreatureSet = known' at houtcome
  cases houtcome with
  | known hmem => exact ⟨fun _ => h.same ▸ hmem, by simp⟩
  | room hmem hcard => exact ⟨fun hans => (by cases hans), fun hans => hid (Answer.unknown.inj hans).symm⟩
  | removed hmem x hx =>
    refine ⟨fun hans => (by cases hans), fun hans => hmem ?_⟩
    rw [← Answer.unknown.inj hans]
    exact hx

/-! ## Runs -/

theorem agree_init : Agree State.init ∧ NonZero State.init :=
  ⟨⟨rfl, Nat.zero_le _⟩, Finset.notMem_empty 0⟩

/-- **Server and client** agree on the known creatures in every state of every run, and every call
of it is answered, as known only if the client knows the creature and never by forgetting the
creature itself. -/
theorem run_agrees {calls : List Call} (hids : ∀ call ∈ calls, call.id ≠ 0) :
    (∀ m, m <+: calls → Agree (Runs.run step State.init m)) ∧
      ∀ m call, m ++ [call] <+: calls → Answered (Runs.run step State.init m) call := by
  have hstep : ∀ s call, Agree s ∧ NonZero s → call.id ≠ 0 → Agree (step s call) ∧ NonZero (step s call) :=
    fun s call h hid => agree_step h.1 h.2 hid
  have hkept : ∀ m, m <+: calls → Agree (Runs.run step State.init m) ∧ NonZero (Runs.run step State.init m) :=
    fun m hm => Runs.invariant step hstep agree_init
      (Runs.meets_of_mem step (fun call hcall => hids call (hm.subset hcall)) State.init)
  refine ⟨fun m hm => (hkept m hm).1, fun m call hm => ?_⟩
  have hbefore : m <+: calls := (List.prefix_append m [call]).trans hm
  exact answered (hkept m hbefore).1 (hids call (hm.subset (by simp)))

/-- The order of the numbers. -/
def ascending : Iteration where
  order s := (s.image UInt32.toNat).sort.map UInt32.ofNat
  nodup s := by
    refine List.Nodup.map_on (fun x hx y hy heq => ?_) (Finset.sort_nodup _ _)
    rw [Finset.mem_sort, Finset.mem_image] at hx hy
    obtain ⟨a, -, rfl⟩ := hx
    obtain ⟨b, -, rfl⟩ := hy
    rw [UInt32.ofNat_toNat, UInt32.ofNat_toNat] at heq
    rw [heq]
  mem s x := by
    rw [List.mem_map]
    constructor
    · rintro ⟨n, hn, rfl⟩
      rw [Finset.mem_sort, Finset.mem_image] at hn
      obtain ⟨a, ha, rfl⟩ := hn
      rwa [UInt32.ofNat_toNat]
    · intro hx
      exact ⟨x.toNat, by rw [Finset.mem_sort]; exact Finset.mem_image_of_mem _ hx, UInt32.ofNat_toNat⟩

/-- Two calls for one creature that is in sight. -/
def twice : List Call :=
  List.replicate 2 ⟨0x10000001, none, fun _ => some ⟨none, true⟩, ascending⟩

theorem run_agrees_twice :
    (∀ m, m <+: twice → Agree (Runs.run step State.init m)) ∧
      ∀ m call, m ++ [call] <+: twice → Answered (Runs.run step State.init m) call :=
  run_agrees fun call hcall => by
    rw [List.eq_of_mem_replicate hcall]
    decide

end TiabloServer.KnownCreatures
