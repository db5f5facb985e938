import TiabloServer.Map.Position
import TiabloServer.Network.Message

/-!
# Windows of the map

`ProtocolGame::GetMapDescription` and `GetFloorDescription`
(`server/network/protocol/protocolgame.cpp`) write the tiles of a window floor by floor and column
by column. Positions without a tile are counted, and written as the count and 0xFF before the next
tile. The client goes through the same positions: it reads the things of a tile up to such a marker,
and then leaves out as many positions as it says.

How a thing is written is a parameter: the client reads things back, and knows them from a marker.
What does not fit into the message is not written.

## Main definitions

* `MapWindow.decode` — the client.
* `MapWindow.shown` — what is left of a tile.

## Main results

* `MapWindow.decode_getMapDescription` — the client takes all bytes, and gets the things of each
  position.
-/

namespace TiabloServer.MapWindow

/-- The bytes of things, as the calls of `add` write them. The client reads a thing back, and the
first two bytes of a thing, its id, are no marker. -/
structure ThingCodec (α : Type) where
  adds : α → List (List UInt8)
  read : List UInt8 → Option (α × List UInt8)
  read_encode : ∀ a rest, read ((adds a).flatten ++ rest) = some (a, rest)
  starts : ∀ a, ∃ low high rest, (adds a).flatten = low :: high :: rest ∧ high ≠ 0xFF

/-- All bytes of a thing. -/
def ThingCodec.encode {α : Type} (C : ThingCodec α) (a : α) : List UInt8 := (C.adds a).flatten

section Server

variable {α : Type} (C : ThingCodec α) (position : ℕ)

/-- The values that `nz` takes, from `startz` to `endz`: two floors up and down under the ground,
and from the ground to the top on the surface. -/
def floors (z : Fin MAP_MAX_LAYERS) : List ℤ :=
  if z > MAP_INIT_SURFACE_LAYER then
    let startz := z - MAP_LAYER_VIEW_LIMIT
    let endz := min (MAP_MAX_LAYERS - 1 : ℤ) (z + MAP_LAYER_VIEW_LIMIT)
    (List.range (endz + 1 - startz).toNat).map fun n => startz + n
  else (List.range (MAP_INIT_SURFACE_LAYER + 1).toNat).map fun n => MAP_INIT_SURFACE_LAYER - n

/-- The positions of a floor. -/
def floorPositions (x y z width height offset : ℤ) : List Position :=
  (List.range width.toNat).flatMap fun nx =>
    (List.range height.toNat).map fun ny =>
      ⟨UInt16.ofInt (x + nx + offset), UInt16.ofInt (y + ny + offset), UInt8.ofInt z⟩

/-- The positions of a window. -/
def positions (x y : ℤ) (z : Fin MAP_MAX_LAYERS) (width height : ℤ) : List Position :=
  (floors z).flatMap fun nz => floorPositions x y nz width height (z - nz)

/-- The message, and the positions without a tile that are not written yet: none since a tile is 0,
and -1 says that no count is open. -/
structure State where
  skip : ℤ
  msg : List UInt8

/-- `add` and `addByte`, with `canAdd`; `position` is that of the message before the window. -/
def add (msg bytes : List UInt8) : List UInt8 :=
  if bytes.length + (position + msg.length) < Network.MAX_BODY_LENGTH then msg ++ bytes else msg

/-- The count and 0xFF. -/
def flush (s : State) : State :=
  if s.skip ≥ 0 then
    { s with msg := add position (add position s.msg [UInt8.ofInt s.skip]) [0xFF] }
  else s

def getTileDescription (msg : List UInt8) (things : List α) : List UInt8 :=
  (things.flatMap C.adds).foldl (add position) msg

/-- A position of the loops of `GetFloorDescription`. -/
def writePosition (s : State) : Option (List α) → State
  | some things => { skip := 0, msg := getTileDescription C position (flush position s).msg things }
  | none =>
    if s.skip = 0xFE then { skip := -1, msg := add position (add position s.msg [0xFF]) [0xFF] }
    else { s with skip := s.skip + 1 }

def getFloorDescription (getTile : Position → Option (List α))
    (x y z width height offset : ℤ) (s : State) : State :=
  (floorPositions x y z width height offset).foldl (fun s p => writePosition C position s (getTile p)) s

/-- The bytes of a window; `getTile` gives the things that are written of a tile. -/
def getMapDescription (getTile : Position → Option (List α)) (x y : ℤ) (z : Fin MAP_MAX_LAYERS)
    (width height : ℤ) : List UInt8 :=
  (flush position ((floors z).foldl
    (fun s nz => getFloorDescription C position getTile x y nz width height (z - nz) s) ⟨-1, []⟩)).msg

end Server

/-! ## The client -/

section Client

variable {α : Type} (C : ThingCodec α)

/-- The things up to a marker, with its count and the bytes behind it. -/
def readThings : ℕ → List UInt8 → Option (List α × ℕ × List UInt8)
  | 0, _ => none
  | fuel + 1, bytes =>
    match bytes with
    | low :: high :: rest =>
      if high = 0xFF then some ([], low.toNat, rest)
      else
        match C.read bytes with
        | none => none
        | some (thing, rest) =>
          (readThings fuel rest).map fun (things, count, rest) => (thing :: things, count, rest)
    | _ => none

/-- A position where things have been read has a tile. -/
def shown : List α → Option (List α)
  | [] => none
  | thing :: things => some (thing :: things)

/-- The client goes through the positions: `skip` more are to be left out. At the end, no position
is left to be left out. -/
def decode : ℕ → List Position → List UInt8 → Option (List (Position × Option (List α)) × List UInt8)
  | 0, [], bytes => some ([], bytes)
  | _ + 1, [], _ => none
  | skip + 1, p :: ps, bytes =>
    (decode skip ps bytes).map fun (tiles, bytes) => ((p, none) :: tiles, bytes)
  | 0, p :: ps, bytes =>
    match readThings C (bytes.length + 1) bytes with
    | none => none
    | some (things, count, rest) =>
      (decode count ps rest).map fun (tiles, bytes) => ((p, shown things) :: tiles, bytes)

end Client

/-! ## The bytes from some position on -/

section Encoding

variable {α : Type} (C : ThingCodec α)

/-- The marker of an open count. -/
def marker (skip : ℤ) : List UInt8 := if skip ≥ 0 then [UInt8.ofInt skip, 0xFF] else []

/-- The bytes of the things of a tile. -/
def tileBytes (things : List α) : List UInt8 := things.flatMap C.encode

/-- What is to be written from a count on. -/
def encodeFrom : ℤ → List (Option (List α)) → List UInt8
  | skip, [] => marker skip
  | skip, some things :: l => marker skip ++ (tileBytes C things ++ encodeFrom 0 l)
  | skip, none :: l => if skip = 0xFE then [0xFF, 0xFF] ++ encodeFrom (-1) l else encodeFrom (skip + 1) l

/-- The window with these tiles fits into the message. -/
def Fits (position : ℕ) (l : List (Option (List α))) : Prop :=
  position + (encodeFrom C (-1) l).length < Network.MAX_BODY_LENGTH

variable {position : ℕ} {msg : List UInt8}

/-- Bytes that fit are written one call after the other. -/
theorem foldl_add (l : List (List UInt8))
    (h : position + (msg ++ l.flatten).length < Network.MAX_BODY_LENGTH) :
    l.foldl (add position) msg = msg ++ l.flatten := by
  induction l generalizing msg with
  | nil => rw [List.flatten_nil, List.append_nil, List.foldl_nil]
  | cons bytes l ih =>
    rw [List.flatten_cons, ← List.append_assoc] at h ⊢
    have hadd : add position msg bytes = msg ++ bytes := by
      rw [add, if_pos]
      simp only [List.length_append] at h
      omega
    rw [List.foldl_cons, hadd, ih h]

theorem msg_flush (skip : ℤ)
    (h : position + (msg ++ marker skip).length < Network.MAX_BODY_LENGTH) :
    (flush position ⟨skip, msg⟩).msg = msg ++ marker skip := by
  unfold flush marker at *
  dsimp only
  split_ifs at h ⊢
  · exact foldl_add [[UInt8.ofInt skip], [0xFF]] h
  · rw [List.append_nil]

theorem flatten_adds (things : List α) : (things.flatMap C.adds).flatten = tileBytes C things := by
  induction things with
  | nil => rfl
  | cons thing things ih =>
    rw [List.flatMap_cons, List.flatten_append, ih]
    rfl

/-- The loops write what is to be written from the count on, where it fits. -/
theorem msg_foldl (l : List (Option (List α))) (s : State)
    (h : position + (s.msg ++ encodeFrom C s.skip l).length < Network.MAX_BODY_LENGTH) :
    (flush position (l.foldl (writePosition C position) s)).msg = s.msg ++ encodeFrom C s.skip l := by
  induction l generalizing s with
  | nil => exact msg_flush s.skip h
  | cons t l ih =>
    rw [List.foldl_cons]
    cases t with
    | some things =>
      rw [encodeFrom] at h ⊢
      have hmarker : (flush position s).msg = s.msg ++ marker s.skip := by
        refine msg_flush s.skip ?_
        simp only [List.length_append] at h ⊢
        omega
      have hthings : getTileDescription C position (flush position s).msg things =
          s.msg ++ marker s.skip ++ tileBytes C things := by
        rw [hmarker, getTileDescription, foldl_add, flatten_adds]
        rw [flatten_adds]
        simp only [List.length_append] at h ⊢
        omega
      have hafter : s.msg ++ (marker s.skip ++ (tileBytes C things ++ encodeFrom C 0 l)) =
          s.msg ++ marker s.skip ++ tileBytes C things ++ encodeFrom C 0 l := by
        simp only [List.append_assoc]
      rw [hafter] at h ⊢
      rw [ih, writePosition, hthings]
      rw [writePosition, hthings]
      exact h
    | none =>
      rw [encodeFrom] at h ⊢
      by_cases hfull : s.skip = 0xFE
      · rw [if_pos hfull, ← List.append_assoc] at h
        have hmarker : add position (add position s.msg [0xFF]) [0xFF] = s.msg ++ [0xFF, 0xFF] := by
          refine foldl_add [[0xFF], [0xFF]] ?_
          simp only [List.length_append] at h ⊢
          exact (Nat.le_add_right _ _).trans_lt (Nat.add_assoc position _ _ ▸ h)
        rw [if_pos hfull, ← List.append_assoc]
        rw [ih, writePosition, if_pos hfull, hmarker]
        rw [writePosition, if_pos hfull, hmarker]
        exact h
      · rw [if_neg hfull] at h ⊢
        rw [ih, writePosition, if_neg hfull]
        rw [writePosition, if_neg hfull]
        exact h

/-- The loops over floors are one over positions. -/
theorem getMapDescription_eq (position : ℕ) (getTile : Position → Option (List α)) (x y : ℤ)
    (z : Fin MAP_MAX_LAYERS) (width height : ℤ) :
    getMapDescription C position getTile x y z width height = (flush position
      (((positions x y z width height).map getTile).foldl (writePosition C position) ⟨-1, []⟩)).msg := by
  have hfold : ∀ l : List ℤ, ∀ s, l.foldl
      (fun s nz => getFloorDescription C position getTile x y nz width height (z - nz) s) s =
      ((l.flatMap fun nz => floorPositions x y nz width height (z - nz)).map getTile).foldl
        (writePosition C position) s := by
    intro l
    induction l with
    | nil => exact fun _ => rfl
    | cons nz l ih =>
      intro s
      rw [List.foldl_cons, ih, List.flatMap_cons, List.map_append, List.foldl_append, getFloorDescription]
      simp only [List.foldl_map]
  rw [getMapDescription, hfold, positions]

/-- The message never grows beyond its limit. -/
theorem length_getMapDescription_lt {position : ℕ} (hposition : position < Network.MAX_BODY_LENGTH)
    (getTile : Position → Option (List α)) (x y : ℤ) (z : Fin MAP_MAX_LAYERS) (width height : ℤ) :
    position + (getMapDescription C position getTile x y z width height).length <
      Network.MAX_BODY_LENGTH := by
  have hadd : ∀ msg bytes : List UInt8, position + msg.length < Network.MAX_BODY_LENGTH →
      position + (add position msg bytes).length < Network.MAX_BODY_LENGTH := by
    intro msg bytes h
    unfold add
    split_ifs
    · rw [List.length_append]
      omega
    · exact h
  have hadds : ∀ (l : List (List UInt8)) (msg : List UInt8),
      position + msg.length < Network.MAX_BODY_LENGTH →
      position + (l.foldl (add position) msg).length < Network.MAX_BODY_LENGTH := by
    intro l
    induction l with
    | nil => exact fun _ h => h
    | cons bytes l ih => exact fun msg h => ih _ (hadd msg bytes h)
  have hflush : ∀ s : State, position + s.msg.length < Network.MAX_BODY_LENGTH →
      position + (flush position s).msg.length < Network.MAX_BODY_LENGTH := by
    intro s h
    unfold flush
    split_ifs
    · exact hadd _ _ (hadd _ _ h)
    · exact h
  have hall : ∀ (l : List (Option (List α))) (s : State), position + s.msg.length < Network.MAX_BODY_LENGTH →
      position + (l.foldl (writePosition C position) s).msg.length < Network.MAX_BODY_LENGTH := by
    intro l
    induction l with
    | nil => exact fun _ h => h
    | cons t l ih =>
      intro s h
      refine ih _ ?_
      cases t with
      | some things => exact hadds _ _ (hflush s h)
      | none =>
        unfold writePosition
        dsimp only
        split_ifs
        · exact hadd _ _ (hadd _ _ h)
        · exact h
  rw [getMapDescription_eq]
  exact hflush _ (hall _ ⟨-1, []⟩ hposition)

end Encoding

/-! ## Reading back -/

section Decoding

variable {α : Type} {C : ThingCodec α}

/-- A marker ends the things. -/
theorem readThings_encode (things : List α) (count : UInt8) (rest : List UInt8) {fuel : ℕ}
    (hfuel : things.length < fuel) : readThings C fuel (tileBytes C things ++ count :: 0xFF :: rest) =
      some (things, count.toNat, rest) := by
  induction things generalizing fuel with
  | nil =>
    cases fuel with
    | zero => exact absurd hfuel (Nat.not_lt_zero _)
    | succ fuel =>
      rw [tileBytes, List.flatMap_nil, List.nil_append, readThings, if_pos rfl]
  | cons thing things ih =>
    cases fuel with
    | zero => exact absurd hfuel (Nat.not_lt_zero _)
    | succ fuel =>
      obtain ⟨low, high, more, hencode, hhigh⟩ := C.starts thing
      have hread := C.read_encode thing (tileBytes C things ++ count :: 0xFF :: rest)
      rw [tileBytes, List.flatMap_cons, List.append_assoc, ← tileBytes, ThingCodec.encode]
      rw [hencode] at hread ⊢
      rw [List.cons_append, List.cons_append] at hread ⊢
      rw [readThings, if_neg hhigh, hread]
      dsimp only
      rw [ih (Nat.lt_of_succ_lt_succ hfuel)]
      rfl

theorem length_le_tileBytes (things : List α) : things.length ≤ (tileBytes C things).length := by
  induction things with
  | nil => exact Nat.zero_le _
  | cons thing things ih =>
    obtain ⟨low, high, more, hencode, -⟩ := C.starts thing
    rw [tileBytes] at ih ⊢
    rw [List.flatMap_cons, List.length_append, List.length_cons, ThingCodec.encode, hencode,
      List.length_cons]
    omega

/-- A position whose things end at a marker. -/
theorem decode_cons (p : Position) (ps : List Position) (things : List α) (count : UInt8) (rest : List UInt8) :
    decode C 0 (p :: ps) (tileBytes C things ++ count :: 0xFF :: rest) =
      (decode C count.toNat ps rest).map fun (tiles, bytes) => ((p, shown things) :: tiles, bytes) := by
  have hlength := length_le_tileBytes (C := C) things
  rw [decode, readThings_encode things count rest (by rw [List.length_append]; omega)]

/-- What the client should get. -/
def tiles (getTile : Position → Option (List α)) (ps : List Position) :
    List (Position × Option (List α)) :=
  ps.map fun p => (p, (getTile p).bind shown)

theorem toNat_ofInt {skip : ℕ} (h : skip < 256) : (UInt8.ofInt skip).toNat = skip := by
  rw [UInt8.ofInt, UInt8.toNat_ofNat']
  omega

/-- An open count is written. -/
theorem marker_natCast (skip : ℕ) : marker skip = [UInt8.ofInt skip, 0xFF] := if_pos (Int.natCast_nonneg skip)

/-- **The count.** With no open count the client reads on at the next position. With an open count
it stands before a marker, and the marker says at least the count: so many positions have been left
out already.

**Proof sketch.** Induction on the positions. A tile closes the count, and one is opened behind its
things. A position without a tile is one more of the count, which the marker of the rest covers; a
full count is written at once, with the position itself. -/
theorem decode_encodeFrom (getTile : Position → Option (List α)) (ps : List Position) :
    decode C 0 ps (encodeFrom C (-1) (ps.map getTile)) = some (tiles getTile ps, []) ∧
      ∀ skip : ℕ, skip ≤ 0xFE → ∃ count rest,
        encodeFrom C skip (ps.map getTile) = count :: 0xFF :: rest ∧ skip ≤ count.toNat ∧
          decode C (count.toNat - skip) ps rest = some (tiles getTile ps, []) := by
  induction ps with
  | nil =>
    refine ⟨rfl, fun skip hskip => ⟨UInt8.ofInt skip, [], marker_natCast skip, ?_, ?_⟩⟩
    · rw [toNat_ofInt (by omega)]
    · rw [toNat_ofInt (by omega), Nat.sub_self]
      rfl
  | cons p ps ih =>
    obtain ⟨ihfresh, ihopen⟩ := ih
    obtain ⟨count, rest, hclosed, -, hdecode⟩ := ihopen 0 (Nat.zero_le _)
    rw [Nat.cast_zero] at hclosed
    rw [Nat.sub_zero] at hdecode
    rw [List.map_cons, tiles, List.map_cons, ← tiles]
    cases htile : getTile p with
    | some things =>
      -- The things of the tile, up to the marker of the positions behind it.
      have htile : decode C 0 (p :: ps) (tileBytes C things ++ count :: 0xFF :: rest) =
          some ((p, shown things) :: tiles getTile ps, []) := by
        rw [decode_cons, hdecode]
        rfl
      rw [Option.bind_some]
      constructor
      · rw [encodeFrom, hclosed]
        exact htile
      · intro skip hskip
        refine ⟨UInt8.ofInt skip, tileBytes C things ++ count :: 0xFF :: rest, ?_, ?_, ?_⟩
        · rw [encodeFrom, hclosed, marker_natCast]
          rfl
        · rw [toNat_ofInt (by omega)]
        · rw [toNat_ofInt (by omega), Nat.sub_self]
          exact htile
    | none =>
      rw [Option.bind_none]
      constructor
      · -- The position is read as one without things, and the marker stands for those behind it.
        have hnothing := decode_cons (C := C) p ps [] count rest
        rw [encodeFrom, if_neg (by decide), show (-1 : ℤ) + 1 = 0 from rfl, hclosed]
        rw [hdecode] at hnothing
        exact hnothing
      · intro skip hskip
        rw [encodeFrom]
        rcases Nat.lt_or_eq_of_le hskip with hlt | rfl
        · obtain ⟨count', rest', hencode, hle, hdecode'⟩ := ihopen (skip + 1) hlt
          rw [if_neg (by omega), ← Nat.cast_succ]
          refine ⟨count', rest', hencode, by omega, ?_⟩
          obtain ⟨m, hm⟩ : ∃ m, count'.toNat - skip = m + 1 := ⟨count'.toNat - skip - 1, by omega⟩
          have hm' : count'.toNat - (skip + 1) = m := by omega
          rw [hm'] at hdecode'
          rw [hm, decode, hdecode']
          rfl
        · rw [if_pos (by rfl)]
          refine ⟨0xFF, encodeFrom C (-1) (ps.map getTile), rfl, by decide, ?_⟩
          rw [show (0xFF : UInt8).toNat - 0xFE = 1 from rfl, decode, ihfresh]
          rfl

/-- **The client** takes all bytes of a window that fits into the message, of any size and on any
floor, and gets at each position the things of its tile. -/
theorem decode_getMapDescription (C : ThingCodec α) (position : ℕ)
    (getTile : Position → Option (List α)) (x y : ℤ) (z : Fin MAP_MAX_LAYERS) (width height : ℤ)
    (h : Fits C position ((positions x y z width height).map getTile)) :
    decode C 0 (positions x y z width height)
        (getMapDescription C position getTile x y z width height) =
      some (tiles getTile (positions x y z width height), []) := by
  rw [getMapDescription_eq, msg_foldl _ _ _ h]
  exact (decode_encodeFrom getTile _).1

/-- Things of an id below 256 and nothing else. -/
def ids : ThingCodec UInt8 where
  adds id := [[id, 0]]
  read
    | low :: _ :: rest => some (low, rest)
    | _ => none
  read_encode _ _ := rfl
  starts id := ⟨id, 0, [], rfl, by decide⟩

/-- The window of two tiles on the surface, one of them with two things. -/
theorem decode_getMapDescription_two :
    decode ids 0 (positions 100 100 ⟨7, by decide⟩ 2 1) (getMapDescription ids 14
        (fun p => if p.z = 7 then some (if p.x = 100 then [3, 5] else [4]) else none)
        100 100 ⟨7, by decide⟩ 2 1) =
      some (tiles (fun p => if p.z = 7 then some (if p.x = 100 then [3, 5] else [4]) else none)
        (positions 100 100 ⟨7, by decide⟩ 2 1), []) :=
  decode_getMapDescription ids 14 _ 100 100 ⟨7, by decide⟩ 2 1 (by unfold Fits; decide)

/-- Each thing takes two bytes, and so does a marker. -/
theorem length_of_readThings {fuel count : ℕ} {bytes rest : List UInt8} {things : List UInt8}
    (h : readThings ids fuel bytes = some (things, count, rest)) :
    bytes.length = 2 * things.length + 2 + rest.length := by
  induction fuel generalizing bytes things with
  | zero => exact nomatch h
  | succ fuel ih =>
    unfold readThings at h
    split at h
    · next low high rest' =>
      split_ifs at h
      · obtain ⟨rfl, -, rfl⟩ : [] = things ∧ low.toNat = count ∧ rest' = rest := by simpa using h
        simp only [List.length_cons, List.length_nil]
        omega
      · obtain ⟨⟨things', count', rest''⟩, hread, heq⟩ := Option.map_eq_some_iff.1 h
        obtain ⟨rfl, rfl, rfl⟩ : low :: things' = things ∧ count' = count ∧ rest'' = rest := by
          simpa using heq
        have hlength := ih hread
        simp only [List.length_cons]
        omega
    · exact nomatch h

/-- A tile that is read has taken four bytes or more. -/
theorem length_of_decode {skip : ℕ} {ps : List Position} {bytes rest : List UInt8}
    {read : List (Position × Option (List UInt8))} (h : decode ids skip ps bytes = some (read, rest)) :
    4 * read.countP (fun tile => tile.2.isSome) ≤ bytes.length := by
  induction ps generalizing skip bytes read with
  | nil =>
    cases skip with
    | zero =>
      obtain ⟨rfl, rfl⟩ : [] = read ∧ bytes = rest := by simpa [decode] using h
      exact Nat.zero_le _
    | succ skip => exact nomatch h
  | cons p ps ih =>
    cases skip with
    | succ skip =>
      rw [decode] at h
      obtain ⟨⟨read', rest'⟩, hread, heq⟩ := Option.map_eq_some_iff.1 h
      obtain ⟨rfl, rfl⟩ : (p, none) :: read' = read ∧ rest' = rest := by simpa using heq
      simpa using ih hread
    | zero =>
      rw [decode] at h
      split at h
      · exact nomatch h
      · next things count rest' hthings =>
        obtain ⟨⟨read', rest''⟩, hread, heq⟩ := Option.map_eq_some_iff.1 h
        obtain ⟨rfl, rfl⟩ : (p, shown things) :: read' = read ∧ rest'' = rest := by simpa using heq
        have hlength := length_of_readThings hthings
        have hle := ih hread
        rw [List.countP_cons]
        cases things with
        | nil =>
          simp only [shown, Option.isSome_none, Bool.false_eq_true, if_false]
          omega
        | cons thing things =>
          rw [List.length_cons] at hlength
          split_ifs <;> omega

/-- A tile of which nothing is written is read as no tile, and the 46 times 46 grounds of eight
floors are too many for a message. -/
theorem not_decode_tiles :
    decode ids 0 (positions 100 100 ⟨7, by decide⟩ 1 1) (getMapDescription ids 14 (fun _ => some [])
        100 100 ⟨7, by decide⟩ 1 1) ≠
      some ((positions 100 100 ⟨7, by decide⟩ 1 1).map fun p => (p, some []), []) ∧
    decode ids 0 (positions 100 100 ⟨7, by decide⟩ 46 46) (getMapDescription ids 14
        (fun _ => some [100]) 100 100 ⟨7, by decide⟩ 46 46) ≠
      some ((positions 100 100 ⟨7, by decide⟩ 46 46).map fun p => (p, some [100]), []) := by
  refine ⟨by decide, fun h => ?_⟩
  have hread := length_of_decode h
  have hwritten := length_getMapDescription_lt ids (show 14 < Network.MAX_BODY_LENGTH by decide)
    (fun _ => some [100]) 100 100 ⟨7, by decide⟩ 46 46
  have hlength : (positions 100 100 ⟨7, by decide⟩ 46 46).length = 8 * (46 * 46) := by
    have hfloors : floors ⟨7, by decide⟩ = [7, 6, 5, 4, 3, 2, 1, 0] := by decide
    simp [positions, hfloors, floorPositions]
  have hcount : ∀ ps : List Position, (ps.map fun p => (p, some [(100 : UInt8)])).countP
      (fun tile => tile.2.isSome) = ps.length := by
    intro ps
    rw [List.countP_map]
    exact List.countP_eq_length.2 fun _ _ => rfl
  rw [hcount, hlength] at hread
  rw [Network.MAX_BODY_LENGTH, Network.NETWORKMESSAGE_MAXSIZE, Network.HEADER_LENGTH,
    Network.CHECKSUM_LENGTH, Network.XTEA_MULTIPLE] at hwritten
  omega

end Decoding

end TiabloServer.MapWindow
