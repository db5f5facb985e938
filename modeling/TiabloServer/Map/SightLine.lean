import TiabloServer.Lib.Loop
import TiabloServer.Map.Position

/-!
# Lines of sight

`Map::checkSightLine` casts a ray from one position to another one (`map/map.cpp`). In each round it
compares how far three neighbours are from the line through both positions, moves by one tile in one
or both directions, and looks for something there that blocks projectiles. Then it goes down to the
floor of the destination.

## Main definitions

* `Sight.Inspected` — the positions whose tiles are asked for.
* `Sight.OnRay` — where the ray is: the tiles that are left in both directions, and their balance.

## Main results

* `Sight.nearest` — of the three neighbours, one is within half of the larger distance from the
  line.
* `Sight.OnRay.step` — a round moves towards the destination and stays as near to the line.
* `Sight.checkSightLine_terminates` — the ray ends, stays in the box and near the line, and no
  32-bit value overflows where the distances are at most 8191.
-/

namespace TiabloServer.Sight

/-! ## The function of the source -/

/-- A tile: whether it blocks projectiles, and the number of things on it. -/
structure Tile where
  blockProjectile : Bool
  thingCount : ℕ

/-- The constants of a ray. -/
structure Line where
  destination : Position
  mx : ℤ
  my : ℤ
  A : ℤ
  B : ℤ
  C : ℤ

/-- Exact integers. -/
def exact (value : ℤ) : Option ℤ := some value

/-- `int32_t`; none where a value overflows. -/
def int32 (value : ℤ) : Option ℤ := if -2 ^ 31 ≤ value ∧ value < 2 ^ 31 then some value else none

/-- The coordinates of a position, as numbers. -/
def X (p : Position) : ℤ := p.x.toNat

@[inherit_doc X]
def Y (p : Position) : ℤ := p.y.toNat

/-- A coordinate after a move, a 16-bit value. -/
def moved (coordinate : UInt16) (m : ℤ) : UInt16 := .ofNat ((coordinate.toNat + m) % 2 ^ 16).toNat

/-- The direction of a move. -/
def direction (a b : UInt16) : ℤ := if a < b then 1 else if a = b then 0 else -1

section Source

variable (checked : ℤ → Option ℤ)

/-- The constants of the ray between two positions. -/
def line (start destination : Position) : Option Line := do
  let A ← checked (Y destination - Y start)
  let B ← checked (X start - X destination)
  let ax ← checked (A * X destination)
  let bx ← checked (B * Y destination)
  let sum ← checked (ax + bx)
  let C ← checked (-sum)
  return ⟨destination, direction start.x destination.x, direction start.y destination.y, A, B, C⟩

/-- `std::abs(A * x + B * y + C)`. -/
def residual (l : Line) (x y : ℤ) : Option ℤ := do
  let ax ← checked (l.A * x)
  let bx ← checked (l.B * y)
  let sum ← checked (ax + bx)
  let value ← checked (sum + l.C)
  checked |value|

/-- The move of a round, `y` before `x`. -/
def move (l : Line) (move_hor move_ver move_cross : ℤ) (start : Position) : Position :=
  let d := l.destination
  let start :=
    if start.y ≠ d.y ∧ (start.x = d.x ∨ move_hor > move_ver ∨ move_hor > move_cross) then
      { start with y := moved start.y l.my }
    else start
  if start.x ≠ d.x ∧ (start.y = d.y ∨ move_ver > move_hor ∨ move_ver > move_cross) then
    { start with x := moved start.x l.mx }
  else start

/-- The position after a round. -/
def rayStep (l : Line) (start : Position) : Option Position := do
  let move_hor ← residual checked l (X start + l.mx) (Y start)
  let move_ver ← residual checked l (X start) (Y start + l.my)
  let move_cross ← residual checked l (X start + l.mx) (Y start + l.my)
  return move l move_hor move_ver move_cross start

/-- How the ray ends. -/
inductive Ray where
  | overflow
  | blocked
  | arrived (p : Position)

variable (getTile : Position → Option Tile)

/-- A round of the ray. -/
def rayRound (l : Line) (start : Position) : Loop.Round Position Ray :=
  if start.x ≠ l.destination.x ∨ start.y ≠ l.destination.y then
    match rayStep checked l start with
    | none => .done .overflow
    | some start =>
      if (getTile start).any Tile.blockProjectile then .done .blocked else .next start
  else .done (.arrived start)

/-- A round of the way down. -/
def floorRound (destination start : Position) : Loop.Round Position Bool :=
  if start.z ≠ destination.z then
    if (getTile start).any fun tile => tile.thingCount > 0 then .done false
    else .next { start with z := start.z + 1 }
  else .done true

/-- The upper one of two positions, where the ray starts. -/
def upper (fromPos toPos : Position) : Position := if fromPos.z > toPos.z then toPos else fromPos

/-- The lower one. -/
def lower (fromPos toPos : Position) : Position := if fromPos.z > toPos.z then fromPos else toPos

/-- `Map::checkSightLine`, with a bound on the rounds of each loop; none in it for an overflow. -/
def checkSightLine (fuel : ℕ) (fromPos toPos : Position) : Option (Option Bool) :=
  if fromPos = toPos then some (some true)
  else
    match line checked (upper fromPos toPos) (lower fromPos toPos) with
    | none => some none
    | some l => do
      match ← Loop.run (rayRound checked getTile l) fuel (upper fromPos toPos) with
      | .overflow => return none
      | .blocked => return some false
      | .arrived start => (Loop.run (floorRound getTile l.destination) fuel start).map some

end Source

/-! ## Where the ray is -/

/-- **One of three neighbours is near.** With `u` and `v` tiles left of `b` and `a`, the balance
after the moves that a round chooses is within half of the larger distance, and there is a move. -/
theorem nearest {a b u v hor ver cross : ℤ} (ha : 0 < a) (hb : 0 < b) (hu : 1 ≤ u) (hv : 1 ≤ v)
    (hnear : 2 * |b * v - a * u| ≤ max a b) (hhor : hor = |b * v - a * (u - 1)|)
    (hver : ver = |b * (v - 1) - a * u|) (hcross : cross = |b * (v - 1) - a * (u - 1)|) :
    let v' := if hor > ver ∨ hor > cross then v - 1 else v
    let u' := if v' = 0 ∨ ver > hor ∨ ver > cross then u - 1 else u
    u' + v' < u + v ∧ 2 * |b * v' - a * u'| ≤ max a b := by
  have hbv : b ≤ b * v := le_mul_of_one_le_right hb.le hv
  have hau : a ≤ a * u := le_mul_of_one_le_right ha.le hu
  have hlast : v - 1 = 0 → b * v = b := fun h => by rw [show v = 1 by omega, mul_one]
  simp only [mul_sub, mul_one] at hhor hver hcross
  simp only [abs_eq_max_neg] at hnear hhor hver hcross
  by_cases hy : hor > ver ∨ hor > cross
  · by_cases hx : v - 1 = 0 ∨ ver > hor ∨ ver > cross
    · simp only [if_pos hy, if_pos hx, mul_sub, mul_one, abs_eq_max_neg]
      omega
    · simp only [if_pos hy, if_neg hx, mul_sub, mul_one, abs_eq_max_neg]
      omega
  · by_cases hx : v = 0 ∨ ver > hor ∨ ver > cross
    · simp only [if_neg hy, if_pos hx, mul_sub, mul_one, abs_eq_max_neg]
      omega
    · -- the three residuals cannot be such that none of them is taken
      omega

theorem eq_of_X {a b : UInt16} (h : (a.toNat : ℤ) = b.toNat) : a = b :=
  UInt16.toNat_inj.1 (by exact_mod_cast h)

/-- The direction from one coordinate to another one. -/
theorem direction_cases (a b : UInt16) :
    (direction a b = 1 ∧ (a.toNat : ℤ) < b.toNat) ∨ (direction a b = 0 ∧ a = b) ∨
      (direction a b = -1 ∧ (b.toNat : ℤ) < a.toNat) := by
  unfold direction
  split_ifs with hlt heq
  · exact .inl ⟨rfl, by exact_mod_cast UInt16.lt_iff_toNat_lt.1 hlt⟩
  · exact .inr (.inl ⟨rfl, heq⟩)
  · refine .inr (.inr ⟨rfl, ?_⟩)
    have hne : (a.toNat : ℤ) ≠ b.toNat := fun h => heq (eq_of_X h)
    have hle : ¬ a.toNat < b.toNat := fun h => hlt (UInt16.lt_iff_toNat_lt.2 h)
    omega

/-- A move between two coordinates does not wrap. -/
theorem toNat_moved {a : UInt16} {m : ℤ} (h : 0 ≤ (a.toNat : ℤ) + m) (hlt : (a.toNat : ℤ) + m < 2 ^ 16) :
    ((moved a m).toNat : ℤ) = a.toNat + m := by
  rw [moved, Int.emod_eq_of_lt h hlt, UInt16.toNat_ofNat']
  omega

/-- The coordinate `p` is on the way from `s` to `d`, with `n` tiles left. -/
structure Left (s d p : UInt16) (n : ℤ) : Prop where
  nonneg : 0 ≤ n
  le : n ≤ |(d.toNat : ℤ) - s.toNat|
  eq : (d.toNat : ℤ) - p.toNat = direction s d * n

section Left

variable {s d p : UInt16} {n : ℤ}

theorem Left.start (s d : UInt16) : Left s d s |(d.toNat : ℤ) - s.toNat| := by
  refine ⟨abs_nonneg _, le_rfl, ?_⟩
  rcases direction_cases s d with ⟨h, hlt⟩ | ⟨h, rfl⟩ | ⟨h, hlt⟩ <;> rw [h]
  · rw [abs_of_pos (by omega), one_mul]
  · simp
  · rw [abs_of_neg (by omega)]
    ring

theorem Left.eq_iff (h : Left s d p n) : p = d ↔ n = 0 := by
  have hle := h.le
  have heq := h.eq
  have hnonneg := h.nonneg
  constructor
  · rintro rfl
    rcases direction_cases s p with ⟨hdir, -⟩ | ⟨-, rfl⟩ | ⟨hdir, -⟩
    · rw [hdir] at heq
      omega
    · rw [sub_self, abs_zero] at hle
      omega
    · rw [hdir] at heq
      omega
  · intro hn
    rw [hn, mul_zero] at heq
    exact eq_of_X (by omega)

theorem Left.abs_eq (h : Left s d p n) : |(d.toNat : ℤ) - p.toNat| = n := by
  have hle := h.le
  have hnonneg := h.nonneg
  rw [h.eq]
  rcases direction_cases s d with ⟨hdir, -⟩ | ⟨-, rfl⟩ | ⟨hdir, -⟩
  · rw [hdir, one_mul, abs_of_nonneg hnonneg]
  · rw [sub_self, abs_zero] at hle
    rw [show n = 0 by omega, mul_zero, abs_zero]
  · rw [hdir, neg_one_mul, abs_neg, abs_of_nonneg hnonneg]

/-- A move towards the destination. -/
theorem Left.moved (h : Left s d p n) (hn : n ≠ 0) : Left s d (moved p (direction s d)) (n - 1) := by
  have hle := h.le
  have heq := h.eq
  have hnonneg := h.nonneg
  have hp := p.toNat_lt
  have hd := d.toNat_lt
  have htoNat : ((Sight.moved p (direction s d)).toNat : ℤ) = p.toNat + direction s d := by
    rcases direction_cases s d with ⟨hdir, -⟩ | ⟨-, rfl⟩ | ⟨hdir, -⟩
    · rw [hdir] at heq ⊢
      exact toNat_moved (by omega) (by omega)
    · rw [sub_self, abs_zero] at hle
      omega
    · rw [hdir] at heq ⊢
      exact toNat_moved (by omega) (by omega)
  refine ⟨by omega, by omega, ?_⟩
  rw [htoNat, mul_sub, mul_one, ← heq]
  ring

/-- The coordinate lies between the two others. -/
theorem Left.between (h : Left s d p n) :
    min (s.toNat : ℤ) d.toNat ≤ p.toNat ∧ (p.toNat : ℤ) ≤ max (s.toNat : ℤ) d.toNat := by
  have hle := h.le
  have heq := h.eq
  have hnonneg := h.nonneg
  rcases direction_cases s d with ⟨hdir, hlt⟩ | ⟨hdir, rfl⟩ | ⟨hdir, hlt⟩ <;> rw [hdir] at heq
  · rw [abs_of_pos (by omega)] at hle
    omega
  · omega
  · rw [abs_of_neg (by omega)] at hle
    omega

end Left

/-! ## A round of the ray -/

section Rounds

variable {s d p : Position}

/-- The line through two positions. -/
def lineOf (s d : Position) : Line :=
  ⟨d, direction s.x d.x, direction s.y d.y, Y d - Y s, X s - X d,
    -((Y d - Y s) * X d + (X s - X d) * Y d)⟩

theorem line_exact (s d : Position) : line exact s d = some (lineOf s d) := rfl

/-- How far a position is from the line, times the length of the line. -/
def balance (s d : Position) (x y : ℤ) : ℤ := (lineOf s d).A * x + (lineOf s d).B * y + (lineOf s d).C

/-- Where the ray is, with `u` and `v` tiles left in the two directions. -/
structure OnRay (s d p : Position) (u v : ℤ) : Prop where
  x : Left s.x d.x p.x u
  y : Left s.y d.y p.y v
  z : p.z = s.z
  near : 2 * |(|X d - X s| * v - |Y d - Y s| * u)| ≤ max |Y d - Y s| |X d - X s|

theorem OnRay.start (s d : Position) : OnRay s d s |X d - X s| |Y d - Y s| := by
  refine ⟨Left.start _ _, Left.start _ _, rfl, ?_⟩
  rw [mul_comm |Y d - Y s|, sub_self, abs_zero, mul_zero]
  exact le_max_of_le_left (abs_nonneg _)

/-- The distances, with their signs. -/
theorem signed (a b : UInt16) :
    (b.toNat : ℤ) - a.toNat = direction a b * |(b.toNat : ℤ) - a.toNat| :=
  (Left.start a b).eq

/-- The balance of a position with `u` and `v` tiles left. -/
theorem balance_eq {u v : ℤ} (x y : ℤ) (hx : X d - x = direction s.x d.x * u)
    (hy : Y d - y = direction s.y d.y * v) :
    balance s d x y = direction s.x d.x * direction s.y d.y * (|X d - X s| * v - |Y d - Y s| * u) := by
  have hX : X d - X s = direction s.x d.x * |X d - X s| := signed s.x d.x
  have hY : Y d - Y s = direction s.y d.y * |Y d - Y s| := signed s.y d.y
  have hbalance : balance s d x y = (X d - X s) * (Y d - y) - (Y d - Y s) * (X d - x) := by
    simp only [balance, lineOf]
    ring
  rw [hbalance, hx, hy]
  generalize |X d - X s| = b at hX ⊢
  generalize |Y d - Y s| = a at hY ⊢
  rw [hX, hY]
  ring

theorem abs_direction_mul {a b : UInt16} (h : a ≠ b) (c : ℤ) : |direction a b * c| = |c| := by
  rcases direction_cases a b with ⟨hdir, -⟩ | ⟨-, heq⟩ | ⟨hdir, -⟩
  · rw [hdir, one_mul]
  · exact absurd heq h
  · rw [hdir, neg_one_mul, abs_neg]

/-- The residuals of a position with `u` and `v` tiles left. -/
theorem abs_balance {u v : ℤ} (hne : s.x ≠ d.x ∧ s.y ≠ d.y) {x y : ℤ}
    (hx : X d - x = direction s.x d.x * u) (hy : Y d - y = direction s.y d.y * v) :
    |balance s d x y| = |(|X d - X s| * v - |Y d - Y s| * u)| := by
  rw [balance_eq x y hx hy, mul_assoc, abs_direction_mul hne.1, abs_direction_mul hne.2]

theorem OnRay.near_of_le {u v u' v' : ℤ} (h : OnRay s d p u v) (hu : u = 0 ∧ u' = 0 ∨ v = 0 ∧ v' = 0)
    (hu' : 0 ≤ u' ∧ u' ≤ u) (hv' : 0 ≤ v' ∧ v' ≤ v) :
    2 * |(|X d - X s| * v' - |Y d - Y s| * u')| ≤ max |Y d - Y s| |X d - X s| := by
  have hnear := h.near
  have hb := abs_nonneg (X d - X s)
  have ha := abs_nonneg (Y d - Y s)
  rcases hu with ⟨rfl, rfl⟩ | ⟨rfl, rfl⟩
  · have hmul := mul_le_mul_of_nonneg_left hv'.2 hb
    have hpos := mul_nonneg hb hv'.1
    rw [mul_zero, sub_zero, abs_of_nonneg (hpos.trans hmul)] at hnear
    rw [mul_zero, sub_zero, abs_of_nonneg hpos]
    omega
  · have hmul := mul_le_mul_of_nonneg_left hu'.2 ha
    have hpos := mul_nonneg ha hu'.1
    rw [mul_zero, zero_sub, abs_neg, abs_of_nonneg (hpos.trans hmul)] at hnear
    rw [mul_zero, zero_sub, abs_neg, abs_of_nonneg hpos]
    omega

/-- **A round of the ray** leaves fewer tiles, and the ray as near to the line. -/
theorem OnRay.step {u v : ℤ} (h : OnRay s d p u v) (hp : p.x ≠ d.x ∨ p.y ≠ d.y) :
    ∃ u' v' p', rayStep exact (lineOf s d) p = some p' ∧ OnRay s d p' u' v' ∧ u' ≤ u ∧ v' ≤ v ∧
      u' + v' < u + v := by
  have hx0 := h.x.eq_iff
  have hy0 := h.y.eq_iff
  have hu := h.x.nonneg
  have hv := h.y.nonneg
  set hor := |balance s d (X p + direction s.x d.x) (Y p)| with hhor
  set ver := |balance s d (X p) (Y p + direction s.y d.y)| with hver
  set cross := |balance s d (X p + direction s.x d.x) (Y p + direction s.y d.y)| with hcross
  have hstep : rayStep exact (lineOf s d) p = some (move (lineOf s d) hor ver cross p) := rfl
  by_cases hu0 : u = 0
  · have hpx : p.x = d.x := hx0.2 hu0
    have hpy : p.y ≠ d.y := hp.resolve_left (not_not.2 hpx)
    have hv0 : v ≠ 0 := fun h0 => hpy (hy0.2 h0)
    refine ⟨u, v - 1, { p with y := moved p.y (direction s.y d.y) }, ?_, ?_, le_rfl, by omega, by omega⟩
    · rw [hstep]
      simp [move, lineOf, hpx, hpy]
    · exact ⟨h.x, h.y.moved hv0, h.z, h.near_of_le (.inl ⟨hu0, hu0⟩) ⟨hu, le_rfl⟩ (by omega)⟩
  by_cases hv0 : v = 0
  · have hpy : p.y = d.y := hy0.2 hv0
    have hpx : p.x ≠ d.x := fun hpx => hu0 (hx0.1 hpx)
    refine ⟨u - 1, v, { p with x := moved p.x (direction s.x d.x) }, ?_, ?_, by omega, le_rfl, by omega⟩
    · rw [hstep]
      simp [move, lineOf, hpx, hpy]
    · exact ⟨h.x.moved hu0, h.y, h.z, h.near_of_le (.inr ⟨hv0, hv0⟩) (by omega) ⟨hv, le_rfl⟩⟩
  -- both directions are open
  have hpx : p.x ≠ d.x := fun hpx => hu0 (hx0.1 hpx)
  have hpy : p.y ≠ d.y := fun hpy => hv0 (hy0.1 hpy)
  have hb : 0 < |X d - X s| := lt_of_lt_of_le (lt_of_le_of_ne hu (Ne.symm hu0)) h.x.le
  have ha : 0 < |Y d - Y s| := lt_of_lt_of_le (lt_of_le_of_ne hv (Ne.symm hv0)) h.y.le
  have hne : s.x ≠ d.x ∧ s.y ≠ d.y := by
    constructor
    · intro heq
      rw [X, X, heq, sub_self, abs_zero] at hb
      omega
    · intro heq
      rw [Y, Y, heq, sub_self, abs_zero] at ha
      omega
  have hX : X d - X p = direction s.x d.x * u := h.x.eq
  have hY : Y d - Y p = direction s.y d.y * v := h.y.eq
  have hX' : X d - (X p + direction s.x d.x) = direction s.x d.x * (u - 1) := by
    rw [mul_sub, ← hX]
    ring
  have hY' : Y d - (Y p + direction s.y d.y) = direction s.y d.y * (v - 1) := by
    rw [mul_sub, ← hY]
    ring
  have hnearest := nearest ha hb (by omega) (by omega) h.near (hhor.trans (abs_balance hne hX' hY))
    (hver.trans (abs_balance hne hX hY')) (hcross.trans (abs_balance hne hX' hY'))
  by_cases hy : hor > ver ∨ hor > cross
  · have hmoved := h.y.moved hv0
    have hlast : moved p.y (direction s.y d.y) = d.y ↔ v - 1 = 0 := hmoved.eq_iff
    by_cases hx : v - 1 = 0 ∨ ver > hor ∨ ver > cross
    · simp only [if_pos hy, if_pos hx] at hnearest
      refine ⟨u - 1, v - 1, ⟨moved p.x (direction s.x d.x), moved p.y (direction s.y d.y), p.z⟩, ?_,
        ⟨h.x.moved hu0, hmoved, h.z, hnearest.2⟩, by omega, by omega, by omega⟩
      rw [hstep]
      simp only [move, lineOf, ne_eq, hpx, hpy, not_false_eq_true, false_or, true_and, if_pos hy, hlast,
        if_pos hx]
    · simp only [if_pos hy, if_neg hx] at hnearest
      refine ⟨u, v - 1, { p with y := moved p.y (direction s.y d.y) }, ?_,
        ⟨h.x, hmoved, h.z, hnearest.2⟩, le_rfl, by omega, by omega⟩
      rw [hstep]
      simp only [move, lineOf, ne_eq, hpx, hpy, not_false_eq_true, false_or, true_and, if_pos hy, hlast,
        if_neg hx]
  · by_cases hx : v = 0 ∨ ver > hor ∨ ver > cross
    · simp only [if_neg hy, if_pos hx] at hnearest
      have hx' := hx.resolve_left hv0
      refine ⟨u - 1, v, { p with x := moved p.x (direction s.x d.x) }, ?_,
        ⟨h.x.moved hu0, h.y, h.z, hnearest.2⟩, by omega, le_rfl, by omega⟩
      rw [hstep]
      simp only [move, lineOf, ne_eq, hpx, hpy, not_false_eq_true, false_or, true_and, if_neg hy, if_pos hx']
    · simp only [if_neg hy, if_neg hx] at hnearest
      exact absurd hnearest.1 (lt_irrefl _)

end Rounds

/-! ## The whole way -/

section Way

variable (getTile : Position → Option Tile)

/-- The ray comes to a position. -/
def Comes (s d p : Position) : Prop := Loop.Reaches (rayRound exact getTile (lineOf s d)) s p

/-- The tile of a position is asked for, by a round of the ray or on the way down. -/
def Inspected (s d p : Position) : Prop :=
  (∃ q, Comes getTile s d q ∧ (q.x ≠ d.x ∨ q.y ≠ d.y) ∧ rayStep exact (lineOf s d) q = some p) ∨
    ∃ q, Comes getTile s d q ∧ (q.x = d.x ∧ q.y = d.y) ∧
      Loop.Reaches (floorRound getTile d) q p ∧ p.z ≠ d.z

/-- The position lies in the box of two positions. -/
structure InBox (s d p : Position) : Prop where
  x : min (X s) (X d) ≤ X p ∧ X p ≤ max (X s) (X d)
  y : min (Y s) (Y d) ≤ Y p ∧ Y p ≤ max (Y s) (Y d)
  z : min s.z.toNat d.z.toNat ≤ p.z.toNat ∧ p.z.toNat ≤ max s.z.toNat d.z.toNat

/-- A point of the straight line from one position to another one is less than one tile away. -/
def NearLine (s d p : Position) : Prop :=
  ∃ t ∈ Set.Icc (0 : ℝ) 1, (X p - (X s + t * (X d - X s))) ^ 2 + (Y p - (Y s + t * (Y d - Y s))) ^ 2 < 1

/-- A move to `p'` goes towards the destination. -/
structure Approaches (d p p' : Position) : Prop where
  x : |X d - X p'| ≤ |X d - X p|
  y : |Y d - Y p'| ≤ |Y d - Y p|
  sum : |X d - X p'| + |Y d - Y p'| < |X d - X p| + |Y d - Y p|

variable {getTile} {s d p : Position}

/-- The balance of the axis on which the point of the line is taken. -/
theorem sq_lt_one {e a m : ℝ} (ha : 0 < a) (he : 2 * |e| ≤ a) (hm : m ^ 2 ≤ 1) : (m * e / a) ^ 2 < 1 := by
  have hdiv : |e / a| ≤ 1 / 2 := by
    rw [abs_div, abs_of_pos ha, div_le_div_iff₀ ha two_pos]
    linarith
  have hsq : (e / a) ^ 2 ≤ (1 / 2) ^ 2 := sq_le_sq' (abs_le.1 hdiv).1 (abs_le.1 hdiv).2
  calc (m * e / a) ^ 2 = m ^ 2 * (e / a) ^ 2 := by ring
    _ ≤ 1 * (1 / 2) ^ 2 := mul_le_mul hm hsq (sq_nonneg _) zero_le_one
    _ < 1 := by norm_num

theorem direction_sq (a b : UInt16) : ((direction a b : ℤ) : ℝ) ^ 2 ≤ 1 := by
  rcases direction_cases a b with ⟨h, -⟩ | ⟨h, -⟩ | ⟨h, -⟩ <;> simp [h]

theorem OnRay.nearLine {u v : ℤ} (h : OnRay s d p u v) : NearLine s d p := by
  have hXs : X d - X s = direction s.x d.x * |X d - X s| := signed s.x d.x
  have hYs : Y d - Y s = direction s.y d.y * |Y d - Y s| := signed s.y d.y
  have hXp : X d - X p = direction s.x d.x * u := h.x.eq
  have hYp : Y d - Y p = direction s.y d.y * v := h.y.eq
  have hu' : 0 ≤ u ∧ u ≤ |X d - X s| := ⟨h.x.nonneg, h.x.le⟩
  have hv' : 0 ≤ v ∧ v ≤ |Y d - Y s| := ⟨h.y.nonneg, h.y.le⟩
  have hnear := h.near
  generalize |X d - X s| = b' at hXs hu' hnear
  generalize |Y d - Y s| = a' at hYs hv' hnear
  -- the same facts about real numbers
  obtain ⟨b, hbdef⟩ : ∃ b : ℝ, b = b' := ⟨_, rfl⟩
  obtain ⟨a, hadef⟩ : ∃ a : ℝ, a = a' := ⟨_, rfl⟩
  have hX : (X d : ℝ) - X s = direction s.x d.x * b := by rw [hbdef]; exact_mod_cast hXs
  have hY : (Y d : ℝ) - Y s = direction s.y d.y * a := by rw [hadef]; exact_mod_cast hYs
  have hx : (X d : ℝ) - X p = direction s.x d.x * u := by exact_mod_cast hXp
  have hy : (Y d : ℝ) - Y p = direction s.y d.y * v := by exact_mod_cast hYp
  have hu : (0 : ℝ) ≤ u ∧ (u : ℝ) ≤ b := by rw [hbdef]; exact_mod_cast hu'
  have hv : (0 : ℝ) ≤ v ∧ (v : ℝ) ≤ a := by rw [hadef]; exact_mod_cast hv'
  have hnear : 2 * |b * v - a * u| ≤ max a b := by rw [hadef, hbdef]; exact_mod_cast hnear
  have ha : 0 ≤ a := hv.1.trans hv.2
  have hb : 0 ≤ b := hu.1.trans hu.2
  by_cases hzero : a = 0 ∧ b = 0
  · -- both positions are the same
    obtain ⟨rfl, rfl⟩ := hzero
    have hu0 : (u : ℝ) = 0 := le_antisymm hu.2 hu.1
    have hv0 : (v : ℝ) = 0 := le_antisymm hv.2 hv.1
    rw [hu0, mul_zero] at hx
    rw [hv0, mul_zero] at hy
    refine ⟨1, ⟨zero_le_one, le_rfl⟩, ?_⟩
    rw [show (X p : ℝ) - (X s + 1 * (X d - X s)) = 0 by linarith,
      show (Y p : ℝ) - (Y s + 1 * (Y d - Y s)) = 0 by linarith]
    norm_num
  have hp : (X p : ℝ) = X s + direction s.x d.x * b - direction s.x d.x * u := by linarith
  have hp' : (Y p : ℝ) = Y s + direction s.y d.y * a - direction s.y d.y * v := by linarith
  rcases le_total b a with hba | hab
  · -- the point of the line beside the position
    have hpos : 0 < a := lt_of_le_of_ne ha fun h0 => hzero ⟨h0.symm, le_antisymm (hba.trans_eq h0.symm) hb⟩
    rw [max_eq_left hba] at hnear
    refine ⟨1 - v / a, ⟨sub_nonneg.2 ((div_le_one hpos).2 hv.2), sub_le_self _ (div_nonneg hv.1 ha)⟩, ?_⟩
    have hside : (X p : ℝ) - (X s + (1 - v / a) * (X d - X s)) = direction s.x d.x * (b * v - a * u) / a := by
      rw [hX, hp]
      field_simp
      ring
    have hsame : (Y p : ℝ) - (Y s + (1 - v / a) * (Y d - Y s)) = 0 := by
      rw [hY, hp']
      field_simp
      ring
    rw [hside, hsame]
    simpa using sq_lt_one hpos hnear (direction_sq s.x d.x)
  · -- the point of the line above or below it
    have hpos : 0 < b := lt_of_le_of_ne hb fun h0 => hzero ⟨le_antisymm (hab.trans_eq h0.symm) ha, h0.symm⟩
    rw [max_eq_right hab, abs_sub_comm] at hnear
    refine ⟨1 - u / b, ⟨sub_nonneg.2 ((div_le_one hpos).2 hu.2), sub_le_self _ (div_nonneg hu.1 hb)⟩, ?_⟩
    have hsame : (X p : ℝ) - (X s + (1 - u / b) * (X d - X s)) = 0 := by
      rw [hX, hp]
      field_simp
      ring
    have hside : (Y p : ℝ) - (Y s + (1 - u / b) * (Y d - Y s)) = direction s.y d.y * (a * u - b * v) / b := by
      rw [hY, hp']
      field_simp
      ring
    rw [hside, hsame]
    simpa using sq_lt_one hpos hnear (direction_sq s.y d.y)

theorem rayRound_next {p' : Position} (h : rayRound exact getTile (lineOf s d) p = .next p') :
    (p.x ≠ d.x ∨ p.y ≠ d.y) ∧ rayStep exact (lineOf s d) p = some p' := by
  unfold rayRound at h
  split_ifs at h with hp
  cases hstep : rayStep exact (lineOf s d) p with
  | none =>
    rw [hstep] at h
    cases h
  | some q =>
    rw [hstep] at h
    dsimp only at h
    split_ifs at h
    cases h
    exact ⟨hp, rfl⟩

/-- The ray is on its way wherever it comes. -/
theorem onRay_of_comes (h : Comes getTile s d p) : ∃ u v, OnRay s d p u v := by
  refine Loop.Reaches.invariant (P := fun p => ∃ u v, OnRay s d p u v) h ⟨_, _, OnRay.start s d⟩ ?_
  rintro q q' ⟨u, v, hq⟩ hround
  obtain ⟨hne, hstep⟩ := rayRound_next hround
  obtain ⟨u', v', p', hstep', hp', -⟩ := hq.step hne
  rw [hstep] at hstep'
  obtain rfl := Option.some.inj hstep'
  exact ⟨u', v', hp'⟩

theorem OnRay.approaches {p' : Position} {u v u' v' : ℤ} (h : OnRay s d p u v) (h' : OnRay s d p' u' v')
    (hu : u' ≤ u) (hv : v' ≤ v) (hlt : u' + v' < u + v) : Approaches d p p' := by
  have hx : |X d - X p| = u := h.x.abs_eq
  have hy : |Y d - Y p| = v := h.y.abs_eq
  have hx' : |X d - X p'| = u' := h'.x.abs_eq
  have hy' : |Y d - Y p'| = v' := h'.y.abs_eq
  exact ⟨by rw [hx, hx']; exact hu, by rw [hy, hy']; exact hv, by rw [hx, hy, hx', hy']; exact hlt⟩

/-- The tiles left in both directions. -/
def distance (d p : Position) : ℕ := (|X d - X p| + |Y d - Y p|).toNat

theorem Approaches.distance_lt {p' : Position} (h : Approaches d p p') : distance d p' < distance d p := by
  have hsum := h.sum
  have hx := abs_nonneg (X d - X p')
  have hy := abs_nonneg (Y d - Y p')
  unfold distance
  omega

/-- A round of the ray leaves fewer tiles. -/
theorem ray_next {p' : Position} (h : ∃ u v, OnRay s d p u v)
    (hround : rayRound exact getTile (lineOf s d) p = .next p') :
    (∃ u v, OnRay s d p' u v) ∧ distance d p' < distance d p := by
  obtain ⟨u, v, hp⟩ := h
  obtain ⟨hne, hstep⟩ := rayRound_next hround
  obtain ⟨u', v', q, hstep', hq, hu, hv, hlt⟩ := hp.step hne
  rw [hstep] at hstep'
  obtain rfl := Option.some.inj hstep'
  exact ⟨⟨u', v', hq⟩, (hp.approaches hq hu hv hlt).distance_lt⟩

/-- What the ray ends with: it is blocked, or above the destination. -/
theorem ray_done {r : Ray} (h : ∃ u v, OnRay s d p u v) (hround : rayRound exact getTile (lineOf s d) p = .done r) :
    r = .blocked ∨ ∃ p, r = .arrived p ∧ p.x = d.x ∧ p.y = d.y ∧ p.z = s.z := by
  obtain ⟨u, v, hp⟩ := h
  unfold rayRound at hround
  split_ifs at hround with hne
  · obtain ⟨u', v', q, hstep, -⟩ := hp.step hne
    rw [hstep] at hround
    dsimp only at hround
    split_ifs at hround
    cases hround
    exact .inl rfl
  · cases hround
    obtain ⟨hx, hy⟩ := not_or.1 hne
    exact .inr ⟨p, rfl, not_not.1 hx, not_not.1 hy, hp.z⟩

/-- **The ray ends**, above the destination if nothing blocks it. -/
theorem run_ray (getTile : Position → Option Tile) (s d : Position) :
    ∃ r fuel, (∀ fuel', fuel ≤ fuel' → Loop.run (rayRound exact getTile (lineOf s d)) fuel' s = some r) ∧
      (r = .blocked ∨ ∃ p, r = .arrived p ∧ p.x = d.x ∧ p.y = d.y ∧ p.z = s.z) :=
  Loop.total (distance d) (fun _ _ => ray_next) (fun _ _ => ray_done) ⟨_, _, OnRay.start s d⟩

/-! ## The way down -/

/-- Above the destination, no further down than it is. -/
structure Above (s d p : Position) : Prop where
  x : p.x = d.x
  y : p.y = d.y
  z : s.z.toNat ≤ p.z.toNat ∧ p.z.toNat ≤ d.z.toNat

theorem Above.next {p' : Position} (h : Above s d p) (hround : floorRound getTile d p = .next p') :
    Above s d p' ∧ p'.z.toNat = p.z.toNat + 1 := by
  unfold floorRound at hround
  split_ifs at hround with hz
  cases hround
  have hne : p.z.toNat ≠ d.z.toNat := fun heq => hz (UInt8.toNat_inj.1 heq)
  have hd := d.z.toNat_lt
  have hle := h.z
  have hadd : (p.z + 1).toNat = p.z.toNat + 1 := by
    rw [UInt8.toNat_add]
    exact Nat.mod_eq_of_lt (by rw [UInt8.toNat_one]; omega)
  exact ⟨⟨h.x, h.y, by dsimp only; omega⟩, hadd⟩

/-- **The way down ends.** -/
theorem run_floor (getTile : Position → Option Tile) (h : Above s d p) :
    ∃ r fuel, (∀ fuel', fuel ≤ fuel' → Loop.run (floorRound getTile d) fuel' p = some r) ∧ True := by
  refine Loop.total (P := Above s d) (fun q => d.z.toNat - q.z.toNat) ?_ (fun _ _ _ _ => trivial) h
  intro q q' hq hround
  obtain ⟨hq', hz⟩ := hq.next hround
  have hle := hq'.z
  exact ⟨hq', by omega⟩

theorem upper_le_lower (fromPos toPos : Position) :
    (upper fromPos toPos).z.toNat ≤ (lower fromPos toPos).z.toNat := by
  unfold upper lower
  split_ifs with h
  · exact (UInt8.lt_iff_toNat_lt.1 h).le
  · exact Nat.le_of_not_lt fun hlt => h (UInt8.lt_iff_toNat_lt.2 hlt)

/-- The function returns. -/
theorem checkSightLine_some (getTile : Position → Option Tile) (fromPos toPos : Position) :
    ∃ clear fuel, ∀ fuel', fuel ≤ fuel' → checkSightLine exact getTile fuel' fromPos toPos = some (some clear) := by
  unfold checkSightLine
  by_cases heq : fromPos = toPos
  · exact ⟨true, 0, fun _ _ => if_pos heq⟩
  simp only [if_neg heq, line_exact]
  obtain ⟨r, n, hrun, hr⟩ := run_ray getTile (upper fromPos toPos) (lower fromPos toPos)
  rcases hr with rfl | ⟨p, rfl, hx, hy, hz⟩
  · refine ⟨false, n, fun fuel' hle => ?_⟩
    rw [hrun fuel' hle]
    rfl
  · have habove : Above (upper fromPos toPos) (lower fromPos toPos) p :=
      ⟨hx, hy, by rw [hz]; exact ⟨le_rfl, upper_le_lower fromPos toPos⟩⟩
    obtain ⟨clear, m, hfloor, -⟩ := run_floor getTile habove
    refine ⟨clear, max n m, fun fuel' hle => ?_⟩
    rw [hrun fuel' ((le_max_left n m).trans hle)]
    show (Loop.run (floorRound getTile (lower fromPos toPos)) fuel' p).map some = _
    rw [hfloor fuel' ((le_max_right n m).trans hle)]
    rfl

/-- What is asked for lies in the box, near the line. -/
theorem inspected_near (hz : s.z.toNat ≤ d.z.toNat) (h : Inspected getTile s d p) :
    InBox s d p ∧ NearLine s d p := by
  rcases h with ⟨q, hq, hne, hstep⟩ | ⟨q, hq, ⟨hx, hy⟩, hfloor, -⟩
  · obtain ⟨u, v, hray⟩ := onRay_of_comes hq
    obtain ⟨u', v', p', hstep', hp, -⟩ := hray.step hne
    rw [hstep] at hstep'
    obtain rfl := Option.some.inj hstep'
    exact ⟨⟨hp.x.between, hp.y.between, by rw [hp.z]; omega⟩, hp.nearLine⟩
  · obtain ⟨u, v, hray⟩ := onRay_of_comes hq
    have hqz := hray.z
    have habove : Above s d p := hfloor.invariant (P := Above s d)
      ⟨hx, hy, by rw [hqz]; exact ⟨le_rfl, hz⟩⟩ fun _ _ h hround => (h.next hround).1
    have hX : X p = X d := by rw [X, X, habove.x]
    have hY : Y p = Y d := by rw [Y, Y, habove.y]
    have hle := habove.z
    refine ⟨⟨by rw [hX]; omega, by rw [hY]; omega, by omega⟩, 1, ⟨zero_le_one, le_rfl⟩, ?_⟩
    rw [hX, hY]
    norm_num

/-! ## Machine integers -/

theorem int32_of_abs_le {value : ℤ} (h : |value| ≤ 2147483647) : int32 value = some value := by
  have hle := abs_le.1 h
  exact if_pos ⟨by omega, by omega⟩

theorem abs_mul_le {A x n : ℤ} (hA : |A| ≤ 8191) (hx : |x| ≤ n) : |A * x| ≤ 8191 * n := by
  rw [abs_mul]
  exact mul_le_mul hA hx (abs_nonneg x) (by norm_num)

theorem abs_X_le (p : Position) : |X p| ≤ 65535 ∧ |Y p| ≤ 65535 := by
  have hx := p.x.toNat_lt
  have hy := p.y.toNat_lt
  simp only [abs_le, X, Y]
  omega

theorem abs_direction_le (a b : UInt16) : |direction a b| ≤ 1 := by
  rcases direction_cases a b with ⟨h, -⟩ | ⟨h, -⟩ | ⟨h, -⟩ <;> rw [h] <;> decide

section Near

variable (hx : |X d - X s| ≤ 8191) (hy : |Y d - Y s| ≤ 8191)
include hx hy

theorem line_int32 : line int32 s d = some (lineOf s d) := by
  have hx' : |X s - X d| ≤ 8191 := by rwa [abs_sub_comm]
  have hAX := abs_mul_le hy (abs_X_le d).1
  have hBY := abs_mul_le hx' (abs_X_le d).2
  have hAX' := abs_le.1 hAX
  have hBY' := abs_le.1 hBY
  simp only [line, int32_of_abs_le (hy.trans (by norm_num)), int32_of_abs_le (hx'.trans (by norm_num)),
    int32_of_abs_le (hAX.trans (by norm_num)), int32_of_abs_le (hBY.trans (by norm_num)), Option.bind_eq_bind,
    Option.bind_some]
  rw [int32_of_abs_le (abs_le.2 (by omega)), Option.bind_some, int32_of_abs_le (abs_le.2 (by omega))]
  rfl

/-- No value overflows on the way to a residual. -/
theorem residual_int32 {x y : ℤ} (hX : |x| ≤ 65536) (hY : |y| ≤ 65536) :
    residual int32 (lineOf s d) x y = residual exact (lineOf s d) x y := by
  have hx' : |X s - X d| ≤ 8191 := by rwa [abs_sub_comm]
  have hAX := abs_mul_le hy (abs_X_le d).1
  have hBY := abs_mul_le hx' (abs_X_le d).2
  have hAx := abs_mul_le hy hX
  have hBy := abs_mul_le hx' hY
  have hAX' := abs_le.1 hAX
  have hBY' := abs_le.1 hBY
  have hAx' := abs_le.1 hAx
  have hBy' := abs_le.1 hBy
  have hsum : |(Y d - Y s) * x + (X s - X d) * y +
      -((Y d - Y s) * X d + (X s - X d) * Y d)| ≤ 2147483647 := abs_le.2 (by omega)
  simp only [residual, lineOf, int32_of_abs_le (hAx.trans (by norm_num)),
    int32_of_abs_le (hBy.trans (by norm_num)), Option.bind_eq_bind, Option.bind_some]
  rw [int32_of_abs_le (abs_le.2 (by omega)), Option.bind_some, int32_of_abs_le hsum, Option.bind_some,
    int32_of_abs_le (by rwa [abs_abs])]
  rfl

/-- A round computes what it does over the exact integers. -/
theorem rayStep_int32 (p : Position) : rayStep int32 (lineOf s d) p = rayStep exact (lineOf s d) p := by
  have hp := abs_X_le p
  have hpx : |X p| ≤ 65536 := hp.1.trans (by norm_num)
  have hpy : |Y p| ≤ 65536 := hp.2.trans (by norm_num)
  have hmx : |X p + direction s.x d.x| ≤ 65536 :=
    (abs_add_le _ _).trans (add_le_add hp.1 (abs_direction_le s.x d.x))
  have hmy : |Y p + direction s.y d.y| ≤ 65536 :=
    (abs_add_le _ _).trans (add_le_add hp.2 (abs_direction_le s.y d.y))
  have hhor := residual_int32 hx hy hmx hpy
  have hver := residual_int32 hx hy hpx hmy
  have hcross := residual_int32 hx hy hmx hmy
  unfold rayStep
  have hl : (lineOf s d).mx = direction s.x d.x ∧ (lineOf s d).my = direction s.y d.y := ⟨rfl, rfl⟩
  rw [hl.1, hl.2, hhor, hver, hcross]

theorem rayRound_int32 : rayRound int32 getTile (lineOf s d) = rayRound exact getTile (lineOf s d) := by
  funext p
  rw [rayRound, rayRound, rayStep_int32 hx hy]

end Near

/-- **From one tile to the next** nothing is in the way but the second one. -/
theorem checkSightLine_adjacent (hz : s.z = d.z) (hne : s.x ≠ d.x ∨ s.y ≠ d.y) (hx : |X d - X s| ≤ 1)
    (hy : |Y d - Y s| ≤ 1) (hclear : (getTile d).any Tile.blockProjectile = false) {fuel : ℕ}
    (hfuel : 2 ≤ fuel) : checkSightLine int32 getTile fuel s d = some (some true) := by
  obtain ⟨fuel, rfl⟩ : ∃ n, fuel = n + 2 := ⟨fuel - 2, by omega⟩
  have hdiff : s ≠ d := by
    rintro rfl
    simp at hne
  have hnot : ¬ s.z > d.z := fun hlt => UInt8.lt_irrefl d.z (hz ▸ hlt)
  have hupper : upper s d = s := if_neg hnot
  have hlower : lower s d = d := if_neg hnot
  have hx' : |X d - X s| ≤ 8191 := hx.trans (by norm_num)
  have hy' : |Y d - Y s| ≤ 8191 := hy.trans (by norm_num)
  -- the ray is over the destination after one round: its balance leaves no other place
  obtain ⟨u, v, p, hstep, hp, hu, hv, hlt⟩ := (OnRay.start s d).step hne
  have hu0 := hp.x.nonneg
  have hv0 := hp.y.nonneg
  have hnear := hp.near
  have huv : u = 0 ∧ v = 0 := by
    have hxs := abs_nonneg (X d - X s)
    have hys := abs_nonneg (Y d - Y s)
    rcases (by omega : |X d - X s| = 0 ∨ |X d - X s| = 1) with hb | hb <;>
      rcases (by omega : |Y d - Y s| = 0 ∨ |Y d - Y s| = 1) with ha | ha <;>
      rw [ha, hb] at hnear hlt <;> simp only [abs_eq_max_neg] at hnear <;> omega
  have hpd : p = d := by
    have hpx := hp.x.eq_iff.2 huv.1
    have hpy := hp.y.eq_iff.2 huv.2
    have hpz := hp.z.trans hz
    cases p
    cases d
    simp_all
  subst hpd
  have hround : rayRound exact getTile (lineOf s p) s = .next p := by
    have hne' : s.x ≠ (lineOf s p).destination.x ∨ s.y ≠ (lineOf s p).destination.y := hne
    unfold rayRound
    rw [if_pos hne', hstep]
    simp [hclear]
  have hlast : rayRound exact getTile (lineOf s p) p = .done (.arrived p) := by
    unfold rayRound
    rw [if_neg (by simp [lineOf])]
  have hfloor : floorRound getTile p p = .done true := by
    unfold floorRound
    rw [if_neg (by simp)]
  unfold checkSightLine
  rw [if_neg hdiff, hupper, hlower, line_int32 hx' hy']
  simp only [rayRound_int32 hx' hy', Loop.run_of_next hround, Loop.run_of_done hlast]
  show (Loop.run (floorRound getTile p) (fuel + 2) p).map some = _
  rw [Loop.run_of_done hfloor]
  rfl

/-- Where both distances are at most 8191, machine integers make no difference. -/
theorem checkSightLine_int32 {fromPos toPos : Position} (hx : |X toPos - X fromPos| ≤ 8191)
    (hy : |Y toPos - Y fromPos| ≤ 8191) (fuel : ℕ) :
    checkSightLine int32 getTile fuel fromPos toPos = checkSightLine exact getTile fuel fromPos toPos := by
  have hdist : |X (lower fromPos toPos) - X (upper fromPos toPos)| ≤ 8191 ∧
      |Y (lower fromPos toPos) - Y (upper fromPos toPos)| ≤ 8191 := by
    unfold upper lower
    split_ifs
    · exact ⟨by rwa [abs_sub_comm], by rwa [abs_sub_comm]⟩
    · exact ⟨hx, hy⟩
  rw [checkSightLine, checkSightLine, line_int32 hdist.1 hdist.2, line_exact]
  simp only [rayRound_int32 hdist.1 hdist.2]

variable (getTile) in
/-- On one floor, the function returns within as many rounds as there are tiles between the
positions. -/
theorem checkSightLine_rounds (hz : s.z = d.z) {fuel : ℕ} (hfuel : distance d s < fuel) :
    ∃ clear, checkSightLine exact getTile fuel s d = some (some clear) := by
  have hnot : ¬ s.z > d.z := fun hlt => UInt8.lt_irrefl d.z (hz ▸ hlt)
  have hupper : upper s d = s := if_neg hnot
  have hlower : lower s d = d := if_neg hnot
  unfold checkSightLine
  by_cases heq : s = d
  · exact ⟨true, if_pos heq⟩
  simp only [if_neg heq, hupper, hlower, line_exact]
  obtain ⟨r, hrun, hr⟩ := Loop.total_of_lt (distance d) (fun _ _ => ray_next)
    (fun _ _ => ray_done) ⟨_, _, OnRay.start s d⟩ hfuel
  rcases hr with rfl | ⟨p, rfl, hpx, hpy, hpz⟩
  · exact ⟨false, by rw [hrun]; rfl⟩
  · obtain ⟨fuel, rfl⟩ : ∃ n, fuel = n + 1 := ⟨fuel - 1, by omega⟩
    have hfloor : floorRound getTile d p = .done true := by
      unfold floorRound
      rw [if_neg (by simp [hpz, hz])]
    refine ⟨true, ?_⟩
    rw [hrun]
    show (Loop.run (floorRound getTile d) (fuel + 1) p).map some = _
    rw [Loop.run_of_done hfloor]
    rfl

/-- **Lines of sight.** Each round of the ray moves towards the destination and not away from it,
all that is inspected lies in the box and less than a tile from the line, the function returns, and
where both distances are at most 8191 no 32-bit value overflows, so that it returns the same with
machine integers. -/
theorem checkSightLine_terminates (getTile : Position → Option Tile) (fromPos toPos : Position) :
    (∀ p, Comes getTile (upper fromPos toPos) (lower fromPos toPos) p →
      (p.x ≠ (lower fromPos toPos).x ∨ p.y ≠ (lower fromPos toPos).y) →
      ∃ p', rayStep exact (lineOf (upper fromPos toPos) (lower fromPos toPos)) p = some p' ∧
        Approaches (lower fromPos toPos) p p') ∧
    (∀ p, Inspected getTile (upper fromPos toPos) (lower fromPos toPos) p →
      InBox (upper fromPos toPos) (lower fromPos toPos) p ∧
        NearLine (upper fromPos toPos) (lower fromPos toPos) p) ∧
    (∃ clear fuel, ∀ fuel', fuel ≤ fuel' →
      checkSightLine exact getTile fuel' fromPos toPos = some (some clear)) ∧
    (|X toPos - X fromPos| ≤ 8191 → |Y toPos - Y fromPos| ≤ 8191 → ∀ fuel,
      checkSightLine int32 getTile fuel fromPos toPos = checkSightLine exact getTile fuel fromPos toPos) := by
  refine ⟨fun p hp hne => ?_, fun p => inspected_near (upper_le_lower fromPos toPos),
    checkSightLine_some getTile fromPos toPos, fun hx hy fuel => ?_⟩
  · obtain ⟨u, v, hray⟩ := onRay_of_comes hp
    obtain ⟨u', v', p', hstep, hp', hu, hv, hlt⟩ := hray.step hne
    exact ⟨p', hstep, hray.approaches hp' hu hv hlt⟩
  · exact checkSightLine_int32 hx hy fuel

end Way

end TiabloServer.Sight
