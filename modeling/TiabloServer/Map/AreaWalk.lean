import TiabloServer.Map.Zones

/-!
# The positions of an area

The loop from `Area::begin` to `Area::end` (`game/zones/zone.hpp`) counts in the coordinates of a
position, which start again from zero after the greatest value of their type. An area that reaches
it is not walked through.

## Main definitions

* `Zones.Area.Walked` — the loop ends, and has the positions of the area in order.
* `Zones.Area.Restored` — zones without its positions are as before when it has been added and
  subtracted.

## Main results

* `Zones.Area.walk_spec` — the rest of the loop from a position of the area.
* `Zones.Area.walked_restored_iff` — the areas that are walked through.
-/

namespace TiabloServer.Zones

/-- The number of a position in the order of x, then y, then z. -/
def rank (pos : Position) : ℕ := pos.z.toNat * 2 ^ 32 + pos.y.toNat * 2 ^ 16 + pos.x.toNat

theorem rank_lt (pos : Position) : rank pos < 2 ^ 40 := by
  have hx := pos.x.toNat_lt
  have hy := pos.y.toNat_lt
  have hz := pos.z.toNat_lt
  simp only [rank]
  omega

theorem rank_injective : Function.Injective rank := by
  rintro ⟨x, y, z⟩ ⟨x', y', z'⟩ h
  have hx := x.toNat_lt
  have hy := y.toNat_lt
  have hx' := x'.toNat_lt
  have hy' := y'.toNat_lt
  simp only [rank] at h
  obtain rfl : x = x' := UInt16.toNat_inj.1 (by omega)
  obtain rfl : y = y' := UInt16.toNat_inj.1 (by omega)
  obtain rfl : z = z' := UInt8.toNat_inj.1 (by omega)
  rfl

namespace Area

variable (area : Area)

/-! ## What the loop should do -/

/-- `Area::contains`. -/
def contains (pos : Position) : Prop :=
  (area.fromPos.x ≤ pos.x ∧ pos.x ≤ area.toPos.x) ∧ (area.fromPos.y ≤ pos.y ∧ pos.y ≤ area.toPos.y) ∧
    area.fromPos.z ≤ pos.z ∧ pos.z ≤ area.toPos.z

/-- Both corners are those of a box. -/
def Ordered : Prop :=
  area.fromPos.x ≤ area.toPos.x ∧ area.fromPos.y ≤ area.toPos.y ∧ area.fromPos.z ≤ area.toPos.z

/-- The loop ends, with each position of the area once, in order. -/
def Walked : Prop :=
  (∃ n, area.next^[n] area.fromPos = area.endPos) ∧ (∀ pos, pos ∈ area.visited ↔ area.contains pos) ∧
    area.visited.Pairwise fun pos pos' => rank pos < rank pos'

/-- Adding and subtracting the area leaves the positions of a zone that had none of the area. -/
def Restored : Prop :=
  ∀ (rules : Rules) (w : World) (z : ℕ), (∀ pos ∈ (w.zones z).positions, ¬ area.contains pos) →
    ∀ pos, pos ∈ ((subtractArea rules (addArea rules w z area) z area).zones z).positions ↔
      pos ∈ (w.zones z).positions

/-- The area does not reach the greatest x or y, nor from the lowest z to the greatest. -/
def Inner : Prop :=
  area.toPos.x ≠ 65535 ∧ area.toPos.y ≠ 65535 ∧ ¬ (area.fromPos.z = 0 ∧ area.toPos.z = 255)

variable {area} {pos : Position}

theorem contains_iff : area.contains pos ↔ (area.fromPos.x.toNat ≤ pos.x.toNat ∧ pos.x.toNat ≤ area.toPos.x.toNat) ∧
      (area.fromPos.y.toNat ≤ pos.y.toNat ∧ pos.y.toNat ≤ area.toPos.y.toNat) ∧
        area.fromPos.z.toNat ≤ pos.z.toNat ∧ pos.z.toNat ≤ area.toPos.z.toNat := Iff.rfl

theorem contains_fromPos (h : area.Ordered) : area.contains area.fromPos :=
  ⟨⟨UInt16.le_refl _, h.1⟩, ⟨UInt16.le_refl _, h.2.1⟩, UInt8.le_refl _, h.2.2⟩

/-! ## Rounds of the loop -/

theorem toNat_succ_of_lt {a b : UInt16} (h : a < b) : (a + 1).toNat = a.toNat + 1 := by
  have hlt : a.toNat < b.toNat := h
  have hb := b.toNat_lt
  rw [UInt16.toNat_add, UInt16.toNat_one]
  omega

theorem toNat_succ_of_ne {a b : UInt16} (h : a ≤ b) (hb : b ≠ 65535) : (a + 1).toNat = a.toNat + 1 := by
  have hle : a.toNat ≤ b.toNat := h
  have hlt := b.toNat_lt
  have hne : b.toNat ≠ 65535 := fun heq => hb (UInt16.toNat_inj.1 heq)
  rw [UInt16.toNat_add, UInt16.toNat_one]
  omega

/-- The next position in the row. -/
theorem next_row (h : pos.x < area.toPos.x) : area.next pos = { pos with x := pos.x + 1 } := by
  have hlt : pos.x.toNat < area.toPos.x.toNat := h
  have hnot : ¬ pos.x + 1 > area.toPos.x := by
    show ¬ area.toPos.x.toNat < (pos.x + 1).toNat
    rw [toNat_succ_of_lt h]
    omega
  rw [next]
  dsimp only
  rw [if_neg hnot]

/-- The first position of the next row. -/
theorem next_line (hx : area.toPos.x ≠ 65535) (h : pos.x = area.toPos.x) (hy : pos.y < area.toPos.y) :
    area.next pos = { pos with x := area.fromPos.x, y := pos.y + 1 } := by
  have hlt : pos.y.toNat < area.toPos.y.toNat := hy
  have hend : pos.x + 1 > area.toPos.x := by
    show area.toPos.x.toNat < (pos.x + 1).toNat
    rw [toNat_succ_of_ne (h ▸ UInt16.le_refl _) hx, h]
    omega
  have hnot : ¬ pos.y + 1 > area.toPos.y := by
    show ¬ area.toPos.y.toNat < (pos.y + 1).toNat
    rw [toNat_succ_of_lt hy]
    omega
  rw [next]
  dsimp only
  rw [if_pos hend, if_neg hnot]

/-- The first position of the next floor. -/
theorem next_floor (hx : area.toPos.x ≠ 65535) (hy : area.toPos.y ≠ 65535) (h : pos.x = area.toPos.x)
    (h' : pos.y = area.toPos.y) : area.next pos = { area.fromPos with z := pos.z + 1 } := by
  have hend : pos.x + 1 > area.toPos.x := by
    show area.toPos.x.toNat < (pos.x + 1).toNat
    rw [toNat_succ_of_ne (h ▸ UInt16.le_refl _) hx, h]
    omega
  have hend' : pos.y + 1 > area.toPos.y := by
    show area.toPos.y.toNat < (pos.y + 1).toNat
    rw [toNat_succ_of_ne (h' ▸ UInt16.le_refl _) hy, h']
    omega
  rw [next]
  dsimp only
  rw [if_pos hend, if_pos hend']

/-- **A round** of the loop leads to the next position of the area, or to the end when there is
none. -/
theorem next_spec (ha : area.Inner) (h : area.contains pos) :
    (area.next pos = area.endPos ∧ ∀ p, area.contains p → rank p ≤ rank pos) ∨
      (area.contains (area.next pos) ∧ rank pos < rank (area.next pos) ∧
        ∀ p, area.contains p → rank pos < rank p → rank (area.next pos) ≤ rank p) := by
  obtain ⟨hx, hy, -⟩ := ha
  obtain ⟨⟨hx1, hx2⟩, ⟨hy1, hy2⟩, hz1, hz2⟩ := contains_iff.1 h
  have htx := area.toPos.x.toNat_lt
  have hty := area.toPos.y.toNat_lt
  rcases Nat.lt_or_eq_of_le hx2 with hlt | hxe'
  · refine .inr ?_
    have hsucc := toNat_succ_of_lt (a := pos.x) hlt
    rw [next_row hlt]
    refine ⟨contains_iff.2 ?_, ?_, fun p hp hrank => ?_⟩
    · dsimp only
      omega
    · simp only [rank]
      omega
    · obtain ⟨⟨-, hp2⟩, ⟨-, hp4⟩, -⟩ := contains_iff.1 hp
      simp only [rank] at hrank ⊢
      omega
  have hxe : pos.x = area.toPos.x := UInt16.toNat_inj.1 hxe'
  rcases Nat.lt_or_eq_of_le hy2 with hlt | hye'
  · refine .inr ?_
    have hsucc := toNat_succ_of_lt (a := pos.y) hlt
    rw [next_line hx hxe hlt]
    refine ⟨contains_iff.2 ?_, ?_, fun p hp hrank => ?_⟩
    · dsimp only
      omega
    · simp only [rank]
      omega
    · obtain ⟨⟨hp1, hp2⟩, ⟨-, hp4⟩, -⟩ := contains_iff.1 hp
      simp only [rank] at hrank ⊢
      omega
  have hye : pos.y = area.toPos.y := UInt16.toNat_inj.1 hye'
  rw [next_floor hx hy hxe hye]
  rcases Nat.lt_or_eq_of_le hz2 with hlt | hze'
  · refine .inr ?_
    have htz := area.toPos.z.toNat_lt
    have hsucc : (pos.z + 1).toNat = pos.z.toNat + 1 := by
      rw [UInt8.toNat_add, UInt8.toNat_one]
      omega
    refine ⟨contains_iff.2 ?_, ?_, fun p hp hrank => ?_⟩
    · dsimp only
      omega
    · simp only [rank]
      omega
    · obtain ⟨⟨hp1, hp2⟩, ⟨hp3, hp4⟩, -⟩ := contains_iff.1 hp
      simp only [rank] at hrank ⊢
      omega
  · refine .inl ⟨by rw [UInt8.toNat_inj.1 hze', endPos], fun p hp => ?_⟩
    obtain ⟨⟨-, hp2⟩, ⟨-, hp4⟩, -, hp6⟩ := contains_iff.1 hp
    simp only [rank]
    omega

theorem ne_endPos (ha : area.Inner) (h : area.contains pos) : pos ≠ area.endPos := by
  rintro rfl
  obtain ⟨-, -, hz⟩ := ha
  obtain ⟨-, -, hz1, hz2⟩ := contains_iff.1 h
  have htz := area.toPos.z.toNat_lt
  simp only [endPos, UInt8.toNat_add, UInt8.toNat_one] at hz1 hz2
  refine hz ⟨UInt8.toNat_inj.1 ?_, UInt8.toNat_inj.1 ?_⟩
  · simp only [UInt8.toNat_zero]
    omega
  · show area.toPos.z.toNat = 255
    omega

/-! ## The loop -/

theorem walk_endPos (n : ℕ) : area.walk n area.endPos = [] := by
  cases n with
  | zero => rfl
  | succ n => rw [walk, if_pos rfl]

/-- **The rest of the loop** from a position of the area has the positions of the area from there
on, in order, and comes to its end.

**Proof sketch.** Induction on the rounds that are allowed, of which there are as many as there are
greater positions. A round leads to the next position of the area or to the end, and misses none. -/
theorem walk_spec (ha : area.Inner) {n : ℕ} (h : area.contains pos) (hn : 2 ^ 40 ≤ n + rank pos) :
    (∃ k, area.next^[k] pos = area.endPos) ∧ (∀ p, p ∈ area.walk n pos ↔ area.contains p ∧ rank pos ≤ rank p) ∧
      (area.walk n pos).Pairwise fun p p' => rank p < rank p' := by
  induction n generalizing pos with
  | zero =>
    have := rank_lt pos
    omega
  | succ n ih =>
    rw [walk, if_neg (ne_endPos ha h)]
    have hself {p : Position} (hp : rank p = rank pos) : p = pos := rank_injective hp
    rcases next_spec ha h with ⟨hend, hlast⟩ | ⟨hnext, hlt, hfirst⟩
    · rw [hend, walk_endPos]
      refine ⟨⟨1, hend⟩, fun p => ?_, List.pairwise_singleton ..⟩
      rw [List.mem_singleton]
      constructor
      · rintro rfl
        exact ⟨h, le_rfl⟩
      · rintro ⟨hp, hle⟩
        exact hself (le_antisymm (hlast p hp) hle)
    · obtain ⟨⟨k, hk⟩, hmem, hpairwise⟩ := ih hnext (by omega)
      refine ⟨⟨k + 1, hk⟩, fun p => ?_, List.pairwise_cons.2 ⟨fun p hp => ?_, hpairwise⟩⟩
      · rw [List.mem_cons, hmem]
        constructor
        · rintro (rfl | ⟨hp, hle⟩)
          · exact ⟨h, le_rfl⟩
          · exact ⟨hp, by omega⟩
        · rintro ⟨hp, hle⟩
          rcases hle.eq_or_lt with heq | hgt
          · exact .inl (hself heq.symm)
          · exact .inr ⟨hp, hfirst p hp hgt⟩
      · exact hlt.trans_le ((hmem p).1 hp).2

theorem walked_of_inner (h : area.Ordered) (ha : area.Inner) : area.Walked := by
  have hrank (p : Position) (hp : area.contains p) : rank area.fromPos ≤ rank p := by
    obtain ⟨⟨hp1, -⟩, ⟨hp3, -⟩, hp5, -⟩ := contains_iff.1 hp
    simp only [rank]
    omega
  have hfrom := contains_fromPos h
  obtain ⟨hends, hmem, hpairwise⟩ := walk_spec ha (n := 2 ^ 40) hfrom (by omega)
  refine ⟨hends, fun p => (hmem p).trans (and_iff_left_of_imp (hrank p)), hpairwise⟩

/-- A coordinate that reaches the greatest value of its type never gets past it. -/
theorem z_next (h : area.toPos.x = 65535 ∨ area.toPos.y = 65535) (pos : Position) : (area.next pos).z = pos.z := by
  have hnot {a b : UInt16} (hb : b = 65535) : ¬ a > b := by
    subst hb
    intro hlt
    have hlt' : (65535 : UInt16).toNat < a.toNat := hlt
    have := a.toNat_lt
    have h65535 : (65535 : UInt16).toNat = 65535 := rfl
    omega
  rw [next]
  dsimp only
  rcases h with hx | hy
  · rw [if_neg (hnot hx)]
  · split_ifs with h1 h2
    · exact absurd h2 (hnot hy)
    · rfl
    · rfl

theorem not_walked_of_not_inner (h : area.Ordered) (ha : ¬ area.Inner) : ¬ area.Walked := by
  rintro ⟨⟨n, hn⟩, hmem, -⟩
  by_cases hz : area.fromPos.z = 0 ∧ area.toPos.z = 255
  · have hstart : area.fromPos = area.endPos := by
      rw [endPos, hz.2]
      cases hfrom : area.fromPos with
      | mk x y z =>
        have hz0 := hz.1
        rw [hfrom] at hz0
        dsimp only at hz0
        rw [hz0]
        rfl
    have hvisited := (hmem area.fromPos).2 (contains_fromPos h)
    have hnil : area.visited = [] := by
      rw [visited, hstart, walk_endPos]
    rw [hnil] at hvisited
    cases hvisited
  · have hxy : area.toPos.x = 65535 ∨ area.toPos.y = 65535 := by
      by_contra hnot
      rw [not_or] at hnot
      exact ha ⟨hnot.1, hnot.2, hz⟩
    have hfloor (k : ℕ) : (area.next^[k] area.fromPos).z = area.fromPos.z := by
      induction k with
      | zero => rfl
      | succ k ih => rw [Function.iterate_succ_apply', z_next hxy, ih]
    have hend := hfloor n
    rw [hn, endPos] at hend
    have hle : area.fromPos.z.toNat ≤ area.toPos.z.toNat := h.2.2
    have htz := area.toPos.z.toNat_lt
    have heq : (area.toPos.z + 1).toNat = area.fromPos.z.toNat := congrArg UInt8.toNat hend
    rw [UInt8.toNat_add, UInt8.toNat_one] at heq
    refine hz ⟨UInt8.toNat_inj.1 ?_, UInt8.toNat_inj.1 ?_⟩
    · simp only [UInt8.toNat_zero]
      omega
    · show area.toPos.z.toNat = 255
      omega

theorem zones_notify_self (w : World) (z : ℕ) (tell : Zone → Zone) :
    (w.notify {z} tell).zones z = tell (w.zones z) := if_pos (Finset.mem_singleton_self z)

theorem mem_positions_addArea {rules : Rules} {w : World} {z : ℕ} :
    pos ∈ ((addArea rules w z area).zones z).positions ↔ pos ∈ area.visited ∨ pos ∈ (w.zones z).positions := by
  rw [addArea, refresh, positions_foldl_refreshZones, zones_notify_self, zones_notify_self]
  exact mem_foldl_addPosition

theorem mem_positions_subtractArea {rules : Rules} {w : World} {z : ℕ} :
    pos ∈ ((subtractArea rules w z area).zones z).positions ↔ pos ∈ (w.zones z).positions ∧ pos ∉ area.visited := by
  rw [subtractArea, refresh, positions_foldl_refreshZones, zones_notify_self, zones_notify_self]
  exact mem_foldl_removePosition

theorem restored_of_walked (h : area.Walked) : area.Restored := by
  intro rules w z hnone pos
  rw [mem_positions_subtractArea, mem_positions_addArea]
  constructor
  · rintro ⟨hvisited | hpos, hnot⟩
    · exact absurd hvisited hnot
    · exact hpos
  · intro hpos
    exact ⟨.inr hpos, fun hvisited => hnone pos hpos ((h.2.1 pos).1 hvisited)⟩

/-- **The areas that are walked through**, and are restored when they have been added and
subtracted, are those that do not reach the greatest x or y, nor all floors. -/
theorem walked_restored_iff (area : Area) (h : area.Ordered) : (area.Walked ∧ area.Restored) ↔ area.Inner := by
  constructor
  · rintro ⟨hwalked, -⟩
    by_contra ha
    exact not_walked_of_not_inner h ha hwalked
  · intro ha
    exact ⟨walked_of_inner h ha, restored_of_walked (walked_of_inner h ha)⟩

/-- A column of three positions. -/
def column : Area := ⟨⟨1000, 1000, 6⟩, ⟨1000, 1000, 8⟩⟩

theorem walked_restored_iff_column : (column.Walked ∧ column.Restored) ↔ column.Inner :=
  walked_restored_iff column (by simp [Ordered, column])

/-- A row along the whole map. -/
def wholeRow : Area := ⟨⟨0, 1000, 7⟩, ⟨65535, 1000, 7⟩⟩

theorem not_walked_wholeRow : ¬ (wholeRow.Walked ∧ wholeRow.Restored) := by
  rintro ⟨hwalked, -⟩
  exact not_walked_of_not_inner (by simp [Ordered, wholeRow]) (by simp [Inner, wholeRow]) hwalked

end Area

end TiabloServer.Zones
