/-
How much of the navigable area the stripes sweep.

The module of the planner promises waypoints that cover the entire navigable area.
The stripes start at row 0 and are a full stripe width apart, so the rows after the
last one can be further away than half the robot, even on an empty map
(`emptyMap_not_covered`); so can pockets between two stripes, and cells whose stripe
has no three free cells in a row there.  `coversNavigableArea_iff` is the exact
condition on the map.
-/
import WheeltecRos2.Coverage.Clearance

namespace Coverage

variable (p : CoveragePlanner) (m : GridMap)

/-- The centre of a cell is within half the robot's width of the line through the cells
`a` to `b - 1` of a row. -/
def WithinReach (y x row a b : ℕ) : Prop :=
  ∃ t, m.centreX a ≤ t ∧ t ≤ m.centreX (b - 1) ∧
    (m.centreX x - t) ^ 2 + (m.centreY y - m.centreY row) ^ 2 ≤ (p.robotWidth / 2) ^ 2

/-- Every free cell of the inflated grid is within reach of a free segment of a visited
row. -/
def CoversNavigableArea : Prop :=
  ∀ y x, (p.inflatedGrid m).IsFree y x →
    ∃ row ∈ p.rows m.toOccupancyGrid, ∃ a b,
      (a, b) ∈ findFreeSegments ((p.inflatedGrid m).row row) 3 ∧ WithinReach p m y x row a b

/-- No obstacle of the map lies within the inflation of the cell. -/
def Clear (y x : ℕ) : Prop :=
  m.grid.Holds y x ∧ ∀ y' x', m.grid.Holds y' x' →
    Near (p.inflationCells m.toOccupancyGrid).toNat y x y' x' → ¬IsObstacle (m.value y' x')

/-- A stripe meets the neighbourhood of the cell: in a row at a multiple of the stripe
width there are three clear cells side by side, one of them within half the robot's
width. -/
def StripeNear (y x : ℕ) : Prop :=
  ∃ row x' w, row < m.height ∧ (p.stripeWidthCells m.toOccupancyGrid).toNat ∣ row ∧
    (∀ c, w ≤ c → c < w + 3 → Clear p m row c) ∧ w ≤ x' ∧ x' < w + 3 ∧
    ((x - x' : ℚ) ^ 2 + (y - row : ℚ) ^ 2) * m.resolution ^ 2 ≤ (p.robotWidth / 2) ^ 2

/-! ### Distances -/

variable {p m}

theorem isFree_iff_clear {y x : ℕ} : (p.inflatedGrid m).IsFree y x ↔ Clear p m y x := by
  rw [p.isFree_inflatedGrid_iff m, Clear]
  refine and_congr_right ?_
  intro _
  constructor
  · intro h y' x' hin hnear hobs
    exact h y' x' hin hobs hnear
  · intro h y' x' hin hobs hnear
    exact h y' x' hin hnear hobs

/-- The point of a line nearest to a cell centre is the centre of a cell. -/
theorem exists_nearest {x a b : ℕ} {t : ℚ} (hab : a < b) (hat : m.centreX a ≤ t)
    (htb : t ≤ m.centreX (b - 1)) :
    ∃ x', a ≤ x' ∧ x' < b ∧ (m.centreX x - m.centreX x') ^ 2 ≤ (m.centreX x - t) ^ 2 := by
  rcases Nat.lt_or_ge x a with hxa | hax
  · refine ⟨a, le_rfl, hab, ?_⟩
    have hle : m.centreX x ≤ m.centreX a := centreX_le_iff.mpr hxa.le
    nlinarith
  · rcases Nat.lt_or_ge x b with hxb | hbx
    · refine ⟨x, hax, hxb, ?_⟩
      rw [sub_self]
      nlinarith [sq_nonneg (m.centreX x - t)]
    · refine ⟨b - 1, by omega, by omega, ?_⟩
      have hle : m.centreX (b - 1) ≤ m.centreX x := centreX_le_iff.mpr (by omega)
      nlinarith

/-- A segment within reach has three clear cells, one of them within reach. -/
theorem stripeNear_of_segment {y x row a b : ℕ} (hrow : row ∈ p.rows m.toOccupancyGrid)
    (hab : (a, b) ∈ findFreeSegments ((p.inflatedGrid m).row row) 3)
    (hreach : WithinReach p m y x row a b) : StripeNear p m y x := by
  obtain ⟨hheight, hdvd⟩ := p.mem_rows_iff.mp hrow
  obtain ⟨hstretch, hlen⟩ := mem_findFreeSegments_iff.mp hab
  obtain ⟨t, hat, htb, hdist⟩ := hreach
  obtain ⟨x', hax', hxb', hnearest⟩ := exists_nearest (x := x) hstretch.lt hat htb
  refine ⟨row, x', min x' (b - 3), hheight, hdvd, fun c hwc hcw => ?_, by omega, by omega, ?_⟩
  · exact isFree_iff_clear.mp (p.isFree_of_mem_segment m hheight hab (by omega) (by omega))
  · rw [centreX_sub, mul_pow] at hnearest
    rw [centreY_sub, mul_pow] at hdist
    linarith

/-- And the other way round. -/
theorem exists_segment_of_stripeNear {y x : ℕ} (h : StripeNear p m y x) :
    ∃ row ∈ p.rows m.toOccupancyGrid, ∃ a b,
      (a, b) ∈ findFreeSegments ((p.inflatedGrid m).row row) 3 ∧ WithinReach p m y x row a b := by
  obtain ⟨row, x', w, hheight, hdvd, hclear, hwx, hxw, hdist⟩ := h
  have hshape := (inflateObstacles_shape m.grid (p.inflationCells m.toOccupancyGrid)).1
  have hrow : row < (p.inflatedGrid m).height := by
    rw [CoveragePlanner.inflatedGrid, hshape]
    exact hheight
  obtain ⟨a, b, hab, haw, hwb⟩ := exists_segment_of_window
    (show w < w + 3 by omega) (show 3 ≤ w + 3 - w by omega) fun c hwc hcw =>
      (Grid.freeAt_row_iff hrow).mpr (isFree_iff_clear.mpr (hclear c hwc hcw))
  refine ⟨row, p.mem_rows_iff.mpr ⟨hheight, hdvd⟩, a, b, hab, m.centreX x',
    centreX_le_iff.mpr (by omega), centreX_le_iff.mpr (by omega), ?_⟩
  rw [centreX_sub, centreY_sub]
  linarith

/-! ### The exact condition -/

/-- **The stripes cover the navigable area exactly when every clear cell of the map has
three clear cells of a stripe near it.** -/
theorem coversNavigableArea_iff (p : CoveragePlanner) (m : GridMap) :
    CoversNavigableArea p m ↔ ∀ y x, Clear p m y x → StripeNear p m y x := by
  constructor
  · intro h y x hclear
    obtain ⟨row, hrow, a, b, hab, hreach⟩ := h y x (isFree_iff_clear.mpr hclear)
    exact stripeNear_of_segment hrow hab hreach
  · intro h y x hfree
    exact exists_segment_of_stripeNear (h y x (isFree_iff_clear.mp hfree))

/-! ### An empty map -/

/-- Seven rows of three free cells of 1/16 m. -/
def emptyMap : GridMap where
  resolution := 1 / 16
  width := 3
  height := 7
  originX := 0
  originY := 0
  data := List.replicate 21 0
  resolution_pos := by norm_num
  data_length := rfl

/-- The default robot visits row 0 only, and does not reach row 6. -/
theorem emptyMap_not_covered :
    ¬CoversNavigableArea (CoveragePlanner.init (1 / 2) (1 / 10)) emptyMap := by
  have hrows : (CoveragePlanner.init (1 / 2) (1 / 10)).rows emptyMap.toOccupancyGrid = [0] := by
    decide +kernel
  have hfree : ((CoveragePlanner.init (1 / 2) (1 / 10)).inflatedGrid emptyMap).cell 6 0 = 0 := by
    decide +kernel
  intro h
  obtain ⟨row, hrow, a, b, -, t, -, -, hdist⟩ := h 6 0 ⟨⟨by decide +kernel, by decide +kernel⟩, hfree⟩
  rw [hrows, List.mem_singleton] at hrow
  subst hrow
  rw [centreY_sub] at hdist
  norm_num [CoveragePlanner.init, emptyMap] at hdist
  nlinarith [sq_nonneg (emptyMap.centreX 0 - t)]

end Coverage
