/-
The sweep of a map, row by row.

On a map `_generate_boustrophedon` does not raise (`generateBoustrophedon_eq`).  A cell
is free in the inflated grid if no obstacle lies within the inflation
(`isFree_inflatedGrid_iff`), the rows visited are the multiples of the stripe width
(`mem_stripeRows_iff`), and the waypoints are those of the rows with free segments, one
pass after the other, in alternating directions (`sweep_eq`).
-/
import WheeltecRos2.Coverage.Segments
import Mathlib.Tactic.Ring

namespace Coverage

/-! ### The grids -/

/-- The cells of a grid lie in its shape. -/
def Grid.Holds {α : Type} (grid : Grid α) (y x : ℕ) : Prop := y < grid.height ∧ x < grid.width

/-- A cell of the inflated grid is free. -/
def Grid.IsFree (grid : Grid ℕ) (y x : ℕ) : Prop := grid.Holds y x ∧ grid.cell y x = 0

theorem Grid.freeAt_row_iff {grid : Grid ℕ} {y x : ℕ} (hy : y < grid.height) :
    FreeAt (grid.row y) x ↔ grid.IsFree y x := by
  simp only [FreeAt, Grid.row, List.getElem?_map, Option.map_eq_some_iff, List.getElem?_eq_some_iff,
    List.length_range, List.getElem_range, Grid.IsFree, Grid.Holds]
  constructor
  · rintro ⟨_, ⟨hx, rfl⟩, hcell⟩
    exact ⟨⟨hy, hx⟩, hcell⟩
  · rintro ⟨⟨-, hx⟩, hcell⟩
    exact ⟨x, ⟨hx, rfl⟩, hcell⟩

/-- Two cells at most `cells` apart in both directions. -/
def Near (cells y x y' x' : ℕ) : Prop :=
  (y ≤ y' + cells ∧ y' ≤ y + cells) ∧ x ≤ x' + cells ∧ x' ≤ x + cells

theorem binaryDilation_cell_iff {obstacles : Grid Bool} {cells y x : ℕ} :
    (binaryDilation obstacles cells).cell y x = true ↔
      ∃ y' x', obstacles.Holds y' x' ∧ obstacles.cell y' x' = true ∧ Near cells y x y' x' := by
  simp only [binaryDilation, List.any_eq_true, List.mem_range, Bool.and_eq_true, decide_eq_true_eq]
  constructor
  · rintro ⟨y', hy', x', hx', ⟨hobs, hy⟩, hx⟩
    exact ⟨y', x', ⟨hy', hx'⟩, hobs, hy, hx⟩
  · rintro ⟨y', x', ⟨hy', hx'⟩, hobs, hy, hx⟩
    exact ⟨y', hy', x', hx', ⟨hobs, hy⟩, hx⟩

theorem inflateObstacles_shape (grid : Grid ℤ) (k : ℤ) :
    (inflateObstacles grid k).height = grid.height ∧ (inflateObstacles grid k).width = grid.width := by
  by_cases hk : 0 < k
  · simp [inflateObstacles, binaryDilation, hk]
  · simp [inflateObstacles, hk]

/-- A cell is inflated away by the obstacles near it.  Without a dilation this is the
cell itself. -/
theorem inflateObstacles_isFree_iff {grid : Grid ℤ} {k : ℤ} {y x : ℕ} :
    (inflateObstacles grid k).IsFree y x ↔ grid.Holds y x ∧
      ∀ y' x', grid.Holds y' x' → IsObstacle (grid.cell y' x') → ¬Near k.toNat y x y' x' := by
  obtain ⟨hheight, hwidth⟩ := inflateObstacles_shape grid k
  rw [Grid.IsFree, Grid.Holds, hheight, hwidth]
  refine and_congr_right ?_
  intro hin
  simp only [inflateObstacles, mul_eq_zero, Bool.toNat_eq_zero, OfNat.ofNat_ne_zero, or_false,
    ← Bool.not_eq_true]
  by_cases hk : 0 < k
  · rw [if_pos hk, binaryDilation_cell_iff]
    constructor
    · intro hfree y' x' hin' hobs hnear
      exact hfree ⟨y', x', hin', decide_eq_true hobs, hnear⟩
    · rintro hfree ⟨y', x', hin', hobs, hnear⟩
      exact hfree y' x' hin' (of_decide_eq_true hobs) hnear
  · rw [if_neg hk, decide_eq_true_eq, Int.toNat_of_nonpos (not_lt.mp hk)]
    constructor
    · intro hfree y' x' _ hobs hnear
      obtain ⟨⟨h₁, h₂⟩, h₃, h₄⟩ := hnear
      obtain rfl : y = y' := by omega
      obtain rfl : x = x' := by omega
      exact hfree hobs
    · intro hfree hobs
      exact hfree y x hin hobs (by simp [Near])

/-! ### Maps -/

namespace GridMap

variable (m : GridMap)

/-- The value of a cell. -/
def value (y x : ℕ) : ℤ := m.data.getD (y * m.width + x) 0

/-- The map as an array. -/
def grid : Grid ℤ := { height := m.height, width := m.width, cell := m.value }

theorem reshape_eq : reshape m.data m.height m.width = .ok m.grid := by
  rw [reshape, if_pos (by rw [m.data_length, Nat.mul_comm])]
  rfl

end GridMap

/-! ### Cell centres -/

section Centres

variable {m : GridMap}

theorem centreX_sub (x x' : ℕ) : m.centreX x - m.centreX x' = (x - x' : ℚ) * m.resolution := by
  simp only [OccupancyGrid.centreX]
  ring

theorem centreY_sub (y y' : ℕ) : m.centreY y - m.centreY y' = (y - y' : ℚ) * m.resolution := by
  simp only [OccupancyGrid.centreY]
  ring

theorem centreX_lt_iff {x x' : ℕ} : m.centreX x < m.centreX x' ↔ x < x' := by
  rw [← sub_pos, centreX_sub, mul_pos_iff_of_pos_right m.resolution_pos, sub_pos, Nat.cast_lt]

theorem centreY_lt_iff {y y' : ℕ} : m.centreY y < m.centreY y' ↔ y < y' := by
  rw [← sub_pos, centreY_sub, mul_pos_iff_of_pos_right m.resolution_pos, sub_pos, Nat.cast_lt]

theorem centreX_le_iff {x x' : ℕ} : m.centreX x ≤ m.centreX x' ↔ x ≤ x' := by
  rw [← not_lt, centreX_lt_iff, not_lt]

end Centres

/-! ### The planner on a map -/

namespace CoveragePlanner

variable (p : CoveragePlanner) (m : GridMap)

/-- The inflated grid of a map. -/
def inflatedGrid : Grid ℕ := inflateObstacles m.grid (p.inflationCells m.toOccupancyGrid)

/-- On a map the planner does not raise. -/
theorem generateBoustrophedon_eq :
    p.generateBoustrophedon m.toOccupancyGrid =
      .ok (optimizeWaypoints (p.sweep m.toOccupancyGrid (p.inflatedGrid m))) := by
  have hres : m.resolution ≠ 0 := ne_of_gt m.resolution_pos
  rw [generateBoustrophedon, m.reshape_eq]
  exact if_neg hres

theorem isFree_inflatedGrid_iff {y x : ℕ} :
    (p.inflatedGrid m).IsFree y x ↔ m.grid.Holds y x ∧
      ∀ y' x', m.grid.Holds y' x' → IsObstacle (m.value y' x') →
        ¬Near (p.inflationCells m.toOccupancyGrid).toNat y x y' x' :=
  inflateObstacles_isFree_iff

/-- A segment of a visited row is free in the inflated grid. -/
theorem isFree_of_mem_segment {y a b x : ℕ} (hy : y < m.height)
    (h : (a, b) ∈ findFreeSegments ((p.inflatedGrid m).row y) 3) (hax : a ≤ x) (hxb : x < b) :
    (p.inflatedGrid m).IsFree y x := by
  have hheight := (inflateObstacles_shape m.grid (p.inflationCells m.toOccupancyGrid)).1
  exact (Grid.freeAt_row_iff (by rw [inflatedGrid, hheight]; exact hy)).mp
    ((mem_findFreeSegments_iff.mp h).1.holds x hax hxb)

end CoveragePlanner

/-! ### The rows -/

/-- The fuel of one step for each row is enough: the rows are all those the stripe width
leads to. -/
theorem mem_stripeRows_iff {height k fuel y y' : ℕ} (hk : 0 < k) (hfuel : height ≤ y + fuel) :
    y' ∈ stripeRows height k fuel y ↔ y' < height ∧ ∃ j, y' = y + j * k := by
  induction fuel generalizing y with
  | zero =>
    refine ⟨fun h => (by cases h), ?_⟩
    rintro ⟨hlt, j, rfl⟩
    omega
  | succ fuel ih =>
    rw [stripeRows]
    by_cases hy : y < height
    · rw [if_pos hy, List.mem_cons, ih (by omega)]
      constructor
      · rintro (rfl | ⟨hlt, j, rfl⟩)
        · exact ⟨hy, 0, by omega⟩
        · exact ⟨hlt, j + 1, by ring⟩
      · rintro ⟨hlt, j, rfl⟩
        rcases j with _ | j
        · exact Or.inl (by omega)
        · exact Or.inr ⟨hlt, j, by ring⟩
    · rw [if_neg hy]
      refine ⟨fun h => (by cases h), ?_⟩
      rintro ⟨hlt, j, rfl⟩
      omega

theorem le_of_mem_stripeRows {height k fuel y y' : ℕ} (h : y' ∈ stripeRows height k fuel y) :
    y ≤ y' := by
  induction fuel generalizing y with
  | zero => cases h
  | succ fuel ih =>
    rw [stripeRows] at h
    by_cases hy : y < height
    · rw [if_pos hy, List.mem_cons] at h
      rcases h with rfl | h
      · exact le_rfl
      · exact le_trans (Nat.le_add_right y k) (ih h)
    · rw [if_neg hy] at h
      cases h

theorem stripeRows_pairwise {height k fuel y : ℕ} (hk : 0 < k) :
    (stripeRows height k fuel y).Pairwise (· < ·) := by
  induction fuel generalizing y with
  | zero => exact List.Pairwise.nil
  | succ fuel ih =>
    rw [stripeRows]
    by_cases hy : y < height
    · rw [if_pos hy]
      refine List.Pairwise.cons (fun y' hy' => ?_) ih
      have := le_of_mem_stripeRows hy'
      omega
    · rw [if_neg hy]
      exact List.Pairwise.nil

/-! ### The passes -/

/-- A row with its free segments. -/
structure SweptRow where
  y : ℕ
  segments : List (ℕ × ℕ)
  deriving DecidableEq

/-- The rows with a free segment, in the order the loop visits them. -/
def sweptRows (inflatedGrid : Grid ℕ) (rows : List ℕ) : List SweptRow :=
  (rows.map fun y => { y, segments := findFreeSegments (inflatedGrid.row y) 3 }).filter
    fun row => row.segments ≠ []

/-- The waypoints of one row. -/
def OccupancyGrid.pass (mapMsg : OccupancyGrid) (direction : ℤ) (row : SweptRow) : List Waypoint :=
  row.segments.flatMap (mapMsg.segmentWaypoints direction row.y)

/-- The waypoints of row after row, in alternating directions. -/
def OccupancyGrid.passes (mapMsg : OccupancyGrid) (direction : ℤ) : List SweptRow → List (List Waypoint)
  | [] => []
  | row :: rest => mapMsg.pass direction row :: mapMsg.passes (direction * -1) rest

/-- The loop lays the passes of the rows one after the other. -/
theorem foldl_visit_waypoints (mapMsg : OccupancyGrid) (inflatedGrid : Grid ℕ) (rows : List ℕ)
    (s : Sweep) :
    (rows.foldl (Sweep.visit mapMsg inflatedGrid) s).waypoints =
      s.waypoints ++ (mapMsg.passes s.direction (sweptRows inflatedGrid rows)).flatten := by
  induction rows generalizing s with
  | nil => simp [sweptRows, OccupancyGrid.passes]
  | cons y rows ih =>
    rw [List.foldl_cons, ih]
    by_cases hseg : findFreeSegments (inflatedGrid.row y) 3 = []
    · simp [Sweep.visit, sweptRows, hseg]
    · simp [Sweep.visit, sweptRows, hseg, OccupancyGrid.passes, OccupancyGrid.pass]

namespace CoveragePlanner

variable (p : CoveragePlanner) (m : GridMap)

/-- The rows the loop visits. -/
def rows (mapMsg : OccupancyGrid) : List ℕ :=
  stripeRows mapMsg.height (p.stripeWidthCells mapMsg).toNat mapMsg.height 0

/-- The rows of a map that have free segments. -/
def swept : List SweptRow := sweptRows (p.inflatedGrid m) (p.rows m.toOccupancyGrid)

theorem stripeWidthCells_pos (mapMsg : OccupancyGrid) : 0 < (p.stripeWidthCells mapMsg).toNat := by
  have := le_max_left 1 (Truncate.trunc (p.robotWidth * (1 - p.overlap) / mapMsg.resolution))
  rw [stripeWidthCells]
  omega

/-- **The rows visited are the multiples of the stripe width.** -/
theorem mem_rows_iff {mapMsg : OccupancyGrid} {y : ℕ} :
    y ∈ p.rows mapMsg ↔ y < mapMsg.height ∧ (p.stripeWidthCells mapMsg).toNat ∣ y := by
  rw [rows, mem_stripeRows_iff (p.stripeWidthCells_pos mapMsg) (by omega)]
  refine and_congr_right ?_
  intro _
  rw [dvd_iff_exists_eq_mul_left]
  simp only [Nat.zero_add]

theorem mem_swept_iff {row : SweptRow} :
    row ∈ p.swept m ↔ row.y ∈ p.rows m.toOccupancyGrid ∧
      row.segments = findFreeSegments ((p.inflatedGrid m).row row.y) 3 ∧ row.segments ≠ [] := by
  rw [swept, sweptRows, List.mem_filter, List.mem_map, decide_eq_true_eq]
  constructor
  · rintro ⟨⟨y, hy, rfl⟩, hne⟩
    exact ⟨hy, rfl, hne⟩
  · rintro ⟨hy, hseg, hne⟩
    refine ⟨⟨row.y, hy, ?_⟩, hne⟩
    rw [← hseg]

/-- **The sweep consists of the passes over the rows with free segments.** -/
theorem sweep_eq :
    p.sweep m.toOccupancyGrid (p.inflatedGrid m) =
      (m.toOccupancyGrid.passes 1 (p.swept m)).flatten := by
  rw [sweep, foldl_visit_waypoints, List.nil_append]
  rfl

end CoveragePlanner

end Coverage
