/-
The generator keeps its clearance, and the validator agrees with it.

Every waypoint is the centre of a free cell of the inflated grid (`mem_sweep`).  The
inflation is truncated to whole cells, but a free cell is one cell further away from
the obstacles than that, so the full clearance is kept (`clearOf_of_isFree`).  The
validator finds the cell of a waypoint again (`checkWaypoints_eq`), and only the
length of the route is left to decide (`generated_clear_and_valid`).
-/
import WheeltecRos2.Coverage.Sweep
import Mathlib.Tactic.FieldSimp

namespace Coverage

open Truncate

namespace GridMap

variable (m : GridMap)

/-- The waypoint is the centre of a cell of the map. -/
def IsCentre (wp : Waypoint) (y x : ℕ) : Prop :=
  m.grid.Holds y x ∧ wp.x = m.centreX x ∧ wp.y = m.centreY y

/-- The centres of the obstacles are more than `distance` away, in the larger of the two
coordinate differences. -/
def ClearOf (distance : ℚ) (wp : Waypoint) : Prop :=
  ∀ y x, m.grid.Holds y x → IsObstacle (m.value y x) →
    distance < max |wp.x - m.centreX x| |wp.y - m.centreY y|

end GridMap

/-! ### The waypoints are cell centres -/

theorem keepCorners_subset (waypoints : List Waypoint) : keepCorners waypoints ⊆ waypoints := by
  induction waypoints using keepCorners.induct with
  | case1 prev curr next rest hcross ih =>
    rw [keepCorners, if_pos hcross]
    intro wp hwp
    rcases List.mem_cons.mp hwp with rfl | hwp
    · simp
    · exact List.mem_cons_of_mem _ (ih hwp)
  | case2 prev curr next rest hcross ih =>
    rw [keepCorners, if_neg hcross]
    exact fun wp hwp => List.mem_cons_of_mem _ (ih hwp)
  | case3 waypoints hshort =>
    rw [keepCorners.eq_2 _ hshort]
    exact List.nil_subset _

theorem optimizeWaypoints_subset (waypoints : List Waypoint) :
    optimizeWaypoints waypoints ⊆ waypoints := by
  unfold optimizeWaypoints
  by_cases hlen : waypoints.length < 3
  · rw [if_pos hlen]
    exact List.Subset.refl _
  · rw [if_neg hlen]
    intro wp hwp
    rw [List.mem_append, List.mem_append, Option.mem_toList, Option.mem_toList] at hwp
    rcases hwp with (hhead | hwp) | hlast
    · exact List.mem_of_mem_head? hhead
    · exact keepCorners_subset waypoints hwp
    · exact List.mem_of_mem_getLast? hlast

theorem OccupancyGrid.mem_passes (mapMsg : OccupancyGrid) {direction : ℤ} {rows : List SweptRow}
    {wp : Waypoint} (h : wp ∈ (mapMsg.passes direction rows).flatten) :
    ∃ row ∈ rows, ∃ direction, wp ∈ mapMsg.pass direction row := by
  induction rows generalizing direction with
  | nil => cases h
  | cons row rest ih =>
    rw [OccupancyGrid.passes, List.flatten_cons, List.mem_append] at h
    rcases h with h | h
    · exact ⟨row, by simp, direction, h⟩
    · obtain ⟨row', hrow', hwp⟩ := ih h
      exact ⟨row', List.mem_cons_of_mem _ hrow', hwp⟩

/-- The end of a segment is the centre of its last cell. -/
theorem OccupancyGrid.centreX_pred (mapMsg : OccupancyGrid) {b : ℕ} (hb : 0 < b) :
    mapMsg.originX + (b - 1 / 2) * mapMsg.resolution = mapMsg.centreX (b - 1) := by
  rw [centreX, Nat.cast_pred hb]
  ring

/-- The two waypoints of a segment, in either direction. -/
theorem OccupancyGrid.segmentWaypoints_cases (mapMsg : OccupancyGrid) (direction : ℤ) (y : ℕ)
    {a b : ℕ} (hb : 0 < b) :
    direction = 1 ∧ mapMsg.segmentWaypoints direction y (a, b) =
        [{ x := mapMsg.centreX a, y := mapMsg.centreY y, yaw := 0 },
         { x := mapMsg.centreX (b - 1), y := mapMsg.centreY y, yaw := 0 }] ∨
    direction ≠ 1 ∧ mapMsg.segmentWaypoints direction y (a, b) =
        [{ x := mapMsg.centreX (b - 1), y := mapMsg.centreY y, yaw := mathPi },
         { x := mapMsg.centreX a, y := mapMsg.centreY y, yaw := mathPi }] := by
  by_cases hdir : direction = 1
  · refine Or.inl ⟨hdir, ?_⟩
    rw [segmentWaypoints, if_pos hdir, mapMsg.centreX_pred hb]
    rfl
  · refine Or.inr ⟨hdir, ?_⟩
    rw [segmentWaypoints, if_neg hdir, mapMsg.centreX_pred hb]
    rfl

theorem OccupancyGrid.mem_segmentWaypoints (mapMsg : OccupancyGrid) {direction : ℤ} {y a b : ℕ}
    (hab : a < b) {wp : Waypoint} (h : wp ∈ mapMsg.segmentWaypoints direction y (a, b)) :
    ∃ x, a ≤ x ∧ x < b ∧ wp.x = mapMsg.centreX x ∧ wp.y = mapMsg.centreY y := by
  rcases mapMsg.segmentWaypoints_cases direction y (show 0 < b by omega) with ⟨-, heq⟩ | ⟨-, heq⟩
  · rw [heq, List.mem_pair] at h
    rcases h with rfl | rfl
    · exact ⟨a, le_rfl, hab, rfl, rfl⟩
    · exact ⟨b - 1, by omega, by omega, rfl, rfl⟩
  · rw [heq, List.mem_pair] at h
    rcases h with rfl | rfl
    · exact ⟨b - 1, by omega, by omega, rfl, rfl⟩
    · exact ⟨a, le_rfl, hab, rfl, rfl⟩

/-- Every waypoint of the sweep is the centre of a free cell. -/
theorem CoveragePlanner.mem_sweep (p : CoveragePlanner) (m : GridMap) {wp : Waypoint}
    (h : wp ∈ p.sweep m.toOccupancyGrid (p.inflatedGrid m)) :
    ∃ y x, (p.inflatedGrid m).IsFree y x ∧ m.IsCentre wp y x := by
  rw [p.sweep_eq m] at h
  obtain ⟨row, hrow, direction, hwp⟩ := m.mem_passes h
  obtain ⟨hy, hseg, -⟩ := (p.mem_swept_iff m).mp hrow
  obtain ⟨⟨a, b⟩, hab, hwp⟩ := List.mem_flatMap.mp hwp
  rw [hseg] at hab
  obtain ⟨x, hax, hxb, hx, hy'⟩ :=
    m.mem_segmentWaypoints (mem_findFreeSegments_iff.mp hab).1.lt hwp
  have hfree := p.isFree_of_mem_segment m ((p.mem_rows_iff).mp hy).1 hab hax hxb
  exact ⟨row.y, x, hfree, ((p.isFree_inflatedGrid_iff m).mp hfree).1, hx, hy'⟩

/-! ### Clearance -/

/-- Cells that are not near are a cell more than that apart. -/
theorem GridMap.le_of_not_near (m : GridMap) {cells y x y' x' : ℕ} (h : ¬Near cells y x y' x') :
    (cells + 1) * m.resolution ≤
      max |m.centreX x - m.centreX x'| |m.centreY y - m.centreY y'| := by
  have hpos := m.resolution_pos
  have hfar : ∀ {c d : ℕ}, ¬(c ≤ d + cells ∧ d ≤ c + cells) →
      (cells + 1) * m.resolution ≤ |(c - d : ℚ) * m.resolution| := by
    intro c d hcd
    rw [abs_mul, abs_of_pos hpos]
    refine mul_le_mul_of_nonneg_right ?_ hpos.le
    have : (cells + 1 : ℤ) ≤ |(c - d : ℤ)| := by
      rw [le_abs]
      omega
    exact_mod_cast this
  rw [centreX_sub, centreY_sub]
  by_cases hnear : y ≤ y' + cells ∧ y' ≤ y + cells
  · exact le_max_of_le_left (hfar fun hxx => h ⟨hnear, hxx⟩)
  · exact le_max_of_le_right (hfar hnear)

/-- **The truncation of the inflation loses less than the cell that is gained.** -/
theorem CoveragePlanner.lt_inflationCells (p : CoveragePlanner) (m : GridMap) :
    p.robotWidth / 2 + p.minClearance <
      ((p.inflationCells m.toOccupancyGrid).toNat + 1) * m.resolution := by
  rw [← div_lt_iff₀ m.resolution_pos]
  refine lt_of_lt_of_le (lt_trunc_add_one _) ?_
  have hle : p.inflationCells m.toOccupancyGrid ≤
      ((p.inflationCells m.toOccupancyGrid).toNat : ℤ) := Int.self_le_toNat _
  have : (p.inflationCells m.toOccupancyGrid : ℚ) ≤
      ((p.inflationCells m.toOccupancyGrid).toNat : ℚ) := by exact_mod_cast hle
  exact add_le_add_left this 1

/-- A free cell keeps the clearance of the planner. -/
theorem CoveragePlanner.clearOf_of_isFree (p : CoveragePlanner) (m : GridMap) {wp : Waypoint}
    {y x : ℕ} (hfree : (p.inflatedGrid m).IsFree y x) (hcentre : m.IsCentre wp y x) :
    m.ClearOf (p.robotWidth / 2 + p.minClearance) wp := by
  intro y' x' hin hobs
  obtain ⟨-, hx, hy⟩ := hcentre
  rw [hx, hy]
  exact lt_of_lt_of_le (p.lt_inflationCells m)
    (m.le_of_not_near (((p.isFree_inflatedGrid_iff m).mp hfree).2 y' x' hin hobs))

/-! ### The validator -/

/-- The validator finds the cell of a cell centre. -/
theorem GridMap.trunc_centre (m : GridMap) {origin v : ℚ} {c : ℕ}
    (hv : v = origin + (c + 1 / 2) * m.resolution) :
    trunc ((v - origin) / m.resolution) = c := by
  have hres : m.resolution ≠ 0 := ne_of_gt m.resolution_pos
  have hquot : (v - origin) / m.resolution = c + 1 / 2 := by
    rw [hv]
    field_simp
    ring
  rw [hquot]
  exact trunc_eq_natCast (by linarith) (by linarith)

theorem GridMap.getElem?_data (m : GridMap) {y x : ℕ} (h : m.grid.Holds y x) :
    m.data[y * m.width + x]? = some (m.value y x) := by
  obtain ⟨hy, hx⟩ : y < m.height ∧ x < m.width := h
  have hlt : y * m.width + x < m.data.length := by
    rw [m.data_length]
    nlinarith
  rw [GridMap.value, List.getD_eq_getElem?_getD, List.getElem?_eq_getElem hlt, Option.getD_some]

/-- It accepts the centres of cells without obstacle. -/
theorem checkWaypoints_eq (m : GridMap) {waypoints : List Waypoint}
    (h : ∀ wp ∈ waypoints, ∃ y x, m.IsCentre wp y x ∧ ¬IsObstacle (m.value y x)) (i : ℕ) :
    checkWaypoints m.toOccupancyGrid i waypoints = .ok (true, none) := by
  induction waypoints generalizing i with
  | nil => rfl
  | cons wp rest ih =>
    obtain ⟨y, x, ⟨hin, hx, hy⟩, hfree⟩ := h wp (by simp)
    have hget := m.getElem?_data hin
    obtain ⟨hyh, hxw⟩ : y < m.height ∧ x < m.width := hin
    have hres : m.resolution ≠ 0 := ne_of_gt m.resolution_pos
    have hindex : ((y : ℤ) * m.width + x).toNat = y * m.width + x := by
      exact_mod_cast Int.toNat_natCast (y * m.width + x)
    have hvalue : ¬(50 < m.value y x ∨ m.value y x = -1) := by
      rw [Or.comm]
      exact hfree
    rw [checkWaypoints, if_neg hres]
    simp only [m.trunc_centre hx, m.trunc_centre hy, hindex, hget]
    rw [if_neg (by simp only [not_not]; omega), if_neg hvalue]
    exact ih (fun wp' hwp' => h wp' (List.mem_cons_of_mem _ hwp')) (i + 1)

/-- On such a route only its length matters. -/
theorem validateWaypoints_iff (m : GridMap) {waypoints : List Waypoint}
    (h : ∀ wp ∈ waypoints, ∃ y x, m.IsCentre wp y x ∧ ¬IsObstacle (m.value y x)) :
    ∃ isValid message, validateWaypoints waypoints m.toOccupancyGrid = .ok (isValid, message) ∧
      (isValid = true ↔ 2 ≤ waypoints.length ∧ waypoints.length ≤ 1000) := by
  unfold validateWaypoints
  by_cases hshort : waypoints.length < 2
  · rw [if_pos hshort]
    exact ⟨false, _, rfl, by simp; omega⟩
  · rw [if_neg hshort]
    by_cases hlong : 1000 < waypoints.length
    · rw [if_pos hlong]
      exact ⟨false, _, rfl, by simp; omega⟩
    · rw [if_neg hlong, checkWaypoints_eq m h]
      exact ⟨true, none, rfl, by simp; omega⟩

/-- **The generator does not raise; its waypoints are centres of cells of the map that
keep the clearance from every obstacle, and the validator accepts them unless there are
fewer than 2 or more than 1000.** -/
theorem generated_clear_and_valid (m : GridMap) (robotWidth overlap : ℚ) :
    ∃ waypoints,
      (CoveragePlanner.init robotWidth overlap).generateBoustrophedon m.toOccupancyGrid =
        .ok waypoints ∧
      (∀ wp ∈ waypoints, (∃ y x, m.IsCentre wp y x) ∧
        m.ClearOf (robotWidth / 2 + (CoveragePlanner.init robotWidth overlap).minClearance) wp) ∧
      ∃ isValid message, validateWaypoints waypoints m.toOccupancyGrid = .ok (isValid, message) ∧
        (isValid = true ↔ 2 ≤ waypoints.length ∧ waypoints.length ≤ 1000) := by
  set p := CoveragePlanner.init robotWidth overlap
  have hfree : ∀ wp ∈ optimizeWaypoints (p.sweep m.toOccupancyGrid (p.inflatedGrid m)),
      ∃ y x, (p.inflatedGrid m).IsFree y x ∧ m.IsCentre wp y x :=
    fun wp hwp => p.mem_sweep m (optimizeWaypoints_subset _ hwp)
  refine ⟨_, p.generateBoustrophedon_eq m, fun wp hwp => ?_, validateWaypoints_iff m fun wp hwp => ?_⟩
  · obtain ⟨y, x, hcell, hcentre⟩ := hfree wp hwp
    exact ⟨⟨y, x, hcentre⟩, p.clearOf_of_isFree m hcell hcentre⟩
  · obtain ⟨y, x, hcell, hcentre⟩ := hfree wp hwp
    obtain ⟨hin, hnear⟩ := (p.isFree_inflatedGrid_iff m).mp hcell
    exact ⟨y, x, hcentre, fun hobs => hnear y x hin hobs (by simp [Near])⟩

/-- A row of half metres with an obstacle in its first cell: the second one is too close to it. -/
example :
    (CoveragePlanner.init (1 / 2) (1 / 10)).generateBoustrophedon
      { resolution := 1 / 2, width := 5, height := 1, originX := 0, originY := 0
        data := [100, 0, 0, 0, 0] } =
      .ok [{ x := 5 / 4, y := 1 / 4, yaw := 0 }, { x := 9 / 4, y := 1 / 4, yaw := 0 }] := by
  decide +kernel

end Coverage
