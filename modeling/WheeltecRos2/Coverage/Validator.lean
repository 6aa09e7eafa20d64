/-
What the validator accepts.

`int` rounds toward zero, so the numbers between -1 and 0 count for the first cell: a
waypoint less than one cell to the left of the map or below it is looked up in the column
or row at the edge (`accepted_iff`).  The validator is sound exactly for the routes on
which no waypoint slips through there (`validatorSound_iff`).
-/
import WheeltecRos2.Coverage.Clearance

namespace Coverage

open Truncate

namespace GridMap

variable (m : GridMap) (wp : Waypoint)

/-- The interval of an axis that cell `c` covers. -/
def Covers (origin : ℚ) (c : ℕ) (v : ℚ) : Prop :=
  origin + c * m.resolution ≤ v ∧ v < origin + (c + 1) * m.resolution

/-- Less than one cell before the first one. -/
def JustBefore (origin : ℚ) (v : ℚ) : Prop := origin - m.resolution < v ∧ v < origin

/-- The cell contains the waypoint. -/
def InCell (y x : ℕ) : Prop := m.Covers m.originX x wp.x ∧ m.Covers m.originY y wp.y

/-- The waypoint lies in the map. -/
def InRectangle : Prop :=
  (m.originX ≤ wp.x ∧ wp.x < m.originX + m.width * m.resolution) ∧
    m.originY ≤ wp.y ∧ wp.y < m.originY + m.height * m.resolution

/-- It lies in the map, in a cell that is neither unknown nor occupied. -/
def OnFreeCell : Prop :=
  m.InRectangle wp ∧ ∃ y x, m.grid.Holds y x ∧ m.InCell wp y x ∧ ¬IsObstacle (m.value y x)

/-- It lies just outside the map, to the left of it, below it or both, next to a cell that
is neither unknown nor occupied. -/
def Slips : Prop :=
  (wp.x < m.originX ∨ wp.y < m.originY) ∧
    ∃ y x, m.grid.Holds y x ∧ ¬IsObstacle (m.value y x) ∧
      (m.Covers m.originX x wp.x ∨ x = 0 ∧ m.JustBefore m.originX wp.x) ∧
      (m.Covers m.originY y wp.y ∨ y = 0 ∧ m.JustBefore m.originY wp.y)

end GridMap

/-- The waypoints of a route found valid lie on free cells of the map. -/
def ValidatorSound (m : GridMap) (waypoints : List Waypoint) : Prop :=
  ∀ message, validateWaypoints waypoints m.toOccupancyGrid = .ok (true, message) →
    ∀ wp ∈ waypoints, m.OnFreeCell wp

/-- On a route of a permitted length whose waypoints all lie on or next to free cells, none
is only next to one. -/
def NoneSlips (m : GridMap) (waypoints : List Waypoint) : Prop :=
  2 ≤ waypoints.length → waypoints.length ≤ 1000 →
    (∀ wp ∈ waypoints, m.OnFreeCell wp ∨ m.Slips wp) → ∀ wp ∈ waypoints, ¬m.Slips wp

/-- The validator finds a cell for the waypoint and takes it for free. -/
def Accepted (m : GridMap) (wp : Waypoint) : Prop :=
  ∃ y x, m.grid.Holds y x ∧ trunc ((wp.x - m.originX) / m.resolution) = (x : ℤ) ∧
    trunc ((wp.y - m.originY) / m.resolution) = (y : ℤ) ∧ ¬IsObstacle (m.value y x)

section Cells

variable {m : GridMap} {wp : Waypoint}

theorem trunc_coordinate_iff {origin v : ℚ} {c : ℕ} :
    trunc ((v - origin) / m.resolution) = (c : ℤ) ↔
      m.Covers origin c v ∨ c = 0 ∧ m.JustBefore origin v := by
  have hpos := m.resolution_pos
  rw [trunc_eq_natCast_iff, le_div_iff₀ hpos, div_lt_iff₀ hpos, lt_div_iff₀ hpos,
    div_lt_iff₀ hpos, GridMap.Covers, GridMap.JustBefore]
  refine or_congr (and_congr ?_ ?_) (and_congr_right fun _ => and_congr ?_ ?_)
  · rw [le_sub_iff_add_le']
  · rw [sub_lt_iff_lt_add']
  · rw [neg_one_mul, lt_sub_iff_add_lt', ← sub_eq_add_neg]
  · rw [zero_mul, sub_neg]

theorem GridMap.Covers.origin_le {origin v : ℚ} {c : ℕ} (h : m.Covers origin c v) :
    origin ≤ v := by
  have hpos := m.resolution_pos
  have hc : 0 ≤ (c : ℚ) * m.resolution := by positivity
  linarith [h.1]

theorem GridMap.Covers.lt_end {origin v : ℚ} {c n : ℕ} (h : m.Covers origin c v) (hc : c < n) :
    v < origin + n * m.resolution := by
  have hcast : (c + 1 : ℚ) ≤ n := by exact_mod_cast hc
  have hle := mul_le_mul_of_nonneg_right hcast m.resolution_pos.le
  linarith [h.2]

theorem GridMap.InCell.inRectangle {y x : ℕ} (h : m.InCell wp y x) (hin : m.grid.Holds y x) :
    m.InRectangle wp :=
  ⟨⟨h.1.origin_le, h.1.lt_end hin.2⟩, h.2.origin_le, h.2.lt_end hin.1⟩

/-- **What is accepted.** -/
theorem accepted_iff : Accepted m wp ↔ m.OnFreeCell wp ∨ m.Slips wp := by
  constructor
  · rintro ⟨y, x, hin, hx, hy, hfree⟩
    rw [trunc_coordinate_iff] at hx hy
    by_cases hinside : m.originX ≤ wp.x ∧ m.originY ≤ wp.y
    · refine .inl ?_
      have hcell : m.InCell wp y x := by
        refine ⟨hx.resolve_right ?_, hy.resolve_right ?_⟩
        · rintro ⟨-, -, hlt⟩
          exact absurd hinside.1 (not_le.mpr hlt)
        · rintro ⟨-, -, hlt⟩
          exact absurd hinside.2 (not_le.mpr hlt)
      exact ⟨hcell.inRectangle hin, y, x, hin, hcell, hfree⟩
    · rw [not_and_or, not_le, not_le] at hinside
      exact .inr ⟨hinside, y, x, hin, hfree, hx, hy⟩
  · rintro (⟨-, y, x, hin, ⟨hx, hy⟩, hfree⟩ | ⟨-, y, x, hin, hfree, hx, hy⟩)
    · exact ⟨y, x, hin, trunc_coordinate_iff.mpr (.inl hx), trunc_coordinate_iff.mpr (.inl hy),
        hfree⟩
    · exact ⟨y, x, hin, trunc_coordinate_iff.mpr hx, trunc_coordinate_iff.mpr hy, hfree⟩

theorem GridMap.Slips.not_onFreeCell (h : m.Slips wp) : ¬m.OnFreeCell wp := by
  rintro ⟨⟨⟨hx, -⟩, hy, -⟩, -⟩
  rcases h.1 with hlt | hlt
  · exact absurd hx (not_le.mpr hlt)
  · exact absurd hy (not_le.mpr hlt)

end Cells

/-! ### The loop -/

section Loop

variable {m : GridMap} {wp : Waypoint} {waypoints : List Waypoint}

/-- The loop goes on behind a waypoint exactly if it is accepted. -/
theorem checkWaypoints_cons {rest : List Waypoint} {i : ℕ} {message : Option String} :
    checkWaypoints m.toOccupancyGrid i (wp :: rest) = .ok (true, message) ↔
      Accepted m wp ∧ checkWaypoints m.toOccupancyGrid (i + 1) rest = .ok (true, message) := by
  have hres : m.resolution ≠ 0 := ne_of_gt m.resolution_pos
  rw [checkWaypoints, if_neg hres]
  set xCell := trunc ((wp.x - m.originX) / m.resolution) with hx
  set yCell := trunc ((wp.y - m.originY) / m.resolution) with hy
  by_cases hbounds : (0 ≤ xCell ∧ xCell < m.width) ∧ 0 ≤ yCell ∧ yCell < m.height
  · -- the cell is one of the map, and its value decides
    obtain ⟨x, hxCell⟩ := Int.eq_ofNat_of_zero_le hbounds.1.1
    obtain ⟨y, hyCell⟩ := Int.eq_ofNat_of_zero_le hbounds.2.1
    have hin : m.grid.Holds y x := by
      refine ⟨?_, ?_⟩
      · show y < m.height
        omega
      · show x < m.width
        omega
    have hget := m.getElem?_data hin
    have hindex : ((y : ℤ) * m.width + x).toNat = y * m.width + x := by
      exact_mod_cast Int.toNat_natCast (y * m.width + x)
    have haccepted : Accepted m wp ↔ ¬IsObstacle (m.value y x) := by
      constructor
      · rintro ⟨y', x', -, hx', hy', hfree⟩
        obtain rfl : x' = x := by exact_mod_cast hx'.symm.trans (hx.symm.trans hxCell)
        obtain rfl : y' = y := by exact_mod_cast hy'.symm.trans (hy.symm.trans hyCell)
        exact hfree
      · intro hfree
        exact ⟨y, x, hin, hx.symm.trans hxCell, hy.symm.trans hyCell, hfree⟩
    rw [if_neg (not_not.mpr hbounds), haccepted, hxCell, hyCell]
    simp only [hindex, hget]
    by_cases hobs : IsObstacle (m.value y x)
    · rw [if_pos (Or.comm.mp hobs)]
      exact iff_of_false (by simp) fun h => h.1 hobs
    · rw [if_neg fun h => hobs (Or.comm.mp h)]
      exact (and_iff_right hobs).symm
  · rw [if_pos hbounds]
    refine iff_of_false (by simp) ?_
    rintro ⟨⟨y, x, ⟨hyh, hxw⟩, hx', hy', -⟩, -⟩
    rw [← hx] at hx'
    rw [← hy] at hy'
    refine hbounds ⟨⟨by omega, ?_⟩, by omega, ?_⟩
    · rw [hx']
      exact_mod_cast hxw
    · rw [hy']
      exact_mod_cast hyh

theorem checkWaypoints_iff {i : ℕ} {message : Option String} :
    checkWaypoints m.toOccupancyGrid i waypoints = .ok (true, message) ↔
      message = none ∧ ∀ wp ∈ waypoints, Accepted m wp := by
  induction waypoints generalizing i with
  | nil => simp [checkWaypoints, eq_comm]
  | cons wp rest ih =>
    rw [checkWaypoints_cons, ih, List.forall_mem_cons]
    exact and_left_comm

/-- **A route is valid if its length is permitted and every waypoint is accepted.** -/
theorem validateWaypoints_true_iff {message : Option String} :
    validateWaypoints waypoints m.toOccupancyGrid = .ok (true, message) ↔
      (2 ≤ waypoints.length ∧ waypoints.length ≤ 1000) ∧ message = none ∧
        ∀ wp ∈ waypoints, m.OnFreeCell wp ∨ m.Slips wp := by
  rw [validateWaypoints]
  by_cases hshort : waypoints.length < 2
  · rw [if_pos hshort]
    exact iff_of_false (by simp) fun h => absurd h.1.1 (not_le.mpr hshort)
  · rw [if_neg hshort]
    by_cases hlong : 1000 < waypoints.length
    · rw [if_pos hlong]
      exact iff_of_false (by simp) fun h => absurd h.1.2 (not_le.mpr hlong)
    · rw [if_neg hlong, checkWaypoints_iff]
      simp only [accepted_iff]
      exact (and_iff_right ⟨not_lt.mp hshort, not_lt.mp hlong⟩).symm

/-- **When the validator is sound.** -/
theorem validatorSound_iff (m : GridMap) (waypoints : List Waypoint) :
    ValidatorSound m waypoints ↔ NoneSlips m waypoints := by
  constructor
  · intro hsound htwo hmax hall wp hwp hslips
    have hvalid := validateWaypoints_true_iff.mpr ⟨⟨htwo, hmax⟩, rfl, hall⟩
    exact hslips.not_onFreeCell (hsound none hvalid wp hwp)
  · intro hnone message hvalid wp hwp
    obtain ⟨⟨htwo, hmax⟩, -, hall⟩ := validateWaypoints_true_iff.mp hvalid
    exact (hall wp hwp).resolve_right (hnone htwo hmax hall wp hwp)

/-- A single free cell of one metre at the origin. -/
def singleCell : GridMap where
  resolution := 1
  width := 1
  height := 1
  originX := 0
  originY := 0
  data := [0]
  resolution_pos := by decide
  data_length := rfl

/-- A waypoint half a metre to the left of it is found valid. -/
theorem singleCell_slips : ¬ValidatorSound singleCell [⟨1 / 2, 1 / 2, 0⟩, ⟨-1 / 2, 1 / 2, 0⟩] := by
  intro hsound
  have hvalid : validateWaypoints [⟨1 / 2, 1 / 2, 0⟩, ⟨-1 / 2, 1 / 2, 0⟩]
      singleCell.toOccupancyGrid = .ok (true, none) := by decide +kernel
  obtain ⟨⟨⟨hx, -⟩, -⟩, -⟩ := hsound none hvalid ⟨-1 / 2, 1 / 2, 0⟩ (by simp)
  norm_num [singleCell] at hx

end Loop

end Coverage
