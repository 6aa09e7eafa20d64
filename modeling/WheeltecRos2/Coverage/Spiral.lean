/-
The spiral pattern.

`_generate_spiral` goes around the centre of the map, ring by ring, from the first ring on.
The rings reach every cell of the map but the centre itself (`visited_iff`): there is no
ring of size zero, so on no map is every cell visited (`spiralCovers_iff`).
-/
import Mathlib.Data.Int.Range
import WheeltecRos2.Coverage.Validator

namespace Coverage

/-- `range(start, stop, -1)`. -/
def rangeDown (start stop : ℤ) : List ℤ := (List.range (start - stop).toNat).map fun k : ℕ => start - k

namespace OccupancyGrid

variable (mapMsg : OccupancyGrid)

/-- The test `0 <= x < width and 0 <= y < height`. -/
def InMap (cell : ℤ × ℤ) : Prop :=
  (0 ≤ cell.1 ∧ cell.1 < mapMsg.width) ∧ 0 ≤ cell.2 ∧ cell.2 < mapMsg.height

instance (cell : ℤ × ℤ) : Decidable (mapMsg.InMap cell) := inferInstanceAs (Decidable (_ ∧ _))

/-- The loop over an edge: a waypoint for each of its cells in the map. -/
def edge (cells : List (ℤ × ℤ)) (yaw : ℚ) : List Waypoint :=
  (cells.filter fun cell => mapMsg.InMap cell).map fun (x, y) =>
    { x := mapMsg.originX + (x + 1 / 2) * mapMsg.resolution
      y := mapMsg.originY + (y + 1 / 2) * mapMsg.resolution
      yaw }

def centerX : ℤ := mapMsg.width / 2

def centerY : ℤ := mapMsg.height / 2

/-- Left to right. -/
def topEdge (layer : ℤ) : List Waypoint :=
  mapMsg.edge ((Int.range (mapMsg.centerX - layer) (mapMsg.centerX + layer + 1)).map
    fun x => (x, mapMsg.centerY - layer)) 0

/-- Top to bottom. -/
def rightEdge (layer : ℤ) : List Waypoint :=
  mapMsg.edge ((Int.range (mapMsg.centerY - layer) (mapMsg.centerY + layer + 1)).map
    fun y => (mapMsg.centerX + layer, y)) (mathPi / 2)

/-- Right to left. -/
def bottomEdge (layer : ℤ) : List Waypoint :=
  mapMsg.edge ((rangeDown (mapMsg.centerX + layer) (mapMsg.centerX - layer - 1)).map
    fun x => (x, mapMsg.centerY + layer)) mathPi

/-- Bottom to top. -/
def leftEdge (layer : ℤ) : List Waypoint :=
  mapMsg.edge ((rangeDown (mapMsg.centerY + layer) (mapMsg.centerY - layer - 1)).map
    fun y => (mapMsg.centerX - layer, y)) (-mathPi / 2)

/-- The body of the `while` loop. -/
def ring (layer : ℤ) : List Waypoint :=
  mapMsg.topEdge layer ++ mapMsg.rightEdge layer ++ mapMsg.bottomEdge layer ++
    mapMsg.leftEdge layer

def maxLayer : ℕ := max mapMsg.width mapMsg.height / 2

/-- `_generate_spiral`. -/
def generateSpiral : List Waypoint :=
  (List.range' 1 mapMsg.maxLayer).flatMap fun layer : ℕ => mapMsg.ring layer

end OccupancyGrid

namespace GridMap

variable (m : GridMap)

/-- The Chebyshev distance of a cell from the centre. -/
def layerOf (y x : ℕ) : ℤ := max |x - m.centerX| |y - m.centerY|

/-- Later waypoints are at cells that are no closer to the centre. -/
def Outward (waypoints : List Waypoint) : Prop :=
  waypoints.Pairwise fun wp wp' => ∀ y x y' x', m.IsCentre wp y x → m.IsCentre wp' y' x' →
    m.layerOf y x ≤ m.layerOf y' x'

/-- The spiral consists of cell centres, reaches every cell and goes outward. -/
structure SpiralCovers : Prop where
  centres : ∀ wp ∈ m.generateSpiral, ∃ y x, m.IsCentre wp y x
  visits : ∀ y x, m.grid.Holds y x → ∃ wp ∈ m.generateSpiral, m.IsCentre wp y x
  outward : m.Outward m.generateSpiral

end GridMap

/-! ### Cells -/

section Cells

variable {m : GridMap} {wp : Waypoint} {y x y' x' : ℕ}

/-- A waypoint is at the centre of one cell only. -/
theorem GridMap.IsCentre.unique (h : m.IsCentre wp y x) (h' : m.IsCentre wp y' x') :
    y = y' ∧ x = x' := by
  obtain ⟨-, hx, hy⟩ := h
  obtain ⟨-, hx', hy'⟩ := h'
  have hxx : m.centreX x = m.centreX x' := hx.symm.trans hx'
  have hyy : m.centreY y = m.centreY y' := hy.symm.trans hy'
  have hx₁ : ¬ x < x' := fun hlt => (centreX_lt_iff.mpr hlt).ne hxx
  have hx₂ : ¬ x' < x := fun hlt => (centreX_lt_iff.mpr hlt).ne hxx.symm
  have hy₁ : ¬ y < y' := fun hlt => (centreY_lt_iff.mpr hlt).ne hyy
  have hy₂ : ¬ y' < y := fun hlt => (centreY_lt_iff.mpr hlt).ne hyy.symm
  omega

/-- The centre of a cell with a heading. -/
def GridMap.centreWaypoint (m : GridMap) (y x : ℕ) (yaw : ℚ) : Waypoint :=
  { x := m.centreX x, y := m.centreY y, yaw }

theorem mem_edge_iff {cells : List (ℤ × ℤ)} {yaw : ℚ} :
    wp ∈ m.edge cells yaw ↔ ∃ y x : ℕ, ((x : ℤ), (y : ℤ)) ∈ cells ∧ m.grid.Holds y x ∧
      wp = m.centreWaypoint y x yaw := by
  rw [OccupancyGrid.edge, List.mem_map]
  constructor
  · rintro ⟨⟨i, j⟩, hcell, rfl⟩
    rw [List.mem_filter, decide_eq_true_eq] at hcell
    obtain ⟨hmem, ⟨hi, hiw⟩, hj, hjh⟩ := hcell
    obtain ⟨x, rfl⟩ := Int.eq_ofNat_of_zero_le hi
    obtain ⟨y, rfl⟩ := Int.eq_ofNat_of_zero_le hj
    refine ⟨y, x, hmem, ⟨Int.ofNat_lt.mp hjh, Int.ofNat_lt.mp hiw⟩, ?_⟩
    simp [GridMap.centreWaypoint, OccupancyGrid.centreX, OccupancyGrid.centreY]
  · rintro ⟨y, x, hmem, ⟨hyh, hxw⟩, rfl⟩
    refine ⟨((x : ℤ), (y : ℤ)), List.mem_filter.mpr ⟨hmem, decide_eq_true ?_⟩, ?_⟩
    · exact ⟨⟨Int.natCast_nonneg x, Int.ofNat_lt.mpr hxw⟩, Int.natCast_nonneg y,
        Int.ofNat_lt.mpr hyh⟩
    · simp [GridMap.centreWaypoint, OccupancyGrid.centreX, OccupancyGrid.centreY]

/-- An edge visits its cells in the map. -/
theorem exists_mem_edge_iff {cells : List (ℤ × ℤ)} {yaw : ℚ} :
    (∃ wp ∈ m.edge cells yaw, m.IsCentre wp y x) ↔
      m.grid.Holds y x ∧ ((x : ℤ), (y : ℤ)) ∈ cells := by
  constructor
  · rintro ⟨wp, hwp, hcentre⟩
    obtain ⟨y', x', hmem, hin, rfl⟩ := mem_edge_iff.mp hwp
    obtain ⟨rfl, rfl⟩ := hcentre.unique ⟨hin, rfl, rfl⟩
    exact ⟨hin, hmem⟩
  · rintro ⟨hin, hmem⟩
    exact ⟨m.centreWaypoint y x yaw, mem_edge_iff.mpr ⟨y, x, hmem, hin, rfl⟩, hin, rfl, rfl⟩

theorem mem_rangeDown_iff {start stop i : ℤ} : i ∈ rangeDown start stop ↔ stop < i ∧ i ≤ start := by
  rw [rangeDown, List.mem_map]
  constructor
  · rintro ⟨k, hk, rfl⟩
    rw [List.mem_range] at hk
    omega
  · rintro ⟨hlo, hhi⟩
    exact ⟨(start - i).toNat, List.mem_range.mpr (by omega), by omega⟩

/-- The four edges of a ring. -/
theorem layerOf_eq_iff {layer : ℤ} (hlayer : 0 ≤ layer) :
    m.layerOf y x = layer ↔
      ((y = m.centerY - layer ∧ |x - m.centerX| ≤ layer ∨
        x = m.centerX + layer ∧ |y - m.centerY| ≤ layer) ∨
      y = m.centerY + layer ∧ |x - m.centerX| ≤ layer) ∨
        x = m.centerX - layer ∧ |y - m.centerY| ≤ layer := by
  rw [GridMap.layerOf, max_eq_iff]
  rcases abs_cases ((x : ℤ) - m.centerX) with ⟨hx, hsign⟩ | ⟨hx, hsign⟩ <;>
    rcases abs_cases ((y : ℤ) - m.centerY) with ⟨hy, hsign'⟩ | ⟨hy, hsign'⟩ <;>
    rw [hx, hy] <;> omega

/-- **A ring visits the cells of its layer.** -/
theorem exists_mem_ring_iff {layer : ℤ} (hlayer : 0 ≤ layer) :
    (∃ wp ∈ m.ring layer, m.IsCentre wp y x) ↔ m.grid.Holds y x ∧ m.layerOf y x = layer := by
  have habs : ∀ i c : ℤ, |i - c| ≤ layer ↔ c - layer ≤ i ∧ i ≤ c + layer := by
    intro i c
    rw [abs_le]
    omega
  simp only [OccupancyGrid.ring, OccupancyGrid.topEdge, OccupancyGrid.rightEdge,
    OccupancyGrid.bottomEdge, OccupancyGrid.leftEdge, List.mem_append, or_and_right, exists_or,
    exists_mem_edge_iff, ← and_or_left, layerOf_eq_iff hlayer, habs, List.mem_map,
    Int.mem_range_iff, mem_rangeDown_iff, Prod.mk.injEq]
  refine and_congr_right fun _ => or_congr (or_congr (or_congr ?_ ?_) ?_) ?_
  · constructor
    · rintro ⟨i, hi, hx, hy⟩
      omega
    · rintro ⟨hy, hx⟩
      exact ⟨x, by omega, rfl, hy.symm⟩
  · constructor
    · rintro ⟨i, hi, hx, hy⟩
      omega
    · rintro ⟨hx, hy⟩
      exact ⟨y, by omega, hx.symm, rfl⟩
  · constructor
    · rintro ⟨i, hi, hx, hy⟩
      omega
    · rintro ⟨hy, hx⟩
      exact ⟨x, by omega, rfl, hy.symm⟩
  · constructor
    · rintro ⟨i, hi, hx, hy⟩
      omega
    · rintro ⟨hx, hy⟩
      exact ⟨y, by omega, hx.symm, rfl⟩

/-- Every waypoint of a ring is the centre of a cell. -/
theorem isCentre_of_mem_ring {layer : ℤ} (h : wp ∈ m.ring layer) :
    ∃ y x, m.IsCentre wp y x := by
  have hedge : ∀ {cells yaw}, wp ∈ m.edge cells yaw → ∃ y x, m.IsCentre wp y x := by
    intro cells yaw hwp
    obtain ⟨y, x, -, hin, rfl⟩ := mem_edge_iff.mp hwp
    exact ⟨y, x, hin, rfl, rfl⟩
  rw [OccupancyGrid.ring, List.mem_append, List.mem_append, List.mem_append] at h
  rcases h with ((h | h) | h) | h <;> exact hedge h

end Cells

/-! ### The spiral -/

section Spiral

variable {m : GridMap} {wp : Waypoint} {y x : ℕ}

theorem mem_generateSpiral_iff :
    wp ∈ m.generateSpiral ↔ ∃ layer : ℕ, (1 ≤ layer ∧ layer ≤ m.maxLayer) ∧ wp ∈ m.ring layer := by
  rw [OccupancyGrid.generateSpiral, List.mem_flatMap]
  simp only [List.mem_range'_1]
  refine exists_congr fun layer => and_congr_left fun _ => ?_
  omega

/-- The rings reach the border of the map. -/
theorem layerOf_le (h : m.grid.Holds y x) : m.layerOf y x ≤ m.maxLayer := by
  obtain ⟨hy, hx⟩ : y < m.height ∧ x < m.width := h
  have hwidth : m.width / 2 ≤ m.maxLayer := Nat.div_le_div_right (le_max_left _ _)
  have hheight : m.height / 2 ≤ m.maxLayer := Nat.div_le_div_right (le_max_right _ _)
  rw [GridMap.layerOf, OccupancyGrid.centerX, OccupancyGrid.centerY, max_le_iff, abs_le, abs_le]
  omega

theorem layerOf_eq_zero_iff :
    m.layerOf y x = 0 ↔ y = m.height / 2 ∧ x = m.width / 2 := by
  rw [layerOf_eq_iff le_rfl, abs_nonpos_iff, abs_nonpos_iff, OccupancyGrid.centerX,
    OccupancyGrid.centerY]
  omega

/-- **Every cell of the map is visited but the one in the centre.** -/
theorem visited_iff (h : m.grid.Holds y x) :
    (∃ wp ∈ m.generateSpiral, m.IsCentre wp y x) ↔ ¬(y = m.height / 2 ∧ x = m.width / 2) := by
  rw [← layerOf_eq_zero_iff]
  constructor
  · rintro ⟨wp, hwp, hcentre⟩
    obtain ⟨layer, ⟨hone, -⟩, hring⟩ := mem_generateSpiral_iff.mp hwp
    have hlayer := ((exists_mem_ring_iff (by omega)).mp ⟨wp, hring, hcentre⟩).2
    omega
  · intro hne
    have hle := layerOf_le h
    have hnonneg : 0 ≤ m.layerOf y x := le_max_of_le_left (abs_nonneg _)
    obtain ⟨layer, hlayer⟩ := Int.eq_ofNat_of_zero_le hnonneg
    obtain ⟨wp, hring, hcentre⟩ :=
      (exists_mem_ring_iff (m := m) (y := y) (x := x) (Int.natCast_nonneg layer)).mpr ⟨h, hlayer⟩
    exact ⟨wp, mem_generateSpiral_iff.mpr ⟨layer, by omega, hring⟩, hcentre⟩

theorem spiral_centres (m : GridMap) : ∀ wp ∈ m.generateSpiral, ∃ y x, m.IsCentre wp y x := by
  intro wp hwp
  obtain ⟨layer, -, hring⟩ := mem_generateSpiral_iff.mp hwp
  exact isCentre_of_mem_ring hring

/-- **The rings follow each other outward.** -/
theorem spiral_outward (m : GridMap) : m.Outward m.generateSpiral := by
  rw [GridMap.Outward, OccupancyGrid.generateSpiral, List.pairwise_flatMap]
  have hlayer : ∀ {layer : ℕ} {wp : Waypoint} {y x : ℕ}, wp ∈ m.ring layer →
      m.IsCentre wp y x → m.layerOf y x = layer := fun hring hcentre =>
    ((exists_mem_ring_iff (Int.natCast_nonneg _)).mp ⟨_, hring, hcentre⟩).2
  constructor
  · intro layer _
    refine List.pairwise_iff_forall_sublist.mpr fun hsub y x y' x' hcentre hcentre' => ?_
    rw [hlayer (hsub.subset (by simp)) hcentre, hlayer (hsub.subset (by simp)) hcentre']
  · refine List.Pairwise.imp ?_ (List.pairwise_lt_range' 1)
    intro layer layer' hlt wp hwp wp' hwp' y x y' x' hcentre hcentre'
    rw [hlayer hwp hcentre, hlayer hwp' hcentre']
    exact Int.ofNat_le.mpr hlt.le

/-- **On no map with a cell does the spiral cover it.** -/
theorem spiralCovers_iff (m : GridMap) : m.SpiralCovers ↔ m.width = 0 ∨ m.height = 0 := by
  constructor
  · intro hcovers
    by_contra hcells
    rw [not_or] at hcells
    have hcentre : m.grid.Holds (m.height / 2) (m.width / 2) :=
      ⟨Nat.div_lt_self (by omega) one_lt_two, Nat.div_lt_self (by omega) one_lt_two⟩
    exact (visited_iff hcentre).mp (hcovers.visits _ _ hcentre) ⟨rfl, rfl⟩
  · intro hempty
    refine ⟨spiral_centres m, fun y x hin => ?_, spiral_outward m⟩
    obtain ⟨hy, hx⟩ : y < m.height ∧ x < m.width := hin
    omega

/-- The spiral of a map of one cell is empty. -/
theorem singleCell_not_covered : ¬singleCell.SpiralCovers := by
  intro hcovers
  have hempty : singleCell.generateSpiral = [] := by decide +kernel
  obtain ⟨wp, hwp, -⟩ := hcovers.visits 0 0 ⟨Nat.one_pos, Nat.one_pos⟩
  rw [hempty] at hwp
  cases hwp

end Spiral

end Coverage
