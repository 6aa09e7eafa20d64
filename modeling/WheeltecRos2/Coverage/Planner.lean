/-
The coverage planner of the bridge.

`CoveragePlanner` inflates the obstacles of an occupancy grid, sweeps every
`stripe_width_cells`-th row of it along its free segments, back and forth, and thins
out the waypoints (`_generate_boustrophedon`).  `validate_waypoints` checks a route
against the map.  Numbers are exact; `math.pi` is the double of that name.
-/
import WheeltecRos2.Lib.Truncate
import Mathlib.Data.Rat.Floor

namespace Coverage

open Truncate

/-- The exceptions of the planner, with the text of its own. -/
inductive PyError
  | valueError
  | zeroDivisionError
deriving DecidableEq

/-- The fields of an `OccupancyGrid` that the planner reads. -/
structure OccupancyGrid where
  resolution : ℚ
  width : ℕ
  height : ℕ
  originX : ℚ
  originY : ℚ
  data : List ℤ

/-- An `OccupancyGrid` that describes a map: square cells of positive size, and one
value for each. -/
structure GridMap extends OccupancyGrid where
  resolution_pos : 0 < resolution
  data_length : data.length = width * height

/-- A waypoint of a route. -/
structure Waypoint where
  x : ℚ
  y : ℚ
  yaw : ℚ
deriving DecidableEq

/-- A two-dimensional array of shape `(height, width)`. -/
structure Grid (α : Type) where
  height : ℕ
  width : ℕ
  cell : ℕ → ℕ → α

/-- `grid[y, :]`. -/
def Grid.row {α : Type} (grid : Grid α) (y : ℕ) : List α := (List.range grid.width).map (grid.cell y)

/-- `math.pi`. -/
def mathPi : ℚ := 884279719003555 / 281474976710656

/-- `np.array(data).reshape((height, width))`. -/
def reshape (data : List ℤ) (height width : ℕ) : Except PyError (Grid ℤ) :=
  if data.length = height * width then
    .ok { height, width, cell := fun y x => data.getD (y * width + x) 0 }
  else .error .valueError

/-! ### Obstacles -/

/-- Unknown (-1) and occupied (> 50) cells. -/
def IsObstacle (value : ℤ) : Prop := value = -1 ∨ 50 < value

instance (value : ℤ) : Decidable (IsObstacle value) := inferInstanceAs (Decidable (_ ∨ _))

/-- `binary_dilation` by a square of `2 * cells + 1` cells a side. -/
def binaryDilation (obstacles : Grid Bool) (cells : ℕ) : Grid Bool :=
  { obstacles with
    cell := fun y x =>
      (List.range obstacles.height).any fun y' =>
        (List.range obstacles.width).any fun x' =>
          obstacles.cell y' x' && decide (y ≤ y' + cells ∧ y' ≤ y + cells) &&
            decide (x ≤ x' + cells ∧ x' ≤ x + cells) }

/-- `_inflate_obstacles`. -/
def inflateObstacles (grid : Grid ℤ) (inflationCells : ℤ) : Grid ℕ :=
  let obstacles : Grid Bool := { grid with cell := fun y x => decide (IsObstacle (grid.cell y x)) }
  let inflated := if 0 < inflationCells then binaryDilation obstacles inflationCells.toNat else obstacles
  { inflated with cell := fun y x => (inflated.cell y x).toNat * 100 }

/-! ### Free segments -/

/-- The variables of `_find_free_segments`. -/
structure Scan where
  segments : List (ℕ × ℕ)
  inSegment : Bool
  start : ℕ

/-- The body of its loop, for the cell at index `i`. -/
def Scan.step (minLength : ℕ) (s : Scan) (entry : ℕ × ℕ) : Scan :=
  let (cell, i) := entry
  if cell = 0 then
    if s.inSegment then s else { s with start := i, inSegment := true }
  else
    if s.inSegment then
      { s with
        segments := if minLength ≤ i - s.start then s.segments ++ [(s.start, i)] else s.segments
        inSegment := false }
    else s

/-- The loop over a row. -/
def Scan.overRow (row : List ℕ) (minLength : ℕ) : Scan :=
  row.zipIdx.foldl (Scan.step minLength) { segments := [], inSegment := false, start := 0 }

/-- `_find_free_segments`. -/
def findFreeSegments (row : List ℕ) (minLength : ℕ) : List (ℕ × ℕ) :=
  let s := Scan.overRow row minLength
  if s.inSegment ∧ minLength ≤ row.length - s.start then s.segments ++ [(s.start, row.length)]
  else s.segments

/-! ### The sweep -/

namespace OccupancyGrid

variable (mapMsg : OccupancyGrid)

/-- World coordinates of the centre of a cell. -/
def centreX (x : ℕ) : ℚ := mapMsg.originX + (x + 1 / 2) * mapMsg.resolution

@[inherit_doc centreX]
def centreY (y : ℕ) : ℚ := mapMsg.originY + (y + 1 / 2) * mapMsg.resolution

/-- The two waypoints of a free segment of row `y`. -/
def segmentWaypoints (direction : ℤ) (y : ℕ) (segment : ℕ × ℕ) : List Waypoint :=
  let (xStart, xEnd) := segment
  if direction = 1 then
    [{ x := mapMsg.originX + (xStart + 1 / 2) * mapMsg.resolution, y := mapMsg.centreY y, yaw := 0 },
     { x := mapMsg.originX + (xEnd - 1 / 2) * mapMsg.resolution, y := mapMsg.centreY y, yaw := 0 }]
  else
    [{ x := mapMsg.originX + (xEnd - 1 / 2) * mapMsg.resolution, y := mapMsg.centreY y, yaw := mathPi },
     { x := mapMsg.originX + (xStart + 1 / 2) * mapMsg.resolution, y := mapMsg.centreY y, yaw := mathPi }]

end OccupancyGrid

/-- The variables of the `while` loop. -/
structure Sweep where
  waypoints : List Waypoint
  direction : ℤ

/-- The body of the loop, for the row `y`. -/
def Sweep.visit (mapMsg : OccupancyGrid) (inflatedGrid : Grid ℕ) (s : Sweep) (y : ℕ) : Sweep :=
  let freeSegments := findFreeSegments (inflatedGrid.row y) 3
  if freeSegments = [] then s
  else
    { waypoints := s.waypoints ++ freeSegments.flatMap (mapMsg.segmentWaypoints s.direction y)
      direction := s.direction * -1 }

/-- The rows the loop visits from `y` on, `fuel` of them at most. -/
def stripeRows (height stripeWidthCells : ℕ) : ℕ → ℕ → List ℕ
  | 0, _ => []
  | fuel + 1, y =>
    if y < height then y :: stripeRows height stripeWidthCells fuel (y + stripeWidthCells) else []

/-! ### The route -/

/-- The cross product of `_optimize_waypoints`. -/
def cross (prev curr next : Waypoint) : ℚ :=
  let dx1 := curr.x - prev.x
  let dy1 := curr.y - prev.y
  let dx2 := next.x - curr.x
  let dy2 := next.y - curr.y
  dx1 * dy2 - dy1 * dx2

/-- The inner waypoints that `_optimize_waypoints` keeps. -/
def keepCorners : List Waypoint → List Waypoint
  | prev :: curr :: next :: rest =>
    if 1 / 100 < |cross prev curr next| then curr :: keepCorners (curr :: next :: rest)
    else keepCorners (curr :: next :: rest)
  | _ => []

/-- `_optimize_waypoints`. -/
def optimizeWaypoints (waypoints : List Waypoint) : List Waypoint :=
  if waypoints.length < 3 then waypoints
  else waypoints.head?.toList ++ keepCorners waypoints ++ waypoints.getLast?.toList

/-- The parameters of a planner. -/
structure CoveragePlanner where
  robotWidth : ℚ
  overlap : ℚ
  minClearance : ℚ

namespace CoveragePlanner

/-- `__init__`. -/
def init (robotWidth overlap : ℚ) : CoveragePlanner := { robotWidth, overlap, minClearance := 3 / 10 }

variable (p : CoveragePlanner)

/-- The distance between two stripes, in cells. -/
def stripeWidthCells (mapMsg : OccupancyGrid) : ℤ :=
  max 1 (trunc (p.robotWidth * (1 - p.overlap) / mapMsg.resolution))

/-- The inflation of the obstacles, in cells. -/
def inflationCells (mapMsg : OccupancyGrid) : ℤ :=
  trunc ((p.robotWidth / 2 + p.minClearance) / mapMsg.resolution)

/-- The waypoints before they are thinned out. -/
def sweep (mapMsg : OccupancyGrid) (inflatedGrid : Grid ℕ) : List Waypoint :=
  let rows := stripeRows mapMsg.height (p.stripeWidthCells mapMsg).toNat mapMsg.height 0
  (rows.foldl (Sweep.visit mapMsg inflatedGrid) { waypoints := [], direction := 1 }).waypoints

/-- `_generate_boustrophedon`. -/
def generateBoustrophedon (mapMsg : OccupancyGrid) : Except PyError (List Waypoint) := do
  let grid ← reshape mapMsg.data mapMsg.height mapMsg.width
  if mapMsg.resolution = 0 then .error .zeroDivisionError
  else
    let inflatedGrid := inflateObstacles grid (p.inflationCells mapMsg)
    .ok (optimizeWaypoints (p.sweep mapMsg inflatedGrid))

end CoveragePlanner

/-! ### The validator -/

/-- The loop of `validate_waypoints` over the waypoints, from index `i` on. -/
def checkWaypoints (mapMsg : OccupancyGrid) (i : ℕ) : List Waypoint → Except PyError (Bool × Option String)
  | [] => .ok (true, none)
  | wp :: rest =>
    if mapMsg.resolution = 0 then .error .zeroDivisionError
    else
      let xCell := trunc ((wp.x - mapMsg.originX) / mapMsg.resolution)
      let yCell := trunc ((wp.y - mapMsg.originY) / mapMsg.resolution)
      if ¬((0 ≤ xCell ∧ xCell < mapMsg.width) ∧ 0 ≤ yCell ∧ yCell < mapMsg.height) then
        .ok (false, some s!"Waypoint {i} is outside map bounds")
      else
        let gridIndex := (yCell * mapMsg.width + xCell).toNat
        match mapMsg.data[gridIndex]? with
        | some cellValue =>
          if 50 < cellValue ∨ cellValue = -1 then
            .ok (false, some s!"Waypoint {i} is in occupied or unknown space")
          else checkWaypoints mapMsg (i + 1) rest
        | none => checkWaypoints mapMsg (i + 1) rest

/-- `validate_waypoints`. -/
def validateWaypoints (waypoints : List Waypoint) (mapMsg : OccupancyGrid) :
    Except PyError (Bool × Option String) :=
  if waypoints.length < 2 then .ok (false, some "Coverage route must have at least 2 waypoints")
  else if 1000 < waypoints.length then
    .ok (false, some s!"Coverage route has too many waypoints ({waypoints.length}), max 1000")
  else checkWaypoints mapMsg 0 waypoints

end Coverage
