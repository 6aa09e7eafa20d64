/-
What the thinned out route still drives along.

`_optimize_waypoints` should remove redundant waypoints on straight lines.  It looks at
the area between three neighbours, so a reversal within a row counts as straight: in
every second row, driven to the left while its segments are listed from left to right,
all waypoints but the first and the last disappear (`splitRow_lost`).  A short segment at
the end of a row loses its waypoint when the area is small.  `keepsSegments_iff` is the
exact condition: rows driven to the left have one segment, and every turn between two
rows spans more than the threshold.
-/
import WheeltecRos2.Lib.Polyline
import WheeltecRos2.Coverage.Corners
import WheeltecRos2.Coverage.Navigable

namespace Coverage

open Polyline

/-- The place of a waypoint. -/
def Waypoint.point (wp : Waypoint) : ℚ × ℚ := (wp.x, wp.y)

section Statement

variable (p : CoveragePlanner) (m : GridMap)

/-- The polyline through the route meets the centre of every cell of every free segment
of the rows visited. -/
def KeepsSegments : Prop :=
  ∃ route, p.generateBoustrophedon m.toOccupancyGrid = .ok route ∧
    ∀ y ∈ p.rows m.toOccupancyGrid, ∀ a b,
      (a, b) ∈ findFreeSegments ((p.inflatedGrid m).row y) 3 → ∀ x, a ≤ x → x < b →
        (m.centreX x, m.centreY y) ∈ polyline ℚ (route.map Waypoint.point)

/-- The condition on a row with free segments, after the rows `pre` and before the rows
`post` that have some: driven to the left it has one segment, and the area of the turn
from the row before it along its first segment, and of the turn from its last segment to
the row after it, is above the threshold. -/
structure RowKept (pre : List SweptRow) (row : SweptRow) (post : List SweptRow) : Prop where
  single : pre.length % 2 = 1 → row.segments.length = 1
  first : ∀ prev ∈ pre.getLast?, ∀ segment ∈ row.segments.head?,
    1 / 100 < (row.y - prev.y : ℚ) * (segment.2 - 1 - segment.1) * m.resolution ^ 2
  last : ∀ next ∈ post.head?, ∀ segment ∈ row.segments.getLast?,
    1 / 100 < (next.y - row.y : ℚ) * (segment.2 - 1 - segment.1) * m.resolution ^ 2

/-- It holds of every row. -/
def TurnsKept : Prop :=
  ∀ pre row post, p.swept m = pre ++ row :: post → RowKept m pre row post

end Statement

variable {p : CoveragePlanner} {m : GridMap}

/-! ### Rows -/

/-- Segments as `_find_free_segments` reports them. -/
structure SweptRow.Proper (row : SweptRow) : Prop where
  ne_nil : row.segments ≠ []
  length : ∀ segment ∈ row.segments, segment.1 + 3 ≤ segment.2
  pairwise : row.segments.Pairwise fun left right => left.2 < right.1

theorem CoveragePlanner.swept_proper (p : CoveragePlanner) (m : GridMap) {row : SweptRow}
    (h : row ∈ p.swept m) : row.Proper := by
  obtain ⟨-, hseg, hne⟩ := (p.mem_swept_iff m).mp h
  refine ⟨hne, fun segment hmem => ?_, ?_⟩
  · rw [hseg] at hmem
    obtain ⟨hstretch, hlen⟩ := mem_findFreeSegments_iff.mp hmem
    have := hstretch.lt
    omega
  · rw [hseg]
    exact findFreeSegments_pairwise _ _

theorem CoveragePlanner.swept_pairwise (p : CoveragePlanner) (m : GridMap) :
    (p.swept m).Pairwise fun lower upper => lower.y < upper.y := by
  rw [swept, sweptRows]
  refine List.Pairwise.filter _ (List.pairwise_map.mpr ?_)
  exact stripeRows_pairwise (p.stripeWidthCells_pos m.toOccupancyGrid)

theorem OccupancyGrid.passes_append (mapMsg : OccupancyGrid) (direction : ℤ)
    (pre post : List SweptRow) :
    mapMsg.passes direction (pre ++ post) =
      mapMsg.passes direction pre ++ mapMsg.passes (direction * (-1) ^ pre.length) post := by
  induction pre generalizing direction with
  | nil => simp [OccupancyGrid.passes]
  | cons row pre ih =>
    rw [List.cons_append, OccupancyGrid.passes, OccupancyGrid.passes, ih, List.cons_append,
      List.length_cons, pow_succ', mul_assoc]

/-- The waypoints of a row lie on its height. -/
theorem OccupancyGrid.pass_y (mapMsg : OccupancyGrid) (direction : ℤ) {row : SweptRow}
    {wp : Waypoint} (h : wp ∈ mapMsg.pass direction row) : wp.y = mapMsg.centreY row.y := by
  obtain ⟨⟨a, b⟩, -, hwp⟩ := List.mem_flatMap.mp h
  by_cases hdir : direction = 1
  · rw [segmentWaypoints, if_pos hdir, List.mem_pair] at hwp
    rcases hwp with rfl | rfl <;> rfl
  · rw [segmentWaypoints, if_neg hdir, List.mem_pair] at hwp
    rcases hwp with rfl | rfl <;> rfl

/-! ### The turns -/

theorem OccupancyGrid.pass_ne_nil (mapMsg : OccupancyGrid) {row : SweptRow} (h : row.Proper)
    (direction : ℤ) : mapMsg.pass direction row ≠ [] := by
  obtain ⟨segment, rest, heq⟩ := List.exists_cons_of_ne_nil h.ne_nil
  rw [OccupancyGrid.pass, heq, List.flatMap_cons]
  refine List.append_ne_nil_of_left_ne_nil ?_ _
  unfold segmentWaypoints
  by_cases hdir : direction = 1
  · simp [hdir]
  · simp [hdir]

/-- The waypoint before a row lies on the height of the row before it. -/
theorem OccupancyGrid.getLast?_passes (mapMsg : OccupancyGrid) (direction : ℤ) {rows : List SweptRow}
    (h : ∀ row ∈ rows, row.Proper) :
    (mapMsg.passes direction rows).flatten.getLast?.map Waypoint.y =
      rows.getLast?.map fun row => mapMsg.centreY row.y := by
  rcases List.eq_nil_or_concat rows with rfl | ⟨rows, row, rfl⟩
  · rfl
  · rw [List.concat_eq_append] at h ⊢
    obtain ⟨wps, wp, heq⟩ : ∃ wps wp,
        mapMsg.pass (direction * (-1) ^ rows.length) row = wps ++ [wp] := by
      rcases List.eq_nil_or_concat (mapMsg.pass (direction * (-1) ^ rows.length) row) with
        hnil | ⟨wps, wp, heq⟩
      · exact absurd hnil (mapMsg.pass_ne_nil (h row (by simp)) _)
      · exact ⟨wps, wp, by rw [heq, List.concat_eq_append]⟩
    have hy : wp.y = mapMsg.centreY row.y :=
      mapMsg.pass_y (direction * (-1) ^ rows.length) (by rw [heq]; simp)
    simp [mapMsg.passes_append, OccupancyGrid.passes, heq, hy]

/-- And the waypoint after it on that of the row after it. -/
theorem OccupancyGrid.head?_passes (mapMsg : OccupancyGrid) (direction : ℤ) {rows : List SweptRow}
    (h : ∀ row ∈ rows, row.Proper) :
    (mapMsg.passes direction rows).flatten.head?.map Waypoint.y =
      rows.head?.map fun row => mapMsg.centreY row.y := by
  cases rows with
  | nil => rfl
  | cons row rows =>
    obtain ⟨wp, wps, heq⟩ :=
      List.exists_cons_of_ne_nil (mapMsg.pass_ne_nil (h row (by simp)) direction)
    have hy : wp.y = mapMsg.centreY row.y := mapMsg.pass_y direction (by rw [heq]; simp)
    simp [OccupancyGrid.passes, heq, hy]

theorem forall_mem_option_iff {α β γ : Type} {f : α → γ} {g : β → γ} {o : Option α} {o' : Option β}
    (h : o.map f = o'.map g) {F : γ → Prop} : (∀ a ∈ o, F (f a)) ↔ ∀ b ∈ o', F (g b) := by
  cases o with
  | none => cases o' with
    | none => simp
    | some b => cases h
  | some a => cases o' with
    | none => cases h
    | some b =>
      have hab : f a = g b := Option.some_inj.mp h
      simp [hab]

/-- The area of a turn off a row: the height difference times the length of the segment. -/
theorem abs_cross_of_y_eq {z w next : Waypoint} (h : next.y = w.y) :
    |cross z w next| = |w.y - z.y| * |next.x - w.x| := by
  rw [cross, h, sub_self, mul_zero, zero_sub, abs_neg, abs_mul]

theorem abs_cross_of_y_eq' {prev w z : Waypoint} (h : w.y = prev.y) :
    |cross prev w z| = |z.y - w.y| * |w.x - prev.x| := by
  rw [cross, h, sub_self, zero_mul, sub_zero, abs_mul, mul_comm]

/-- The first and the last waypoints of the pass over a row. -/
structure PassEnds (m : GridMap) (direction : ℤ) (row : SweptRow) (first last : ℕ × ℕ)
    (w next prev w' : Waypoint) : Prop where
  first_mem : row.segments.head? = some first
  last_mem : row.segments.getLast? = some last
  begins : ∃ T, m.pass direction row = w :: next :: T
  ends : ∃ S, m.pass direction row = S ++ [prev, w']
  first_length : |next.x - w.x| = (first.2 - 1 - first.1 : ℚ) * m.resolution
  last_length : |w'.x - prev.x| = (last.2 - 1 - last.1 : ℚ) * m.resolution
  rightward : direction = 1 → w.x = m.centreX first.1 ∧ w'.x = m.centreX (last.2 - 1)
  leftward : direction ≠ 1 → w.x = m.centreX (first.2 - 1) ∧ w'.x = m.centreX last.1

/-- The two waypoints of a segment are its length apart. -/
theorem segment_length {a b : ℕ} (hab : a + 3 ≤ b) :
    |m.centreX (b - 1) - m.centreX a| = (b - 1 - a : ℚ) * m.resolution := by
  have hle : m.centreX a ≤ m.centreX (b - 1) := centreX_le_iff.mpr (by omega)
  rw [abs_of_nonneg (sub_nonneg.mpr hle), centreX_sub, Nat.cast_pred (by omega)]

theorem exists_passEnds (m : GridMap) (direction : ℤ) {row : SweptRow} (h : row.Proper) :
    ∃ first last w next prev w', PassEnds m direction row first last w next prev w' := by
  obtain ⟨⟨a, b⟩, rest, hfirst⟩ := List.exists_cons_of_ne_nil h.ne_nil
  obtain ⟨init, ⟨a', b'⟩, hlast⟩ : ∃ init segment, row.segments = init ++ [segment] := by
    rcases List.eq_nil_or_concat row.segments with hnil | ⟨init, segment, heq⟩
    · exact absurd hnil h.ne_nil
    · exact ⟨init, segment, by rw [heq, List.concat_eq_append]⟩
  have hab := h.length (a, b) (by rw [hfirst]; simp)
  have hab' := h.length (a', b') (by rw [hlast]; simp)
  have hbegins : m.pass direction row = m.segmentWaypoints direction row.y (a, b) ++
      rest.flatMap (m.segmentWaypoints direction row.y) := by
    rw [OccupancyGrid.pass, hfirst, List.flatMap_cons]
  have hends : m.pass direction row = init.flatMap (m.segmentWaypoints direction row.y) ++
      m.segmentWaypoints direction row.y (a', b') := by
    rw [OccupancyGrid.pass, hlast, List.flatMap_append, List.flatMap_singleton]
  refine ⟨(a, b), (a', b'), ?_⟩
  rcases m.segmentWaypoints_cases direction row.y (a := a) (show 0 < b by omega) with
    ⟨hdir, heq⟩ | ⟨hdir, heq⟩
  · rcases m.segmentWaypoints_cases direction row.y (a := a') (show 0 < b' by omega) with
      ⟨-, heq'⟩ | ⟨hdir', -⟩
    · rw [heq] at hbegins
      rw [heq'] at hends
      exact ⟨_, _, _, _, by rw [hfirst]; rfl, by rw [hlast]; simp, ⟨_, hbegins⟩, ⟨_, hends⟩,
        segment_length hab, segment_length hab', fun _ => ⟨rfl, rfl⟩, fun h => absurd hdir h⟩
    · exact absurd hdir hdir'
  · rcases m.segmentWaypoints_cases direction row.y (a := a') (show 0 < b' by omega) with
      ⟨hdir', -⟩ | ⟨-, heq'⟩
    · exact absurd hdir' hdir
    · rw [heq] at hbegins
      rw [heq'] at hends
      exact ⟨_, _, _, _, by rw [hfirst]; rfl, by rw [hlast]; simp, ⟨_, hbegins⟩, ⟨_, hends⟩,
        by rw [abs_sub_comm, segment_length hab], by rw [abs_sub_comm, segment_length hab'],
        fun h => absurd h hdir, fun _ => ⟨rfl, rfl⟩⟩

/-- The height difference of two rows. -/
theorem abs_centreY_sub {y y' : ℕ} (h : y < y') :
    |m.centreY y' - m.centreY y| = (y' - y : ℚ) * m.resolution := by
  rw [abs_of_pos (sub_pos.mpr (centreY_lt_iff.mpr h)), centreY_sub]

section Turns

variable {direction : ℤ} {pre post : List SweptRow} {row : SweptRow} {first last : ℕ × ℕ}
  {w next prev w' : Waypoint}

theorem PassEnds.begins_y (h : PassEnds m direction row first last w next prev w') :
    w.y = m.centreY row.y ∧ next.y = m.centreY row.y := by
  obtain ⟨T, heq⟩ := h.begins
  exact ⟨m.pass_y direction (by rw [heq]; simp),
    m.pass_y direction (by rw [heq]; simp)⟩

theorem PassEnds.ends_y (h : PassEnds m direction row first last w next prev w') :
    prev.y = m.centreY row.y ∧ w'.y = m.centreY row.y := by
  obtain ⟨S, heq⟩ := h.ends
  exact ⟨m.pass_y direction (by rw [heq]; simp),
    m.pass_y direction (by rw [heq]; simp)⟩

/-- The turn into a row, in terms of the rows. -/
theorem PassEnds.first_iff (h : PassEnds m direction row first last w next prev w') (d : ℤ)
    (hproper : ∀ r ∈ pre, r.Proper) (hlt : ∀ r ∈ pre, r.y < row.y) :
    (∀ z ∈ (m.passes d pre).flatten.getLast?, 1 / 100 < |cross z w next|) ↔
      ∀ r ∈ pre.getLast?, ∀ segment ∈ row.segments.head?,
        1 / 100 < (row.y - r.y : ℚ) * (segment.2 - 1 - segment.1) * m.resolution ^ 2 := by
  obtain ⟨hw, hnext⟩ := h.begins_y
  have hcross : ∀ z : Waypoint, |cross z w next| = |m.centreY row.y - z.y| * |next.x - w.x| := by
    intro z
    rw [abs_cross_of_y_eq (by rw [hw, hnext]), hw]
  simp only [hcross]
  rw [forall_mem_option_iff (m.getLast?_passes d hproper)
    (F := fun t => 1 / 100 < |m.centreY row.y - t| * |next.x - w.x|)]
  refine forall₂_congr ?_
  intro r hr
  rw [abs_centreY_sub (hlt r (List.mem_of_mem_getLast? hr)), h.first_length, h.first_mem]
  simp only [Option.mem_some_iff, forall_eq']
  rw [mul_mul_mul_comm, ← sq]

/-- The turn out of a row. -/
theorem PassEnds.last_iff (h : PassEnds m direction row first last w next prev w') (d : ℤ)
    (hproper : ∀ r ∈ post, r.Proper) (hlt : ∀ r ∈ post, row.y < r.y) :
    (∀ z ∈ (m.passes d post).flatten.head?, 1 / 100 < |cross prev w' z|) ↔
      ∀ r ∈ post.head?, ∀ segment ∈ row.segments.getLast?,
        1 / 100 < (r.y - row.y : ℚ) * (segment.2 - 1 - segment.1) * m.resolution ^ 2 := by
  obtain ⟨hprev, hw'⟩ := h.ends_y
  have hcross : ∀ z : Waypoint, |cross prev w' z| = |z.y - m.centreY row.y| * |w'.x - prev.x| := by
    intro z
    rw [abs_cross_of_y_eq' (by rw [hw', hprev]), hw']
  simp only [hcross]
  rw [forall_mem_option_iff (m.head?_passes d hproper)
    (F := fun t => 1 / 100 < |t - m.centreY row.y| * |w'.x - prev.x|)]
  refine forall₂_congr ?_
  intro r hr
  rw [abs_centreY_sub (hlt r (List.mem_of_mem_head? hr)), h.last_length, h.last_mem]
  simp only [Option.mem_some_iff, forall_eq']
  rw [mul_mul_mul_comm, ← sq]

end Turns

/-! ### One row of the route -/

/-- A horizontal line between two cell centres. -/
theorem mem_horizontal_iff {x i j : ℕ} {c : ℚ} :
    (m.centreX x, c) ∈ segment ℚ (m.centreX i, c) (m.centreX j, c) ↔
      i ≤ x ∧ x ≤ j ∨ j ≤ x ∧ x ≤ i := by
  rw [← Prod.image_mk_segment_left, segment_eq_uIcc]
  simp only [Set.mem_image, Prod.mk.injEq, and_true, exists_eq_right, Set.mem_uIcc, centreX_le_iff]

/-- The polyline meets every cell of the row. -/
def RowDriven (m : GridMap) (route : List Waypoint) (row : SweptRow) : Prop :=
  ∀ a b, (a, b) ∈ row.segments → ∀ x, a ≤ x → x < b →
    (m.centreX x, m.centreY row.y) ∈ polyline ℚ (route.map Waypoint.point)

section Row

variable {A B : List Waypoint} {row : SweptRow} {w w' : Waypoint} {i j : ℕ}

/-- The places of waypoints on one side of a height. -/
theorem forall_point (q : ℚ → Prop) {l : List Waypoint} (h : ∀ z ∈ l, q z.y) :
    ∀ z ∈ l.map Waypoint.point, q (LinearMap.snd ℚ ℚ ℚ z) :=
  List.forall_mem_map.mpr h

/-- With one waypoint at most on its height a row is not driven. -/
theorem not_rowDriven_of_length {M : List Waypoint} (hM : M.length ≤ 1) (hrow : row.Proper)
    (hA : ∀ z ∈ A, z.y < m.centreY row.y) (hMy : ∀ z ∈ M, z.y = m.centreY row.y)
    (hB : ∀ z ∈ B, m.centreY row.y < z.y) : ¬RowDriven m (A ++ (M ++ B)) row := by
  intro hdriven
  obtain ⟨⟨a, b⟩, rest, hfirst⟩ := List.exists_cons_of_ne_nil hrow.ne_nil
  have hmem : (a, b) ∈ row.segments := by rw [hfirst]; simp
  have hab := hrow.length (a, b) hmem
  have hroute : (A ++ (M ++ B)).map Waypoint.point =
      A.map Waypoint.point ++ (M.map Waypoint.point ++ B.map Waypoint.point) := by simp
  have hu := hdriven a b hmem a le_rfl (by omega)
  have hv := hdriven a b hmem (a + 1) (by omega) (by omega)
  rw [hroute] at hu hv
  have heq := polyline_level_subsingleton (by rw [List.length_map]; exact hM)
    (forall_point (· < m.centreY row.y) hA) (forall_point (· = m.centreY row.y) hMy)
    (forall_point (m.centreY row.y < ·) hB) hu hv rfl rfl
  have hlt : m.centreX a < m.centreX (a + 1) := centreX_lt_iff.mpr (Nat.lt_succ_self a)
  exact hlt.ne (Prod.mk.inj heq).1

/-- Between two waypoints at cell centres of its height a row is driven if its cells lie
between them. -/
theorem rowDriven_pair_iff (hA : ∀ z ∈ A, z.y < m.centreY row.y)
    (hB : ∀ z ∈ B, m.centreY row.y < z.y) (hw : w.x = m.centreX i ∧ w.y = m.centreY row.y)
    (hw' : w'.x = m.centreX j ∧ w'.y = m.centreY row.y) :
    RowDriven m (A ++ ([w, w'] ++ B)) row ↔
      ∀ a b, (a, b) ∈ row.segments → ∀ x, a ≤ x → x < b → i ≤ x ∧ x ≤ j ∨ j ≤ x ∧ x ≤ i := by
  have hroute : (A ++ ([w, w'] ++ B)).map Waypoint.point =
      A.map Waypoint.point ++ ([w.point, w'.point] ++ B.map Waypoint.point) := by simp
  have hpoint : w.point = (m.centreX i, m.centreY row.y) := Prod.ext hw.1 hw.2
  have hpoint' : w'.point = (m.centreX j, m.centreY row.y) := Prod.ext hw'.1 hw'.2
  refine forall₃_congr fun a b _ => forall₃_congr fun x _ _ => ?_
  have hpair := mem_polyline_pair_iff (h := LinearMap.snd ℚ ℚ ℚ) (a := w.point) (b := w'.point)
    (u := (m.centreX x, m.centreY row.y)) (forall_point (· < m.centreY row.y) hA)
    hw.2 hw'.2 (forall_point (m.centreY row.y < ·) hB) rfl
  rw [hroute, hpair, hpoint, hpoint', mem_horizontal_iff]

end Row

/-! ### The order of the segments -/

namespace SweptRow.Proper

variable {row : SweptRow} {first last : ℕ × ℕ} {a b : ℕ}

theorem first_le (h : row.Proper) (hfirst : row.segments.head? = some first)
    (hab : (a, b) ∈ row.segments) : first.1 ≤ a := by
  obtain ⟨rest, heq⟩ := List.head?_eq_some_iff.mp hfirst
  have hpair := h.pairwise
  rw [heq, List.pairwise_cons] at hpair
  rw [heq, List.mem_cons] at hab
  rcases hab with rfl | hab
  · exact le_rfl
  · have hlen := h.length first (by rw [heq]; simp)
    have := hpair.1 (a, b) hab
    omega

theorem le_last (h : row.Proper) (hlast : row.segments.getLast? = some last)
    (hab : (a, b) ∈ row.segments) : b ≤ last.2 := by
  obtain ⟨init, heq⟩ := List.getLast?_eq_some_iff.mp hlast
  have hpair := h.pairwise
  rw [heq, List.pairwise_append] at hpair
  rw [heq, List.mem_append, List.mem_singleton] at hab
  rcases hab with hab | rfl
  · have hlen := h.length last (by rw [heq]; simp)
    have := hpair.2.2 (a, b) hab last (List.mem_singleton_self last)
    omega
  · exact le_rfl

/-- From the first to the last cell every segment is passed. -/
theorem rightward (h : row.Proper) (hfirst : row.segments.head? = some first)
    (hlast : row.segments.getLast? = some last) :
    ∀ a b, (a, b) ∈ row.segments → ∀ x, a ≤ x → x < b →
      first.1 ≤ x ∧ x ≤ last.2 - 1 ∨ last.2 - 1 ≤ x ∧ x ≤ first.1 := by
  intro a b hab x hax hxb
  have := h.first_le hfirst hab
  have := h.le_last hlast hab
  exact Or.inl (by omega)

/-- Between the last cell of the first segment and the first cell of the last one only a
row with a single segment is passed. -/
theorem leftward_iff (h : row.Proper) (hfirst : row.segments.head? = some first)
    (hlast : row.segments.getLast? = some last) :
    (∀ a b, (a, b) ∈ row.segments → ∀ x, a ≤ x → x < b →
      first.2 - 1 ≤ x ∧ x ≤ last.1 ∨ last.1 ≤ x ∧ x ≤ first.2 - 1) ↔ row.segments.length = 1 := by
  obtain ⟨rest, heq⟩ := List.head?_eq_some_iff.mp hfirst
  have hlen := h.length first (by rw [heq]; simp)
  cases rest with
  | nil =>
    rw [heq, List.getLast?_singleton, Option.some_inj] at hlast
    subst hlast
    rw [heq]
    refine ⟨fun _ => rfl, fun _ a b hab x hax hxb => ?_⟩
    rw [List.mem_singleton] at hab
    subst hab
    exact Or.inr (by simp only at *; omega)
  | cons second rest =>
    rw [heq]
    refine ⟨fun hall => ?_, fun hone => by simp at hone⟩
    have hpair := h.pairwise
    rw [heq, List.pairwise_cons] at hpair
    rw [heq, List.getLast?_cons_cons] at hlast
    -- the first cell of the row lies before both ends
    have hgap := hpair.1 last (List.mem_of_mem_getLast? hlast)
    have := hall first.1 first.2 (by simp) first.1 le_rfl (by omega)
    omega

end SweptRow.Proper

/-! ### The exact condition -/

theorem direction_eq_one_iff (n : ℕ) : (1 : ℤ) * (-1) ^ n = 1 ↔ ¬n % 2 = 1 := by
  rcases Nat.even_or_odd n with hn | hn
  · rw [hn.neg_one_pow]
    exact iff_of_true rfl (by rw [Nat.even_iff.mp hn]; decide)
  · rw [hn.neg_one_pow]
    exact iff_of_false (by decide) (not_not.mpr (Nat.odd_iff.mp hn))

theorem OccupancyGrid.passes_y (mapMsg : OccupancyGrid) {direction : ℤ} {rows : List SweptRow}
    {wp : Waypoint} (h : wp ∈ (mapMsg.passes direction rows).flatten) :
    ∃ row ∈ rows, wp.y = mapMsg.centreY row.y := by
  obtain ⟨row, hrow, direction, hwp⟩ := mapMsg.mem_passes h
  exact ⟨row, hrow, mapMsg.pass_y direction hwp⟩

/-- The segments of a row are passed between the ends of its pass if it is driven to the
right or has one segment only. -/
theorem passEnds_iff {direction : ℤ} {row : SweptRow} {first last : ℕ × ℕ}
    {w next prev w' : Waypoint} {A B : List Waypoint} (hrow : row.Proper)
    (hends : PassEnds m direction row first last w next prev w')
    (hA : ∀ z ∈ A, z.y < m.centreY row.y) (hB : ∀ z ∈ B, m.centreY row.y < z.y) :
    RowDriven m (A ++ ([w, w'] ++ B)) row ↔ (direction ≠ 1 → row.segments.length = 1) := by
  by_cases hdir : direction = 1
  · obtain ⟨hw, hw'⟩ := hends.rightward hdir
    rw [rowDriven_pair_iff hA hB ⟨hw, hends.begins_y.1⟩ ⟨hw', hends.ends_y.2⟩]
    exact iff_of_true (hrow.rightward hends.first_mem hends.last_mem) fun h => absurd hdir h
  · obtain ⟨hw, hw'⟩ := hends.leftward hdir
    rw [rowDriven_pair_iff hA hB ⟨hw, hends.begins_y.1⟩ ⟨hw', hends.ends_y.2⟩,
      hrow.leftward_iff hends.first_mem hends.last_mem]
    exact ⟨fun h _ => h, fun h => h hdir⟩

/-- One row of the route. -/
theorem rowDriven_iff {pre post : List SweptRow} {row : SweptRow}
    (hswept : p.swept m = pre ++ row :: post) :
    RowDriven m (optimizeWaypoints (p.sweep m.toOccupancyGrid (p.inflatedGrid m))) row ↔
      RowKept m pre row post := by
  have hproper : ∀ r ∈ pre ++ row :: post, r.Proper := fun r hr =>
    p.swept_proper m (by rw [hswept]; exact hr)
  have hrow : row.Proper := hproper row (by simp)
  have hpair := p.swept_pairwise m
  rw [hswept, List.pairwise_append, List.pairwise_cons] at hpair
  obtain ⟨-, ⟨hbelow, -⟩, habove⟩ := hpair
  have hlt : ∀ r ∈ pre, r.y < row.y := fun r hr => habove r hr row (by simp)
  set direction : ℤ := 1 * (-1) ^ pre.length with hdirection
  have hsweep : p.sweep m.toOccupancyGrid (p.inflatedGrid m) =
      (m.passes 1 pre).flatten ++ (m.pass direction row ++ (m.passes (direction * -1) post).flatten) := by
    rw [p.sweep_eq m, hswept, m.passes_append, List.flatten_append, OccupancyGrid.passes,
      List.flatten_cons]
  obtain ⟨first, last, w, next, prev, w', hends⟩ := exists_passEnds m direction hrow
  obtain ⟨T, hT⟩ := hends.begins
  obtain ⟨S, hS⟩ := hends.ends
  obtain ⟨A, B, hA, hB, hroute⟩ := optimizeWaypoints_split (P := (m.passes 1 pre).flatten)
    (R := (m.passes (direction * -1) post).flatten) hT hS
    (fun e he => m.pass_y direction he)
  -- what is left of the other rows is below and above this one
  have hAy : ∀ z ∈ A, z.y < m.centreY row.y := by
    intro z hz
    obtain ⟨r, hr, hy⟩ := m.passes_y (hA hz)
    rw [hy, centreY_lt_iff]
    exact hlt r hr
  have hBy : ∀ z ∈ B, m.centreY row.y < z.y := by
    intro z hz
    obtain ⟨r, hr, hy⟩ := m.passes_y (hB hz)
    rw [hy, centreY_lt_iff]
    exact hbelow r hr
  have hfirst := hends.first_iff 1 (fun r hr => hproper r (by simp [hr])) hlt
  have hlast := hends.last_iff (direction * -1) (fun r hr => hproper r (by simp [hr])) hbelow
  -- without one of its two ends the row is not driven
  have hmiss : ∀ M : List Waypoint, M.length ≤ 1 → (∀ z ∈ M, z.y = m.centreY row.y) →
      ¬RowKept m pre row post → (RowDriven m (A ++ (M ++ B)) row ↔ RowKept m pre row post) :=
    fun M hM hMy hkept => iff_of_false (not_rowDriven_of_length hM hrow hAy hMy hBy) hkept
  have hwy := hends.begins_y.1
  have hwy' := hends.ends_y.2
  rw [hsweep, hroute]
  rcases keptFirst_cases (m.passes 1 pre).flatten w next with ⟨hf, hfeq⟩ | ⟨hf, hfeq⟩
  · rcases keptLast_cases prev w' (m.passes (direction * -1) post).flatten with ⟨hl, hleq⟩ | ⟨hl, hleq⟩
    · rw [hfeq, hleq, List.singleton_append, passEnds_iff hrow hends hAy hBy, Ne, hdirection,
        direction_eq_one_iff, not_not]
      exact ⟨fun h => ⟨h, hfirst.mp hf, hlast.mp hl⟩, fun h => h.single⟩
    · rw [hfeq, hleq]
      exact hmiss [w] le_rfl (by simp [hwy]) fun h => hl (hlast.mpr h.last)
  · rcases keptLast_cases prev w' (m.passes (direction * -1) post).flatten with ⟨-, hleq⟩ | ⟨-, hleq⟩
    · rw [hfeq, hleq]
      exact hmiss [w'] le_rfl (by simp [hwy']) fun h => hf (hfirst.mpr h.first)
    · rw [hfeq, hleq]
      exact hmiss [] (Nat.zero_le 1) (by simp) fun h => hf (hfirst.mpr h.first)

/-- **The route passes every cell of the free segments exactly when each row driven to
the left has one segment and every turn is above the threshold.** -/
theorem keepsSegments_iff (p : CoveragePlanner) (m : GridMap) :
    KeepsSegments p m ↔ TurnsKept p m := by
  have hrows : KeepsSegments p m ↔ ∀ row ∈ p.swept m,
      RowDriven m (optimizeWaypoints (p.sweep m.toOccupancyGrid (p.inflatedGrid m))) row := by
    constructor
    · rintro ⟨route, hroute, hall⟩ row hrow a b hab
      rw [p.generateBoustrophedon_eq m, Except.ok.injEq] at hroute
      obtain ⟨hy, hseg, -⟩ := (p.mem_swept_iff m).mp hrow
      rw [hroute]
      exact hall row.y hy a b (by rw [← hseg]; exact hab)
    · intro hall
      refine ⟨_, p.generateBoustrophedon_eq m, fun y hy a b hab => ?_⟩
      exact hall { y, segments := findFreeSegments ((p.inflatedGrid m).row y) 3 }
        ((p.mem_swept_iff m).mpr ⟨hy, rfl, List.ne_nil_of_mem hab⟩) a b hab
  rw [hrows]
  constructor
  · intro hall pre row post hswept
    exact (rowDriven_iff hswept).mp (hall row (by rw [hswept]; simp))
  · intro hall row hrow
    obtain ⟨pre, post, hswept⟩ := List.append_of_mem hrow
    exact (rowDriven_iff hswept).mpr (hall pre row post hswept)

/-! ### A row with two segments -/

/-- Two rows of seven cells of one metre; the middle of the second one is an obstacle. -/
def splitRow : GridMap where
  resolution := 1
  width := 7
  height := 2
  originX := 0
  originY := 0
  data := [0, 0, 0, 0, 0, 0, 0, 0, 0, 0, 100, 0, 0, 0]
  resolution_pos := one_pos
  data_length := rfl

/-- The route of the default robot turns in the middle of both segments of the second
row, and drives straight from the one to the other. -/
theorem splitRow_lost : ¬KeepsSegments (CoveragePlanner.init (1 / 2) (1 / 10)) splitRow := by
  set p := CoveragePlanner.init (1 / 2) (1 / 10) with hp
  have hroute : optimizeWaypoints (p.sweep splitRow.toOccupancyGrid (p.inflatedGrid splitRow)) =
      [⟨1 / 2, 1 / 2, 0⟩, ⟨13 / 2, 1 / 2, 0⟩, ⟨5 / 2, 3 / 2, mathPi⟩, ⟨9 / 2, 3 / 2, mathPi⟩] := by
    rw [hp]
    decide +kernel
  rintro ⟨route, hok, hall⟩
  rw [p.generateBoustrophedon_eq, Except.ok.injEq, hroute] at hok
  have hcell := hall 1 (by rw [hp]; decide +kernel) 0 3 (by rw [hp]; decide +kernel) 0 le_rfl (by omega)
  rw [← hok] at hcell
  -- on its height the route runs from 2.5 to 4.5
  have hlevel := (mem_polyline_pair_iff (h := LinearMap.snd ℚ ℚ ℚ) (c := 3 / 2)
    (A := [(1 / 2, 1 / 2), (13 / 2, 1 / 2)]) (a := (5 / 2, 3 / 2)) (b := (9 / 2, 3 / 2)) (B := [])
    (by norm_num) rfl rfl (by simp) (by norm_num [OccupancyGrid.centreY, splitRow])).mp hcell
  have hx := (Prod.segment_subset _ _ hlevel).1
  rw [segment_eq_Icc (by norm_num), Set.mem_Icc] at hx
  norm_num [OccupancyGrid.centreX, splitRow] at hx

end Coverage
