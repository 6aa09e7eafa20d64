/-
The direction of travel.

The stripes should be driven back and forth.  The waypoints of a stripe head the way it is
driven, and the directions do alternate (`stripe_sweep`), but the loop over the segments
always runs from left to right: on a stripe driven to the left the robot goes back within
each segment and forward to the next one (`Heading.drives_pass_iff`).  So the law holds
exactly if every second stripe has one segment (`boustrophedonOrder_iff`).
-/
import WheeltecRos2.Coverage.Route

namespace Coverage

/-- The directions of a lawn mower. -/
inductive Heading
  | rightward
  | leftward
deriving DecidableEq

namespace Heading

/-- The `yaw` of a waypoint. -/
def yaw : Heading → ℚ
  | rightward => 0
  | leftward => mathPi

def flip : Heading → Heading
  | rightward => leftward
  | leftward => rightward

/-- The heading after `n` turns. -/
def after (heading : Heading) (n : ℕ) : Heading := if n % 2 = 0 then heading else heading.flip

/-- From `x` to `x'` there is no way back. -/
def Along : Heading → ℚ → ℚ → Prop
  | rightward, x, x' => x ≤ x'
  | leftward, x, x' => x' ≤ x

/-- The waypoints head in a direction, and so does the way through them. -/
structure Drives (heading : Heading) (waypoints : List Waypoint) : Prop where
  yaw : ∀ wp ∈ waypoints, wp.yaw = heading.yaw
  along : waypoints.Pairwise fun wp wp' => heading.Along wp.x wp'.x

end Heading

/-- The waypoints on a height. -/
def stripe (waypoints : List Waypoint) (y : ℚ) : List Waypoint :=
  waypoints.filter fun wp => wp.y = y

/-- Stripe after stripe, of those with free segments, is driven in one direction, and the
directions alternate. -/
def BoustrophedonOrder (p : CoveragePlanner) (m : GridMap) : Prop :=
  ∃ heading : Heading, ∀ pre row post, p.swept m = pre ++ row :: post →
    (heading.after pre.length).Drives
      (stripe (p.sweep m.toOccupancyGrid (p.inflatedGrid m)) (m.centreY row.y))

/-- The stripes driven to the left have one free segment. -/
def SingleLeftward (p : CoveragePlanner) (m : GridMap) : Prop :=
  ∀ pre row post, p.swept m = pre ++ row :: post → pre.length % 2 = 1 → row.segments.length = 1

/-! ### A stripe -/

section Stripe

variable {p : CoveragePlanner} {m : GridMap} {row : SweptRow} {heading : Heading} {direction : ℤ}

/-- The heading of a pass. -/
def headingOf (direction : ℤ) : Heading := if direction = 1 then .rightward else .leftward

theorem mathPi_ne_zero : mathPi ≠ 0 := by decide +kernel

theorem Heading.yaw_injective : Function.Injective Heading.yaw := by
  intro h h' heq
  cases h <;> cases h'
  · rfl
  · exact absurd heq.symm mathPi_ne_zero
  · exact absurd heq mathPi_ne_zero
  · rfl

/-- The waypoints of a segment, in the order of a heading. -/
theorem segmentWaypoints_heading (direction : ℤ) (y : ℕ) {a b : ℕ} (hab : a + 3 ≤ b) :
    ∃ x x', m.segmentWaypoints direction y (a, b) =
        [{ x := m.centreX x, y := m.centreY y, yaw := (headingOf direction).yaw },
         { x := m.centreX x', y := m.centreY y, yaw := (headingOf direction).yaw }] ∧
      (headingOf direction).Along (m.centreX x) (m.centreX x') ∧
      (a ≤ x ∧ x < b) ∧ a ≤ x' ∧ x' < b := by
  rcases m.segmentWaypoints_cases direction y (a := a) (show 0 < b by omega) with
    ⟨hdir, heq⟩ | ⟨hdir, heq⟩
  · refine ⟨a, b - 1, ?_, ?_, ?_⟩
    · rw [heq, headingOf, if_pos hdir]
      rfl
    · rw [headingOf, if_pos hdir]
      exact centreX_le_iff.mpr (by omega)
    · omega
  · refine ⟨b - 1, a, ?_, ?_, ?_⟩
    · rw [heq, headingOf, if_neg hdir]
      rfl
    · rw [headingOf, if_neg hdir]
      exact centreX_le_iff.mpr (by omega)
    · omega

theorem exists_mem_segmentWaypoints {d : ℤ} {segment : ℕ × ℕ} (hrow : row.Proper)
    (h : segment ∈ row.segments) : ∃ wp, wp ∈ m.segmentWaypoints d row.y segment := by
  obtain ⟨x, x', heq, -⟩ := segmentWaypoints_heading (m := m) d row.y (hrow.length segment h)
  rw [heq]
  exact ⟨_, List.mem_cons_self⟩

theorem yaw_of_mem_pass (hrow : row.Proper) {wp : Waypoint} (h : wp ∈ m.pass direction row) :
    wp.yaw = (headingOf direction).yaw := by
  obtain ⟨⟨a, b⟩, hab, hwp⟩ := List.mem_flatMap.mp h
  obtain ⟨x, x', heq, -⟩ :=
    segmentWaypoints_heading (m := m) direction row.y (hrow.length (a, b) hab)
  rw [heq, List.mem_pair] at hwp
  rcases hwp with rfl | rfl <;> rfl

/-- From a segment to one on its right the robot goes to the right. -/
theorem lt_of_mem_segments {left right : ℕ × ℕ} (hrow : row.Proper) (hleft : left ∈ row.segments)
    (hright : right ∈ row.segments) (hlt : left.2 < right.1) {wp wp' : Waypoint}
    (hwp : wp ∈ m.segmentWaypoints direction row.y left)
    (hwp' : wp' ∈ m.segmentWaypoints direction row.y right) : wp.x < wp'.x := by
  have hlength := hrow.length left hleft
  have hlength' := hrow.length right hright
  obtain ⟨x, -, hx, hcentre, -⟩ :=
    m.mem_segmentWaypoints (a := left.1) (b := left.2) (by omega) hwp
  obtain ⟨x', hx', -, hcentre', -⟩ :=
    m.mem_segmentWaypoints (a := right.1) (b := right.2) (by omega) hwp'
  rw [hcentre, hcentre', centreX_lt_iff]
  omega

/-- **A pass to the right is in order, a pass to the left if it has one segment.** -/
theorem Heading.drives_pass_iff (hrow : row.Proper) :
    (headingOf direction).Drives (m.pass direction row) ↔
      (direction ≠ 1 → row.segments.length = 1) := by
  have hyaw : ∀ wp ∈ m.pass direction row, wp.yaw = (headingOf direction).yaw :=
    fun wp => yaw_of_mem_pass hrow
  have hsegment : ∀ segment ∈ row.segments, (m.segmentWaypoints direction row.y segment).Pairwise
      fun wp wp' => (headingOf direction).Along wp.x wp'.x := by
    rintro ⟨a, b⟩ hab
    obtain ⟨x, x', heq, halong, -⟩ :=
      segmentWaypoints_heading (m := m) direction row.y (hrow.length (a, b) hab)
    rw [heq]
    simpa using halong
  constructor
  · rintro ⟨-, halong⟩ hdir
    rw [OccupancyGrid.pass, List.pairwise_flatMap] at halong
    obtain ⟨first, rest, hsegments⟩ := List.exists_cons_of_ne_nil hrow.ne_nil
    cases rest with
    | nil => rw [hsegments, List.length_singleton]
    | cons second rest =>
      exfalso
      have hgap := hrow.pairwise
      have hback := halong.2
      rw [hsegments, List.pairwise_cons] at hgap hback
      have hfirst : first ∈ row.segments := by simp [hsegments]
      have hsecond : second ∈ row.segments := by simp [hsegments]
      obtain ⟨wp, hwp⟩ := exists_mem_segmentWaypoints (m := m) (d := direction) hrow hfirst
      obtain ⟨wp', hwp'⟩ := exists_mem_segmentWaypoints (m := m) (d := direction) hrow hsecond
      -- the second segment lies to the right of the first
      have hlt := lt_of_mem_segments hrow hfirst hsecond (hgap.1 second (by simp)) hwp hwp'
      have hle := hback.1 second (by simp) wp hwp wp' hwp'
      rw [headingOf, if_neg hdir] at hle
      exact absurd hlt (not_lt.mpr hle)
  · intro hsingle
    refine ⟨hyaw, ?_⟩
    rw [OccupancyGrid.pass, List.pairwise_flatMap]
    refine ⟨hsegment, ?_⟩
    by_cases hdir : direction = 1
    · refine hrow.pairwise.imp_of_mem fun hleft hright hlt wp hwp wp' hwp' => ?_
      rw [headingOf, if_pos hdir]
      exact (lt_of_mem_segments hrow hleft hright hlt hwp hwp').le
    · obtain ⟨segment, hone⟩ := List.length_eq_one_iff.mp (hsingle hdir)
      rw [hone]
      exact List.pairwise_singleton _ _

/-- The stripe of a row is its pass. -/
theorem stripe_sweep {pre post : List SweptRow} (hswept : p.swept m = pre ++ row :: post) :
    stripe (p.sweep m.toOccupancyGrid (p.inflatedGrid m)) (m.centreY row.y) =
      m.pass (1 * (-1) ^ pre.length) row := by
  have hpair := p.swept_pairwise m
  rw [hswept, List.pairwise_append, List.pairwise_cons] at hpair
  obtain ⟨-, ⟨hbelow, -⟩, habove⟩ := hpair
  have hother : ∀ (d : ℤ) (rows : List SweptRow), (∀ r ∈ rows, r.y ≠ row.y) →
      stripe (m.passes d rows).flatten (m.centreY row.y) = [] := by
    intro d rows hne
    refine List.filter_eq_nil_iff.mpr ?_
    intro wp hwp
    obtain ⟨r, hr, hy⟩ := m.passes_y hwp
    rw [decide_eq_true_eq, hy]
    intro heq
    have hle : ¬ r.y < row.y := fun hlt => (centreY_lt_iff.mpr hlt).ne heq
    have hge : ¬ row.y < r.y := fun hlt => (centreY_lt_iff.mpr hlt).ne heq.symm
    exact hne r hr (by omega)
  have hpass : stripe (m.pass (1 * (-1) ^ pre.length) row) (m.centreY row.y) =
      m.pass (1 * (-1) ^ pre.length) row :=
    List.filter_eq_self.mpr fun wp hwp => decide_eq_true (m.pass_y _ hwp)
  have hpre := hother 1 pre fun r hr => (habove r hr row (by simp)).ne
  have hpost := hother (1 * (-1) ^ pre.length * -1) post fun r hr => (hbelow r hr).ne'
  rw [p.sweep_eq m, hswept, m.passes_append, OccupancyGrid.passes, List.flatten_append,
    List.flatten_cons]
  rw [stripe] at hpass hpre hpost ⊢
  rw [List.filter_append, List.filter_append, hpre, hpass, hpost, List.nil_append,
    List.append_nil]

end Stripe

/-! ### The exact condition -/

theorem headingOf_pow (n : ℕ) : headingOf (1 * (-1) ^ n) = Heading.after .rightward n := by
  rw [headingOf, Heading.after]
  by_cases hodd : n % 2 = 1
  · rw [if_neg ((direction_eq_one_iff n).not.mpr (not_not.mpr hodd)), if_neg (by omega)]
    rfl
  · rw [if_pos ((direction_eq_one_iff n).mpr hodd), if_pos (by omega)]

theorem Heading.after_injective (n : ℕ) : Function.Injective fun h : Heading => h.after n := by
  intro h h' heq
  simp only [Heading.after] at heq
  split_ifs at heq
  · exact heq
  · cases h <;> cases h' <;> first | rfl | cases heq

/-- One stripe. -/
theorem drives_stripe_iff {p : CoveragePlanner} {m : GridMap} {row : SweptRow}
    {pre post : List SweptRow} (hswept : p.swept m = pre ++ row :: post) (heading : Heading) :
    (heading.after pre.length).Drives
        (stripe (p.sweep m.toOccupancyGrid (p.inflatedGrid m)) (m.centreY row.y)) ↔
      heading = .rightward ∧ (pre.length % 2 = 1 → row.segments.length = 1) := by
  have hrow : row.Proper := p.swept_proper m (by rw [hswept]; simp)
  rw [stripe_sweep hswept]
  have hdrives : (headingOf (1 * (-1) ^ pre.length)).Drives
      (m.pass (1 * (-1) ^ pre.length) row) ↔
        (1 * (-1) ^ pre.length ≠ 1 → row.segments.length = 1) := Heading.drives_pass_iff hrow
  rw [headingOf_pow, Ne, direction_eq_one_iff, not_not] at hdrives
  constructor
  · intro h
    -- the first waypoint shows the heading
    obtain ⟨wp, wps, hpass⟩ :=
      List.exists_cons_of_ne_nil (m.pass_ne_nil hrow (1 * (-1) ^ pre.length))
    have hmem : wp ∈ m.pass (1 * (-1) ^ pre.length) row := by
      rw [hpass]
      exact List.mem_cons_self
    have hyaw := (h.yaw wp hmem).symm.trans (yaw_of_mem_pass hrow hmem)
    rw [headingOf_pow] at hyaw
    obtain rfl : heading = .rightward :=
      Heading.after_injective pre.length (Heading.yaw_injective hyaw)
    exact ⟨rfl, hdrives.mp h⟩
  · rintro ⟨rfl, hsingle⟩
    exact hdrives.mpr hsingle

/-- **When the stripes are driven back and forth.** -/
theorem boustrophedonOrder_iff (p : CoveragePlanner) (m : GridMap) :
    BoustrophedonOrder p m ↔ SingleLeftward p m := by
  constructor
  · rintro ⟨heading, hall⟩ pre row post hswept
    exact ((drives_stripe_iff hswept heading).mp (hall pre row post hswept)).2
  · intro hsingle
    refine ⟨.rightward, fun pre row post hswept => ?_⟩
    exact (drives_stripe_iff hswept .rightward).mpr ⟨rfl, hsingle pre row post hswept⟩

/-- On the second of two rows the left segment is driven first, to the left, and then the
right one. -/
theorem splitRow_comesBack :
    ¬ BoustrophedonOrder (CoveragePlanner.init (1 / 2) (1 / 10)) splitRow := by
  rintro ⟨heading, hall⟩
  have hswept : (CoveragePlanner.init (1 / 2) (1 / 10)).swept splitRow =
      [⟨0, [(0, 7)]⟩] ++ ⟨1, [(0, 3), (4, 7)]⟩ :: [] := by decide +kernel
  have hsingle := ((drives_stripe_iff hswept heading).mp (hall _ _ _ hswept)).2 rfl
  cases hsingle

end Coverage
