/-
The scan of 360 bins that `pubScanThread` builds for a lidar with two channels.

Every sample below `count_num` is rounded to a bin of one degree.  All bins are +infinity at first,
and a sample of range 0, which is invalid, sets its bin back to that: it erases what an
earlier sample left there (`invalidAfterValid`).  A bin shows its last sample, so no obstacle is
lost exactly if in every bin with a valid sample the last one is valid
(`losesNoObstacle_iff`).

`none` is +infinity; ranges and angles are exact.
-/
import WheeltecRos2.Lidar.Accumulator
import Mathlib.Data.List.Induction
import Mathlib.Tactic.Linarith

namespace Lidar

/-- `round`: to the nearest integer, away from 0 at a half. -/
def roundAway (q : ℚ) : ℤ := if 0 ≤ q then ⌊q + 1 / 2⌋ else -⌊1 / 2 - q⌋

/-- `FIXED_SCAN_NUM`. -/
def fixedScanNum : ℕ := 360

structure LaserScan where
  ranges : List (Option ℚ)
  intensities : List ℚ

/-- The bin of an angle. -/
def pointIdx (degree : ℚ) : ℤ :=
  let pointIdx := roundAway ((360 - degree) * fixedScanNum / 360)
  let pointIdx := if pointIdx < 0 then pointIdx + fixedScanNum else pointIdx
  if fixedScanNum ≤ pointIdx then pointIdx - fixedScanNum else pointIdx

namespace LaserScan

/-- What `assign` fills in. -/
def empty : LaserScan :=
  { ranges := List.replicate fixedScanNum none, intensities := List.replicate fixedScanNum 0 }

/-- One sample. -/
def store (scan : LaserScan) (point : ScanPoint) : LaserScan :=
  let pointIdx := (pointIdx point.degree).toNat
  if point.range = 0 then
    { ranges := scan.ranges.set pointIdx none, intensities := scan.intensities.set pointIdx 0 }
  else
    { ranges := scan.ranges.set pointIdx (some point.range)
      intensities := scan.intensities.set pointIdx point.intensity }

end LaserScan

/-- The loop over the samples of a rotation. -/
def fixedScan (points : List ScanPoint) (countNum : ℕ) : LaserScan :=
  (points.take countNum).foldl LaserScan.store .empty

/-- The samples of a bin, in their order. -/
def samplesOf (points : List ScanPoint) (bin : ℕ) : List ScanPoint :=
  points.filter fun point => pointIdx point.degree = bin

/-- The bins of the samples are there, and a bin is +infinity exactly if no sample of it is
valid. -/
structure LosesNoObstacle (points : List ScanPoint) (countNum : ℕ) : Prop where
  inRange : ∀ point ∈ points.take countNum,
    0 ≤ pointIdx point.degree ∧ pointIdx point.degree ≤ 359
  exact : ∀ bin < fixedScanNum, (fixedScan points countNum).ranges[bin]? = some none ↔
    ∀ point ∈ samplesOf (points.take countNum) bin, point.range = 0

/-- In every bin with a valid sample the last one is valid. -/
def ValidLast (points : List ScanPoint) : Prop :=
  ∀ bin < fixedScanNum, (∃ point ∈ samplesOf points bin, point.range ≠ 0) →
    ∀ point ∈ (samplesOf points bin).getLast?, point.range ≠ 0

/-! ### The bins -/

theorem pointIdx_mem {degree : ℚ} (hdegree : 0 ≤ degree ∧ degree < 360) :
    0 ≤ pointIdx degree ∧ pointIdx degree ≤ 359 := by
  obtain ⟨hnonneg, hlt⟩ := hdegree
  have hmirrored : (360 - degree) * (fixedScanNum : ℕ) / 360 = 360 - degree := by
    rw [fixedScanNum]
    push_cast
    ring
  have hlower : 0 ≤ ⌊360 - degree + 1 / 2⌋ := Int.floor_nonneg.mpr (by linarith)
  have hupper : ⌊360 - degree + 1 / 2⌋ < 361 := Int.floor_lt.mpr (by push_cast; linarith)
  have hround : roundAway (360 - degree) = ⌊360 - degree + 1 / 2⌋ := if_pos (by linarith)
  rw [pointIdx, hmirrored, hround]
  dsimp only [fixedScanNum]
  split_ifs <;> omega

/-- The range a sample leaves in its bin. -/
def ScanPoint.shown (point : ScanPoint) : Option ℚ :=
  if point.range = 0 then none else some point.range

theorem ScanPoint.shown_eq_none {point : ScanPoint} : point.shown = none ↔ point.range = 0 := by
  rw [shown]
  split_ifs with hrange <;> simp [hrange]

theorem LaserScan.ranges_store (scan : LaserScan) (point : ScanPoint) :
    (scan.store point).ranges = scan.ranges.set (pointIdx point.degree).toNat point.shown := by
  rw [store, ScanPoint.shown]
  split_ifs <;> rfl

theorem length_ranges (points : List ScanPoint) :
    (points.foldl LaserScan.store .empty).ranges.length = fixedScanNum := by
  induction points using List.reverseRecOn with
  | nil => exact List.length_replicate
  | append_singleton points point ih =>
    rw [List.foldl_append, List.foldl_cons, List.foldl_nil, LaserScan.ranges_store,
      List.length_set, ih]

theorem samplesOf_append (points : List ScanPoint) (point : ScanPoint) (bin : ℕ) :
    samplesOf (points ++ [point]) bin =
      if pointIdx point.degree = bin then samplesOf points bin ++ [point]
      else samplesOf points bin := by
  rw [samplesOf, List.filter_append]
  split_ifs with hbin
  · simp [samplesOf, hbin]
  · simp [samplesOf, hbin]

/-- **A bin shows its last sample.** -/
theorem ranges_foldl_store {points : List ScanPoint} {bin : ℕ} (hbin : bin < fixedScanNum)
    (hrange : ∀ point ∈ points, 0 ≤ pointIdx point.degree) :
    (points.foldl LaserScan.store .empty).ranges[bin]? =
      some ((samplesOf points bin).getLast?.bind ScanPoint.shown) := by
  induction points using List.reverseRecOn with
  | nil => exact List.getElem?_replicate_of_lt hbin
  | append_singleton points point ih =>
    obtain ⟨hpoints, hpoint⟩ := List.forall_mem_append.mp hrange
    have hlast := List.forall_mem_singleton.mp hpoint
    rw [List.foldl_append, List.foldl_cons, List.foldl_nil, LaserScan.ranges_store,
      List.getElem?_set, length_ranges, samplesOf_append]
    by_cases heq : pointIdx point.degree = bin
    · rw [if_pos (by omega), if_pos (by omega), if_pos heq, List.getLast?_concat]
      rfl
    · rw [if_neg (by omega), if_neg heq]
      exact ih hpoints

theorem ranges_eq_none_iff {points : List ScanPoint} {bin : ℕ} (hbin : bin < fixedScanNum)
    (hrange : ∀ point ∈ points, 0 ≤ pointIdx point.degree) :
    (points.foldl LaserScan.store .empty).ranges[bin]? = some none ↔
      ∀ point ∈ (samplesOf points bin).getLast?, point.range = 0 := by
  rw [ranges_foldl_store hbin hrange, Option.some_inj, Option.bind_eq_none_iff]
  exact forall₂_congr fun point _ => ScanPoint.shown_eq_none

/-- **When the scan loses no obstacle.** -/
theorem losesNoObstacle_iff (points : List ScanPoint) (countNum : ℕ)
    (hdegree : ∀ point ∈ points, 0 ≤ point.degree ∧ point.degree < 360) :
    LosesNoObstacle points countNum ↔ ValidLast (points.take countNum) := by
  have hmem : ∀ point ∈ points.take countNum,
      0 ≤ pointIdx point.degree ∧ pointIdx point.degree ≤ 359 := fun point hpoint =>
    pointIdx_mem (hdegree point (List.mem_of_mem_take hpoint))
  have hrange : ∀ point ∈ points.take countNum, 0 ≤ pointIdx point.degree := fun point hpoint =>
    (hmem point hpoint).1
  constructor
  · rintro ⟨-, hexact⟩ bin hbin ⟨valid, hvalid, hne⟩ last hlast hzero
    have hinfinite := (ranges_eq_none_iff hbin hrange).mpr fun point hpoint => by
      rwa [Option.mem_unique hpoint hlast]
    exact hne ((hexact bin hbin).mp hinfinite valid hvalid)
  · intro hlast
    refine ⟨hmem, ?_⟩
    intro bin hbin
    rw [fixedScan, ranges_eq_none_iff hbin hrange]
    constructor
    · intro hzero point hpoint
      by_contra hne
      have hnonempty : samplesOf (points.take countNum) bin ≠ [] := List.ne_nil_of_mem hpoint
      have hgetLast := List.getLast?_eq_some_getLast hnonempty
      exact hlast bin hbin ⟨point, hpoint, hne⟩ _ hgetLast (hzero _ hgetLast)
    · intro hall point hpoint
      exact hall point (List.mem_of_getLast? hpoint)

/-- For a scan with a valid sample in each of two bins. -/
theorem losesNoObstacle_iff_two :
    LosesNoObstacle [⟨10, 1, 7⟩, ⟨20, 2, 7⟩] 2 ↔ ValidLast [⟨10, 1, 7⟩, ⟨20, 2, 7⟩] :=
  losesNoObstacle_iff [⟨10, 1, 7⟩, ⟨20, 2, 7⟩] 2 (by decide +kernel)

/-- An invalid sample after a valid one of the same bin. -/
theorem invalidAfterValid :
    ¬∀ points countNum, (∀ point ∈ points, 0 ≤ point.degree ∧ point.degree < 360) →
      LosesNoObstacle points countNum := by
  intro hall
  have hloses := hall [⟨10, 1, 7⟩, ⟨10, 0, 0⟩] 2 (by decide +kernel)
  have hinfinite : (fixedScan [⟨10, 1, 7⟩, ⟨10, 0, 0⟩] 2).ranges[350]? = some none := by
    decide +kernel
  have hvalid : ⟨10, 1, 7⟩ ∈ samplesOf [⟨10, 1, 7⟩, ⟨10, 0, 0⟩] 350 :=
    List.mem_filter.mpr ⟨List.mem_cons_self, by decide +kernel⟩
  exact absurd ((hloses.exact 350 (by decide)).mp hinfinite ⟨10, 1, 7⟩ hvalid) (by norm_num)

end Lidar
