/-
How `data_processing` collects a rotation of a lidar with one channel.

Invalid points are skipped, and the angle step of a packet is its sector divided by the number of
valid points (one less for N10 and L10), while the points are still counted with the invalid ones.
So the points behind an invalid one are turned too far, and leave the sector (`inSector_iff`).  A
point is written at `idx` before `idx` is compared with its limit; the array has room for that.

* `rotations`: the scans handed over are the points cut into turns, each without the point that
  completed it, and no write is out of bounds.

The time stamps are left out, and angles are exact: of the rounding of the code, which can put the
last point of a full packet just past its sector, nothing is said.
-/
import WheeltecRos2.Lidar.Accumulator
import Mathlib.Tactic.FieldSimp
import Mathlib.Tactic.Positivity

namespace Lidar

open Runs

/-- The lidars with one channel. -/
inductive OneChannel
  | m10
  | m10P
  | m10Plus
  | m10Gps
  | n10
  | l10
  deriving DecidableEq

namespace OneChannel

/-- What `loadParameters` sets: `points_size_`, `data_bits_start` and `degree_bits_start`. -/
def pointsSize : OneChannel → ℕ
  | m10 | m10Gps => 1008
  | m10Plus => 5000
  | m10P | n10 | l10 => 2000

@[inherit_doc pointsSize] def dataBitsStart : OneChannel → ℕ
  | m10 | m10Gps => 6
  | m10P | m10Plus => 8
  | n10 | l10 => 7

@[inherit_doc pointsSize] def degreeBitsStart : OneChannel → ℕ
  | m10 | m10Gps => 2
  | m10P | m10Plus => 4
  | n10 | l10 => 5

/-- `end_degree_bits_start` of the N10 and the L10. -/
def endDegreeBitsStart : ℕ := 55

/-- `lidar_name == "N10" || lidar_name == "L10"` -/
def isN10 : OneChannel → Bool
  | n10 | l10 => true
  | _ => false

def pointLen (lidar : OneChannel) : ℕ := if lidar.isN10 then 3 else 2

variable (lidar : OneChannel) (highReflection : Bool) (packet : Packet)

/-- `package_points`; `PACKET_SIZE` has 16 bits. -/
def packagePoints : ℤ :=
  match lidar with
  | m10 | m10Gps => 42
  | n10 | l10 => 16
  | m10P | m10Plus => (((packet.len % 65536 : ℕ) : ℤ) - 20).tdiv 2

/-- The angle of the first point. -/
def degree : ℚ :=
  let degree := (packet.word lidar.degreeBitsStart : ℚ) / 100 + packet.degreeCompensation
  let degree := if degree < 0 then degree + 360 else degree
  if 360 < degree then degree - 360 else degree

def degreeInterval : ℚ :=
  if lidar.isN10 then
    let endDegree := (packet.word endDegreeBitsStart : ℚ) / 100
    let endDegree := if 360 < endDegree then endDegree - 360 else endDegree
    if endDegree < lidar.degree packet then endDegree + 360 - lidar.degree packet
    else endDegree - lidar.degree packet
  else 15

/-- The point at byte 86 of an M10 is made invalid if the one before it is, or if it is far. -/
def amended : Packet :=
  if (lidar = .m10 ∨ lidar = .m10Gps) ∧
      (packet.word 84 = 0xFFFF ∨ 0xF5 ≤ (packet.bytes 86).toNat) then
    { packet with bytes := fun i => if i = 86 ∨ i = 87 then 0xFF else packet.bytes i }
  else packet

/-- `s * 256 + z` of the point. -/
def reading (num : ℕ) : ℕ :=
  (lidar.amended packet).word (num * lidar.pointLen + lidar.dataBitsStart)

def valid (num : ℕ) : Bool := lidar.reading packet num != 0xFFFF

/-- `invalidValue`, in the end: the number of valid points, less one for N10 and L10. -/
def invalidValue : ℤ :=
  let invalidValue := (List.range (lidar.packagePoints packet).toNat).countP
    fun num => !lidar.valid packet num
  let invalidValue := lidar.packagePoints packet - invalidValue
  if lidar.isN10 then invalidValue - 1 else invalidValue

/-- How far a point is turned from the first one. -/
def turned (num : ℕ) : ℚ := lidar.degreeInterval packet / lidar.invalidValue packet * num

def scanPoint (num : ℕ) : ScanPoint :=
  let word := lidar.reading packet num
  let degree := lidar.degree packet + lidar.turned packet num
  let degree := if 360 < degree then degree - 360 else degree
  if lidar.isN10 then
    { degree
      range := word / 1000
      intensity := ((lidar.amended packet).bytes
        (num * lidar.pointLen + lidar.dataBitsStart + 2)).toNat }
  else if (lidar = .m10P ∨ lidar = .m10Plus) ∧ ¬ highReflection then
    { degree, range := word / 1000, intensity := 0 }
  else
    -- the high bit is the intensity
    { degree
      range := (word % 0x8000 : ℕ) / 1000
      intensity := if 0x8000 ≤ word then 255 else 0 }

/-- The points of a packet, none if too few are valid. -/
def points : List ScanPoint :=
  if lidar.invalidValue packet ≤ 1 then []
  else ((List.range (lidar.packagePoints packet).toNat).filter (lidar.valid packet)).map
    (lidar.scanPoint highReflection packet)

/-- The angle after one test for a full circle. -/
def wrapped (degree : ℚ) : ℚ := if 360 < degree then degree - 360 else degree

/-- The sector of a packet: the angles on the way from its first one. -/
def InSector (angle : ℚ) : Prop :=
  ∃ turn, 0 ≤ turn ∧ turn ≤ lidar.degreeInterval packet ∧
    angle = wrapped (lidar.degree packet + turn)

/-- The last valid point. -/
def lastValid : ℕ :=
  ((List.range (lidar.packagePoints packet).toNat).filter (lidar.valid packet)).getLastD 0

/-- The invalid points in front of it. -/
def invalidBefore : ℕ := (List.range (lidar.lastValid packet)).countP fun num =>
  !lidar.valid packet num

/-! ### The sector of a packet -/

variable {lidar packet} {num : ℕ}

theorem countP_range_add (p : ℕ → Bool) (n : ℕ) :
    (List.range n).countP p + (List.range n).countP (fun num => !p num) = n := by
  have h := List.length_eq_countP_add_countP p (l := List.range n)
  rw [List.length_range] at h
  simpa using h.symm

/-- Behind the last point with `p` there is none. -/
theorem countP_range_last {p : ℕ → Bool} {n m : ℕ} (hm : m < n)
    (hlast : ∀ num < n, p num → num ≤ m) :
    (List.range n).countP p = (List.range (m + 1)).countP p := by
  obtain ⟨k, rfl⟩ : ∃ k, n = m + 1 + k := ⟨n - (m + 1), by omega⟩
  rw [List.range_add, List.countP_append]
  have hnone : ((List.range k).map (m + 1 + ·)).countP p = 0 := by
    rw [List.countP_eq_zero]
    intro num hnum hp
    obtain ⟨i, hi, rfl⟩ := List.mem_map.mp hnum
    have := hlast _ (by have := List.mem_range.mp hi; omega) hp
    omega
  rw [hnone, Nat.add_zero]

theorem lastValid_spec (h : 1 < lidar.invalidValue packet) :
    lidar.lastValid packet < (lidar.packagePoints packet).toNat ∧
      lidar.valid packet (lidar.lastValid packet) ∧
      ∀ num < (lidar.packagePoints packet).toNat, lidar.valid packet num →
        num ≤ lidar.lastValid packet := by
  have hne : (List.range (lidar.packagePoints packet).toNat).filter (lidar.valid packet) ≠ [] := by
    intro hnil
    have hcount := countP_range_add (lidar.valid packet) (lidar.packagePoints packet).toNat
    rw [List.countP_eq_length_filter, hnil] at hcount
    simp only [invalidValue] at h
    simp only [List.length_nil] at hcount
    split at h <;> omega
  have hlast : lidar.lastValid packet ∈
      (List.range (lidar.packagePoints packet).toNat).filter (lidar.valid packet) := by
    rw [lastValid, List.getLastD_eq_getLast?, List.getLast?_eq_some_getLast hne]
    exact List.getLast_mem hne
  have hmem := List.mem_filter.mp hlast
  refine ⟨List.mem_range.mp hmem.1, hmem.2, fun num hnum hvalid => ?_⟩
  have hin : num ∈ (List.range (lidar.packagePoints packet).toNat).filter (lidar.valid packet) :=
    List.mem_filter.mpr ⟨List.mem_range.mpr hnum, hvalid⟩
  have hsorted : ((List.range (lidar.packagePoints packet).toNat).filter
      (lidar.valid packet)).Pairwise (· ≤ ·) := List.pairwise_le_range.filter _
  have hend : lidar.lastValid packet = ((List.range (lidar.packagePoints packet).toNat).filter
      (lidar.valid packet)).getLast hne := by
    rw [lastValid, List.getLastD_eq_getLast?, List.getLast?_eq_some_getLast hne]
    rfl
  rw [hend]
  exact hsorted.rel_getLast hin

theorem invalidValue_eq_sub : lidar.invalidValue packet = lidar.packagePoints packet -
    (List.range (lidar.packagePoints packet).toNat).countP (fun num => !lidar.valid packet num) -
      lidar.isN10.toNat := by
  rw [invalidValue]
  cases lidar.isN10 <;> simp

/-- The divisor of the angle step, from the last valid point. -/
theorem invalidValue_eq (h : 1 < lidar.invalidValue packet) :
    lidar.invalidValue packet =
      lidar.lastValid packet + 1 - lidar.invalidBefore packet - lidar.isN10.toNat := by
  obtain ⟨hlt, hvalid, hlast⟩ := lastValid_spec h
  have hcount := countP_range_add (lidar.valid packet) (lidar.packagePoints packet).toNat
  have hcount' := countP_range_add (lidar.valid packet) (lidar.lastValid packet + 1)
  rw [countP_range_last hlt hlast, List.range_succ, List.countP_append] at hcount
  rw [List.range_succ, List.countP_append, List.countP_append] at hcount'
  simp only [List.countP_singleton, hvalid, Bool.not_true, if_true] at hcount hcount'
  have hbefore : lidar.invalidBefore packet =
      (List.range (lidar.lastValid packet)).countP fun num => !lidar.valid packet num := rfl
  rw [invalidValue_eq_sub] at h ⊢
  simp only [Bool.false_eq_true, if_false] at hcount'
  omega

theorem scanPoint_degree (highReflection : Bool) :
    (lidar.scanPoint highReflection packet num).degree =
      wrapped (lidar.degree packet + lidar.turned packet num) := by
  rw [scanPoint, wrapped]
  split_ifs <;> rfl

/-- Angles that are stored as one are apart by full circles. -/
theorem sub_of_wrapped_eq {degree degree' : ℚ} (h : wrapped degree = wrapped degree') :
    degree - degree' = 0 ∨ degree - degree' = 360 ∨ degree - degree' = -360 := by
  rw [wrapped, wrapped] at h
  split_ifs at h
  · exact .inl (by linarith)
  · exact .inr (.inl (by linarith))
  · exact .inr (.inr (by linarith))
  · exact .inl (by linarith)

/-- Below a full circle the stored angle tells how far a point was turned. -/
theorem inSector_wrapped_iff {turned : ℚ} (hnonneg : 0 ≤ turned) (hcircle : turned < 360) :
    lidar.InSector packet (wrapped (lidar.degree packet + turned)) ↔
      turned ≤ lidar.degreeInterval packet := by
  constructor
  · rintro ⟨turn, hturn, hle, hsame⟩
    rcases sub_of_wrapped_eq hsame with h | h | h
    · linarith
    · linarith
    · linarith
  · intro hle
    exact ⟨turned, hnonneg, hle, rfl⟩

/-- Without an angle of the end, the packets of up to 48 points turn none by a full circle. -/
theorem turned_lt_circle (hpoints : 1 < lidar.invalidValue packet) (hlidar : lidar.isN10 = false)
    (hshort : lidar.packagePoints packet ≤ 48) :
    lidar.turned packet (lidar.lastValid packet) < 360 := by
  obtain ⟨hlt, -⟩ := lastValid_spec hpoints
  have hdivisor : (2 : ℚ) ≤ lidar.invalidValue packet := by exact_mod_cast hpoints
  have hlast : (lidar.lastValid packet : ℚ) ≤ 47 := by
    have : lidar.lastValid packet ≤ 47 := by omega
    exact_mod_cast this
  have hstep : lidar.degreeInterval packet / lidar.invalidValue packet ≤ 15 / 2 := by
    rw [degreeInterval, hlidar, if_neg (by decide)]
    exact div_le_div_of_nonneg_left (by norm_num) (by norm_num) hdivisor
  calc lidar.turned packet (lidar.lastValid packet)
      ≤ 15 / 2 * 47 := mul_le_mul hstep hlast (Nat.cast_nonneg _) (by norm_num)
    _ < 360 := by norm_num

/-- The stored angles of a packet are in its sector exactly if, in front of the last valid point,
at most one point is invalid, and for N10 and L10 none; as long as no valid point is turned by a
full circle, which takes an N10, an L10 or more than 48 points. -/
theorem inSector_iff (highReflection : Bool) (hpoints : 1 < lidar.invalidValue packet)
    (hinterval : 0 < lidar.degreeInterval packet)
    (hcircle : lidar.isN10 ∨ 48 < lidar.packagePoints packet →
      lidar.turned packet (lidar.lastValid packet) < 360) :
    (∀ num < (lidar.packagePoints packet).toNat, lidar.valid packet num →
        lidar.InSector packet (lidar.scanPoint highReflection packet num).degree) ↔
      lidar.invalidBefore packet + lidar.isN10.toNat ≤ 1 := by
  obtain ⟨hlt, hvalid, hlast⟩ := lastValid_spec hpoints
  have hbelow : lidar.turned packet (lidar.lastValid packet) < 360 := by
    by_cases hfew : lidar.isN10 = false ∧ lidar.packagePoints packet ≤ 48
    · exact turned_lt_circle hpoints hfew.1 hfew.2
    · rw [not_and_or, Bool.not_eq_false, not_le] at hfew
      exact hcircle hfew
  have hdivisor := invalidValue_eq hpoints
  have hdivisor_pos : 0 < lidar.invalidValue packet := by omega
  have hpos : (0 : ℚ) < lidar.invalidValue packet := by exact_mod_cast hdivisor_pos
  have hturned (num : ℕ) : lidar.turned packet num ≤ lidar.degreeInterval packet ↔
      (num : ℤ) ≤ lidar.invalidValue packet := by
    rw [turned, div_mul_eq_mul_div, div_le_iff₀ hpos, mul_le_mul_iff_right₀ hinterval]
    exact_mod_cast Iff.rfl
  have hsector {num : ℕ} (hnum : num ≤ lidar.lastValid packet) :
      lidar.InSector packet (lidar.scanPoint highReflection packet num).degree ↔
        (num : ℤ) ≤ lidar.invalidValue packet := by
    have hstep : 0 ≤ lidar.degreeInterval packet / lidar.invalidValue packet := by positivity
    have hmono : lidar.turned packet num ≤ lidar.turned packet (lidar.lastValid packet) :=
      mul_le_mul_of_nonneg_left (by exact_mod_cast hnum) hstep
    have hnonneg : 0 ≤ lidar.turned packet num := mul_nonneg hstep (Nat.cast_nonneg num)
    rw [scanPoint_degree, inSector_wrapped_iff hnonneg (hmono.trans_lt hbelow), hturned]
  constructor
  · intro h
    have := (hsector (Nat.le_refl _)).mp (h _ hlt hvalid)
    omega
  · intro h num hnum hnumvalid
    have hle := hlast num hnum hnumvalid
    rw [hsector hle]
    omega

/-- An N10 packet from 0 to 15 degrees whose first point is invalid. -/
def gap : Packet where
  bytes i :=
    if i = 7 ∨ i = 8 then 0xFF else if i = 55 then 0x05 else if i = 56 then 0xDC else 0x01
  len := 58
  degreeCompensation := 0

/-- The last point is turned too far. -/
theorem inSector_iff_gap : ¬ ∀ num < (OneChannel.n10.packagePoints gap).toNat,
    OneChannel.n10.valid gap num →
      OneChannel.n10.InSector gap (OneChannel.n10.scanPoint false gap num).degree := by
  rw [inSector_iff false (by decide) (by decide +kernel) fun _ => by decide +kernel]
  decide

end OneChannel

/-! ### The collection -/

/-- `scan_points_bak_` with `count_num`. -/
structure Scan where
  scanPoints : List ScanPoint
  countNum : ℕ

structure SingleChannel where
  scanPoints : List ScanPoint
  idx : ℕ
  lastDegree : ℚ
  countNum : ℕ
  /-- What was handed over. -/
  published : List Scan

namespace SingleChannel

variable (lidar : OneChannel) (limits : Limits) (highReflection : Bool)

def zero : ScanPoint := { degree := 0, range := 0, intensity := 0 }

def init : SingleChannel :=
  { scanPoints := List.replicate scanPointsSize zero, idx := 0, lastDegree := 0, countNum := 0
    published := [] }

/-- The rotation is complete with a point at this index. -/
def Wraps (idx : ℕ) (lastDegree degree : ℚ) : Prop :=
  (degree < lastDegree ∧ degree < 5 ∧ 355 < lastDegree) ∨ lidar.pointsSize ≤ idx

instance (idx : ℕ) (lastDegree degree : ℚ) : Decidable (Wraps lidar idx lastDegree degree) :=
  inferInstanceAs (Decidable (_ ∨ _))

def inRange (point : ScanPoint) : ScanPoint :=
  if limits.OutOfRange point.range then { point with range := 0 } else point

/-- The loop for one valid point. -/
def accumulate (s : SingleChannel) (point : ScanPoint) : SingleChannel :=
  let scanPoints := s.scanPoints.set s.idx point
  if Wraps lidar s.idx s.lastDegree point.degree then
    let scanPoints := scanPoints.map (inRange limits)
    { scanPoints := scanPoints.map fun _ => zero
      idx := 0
      lastDegree := point.degree
      countNum := s.idx
      published := s.published ++ [{ scanPoints, countNum := s.idx }] }
  else { s with scanPoints, idx := s.idx + 1, lastDegree := point.degree }

def dataProcessing (s : SingleChannel) (packet : Packet) : SingleChannel :=
  (lidar.points highReflection packet).foldl (accumulate lidar limits) s

/-! ### Turns -/

/-- The turns of a list of points, and what is left: a turn ends with the point that completes
it. -/
def turns (lastDegree : ℚ) (turn : List ScanPoint) :
    List ScanPoint → List (List ScanPoint) × List ScanPoint
  | [] => ([], turn)
  | point :: rest =>
    if Wraps lidar turn.length lastDegree point.degree then
      let others := turns point.degree [] rest
      ((turn ++ [point]) :: others.1, others.2)
    else turns point.degree (turn ++ [point]) rest

/-- The array with a turn in it. -/
def filled (turn : List ScanPoint) : List ScanPoint :=
  turn ++ List.replicate (scanPointsSize - turn.length) zero

/-- What is handed over of a turn. -/
def scan (turn : List ScanPoint) : Scan :=
  { scanPoints := (filled turn).map (inRange limits), countNum := turn.length - 1 }

/-- The points that the publisher reads. -/
def read (scan : Scan) : List ScanPoint := scan.scanPoints.take scan.countNum

/-- The state with a turn under way. -/
structure Collected (s : SingleChannel) (published : List Scan) (turn : List ScanPoint) : Prop where
  scanPoints : s.scanPoints = filled turn
  idx : s.idx = turn.length
  short : turn.length ≤ lidar.pointsSize
  published : s.published = published

variable {lidar limits highReflection} {s : SingleChannel} {turn xs : List ScanPoint}
  {published : List Scan} {point : ScanPoint} {lastDegree : ℚ}

theorem pointsSize_lt : lidar.pointsSize < scanPointsSize := by
  cases lidar <;> decide

theorem length_filled (h : turn.length < scanPointsSize) :
    (filled turn).length = scanPointsSize := by
  rw [filled, List.length_append, List.length_replicate]
  omega

/-- A point is written behind the turn. -/
theorem filled_set (h : turn.length < scanPointsSize) :
    (filled turn).set turn.length point = filled (turn ++ [point]) := by
  obtain ⟨k, hk⟩ : ∃ k, scanPointsSize = turn.length + (k + 1) :=
    ⟨scanPointsSize - turn.length - 1, by omega⟩
  rw [filled, filled, List.set_append_right _ _ (Nat.le_refl _), Nat.sub_self, hk,
    Nat.add_sub_cancel_left, List.length_append, List.length_singleton, List.replicate_succ,
    List.set_cons_zero, List.append_assoc, show turn.length + (k + 1) - (turn.length + 1) = k by
      omega]
  rfl

theorem map_zero (l : List ScanPoint) (h : l.length = scanPointsSize) :
    l.map (fun _ => zero) = filled [] := by
  rw [List.map_const', h]
  rfl

theorem collected_init (lidar : OneChannel) : Collected lidar init [] [] where
  scanPoints := rfl
  idx := rfl
  short := Nat.zero_le _
  published := rfl

theorem Collected.inBounds (h : Collected lidar s published turn) :
    s.idx < s.scanPoints.length := by
  have hsize := h.short.trans_lt pointsSize_lt
  rw [h.scanPoints, length_filled hsize, h.idx]
  exact hsize

/-- A point completes the turn. -/
theorem Collected.wrap (limits : Limits) (h : Collected lidar s published turn)
    (hwraps : Wraps lidar turn.length s.lastDegree point.degree) :
    Collected lidar (accumulate lidar limits s point)
      (published ++ [scan limits (turn ++ [point])]) [] := by
  have hset : s.scanPoints.set s.idx point = filled (turn ++ [point]) := by
    rw [h.scanPoints, h.idx, filled_set (h.short.trans_lt pointsSize_lt)]
  have hlen : (filled (turn ++ [point])).length = scanPointsSize := by
    rw [← hset, List.length_set, h.scanPoints, length_filled (h.short.trans_lt pointsSize_lt)]
  rw [accumulate, h.idx, if_pos hwraps, ← h.idx, hset]
  constructor
  · exact map_zero _ (by rw [List.length_map, hlen])
  · rfl
  · exact Nat.zero_le _
  · simp [h.published, scan, h.idx]

/-- A point that goes into the turn. -/
theorem Collected.extend (limits : Limits) (h : Collected lidar s published turn)
    (hwraps : ¬ Wraps lidar turn.length s.lastDegree point.degree) :
    Collected lidar (accumulate lidar limits s point) published (turn ++ [point]) := by
  have hshort : turn.length < lidar.pointsSize := by
    by_contra hlong
    exact hwraps (.inr (not_lt.mp hlong))
  rw [accumulate, h.idx, if_neg hwraps]
  constructor
  · rw [← filled_set (h.short.trans_lt pointsSize_lt), ← h.scanPoints]
  · simp
  · rw [List.length_append]
    exact hshort
  · exact h.published

theorem lastDegree_accumulate :
    (accumulate lidar limits s point).lastDegree = point.degree := by
  rw [accumulate]
  dsimp only
  split <;> rfl

theorem Collected.run (limits : Limits) (h : Collected lidar s published turn)
    (xs : List ScanPoint) :
    Collected lidar (run (accumulate lidar limits) s xs)
        (published ++ (turns lidar s.lastDegree turn xs).1.map (scan limits))
        (turns lidar s.lastDegree turn xs).2 ∧
      Along (accumulate lidar limits) (fun s _ => s.idx < s.scanPoints.length) s xs := by
  induction xs generalizing s published turn with
  | nil => simpa [turns] using h
  | cons point xs ih =>
    rw [turns, run_cons, along_cons]
    by_cases hwraps : Wraps lidar turn.length s.lastDegree point.degree
    · have hrest := ih (h.wrap limits hwraps)
      rw [lastDegree_accumulate, List.append_assoc] at hrest
      rw [if_pos hwraps]
      exact ⟨hrest.1, h.inBounds, hrest.2⟩
    · have hrest := ih (h.extend limits hwraps)
      rw [lastDegree_accumulate] at hrest
      rw [if_neg hwraps]
      exact ⟨hrest.1, h.inBounds, hrest.2⟩

theorem turns_flatten : (turns lidar lastDegree turn xs).1.flatten ++
    (turns lidar lastDegree turn xs).2 = turn ++ xs := by
  induction xs generalizing lastDegree turn with
  | nil => simp [turns]
  | cons point xs ih =>
    rw [turns]
    split
    · simp only [List.flatten_cons, List.append_assoc, ih]
      simp
    · rw [ih]
      simp

theorem turns_bounds (h : turn.length ≤ lidar.pointsSize) :
    ∀ t ∈ (turns lidar lastDegree turn xs).1, t ≠ [] ∧ t.length ≤ lidar.pointsSize + 1 := by
  induction xs generalizing lastDegree turn with
  | nil => simp [turns]
  | cons point xs ih =>
    rw [turns]
    by_cases hwraps : Wraps lidar turn.length lastDegree point.degree
    · rw [if_pos hwraps]
      intro t ht
      rcases List.mem_cons.mp ht with rfl | ht
      · exact ⟨by simp, by rw [List.length_append]; exact Nat.succ_le_succ h⟩
      · exact ih (Nat.zero_le _) t ht
    · rw [if_neg hwraps]
      have hshort : turn.length < lidar.pointsSize := by
        by_contra hlong
        exact hwraps (.inr (not_lt.mp hlong))
      exact ih (by rw [List.length_append]; exact hshort)

/-- The point that completes a turn is not read. -/
theorem read_scan : read (scan limits turn) = turn.dropLast.map (inRange limits) := by
  rw [read, scan, filled, List.map_append, List.take_append_of_le_length (by simp),
    ← List.map_take, List.dropLast_eq_take]

/-- The points of any packets are cut into turns, of which each is handed over with its last point
unread, and the turn under way is in the array; `idx` never leaves it.  A packet with too few
counted points (`invalidValue`) gives none. -/
theorem rotations (lidar : OneChannel) (limits : Limits) (highReflection : Bool)
    (packets : List Packet) :
    let xs := packets.flatMap (lidar.points highReflection)
    let cut := turns lidar 0 [] xs
    cut.1.flatten ++ cut.2 = xs ∧
      Collected lidar (packets.foldl (dataProcessing lidar limits highReflection) init)
        (cut.1.map (scan limits)) cut.2 ∧
      (∀ turn ∈ cut.1, turn ≠ [] ∧ turn.length ≤ lidar.pointsSize + 1 ∧
        read (scan limits turn) = turn.dropLast.map (inRange limits)) ∧
      Along (accumulate lidar limits) (fun s _ => s.idx < s.scanPoints.length) init xs := by
  intro xs cut
  have hrun : packets.foldl (dataProcessing lidar limits highReflection) init =
      run (accumulate lidar limits) init xs := by
    rw [Runs.run, List.foldl_flatMap]
    rfl
  obtain ⟨hcollected, hbounds⟩ := (collected_init lidar).run limits xs
  refine ⟨turns_flatten, ?_, fun turn hturn => ?_, hbounds⟩
  · rw [hrun]
    exact hcollected
  · obtain ⟨hne, hlen⟩ := turns_bounds (Nat.zero_le _) turn hturn
    exact ⟨hne, hlen, read_scan⟩

end SingleChannel

end Lidar
