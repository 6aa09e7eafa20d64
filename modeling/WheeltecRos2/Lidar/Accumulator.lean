/-
How `data_processing_2` collects a rotation.

A packet is decoded to samples of two channels.  The near one is written at `idx`, the far one
3000 slots behind it, and after the write the rotation is complete if the angle came back to 0 or
`idx` reached its limit: `idx` becomes `count_num`, the slots are copied for the publisher, which
reads those below `count_num`, and the array is cleared.  Hence the sample that completes the
rotation, at index `count_num`, is in no scan (`published_once_iff`), and at the limit of 3000 it
is written over the far sample of index 0.

Every slot remembers which sample was written to it last; nothing depends on that.  The
time stamps and the count of invalid values, which nothing reads, are left out, and angles are
exact.
-/
import WheeltecRos2.Lib.Runs
import Mathlib.Algebra.Order.Field.Rat
import Mathlib.Data.Rat.Floor

namespace Lidar

open Runs

/-! ### Packets -/

structure ScanPoint where
  degree : ℚ
  range : ℚ
  intensity : ℚ

/-- The lidars with two channels, `N10_P` and `M10_DOUBLE`. -/
inductive TwoChannel
  | n10P
  | m10Double

namespace TwoChannel

/-- What `loadParameters` sets: `points_size_`, `data_bits_start` and `degree_bits_start`. -/
def pointsSize : TwoChannel → ℕ
  | n10P => 800
  | m10Double => 3000

@[inherit_doc pointsSize] def dataBitsStart : TwoChannel → ℕ
  | n10P => 7
  | m10Double => 8

@[inherit_doc pointsSize] def degreeBitsStart : TwoChannel → ℕ
  | n10P => 5
  | m10Double => 4

/-- `end_degree_bits_start` of the `N10_P`. -/
def endDegreeBitsStart : ℕ := 105

def pointLen : TwoChannel → ℕ
  | n10P => 6
  | m10Double => 4

end TwoChannel

/-- The arguments of `data_processing_2`, and `degree_compensation`. -/
structure Packet where
  bytes : ℕ → UInt8
  len : ℕ
  degreeCompensation : ℚ

/-- The angles and ranges that are kept. -/
structure Limits where
  angleAbleMin : ℚ
  angleAbleMax : ℚ
  minRange : ℚ
  maxRange : ℚ

structure Sample where
  ptDegree : ℚ
  near : ScanPoint
  far : ScanPoint

namespace Packet

variable (lidar : TwoChannel) (packet : Packet)

/-- `s * 256 + z`. -/
def word (i : ℕ) : ℕ := (packet.bytes i).toNat * 256 + (packet.bytes (i + 1)).toNat

/-- `package_points`; `PACKET_SIZE` has 16 bits. -/
def packagePoints : ℤ :=
  match lidar with
  | .n10P => 16
  | .m10Double => (((packet.len % 65536 : ℕ) : ℤ) - 20).tdiv 4

/-- The angle of the first sample. -/
def degree : ℚ :=
  let degree := (packet.word lidar.degreeBitsStart : ℚ) / 100 + packet.degreeCompensation
  let degree := if degree < 0 then degree + 360 else degree
  if 360 < degree then degree - 360 else degree

def degreeInterval : ℚ :=
  match lidar with
  | .n10P =>
    let endDegree := (packet.word TwoChannel.endDegreeBitsStart : ℚ) / 100
    let endDegree := if 360 < endDegree then endDegree - 360 else endDegree
    if endDegree < packet.degree lidar then endDegree + 360 - packet.degree lidar
    else endDegree - packet.degree lidar
  | .m10Double => 15

def angleStep : ℚ :=
  if 1 < packet.packagePoints lidar then
    packet.degreeInterval lidar / (packet.packagePoints lidar - 1)
  else 0

def ptDegree (num : ℕ) : ℚ :=
  let ptDegree := packet.degree lidar + packet.angleStep lidar * num
  let ptDegree := if 360 ≤ ptDegree then ptDegree - 360 else ptDegree
  if ptDegree < 0 then ptDegree + 360 else ptDegree

/-- A channel of a sample, read at `i`. -/
def scanPoint (i : ℕ) (degree : ℚ) : ScanPoint :=
  if packet.word i ≠ 0xFFFF then
    { degree, range := packet.word i / 1000, intensity := (packet.bytes (i + 2)).toNat }
  else { degree, range := 0, intensity := 0 }

def sample (num : ℕ) : Sample :=
  let ptDegree := packet.ptDegree lidar num
  let start := num * lidar.pointLen + lidar.dataBitsStart
  { ptDegree
    near := packet.scanPoint start ptDegree
    far := packet.scanPoint (start + lidar.pointLen / 2) ptDegree }

def samples : List Sample :=
  (List.range (packet.packagePoints lidar).toNat).map (packet.sample lidar)

end Packet

/-! ### The slots -/

inductive Channel
  | near
  | far
  deriving DecidableEq

/-- The distance of a channel's slots from the index. -/
def Channel.offset : Channel → ℕ
  | near => 0
  | far => 3000

/-- A channel of the sample with this number. -/
structure Source where
  channel : Channel
  sample : ℕ
  deriving DecidableEq

structure Slot where
  point : ScanPoint
  source : Option Source

def Slot.cleared : Slot := { point := { degree := 0, range := 0, intensity := 0 }, source := none }

/-- What sample `n` writes for its channels. -/
def Sample.slot (x : Sample) (n : ℕ) (channel : Channel) : Slot :=
  { point :=
      match channel with
      | .near => x.near
      | .far => x.far
    source := some { channel, sample := n } }

/-- `scan_points_bak_` with `count_num`.  Its first sample is that of number `first`. -/
structure Snapshot where
  scanPoints : List Slot
  countNum : ℕ
  first : ℕ

structure Accumulator where
  scanPoints : List Slot
  idx : ℕ
  lastDegree : ℚ
  countNum : ℕ
  published : List Snapshot
  decoded : ℕ

/-- The size of `scan_points_`. -/
def scanPointsSize : ℕ := 6001

namespace Limits

variable (limits : Limits)

/-- The angle is not one that is kept. -/
def CutOff (degree : ℚ) : Prop :=
  if 360 < limits.angleAbleMax then
    limits.angleAbleMax - 360 < 360 - degree ∧ 360 - degree < limits.angleAbleMin
  else limits.angleAbleMax < 360 - degree ∨ 360 - degree < limits.angleAbleMin

instance (degree : ℚ) : Decidable (limits.CutOff degree) :=
  inferInstanceAs (Decidable (if 360 < limits.angleAbleMax then _ ∧ _ else _ ∨ _))

def OutOfRange (range : ℚ) : Prop := range < limits.minRange ∨ limits.maxRange < range

instance (range : ℚ) : Decidable (limits.OutOfRange range) :=
  inferInstanceAs (Decidable (_ ∨ _))

end Limits

/-- `scan_points_[i].range = 0`. -/
def clearRange (slots : List Slot) (i : ℕ) : List Slot :=
  slots.modify i fun slot => { slot with point.range := 0 }

/-- `scan_points_[i]`. -/
def pointAt (slots : List Slot) (i : ℕ) : ScanPoint := (slots[i]?.getD Slot.cleared).point

/-- The cropping of index `k`. -/
def cropIndex (limits : Limits) (slots : List Slot) (k : ℕ) : List Slot :=
  let slots :=
    if limits.CutOff (pointAt slots k).degree then
      let slots := clearRange slots k
      if k + 3000 < slots.length then clearRange slots (k + 3000) else slots
    else slots
  let slots := if limits.OutOfRange (pointAt slots k).range then clearRange slots k else slots
  if k + 3000 < slots.length ∧ limits.OutOfRange (pointAt slots (k + 3000)).range then
    clearRange slots (k + 3000)
  else slots

/-- The cropping of the indices below `count_num`. -/
def crop (limits : Limits) (countNum : ℕ) (slots : List Slot) : List Slot :=
  (List.range countNum).foldl (cropIndex limits) slots

namespace Accumulator

variable (lidar : TwoChannel) (limits : Limits)

def init : Accumulator :=
  { scanPoints := List.replicate scanPointsSize Slot.cleared, idx := 0, lastDegree := 0
    countNum := 0, published := [], decoded := 0 }

/-- The number of the first sample of the rotation under way. -/
def first (s : Accumulator) : ℕ := s.decoded - s.idx

/-- The rotation is complete with this sample. -/
def Wraps (s : Accumulator) (x : Sample) : Prop :=
  (x.ptDegree < s.lastDegree ∧ x.ptDegree < 5 ∧ 355 < s.lastDegree ∨ lidar.pointsSize ≤ s.idx) ∧
    200 < s.idx

instance (s : Accumulator) (x : Sample) : Decidable (s.Wraps lidar x) :=
  inferInstanceAs (Decidable (_ ∧ _))

/-- The slots with the two channels of a sample. -/
def write (s : Accumulator) (x : Sample) : List Slot :=
  let slots := s.scanPoints.set s.idx (x.slot s.decoded .near)
  if s.idx + 3000 < slots.length then slots.set (s.idx + 3000) (x.slot s.decoded .far) else slots

/-- One sample, unless `idx` is out of bounds. -/
def accumulate (s : Accumulator) (x : Sample) : Accumulator :=
  let slots := s.write x
  if s.Wraps lidar x then
    let scanPoints := crop limits s.idx slots
    { scanPoints := scanPoints.map fun _ => Slot.cleared
      idx := 0
      lastDegree := x.ptDegree
      countNum := s.idx
      published := s.published ++ [{ scanPoints, countNum := s.idx, first := s.first }]
      decoded := s.decoded + 1 }
  else
    { s with
      scanPoints := slots, idx := s.idx + 1, lastDegree := x.ptDegree, decoded := s.decoded + 1 }

/-- The samples of a packet, up to a forced reset. -/
def processSamples (s : Accumulator) : List Sample → Accumulator
  | [] => s
  | x :: rest =>
    if s.scanPoints.length ≤ s.idx then
      { s with lastDegree := x.ptDegree, countNum := s.scanPoints.length - 1, idx := 0 }
    else processSamples (s.accumulate lidar limits x) rest

/-- `data_processing_2`. -/
def dataProcessing2 (s : Accumulator) (packet : Packet) : Accumulator :=
  s.processSamples lidar limits (packet.samples lidar)

end Accumulator

/-! ### What is kept -/

/-- The sample written to slot `i` last. -/
def sourceAt (slots : List Slot) (i : ℕ) : Option Source := slots[i]?.bind Slot.source

/-- The snapshot has the sample at an index below `count_num`. -/
def Snapshot.Holds (snapshot : Snapshot) (source : Source) : Prop :=
  ∃ k < snapshot.countNum,
    sourceAt snapshot.scanPoints (k + source.channel.offset) = some source

namespace Accumulator

variable (lidar : TwoChannel)

/-- The slots a sample reads or writes. -/
def slotsUsed (s : Accumulator) (x : Sample) : List ℕ :=
  let pair := fun k => k :: if k + 3000 < s.scanPoints.length then [k + 3000] else []
  pair s.idx ++ if s.Wraps lidar x then (List.range s.idx).flatMap pair else []

/-- The slots are there, the reset is not forced, and the near channel is not written over the
far channel of a sample of the rotation. -/
structure StepSafe (s : Accumulator) (x : Sample) : Prop where
  inRange : ∀ i ∈ s.slotsUsed lidar x, i < scanPointsSize
  unforced : s.idx < s.scanPoints.length
  unmixed : ∀ n, sourceAt s.scanPoints s.idx ≠ some { channel := .far, sample := n }

/-- Every sample of a complete rotation is in exactly one snapshot. -/
def Complete (s : Accumulator) : Prop :=
  ∀ source : Source, source.sample < s.first →
    ∃! j : ℕ, ∃ snapshot : Snapshot, s.published[j]? = some snapshot ∧ snapshot.Holds source

/-- Every sample of the packets stays in bounds, and those of complete rotations are kept. -/
structure Keeps (limits : Limits) (packets : List Packet) : Prop where
  safe : Along (accumulate lidar limits) (StepSafe lidar) init
    (packets.flatMap fun packet => packet.samples lidar)
  complete : (packets.foldl (dataProcessing2 lidar limits) init).Complete

/-- No sample of the packets completes a rotation. -/
def NoRotation (limits : Limits) (packets : List Packet) : Prop :=
  Along (accumulate lidar limits) (fun s x => ¬s.Wraps lidar x) init
    (packets.flatMap fun packet => packet.samples lidar)

end Accumulator

/-! ### Which sample is where -/

section Slots

variable {slots : List Slot} {slot : Slot} {i j k : ℕ}

theorem sourceAt_set (hi : i < slots.length) :
    sourceAt (slots.set i slot) j = if i = j then slot.source else sourceAt slots j := by
  rw [sourceAt, List.getElem?_set]
  split_ifs with heq
  · rfl
  · rfl

@[simp] theorem sourceAt_cleared : sourceAt (slots.map fun _ => Slot.cleared) i = none := by
  rw [sourceAt, List.getElem?_map]
  cases slots[i]? <;> rfl

@[simp] theorem sourceAt_clearRange : sourceAt (clearRange slots i) j = sourceAt slots j := by
  rw [sourceAt, sourceAt, clearRange, List.getElem?_modify]
  split_ifs
  · cases slots[j]? <;> rfl
  · cases slots[j]? <;> rfl

@[simp] theorem length_clearRange : (clearRange slots i).length = slots.length :=
  List.length_modify _ _ _

/-- The cropping changes ranges only. -/
theorem cropIndex_frame (limits : Limits) (slots : List Slot) (k : ℕ) :
    (cropIndex limits slots k).length = slots.length ∧
      ∀ i, sourceAt (cropIndex limits slots k) i = sourceAt slots i := by
  rw [cropIndex]
  dsimp only
  split_ifs <;> simp

theorem crop_frame (limits : Limits) (countNum : ℕ) (slots : List Slot) :
    (crop limits countNum slots).length = slots.length ∧
      ∀ i, sourceAt (crop limits countNum slots) i = sourceAt slots i := by
  rw [crop]
  induction List.range countNum generalizing slots with
  | nil => exact ⟨rfl, fun _ => rfl⟩
  | cons k rest ih =>
    obtain ⟨hlength, hsource⟩ := cropIndex_frame limits slots k
    obtain ⟨hlength', hsource'⟩ := ih (cropIndex limits slots k)
    exact ⟨hlength'.trans hlength, fun i => (hsource' i).trans (hsource i)⟩

/-- What the slots hold after `idx` samples of a rotation that starts with number `first`. -/
def layout (first idx i : ℕ) : Option Source :=
  if i < idx then some { channel := .near, sample := first + i }
  else if 3000 ≤ i ∧ i < 3000 + idx then some { channel := .far, sample := first + (i - 3000) }
  else none

end Slots

namespace Accumulator

variable {lidar : TwoChannel} {limits : Limits} {s : Accumulator} {x : Sample}

/-- The slots hold the rotation under way, and the snapshots those before it. -/
structure Tracked (lidar : TwoChannel) (s : Accumulator) : Prop where
  size : s.scanPoints.length = scanPointsSize
  idx_le : s.idx ≤ lidar.pointsSize
  idx_le_decoded : s.idx ≤ s.decoded
  slots : ∀ i, sourceAt s.scanPoints i = layout s.first s.idx i
  snapshots : ∀ snapshot ∈ s.published, snapshot.countNum ≤ 3000 ∧
    (∀ i, sourceAt snapshot.scanPoints i = layout snapshot.first (snapshot.countNum + 1) i) ∧
    snapshot.first + snapshot.countNum < s.first
  ordered : s.published.Pairwise fun a b => a.first + a.countNum < b.first
  covered : ∀ n < s.first, ∃ snapshot ∈ s.published,
    snapshot.first ≤ n ∧ n ≤ snapshot.first + snapshot.countNum

theorem pointsSize_bounds (lidar : TwoChannel) : 200 < lidar.pointsSize ∧ lidar.pointsSize ≤ 3000 := by
  cases lidar <;> decide

theorem tracked_init : init.Tracked lidar where
  size := List.length_replicate
  idx_le := Nat.zero_le _
  idx_le_decoded := le_rfl
  slots i := by
    rw [init, layout, if_neg (Nat.not_lt_zero i), if_neg (by simp), sourceAt,
      List.getElem?_replicate]
    split_ifs <;> rfl
  snapshots _ h := absurd h List.not_mem_nil
  ordered := List.Pairwise.nil
  covered n hn := absurd hn (Nat.not_lt_zero n)

theorem Tracked.first_add_idx (h : s.Tracked lidar) : s.first + s.idx = s.decoded :=
  Nat.sub_add_cancel h.idx_le_decoded

theorem Tracked.length_write (h : s.Tracked lidar) (x : Sample) :
    (s.write x).length = scanPointsSize := by
  rw [write]
  split_ifs
  · rw [List.length_set, List.length_set, h.size]
  · rw [List.length_set, h.size]

/-- **What a sample writes.** -/
theorem Tracked.sourceAt_write (h : s.Tracked lidar) (x : Sample) (i : ℕ) :
    sourceAt (s.write x) i = layout s.first (s.idx + 1) i := by
  have hidx := h.idx_le.trans (pointsSize_bounds lidar).2
  have hdecoded := h.first_add_idx
  have hsize : s.scanPoints.length = 6001 := h.size
  have hfar : s.idx + 3000 < (s.scanPoints.set s.idx (x.slot s.decoded .near)).length := by
    rw [List.length_set, hsize]
    omega
  rw [write, if_pos hfar, sourceAt_set hfar, sourceAt_set (by omega), h.slots, layout, layout,
    Sample.slot, Sample.slot]
  split_ifs <;> first | omega | simp <;> omega

theorem idx_lt_of_not_wraps (h : ¬s.Wraps lidar x) : s.idx < lidar.pointsSize := by
  by_contra hge
  exact h ⟨.inr (not_lt.mp hge), (pointsSize_bounds lidar).1.trans_le (not_lt.mp hge)⟩

theorem layout_near_iff {first idx i n : ℕ} :
    layout first idx i = some { channel := .near, sample := n } ↔ i < idx ∧ n = first + i := by
  rw [layout]
  split_ifs <;> simp <;> omega

theorem layout_far_iff {first idx i n : ℕ} :
    layout first idx i = some { channel := .far, sample := n } ↔
      idx ≤ i ∧ 3000 ≤ i ∧ i < 3000 + idx ∧ n = first + (i - 3000) := by
  rw [layout]
  split_ifs <;> simp <;> omega

theorem layout_zero (first i : ℕ) : layout first 0 i = none := by
  rw [layout, if_neg (Nat.not_lt_zero i), if_neg (by simp)]

/-- The sample completes the rotation. -/
theorem Tracked.wrap (h : s.Tracked lidar) (x : Sample) (hwraps : s.Wraps lidar x) :
    (s.accumulate lidar limits x).Tracked lidar := by
  have hdecoded := h.first_add_idx
  obtain ⟨hlength, hsource⟩ := crop_frame limits s.idx (s.write x)
  rw [Accumulator.accumulate, if_pos hwraps]
  constructor
  · exact (List.length_map _).trans (hlength.trans (h.length_write x))
  · exact Nat.zero_le _
  · exact Nat.zero_le _
  · intro i
    rw [sourceAt_cleared, layout_zero]
  · intro snapshot hsnapshot
    simp only [first, Nat.sub_zero]
    rcases List.mem_append.mp hsnapshot with hold | hnew
    · obtain ⟨hcount, hlayout, hlt⟩ := h.snapshots snapshot hold
      exact ⟨hcount, hlayout, by omega⟩
    · rw [List.mem_singleton.mp hnew]
      refine ⟨h.idx_le.trans (pointsSize_bounds lidar).2, ?_, by simp only; omega⟩
      intro i
      rw [hsource, h.sourceAt_write]
  · refine List.pairwise_append.mpr ⟨h.ordered, List.pairwise_singleton _ _, ?_⟩
    intro a ha b hb
    rw [List.mem_singleton.mp hb]
    exact (h.snapshots a ha).2.2
  · intro n hn
    simp only [first, Nat.sub_zero] at hn
    by_cases hold : n < s.first
    · obtain ⟨snapshot, hsnapshot, hbounds⟩ := h.covered n hold
      exact ⟨snapshot, List.mem_append_left _ hsnapshot, hbounds⟩
    · exact ⟨_, List.mem_append_right _ (List.mem_singleton_self _), not_lt.mp hold,
        by simp only; omega⟩

theorem Tracked.accumulate (h : s.Tracked lidar) (x : Sample) :
    (s.accumulate lidar limits x).Tracked lidar := by
  by_cases hwraps : s.Wraps lidar x
  · exact h.wrap x hwraps
  have hidx := h.idx_le_decoded
  rw [Accumulator.accumulate, if_neg hwraps]
  have hfirst : s.decoded + 1 - (s.idx + 1) = s.first := Nat.add_sub_add_right _ _ _
  constructor
  · exact h.length_write x
  · exact idx_lt_of_not_wraps hwraps
  · exact Nat.succ_le_succ hidx
  · intro i
    rw [first, hfirst]
    exact h.sourceAt_write x i
  · intro snapshot hsnapshot
    rw [first, hfirst]
    exact h.snapshots snapshot hsnapshot
  · exact h.ordered
  · intro n hn
    rw [first, hfirst] at hn
    exact h.covered n hn

/-! ### Runs -/

theorem Tracked.processSamples (h : s.Tracked lidar) (xs : List Sample) :
    s.processSamples lidar limits xs = run (Accumulator.accumulate lidar limits) s xs := by
  induction xs generalizing s with
  | nil => rfl
  | cons x xs ih =>
    have hidx : s.idx < s.scanPoints.length := by
      have hle := h.idx_le.trans (pointsSize_bounds lidar).2
      rw [h.size, scanPointsSize]
      omega
    rw [Accumulator.processSamples, if_neg hidx.not_ge, run_cons]
    exact ih (h.accumulate x)

theorem Tracked.run (h : s.Tracked lidar) (xs : List Sample) :
    (run (Accumulator.accumulate lidar limits) s xs).Tracked lidar :=
  run_invariant h fun _ x h => h.accumulate x

/-- **The reset is never forced.**  The packets are a run of their samples. -/
theorem Tracked.foldl_dataProcessing2 (h : s.Tracked lidar) (packets : List Packet) :
    packets.foldl (dataProcessing2 lidar limits) s =
      Runs.run (Accumulator.accumulate lidar limits) s
        (packets.flatMap fun packet => packet.samples lidar) := by
  induction packets generalizing s with
  | nil => rfl
  | cons packet packets ih =>
    rw [List.foldl_cons, List.flatMap_cons, run_append, dataProcessing2, h.processSamples]
    exact ih (h.run _)

/-! ### The samples of the snapshots -/

section Snapshots

variable {a b snapshot : Snapshot} {source : Source} {n i j : ℕ}

/-- Sample `n` is of the rotation of the snapshot. -/
def Spans (snapshot : Snapshot) (n : ℕ) : Prop :=
  snapshot.first ≤ n ∧ n ≤ snapshot.first + snapshot.countNum

/-- Sample `n` was written but not published: it completed the rotation, or its far channel was
written over. -/
def Dropped (snapshot : Snapshot) (source : Source) : Prop :=
  source.sample = snapshot.first + snapshot.countNum ∨
    source.channel = .far ∧ source.sample = snapshot.first ∧ snapshot.countNum = 3000

theorem Dropped.spans (h : Dropped snapshot source) : Spans snapshot source.sample := by
  rcases h with hlast | ⟨-, hfirst, -⟩
  · exact ⟨by omega, by omega⟩
  · exact ⟨by omega, by omega⟩

theorem holds_iff (hcount : snapshot.countNum ≤ 3000)
    (hlayout : ∀ i, sourceAt snapshot.scanPoints i =
      layout snapshot.first (snapshot.countNum + 1) i) :
    snapshot.Holds source ↔ Spans snapshot source.sample ∧ ¬Dropped snapshot source := by
  obtain ⟨channel, n⟩ := source
  simp only [Snapshot.Holds, Spans, Dropped, hlayout]
  cases channel with
  | near =>
    simp only [layout_near_iff, Channel.offset, Nat.add_zero, reduceCtorEq, false_and, or_false]
    constructor
    · rintro ⟨k, hk, -, rfl⟩
      omega
    · rintro ⟨⟨hge, hle⟩, hlast⟩
      exact ⟨n - snapshot.first, by omega, by omega, by omega⟩
  | far =>
    simp only [layout_far_iff, Channel.offset, Nat.add_sub_cancel, true_and]
    constructor
    · rintro ⟨k, hk, hunder, -, -, hn⟩
      omega
    · rintro ⟨⟨hge, hle⟩, hkept⟩
      exact ⟨n - snapshot.first, by omega, by omega, by omega, by omega, by omega⟩

/-- Every sample is of one rotation. -/
theorem Tracked.index_eq (h : s.Tracked lidar) (ha : s.published[i]? = some a)
    (hb : s.published[j]? = some b) (hspanA : Spans a n) (hspanB : Spans b n) : i = j := by
  obtain ⟨hi, rfl⟩ := List.getElem?_eq_some_iff.mp ha
  obtain ⟨hj, rfl⟩ := List.getElem?_eq_some_iff.mp hb
  have hordered := List.pairwise_iff_getElem.mp h.ordered
  rcases lt_trichotomy i j with hlt | heq | hgt
  · have hbefore := hordered i j hi hj hlt
    exact absurd (hbefore.trans_le hspanB.1) hspanA.2.not_gt
  · exact heq
  · have hbefore := hordered j i hj hi hgt
    exact absurd (hbefore.trans_le hspanA.1) hspanB.2.not_gt

/-- **Which samples are in one snapshot.**  All but the dropped ones. -/
theorem Tracked.published_once_iff (h : s.Tracked lidar) (hsource : source.sample < s.first) :
    (∃! j : ℕ, ∃ snapshot : Snapshot, s.published[j]? = some snapshot ∧ snapshot.Holds source) ↔
      ∀ snapshot ∈ s.published, ¬Dropped snapshot source := by
  have hholds : ∀ {k : ℕ} {a : Snapshot}, s.published[k]? = some a →
      (a.Holds source ↔ Spans a source.sample ∧ ¬Dropped a source) := by
    intro k a ha
    obtain ⟨hcount, hlayout, -⟩ := h.snapshots a (List.mem_of_getElem? ha)
    exact holds_iff hcount hlayout
  constructor
  · rintro ⟨j, ⟨a, ha, hheld⟩, -⟩ b hb hdropped
    obtain ⟨hspan, hkept⟩ := (hholds ha).mp hheld
    obtain ⟨i, hi⟩ := List.mem_iff_getElem?.mp hb
    obtain rfl := h.index_eq hi ha hdropped.spans hspan
    rw [ha] at hi
    exact hkept (Option.some.inj hi ▸ hdropped)
  · intro hkept
    obtain ⟨a, ha, hspan⟩ := h.covered source.sample hsource
    obtain ⟨j, hj⟩ := List.mem_iff_getElem?.mp ha
    refine ⟨j, ⟨a, hj, (hholds hj).mpr ⟨hspan, hkept a ha⟩⟩, ?_⟩
    rintro i ⟨b, hb, hheld⟩
    exact h.index_eq hb hj ((hholds hb).mp hheld).1 hspan

end Snapshots

/-! ### When nothing is lost -/

theorem Tracked.inRange (h : s.Tracked lidar) (x : Sample) :
    ∀ i ∈ s.slotsUsed lidar x, i < scanPointsSize := by
  have hidx := h.idx_le.trans (pointsSize_bounds lidar).2
  have hsize : s.scanPoints.length = 6001 := h.size
  have hpair : ∀ k ≤ s.idx,
      ∀ i ∈ k :: (if k + 3000 < s.scanPoints.length then [k + 3000] else []),
        i < scanPointsSize := by
    intro k hk i hi
    rw [scanPointsSize]
    rcases List.mem_cons.mp hi with rfl | hi
    · omega
    · split_ifs at hi with hfar
      · rw [List.mem_singleton.mp hi, ← hsize]
        exact hfar
      · cases hi
  intro i hi
  rcases List.mem_append.mp hi with hi | hi
  · exact hpair s.idx le_rfl i hi
  · split_ifs at hi
    · obtain ⟨k, hk, hi⟩ := List.mem_flatMap.mp hi
      exact hpair k (List.mem_range.mp hk).le i hi
    · cases hi

/-- Without a complete rotation the step is safe. -/
theorem Tracked.stepSafe (h : s.Tracked lidar) (hwraps : ¬s.Wraps lidar x) :
    StepSafe lidar s x := by
  have hidx := (idx_lt_of_not_wraps hwraps).trans_le (pointsSize_bounds lidar).2
  refine ⟨h.inRange x, ?_, ?_⟩
  · rw [h.size, scanPointsSize]
    omega
  · intro n hfar
    rw [h.slots, layout_far_iff] at hfar
    omega

theorem published_accumulate_of_not_wraps (hwraps : ¬s.Wraps lidar x) :
    (s.accumulate lidar limits x).published = s.published := by
  rw [Accumulator.accumulate, if_neg hwraps]

theorem published_prefix_accumulate (s : Accumulator) (x : Sample) :
    s.published <+: (s.accumulate lidar limits x).published := by
  rw [Accumulator.accumulate]
  dsimp only
  split_ifs
  · exact List.prefix_append _ _
  · exact List.prefix_rfl

theorem published_prefix_run (s : Accumulator) (xs : List Sample) :
    s.published <+: (Runs.run (Accumulator.accumulate lidar limits) s xs).published := by
  induction xs generalizing s with
  | nil => exact List.prefix_rfl
  | cons x xs ih => exact (published_prefix_accumulate s x).trans (ih _)

/-- A complete rotation leaves a snapshot. -/
theorem published_ne_nil {xs : List Sample}
    (h : ¬Along (Accumulator.accumulate lidar limits) (fun s x => ¬s.Wraps lidar x) s xs) :
    (Runs.run (Accumulator.accumulate lidar limits) s xs).published ≠ [] := by
  induction xs generalizing s with
  | nil => exact absurd along_nil h
  | cons x xs ih =>
    by_cases hwraps : s.Wraps lidar x
    · intro hnil
      have hprefix : (s.accumulate lidar limits x).published <+: [] :=
        hnil ▸ published_prefix_run (s.accumulate lidar limits x) xs
      rw [List.prefix_nil, Accumulator.accumulate, if_pos hwraps] at hprefix
      exact List.append_ne_nil_of_right_ne_nil _ (List.cons_ne_nil _ _) hprefix
    · exact ih fun hrest => h ⟨hwraps, hrest⟩

/-- One complete rotation is enough to lose a sample. -/
theorem Keeps.noRotation {packets : List Packet} (h : Keeps lidar limits packets) :
    NoRotation lidar limits packets := by
  by_contra hrotation
  have htracked : (packets.foldl (dataProcessing2 lidar limits) init).Tracked lidar := by
    rw [tracked_init.foldl_dataProcessing2]
    exact tracked_init.run _
  have hpublished : (packets.foldl (dataProcessing2 lidar limits) init).published ≠ [] := by
    rw [tracked_init.foldl_dataProcessing2]
    exact published_ne_nil hrotation
  obtain ⟨snapshot, hsnapshot⟩ := List.exists_mem_of_ne_nil _ hpublished
  let last : Source := { channel := .near, sample := snapshot.first + snapshot.countNum }
  have hlast : last.sample < (packets.foldl (dataProcessing2 lidar limits) init).first :=
    (htracked.snapshots snapshot hsnapshot).2.2
  exact (htracked.published_once_iff hlast).mp (h.complete last hlast) snapshot hsnapshot (.inl rfl)

/-- **When the accumulator keeps every sample.**  As long as no rotation is complete. -/
theorem keeps_iff (lidar : TwoChannel) (limits : Limits) (packets : List Packet) :
    Keeps lidar limits packets ↔ NoRotation lidar limits packets := by
  refine ⟨Keeps.noRotation, ?_⟩
  intro hrotation
  refine ⟨hrotation.imp tracked_init (fun _ x h _ => h.accumulate x) fun _ _ h => h.stepSafe, ?_⟩
  intro source hsource
  rw [tracked_init.foldl_dataProcessing2] at hsource
  have hpublished := hrotation.invariant (I := fun s => s.published = []) rfl
    fun s x hnil hwraps => (published_accumulate_of_not_wraps hwraps).trans hnil
  obtain ⟨snapshot, hsnapshot, -⟩ := (tracked_init.run _).covered source.sample hsource
  rw [hpublished] at hsnapshot
  cases hsnapshot

/-! ### A rotation -/

/-- What the test for a complete rotation reads: `idx` and `last_degree`. -/
def control (s : Accumulator) : ℕ × ℚ := (s.idx, s.lastDegree)

def ControlWraps (lidar : TwoChannel) (c : ℕ × ℚ) (x : Sample) : Prop :=
  (x.ptDegree < c.2 ∧ x.ptDegree < 5 ∧ 355 < c.2 ∨ lidar.pointsSize ≤ c.1) ∧ 200 < c.1

instance (c : ℕ × ℚ) (x : Sample) : Decidable (ControlWraps lidar c x) :=
  inferInstanceAs (Decidable (_ ∧ _))

def controlStep (lidar : TwoChannel) (c : ℕ × ℚ) (x : Sample) : ℕ × ℚ :=
  (if ControlWraps lidar c x then 0 else c.1 + 1, x.ptDegree)

theorem control_accumulate (s : Accumulator) (x : Sample) :
    (s.accumulate lidar limits x).control = controlStep lidar s.control x := by
  by_cases hwraps : s.Wraps lidar x
  · have hcontrol : ControlWraps lidar s.control x := hwraps
    rw [Accumulator.accumulate, if_pos hwraps, controlStep, if_pos hcontrol]
    rfl
  · have hcontrol : ¬ControlWraps lidar s.control x := hwraps
    rw [Accumulator.accumulate, if_neg hwraps, controlStep, if_neg hcontrol]
    rfl

/-- An `N10_P` packet between two angles in hundredths of a degree. -/
def sweep (start stop : ℕ) : Packet :=
  { bytes := fun i =>
      if i = 0 then 0xA5 else if i = 1 then 0x5A
      else if i = 5 then UInt8.ofNat (start / 256) else if i = 6 then UInt8.ofNat start
      else if i = 105 then UInt8.ofNat (stop / 256) else if i = 106 then UInt8.ofNat stop
      else 0
    len := 108
    degreeCompensation := 0 }

/-- Thirteen packets before the angle 0, and one across it. -/
def oneRotation : List Packet :=
  (List.range 13).map (fun k => sweep (2600 * k) (2600 * k + 2400)) ++ [sweep 35600 400]

def allAngles : Limits := { angleAbleMin := 0, angleAbleMax := 360, minRange := 0.3, maxRange := 100 }

theorem length_oneRotation :
    216 < (oneRotation.flatMap fun packet => packet.samples .n10P).length := by
  decide +kernel

/-- The sample that completes it, of number 216, is lost. -/
theorem rotation_loses_last : ¬Keeps .n10P allAngles oneRotation := by
  intro hkeeps
  have hcontrol : Along (controlStep .n10P) (fun c x => ¬ControlWraps .n10P c x) init.control
      (oneRotation.flatMap fun packet => packet.samples .n10P) :=
    (along_comap control control_accumulate).mp hkeeps.noRotation
  exact absurd (hcontrol.getElem length_oneRotation) (by decide +kernel)

end Accumulator

end Lidar
