/-
The odometry loop `turn_on_robot::Control`.

Each pass of the loop reads the clock, makes one decoder call and, if it
accepted a frame, moves `Robot_Pos` by the scaled velocity times the time since
`_Last_Time`.  `_Last_Time` moves only after three publish calls that may throw
into a handler that swallows the exception, so after such a pass the same time
is integrated again (`thrownOdom_not_integratesOnce`).  `integratesOnce_iff` is
the exact condition: every accepted frame whose publication threw is the last
one accepted or found the clock where `_Last_Time` was.

Times, velocities and positions are rationals.  `Quaternion_Solution` and the
messages' contents do not feed back into the loop and are left out.
-/
import WheeltecRos2.Lib.Intervals
import WheeltecRos2.Chassis.Decoder
import Mathlib.Algebra.Order.Field.Basic
import Mathlib.Algebra.Order.Field.Rat

namespace Chassis

open Intervals

/-- The exceptions the loop catches. -/
inductive Thrown
  | serialException
  | ioException
  | rclError

/-- What the surroundings do during one pass: the clock, the serial port, and
what each publisher and `spin_some` throws if it is reached. -/
structure Pass where
  now : ℚ
  read : SerialRead
  publishOdom : Option Thrown
  publishImuSensor : Option Thrown
  publishVoltage : Option Thrown
  publishCharging : Option Thrown
  publishRed : Option Thrown
  publishChargingCurrent : Option Thrown
  spinSome : Option Thrown

/-- The odometer correction parameters, and the two functions the position
update needs. -/
structure OdomParams where
  odomXScale : ℚ
  odomYScale : ℚ
  odomZScalePositive : ℚ
  odomZScaleNegative : ℚ
  cos : ℚ → ℚ
  sin : ℚ → ℚ

/-- The state of the loop.  `Robot_Vel` is the decoder's. -/
structure Robot where
  decoder : Decoder
  now : ℚ
  lastTime : ℚ
  samplingTime : ℚ
  robotPos : VelPosData
  countVoltagePub : ℕ

namespace Robot

/-- The state in which `Control` enters its loop at time `t`. -/
def start (memory : Vector UInt8 0x7C) (t : ℚ) : Robot :=
  { decoder := Decoder.init memory
    now := 0
    lastTime := t
    samplingTime := 0
    robotPos := ⟨0, 0, 0⟩
    countVoltagePub := 0 }

/-- The scaled yaw rate. -/
def yawRate (p : OdomParams) (z : ℚ) : ℚ :=
  if z ≥ 0 then z * p.odomZScalePositive else z * p.odomZScaleNegative

/-- Odometer error correction. -/
def correct (p : OdomParams) (s : Robot) : Robot :=
  let v := s.decoder.sensor.robotVel
  { s with decoder.sensor.robotVel :=
      { x := v.x * p.odomXScale, y := v.y * p.odomYScale, z := yawRate p v.z } }

/-- Move the position by the velocity times the sampling time. -/
def integrate (p : OdomParams) (s : Robot) : Robot :=
  let v := s.decoder.sensor.robotVel
  let q := s.robotPos
  { s with robotPos :=
      { x := q.x + (v.x * p.cos q.z - v.y * p.sin q.z) * s.samplingTime
        y := q.y + (v.x * p.sin q.z + v.y * p.cos q.z) * s.samplingTime
        z := q.z + v.z * s.samplingTime } }

/-- `Publish_Voltage`: only every twelfth call publishes. -/
def publishVoltage (s : Robot) (i : Pass) : Robot × Option Thrown :=
  if s.countVoltagePub > 10 then ({ s with countVoltagePub := 0 }, i.publishVoltage)
  else ({ s with countVoltagePub := s.countVoltagePub + 1 }, none)

/-- The three publishers of an accepted frame. -/
def publishFrame (s : Robot) (i : Pass) : Robot × Option Thrown :=
  match i.publishOdom with
  | some e => (s, some e)
  | none =>
    match i.publishImuSensor with
    | some e => (s, some e)
    | none => publishVoltage s i

/-- The automatic charging topics and `spin_some`. -/
def chargeAndSpin (s : Robot) (i : Pass) : Robot × Option Thrown :=
  if s.decoder.checkAutoChargeData then
    match i.publishCharging, i.publishRed, i.publishChargingCurrent with
    | some e, _, _ => (s, some e)
    | none, some e, _ => (s, some e)
    | none, none, some e => (s, some e)
    | none, none, none => ({ s with decoder.checkAutoChargeData := false }, i.spinSome)
  else (s, i.spinSome)

/-- The `try` block of the loop. -/
def tryBody (p : OdomParams) (s : Robot) (i : Pass) : Robot × Option Thrown :=
  let s := { s with now := i.now, samplingTime := i.now - s.lastTime }
  let call := s.decoder.getSensorDataNew i.read
  let s := { s with decoder := call.state }
  if call.returned then
    match publishFrame (integrate p (correct p s)) i with
    -- an exception skips `_Last_Time = _Now`
    | (s, some e) => (s, some e)
    | (s, none) => chargeAndSpin { s with lastTime := s.now } i
  else chargeAndSpin s i

/-- One pass: every handler swallows its exception and touches no state. -/
def pass (p : OdomParams) (s : Robot) (i : Pass) : Robot := (tryBody p s i).1

/-- `Control`. -/
def control (p : OdomParams) (s : Robot) : List Pass → Robot
  | [] => s
  | i :: is => control p (pass p s i) is

/-! ### The updates of a run -/

/-- One update of the position: the interval integrated, whether `_Last_Time`
moved to its end, and the scaled yaw rate. -/
structure Update extends Marked ℚ where
  rate : ℚ

/-- All three publishers of an accepted frame come back. -/
def published (s : Robot) (i : Pass) : Bool :=
  i.publishOdom.isNone && i.publishImuSensor.isNone &&
    (decide (s.countVoltagePub ≤ 10) || i.publishVoltage.isNone)

/-- The update a pass makes, if its call accepts a frame. -/
def update? (p : OdomParams) (s : Robot) (i : Pass) : Option Update :=
  let call := s.decoder.getSensorDataNew i.read
  if call.returned then
    some
      { start := s.lastTime
        stop := i.now
        kept := published s i
        rate := yawRate p call.state.sensor.robotVel.z }
  else none

/-- The updates of a run, in order. -/
def updates (p : OdomParams) (s : Robot) : List Pass → List Update
  | [] => []
  | i :: is => (update? p s i).toList ++ updates p (pass p s i) is

/-- The heading gained if each rate held since the previous accepted frame. -/
def headingGain (t : ℚ) : List Update → ℚ
  | [] => 0
  | u :: us => u.rate * (u.stop - t) + headingGain u.stop us

/-- The intervals of the updates. -/
def segments (us : List Update) : List (Segment ℚ) := us.map fun u => u.toSegment

/-- Every instant from the start of the loop to the last accepted frame is
integrated exactly once. -/
structure IntegratesOnce (p : OdomParams) (s : Robot) (is : List Pass) : Prop where
  disjoint : (segments (updates p s is)).Pairwise Apart
  covers : updates p s is ≠ [] →
    covered (segments (updates p s is)) =
      Set.Icc s.lastTime (lastStop s.lastTime (segments (updates p s is)))
  heading : (control p s is).robotPos.z =
    s.robotPos.z + headingGain s.lastTime (updates p s is)

/-- The accepted frames whose publication threw cost nothing: each is the last
one accepted or found the clock at `_Last_Time`. -/
def NoLostTime (p : OdomParams) (s : Robot) (is : List Pass) : Prop :=
  Harmless ((updates p s is).map fun u => u.toMarked)

instance (p : OdomParams) (s : Robot) (is : List Pass) : Decidable (NoLostTime p s is) :=
  inferInstanceAs (Decidable (Harmless _))

/-! ### One pass -/

theorem publishVoltage_frame (s : Robot) (i : Pass) :
    (publishVoltage s i).1.robotPos = s.robotPos ∧ (publishVoltage s i).1.lastTime = s.lastTime ∧
      (publishVoltage s i).1.now = s.now := by
  rw [publishVoltage]
  split <;> exact ⟨rfl, rfl, rfl⟩

theorem publishFrame_frame (s : Robot) (i : Pass) :
    (publishFrame s i).1.robotPos = s.robotPos ∧ (publishFrame s i).1.lastTime = s.lastTime ∧
      (publishFrame s i).1.now = s.now := by
  rw [publishFrame]
  split
  · exact ⟨rfl, rfl, rfl⟩
  · split
    · exact ⟨rfl, rfl, rfl⟩
    · exact publishVoltage_frame s i

theorem publishFrame_isNone (s : Robot) (i : Pass) :
    (publishFrame s i).2.isNone = published s i := by
  rw [publishFrame, published]
  cases i.publishOdom with
  | some e => rfl
  | none =>
    cases i.publishImuSensor with
    | some e => rfl
    | none =>
      rw [publishVoltage]
      by_cases h : s.countVoltagePub > 10
      · simp [h, Nat.not_le_of_gt h]
      · simp [h, Nat.le_of_not_gt h]

theorem chargeAndSpin_frame (s : Robot) (i : Pass) :
    (chargeAndSpin s i).1.robotPos = s.robotPos ∧
      (chargeAndSpin s i).1.lastTime = s.lastTime := by
  rw [chargeAndSpin]
  split
  · split <;> exact ⟨rfl, rfl⟩
  · exact ⟨rfl, rfl⟩

/-- A pass whose call accepts nothing moves neither the position nor
`_Last_Time`. -/
theorem pass_of_update?_none {p : OdomParams} {s : Robot} {i : Pass} (h : update? p s i = none) :
    (pass p s i).robotPos = s.robotPos ∧ (pass p s i).lastTime = s.lastTime := by
  have hret : ¬ (s.decoder.getSensorDataNew i.read).returned := by
    intro hret
    simp [update?, hret] at h
  simp only [pass, tryBody, if_neg hret]
  exact chargeAndSpin_frame _ i

/-- A pass whose call accepts a frame integrates from `_Last_Time` to the clock,
and moves `_Last_Time` only if all publishers come back. -/
theorem pass_of_update?_some {p : OdomParams} {s : Robot} {i : Pass} {u : Update}
    (h : update? p s i = some u) :
    u.start = s.lastTime ∧ u.stop = i.now ∧
      (pass p s i).robotPos.z = s.robotPos.z + u.rate * (u.stop - u.start) ∧
      (pass p s i).lastTime = if u.kept then u.stop else s.lastTime := by
  have hret : (s.decoder.getSensorDataNew i.read).returned := by
    by_contra hret
    simp [update?, hret] at h
  simp only [update?, if_pos hret, Option.some.injEq] at h
  subst h
  refine ⟨rfl, rfl, ?_⟩
  simp only [pass, tryBody, if_pos hret]
  -- The state handed to the publishers.
  generalize hs' : integrate p (correct p _) = s'
  have hz : s'.robotPos.z = s.robotPos.z +
      yawRate p (s.decoder.getSensorDataNew i.read).state.sensor.robotVel.z *
        (i.now - s.lastTime) := by
    rw [← hs']
    rfl
  have hlast : s'.lastTime = s.lastTime := by rw [← hs']; rfl
  have hnow : s'.now = i.now := by rw [← hs']; rfl
  have hcount : s'.countVoltagePub = s.countVoltagePub := by rw [← hs']; rfl
  have hpub : published s' i = published s i := by rw [published, published, hcount]
  obtain ⟨hfpos, hflast, hfnow⟩ := publishFrame_frame s' i
  have hnone := publishFrame_isNone s' i
  rw [hpub] at hnone
  generalize hr : publishFrame s' i = r at hfpos hflast hfnow hnone
  obtain ⟨s'', thrown⟩ := r
  cases thrown with
  -- thrown: the position has moved, `_Last_Time` has not
  | some e =>
    rw [← hnone]
    exact ⟨by rw [hfpos, hz], by simpa [hlast] using hflast⟩
  | none =>
    rw [← hnone]
    obtain ⟨hcpos, hclast⟩ := chargeAndSpin_frame { s'' with lastTime := s''.now } i
    exact ⟨by rw [hcpos, hfpos, hz], hclast.trans (hfnow.trans hnow)⟩

/-! ### Whole runs -/

/-- The update of a pass follows the clock of the run. -/
theorem updates_stop {p : OdomParams} {s : Robot} {is : List Pass} {t : ℚ}
    (h : ∀ i ∈ is, t ≤ i.now) : ∀ u ∈ updates p s is, t ≤ u.stop := by
  induction is generalizing s with
  | nil => simp [updates]
  | cons i is ih =>
    intro u hu
    rcases List.mem_append.mp hu with hu | hu
    · rw [Option.mem_toList] at hu
      rw [(pass_of_update?_some hu).2.1]
      exact h i List.mem_cons_self
    · exact ih (fun i' hi' => h i' (List.mem_cons_of_mem _ hi')) u hu

/-- The updates of a run restart where `_Last_Time` was left. -/
theorem updates_restarts {p : OdomParams} {s : Robot} {is : List Pass}
    (h : (s.lastTime :: is.map Pass.now).Pairwise (· ≤ ·)) :
    Restarts s.lastTime ((updates p s is).map fun u => u.toMarked) := by
  induction is generalizing s with
  | nil => trivial
  | cons i is ih =>
    rw [List.map_cons, List.pairwise_cons] at h
    obtain ⟨hhead, hclock⟩ := h
    have hlater : ∀ i' ∈ is, i.now ≤ i'.now := fun i' hi' =>
      (List.pairwise_cons.mp hclock).1 _ (List.mem_map_of_mem hi')
    rw [updates]
    cases hu : update? p s i with
    -- nothing accepted: `_Last_Time` stays where the next update will start
    | none =>
      have hlast := (pass_of_update?_none hu).2
      rw [Option.toList_none, List.nil_append, ← hlast]
      refine ih ?_
      rw [hlast]
      exact List.pairwise_cons.mpr
        ⟨fun t ht => hhead t (List.mem_cons_of_mem _ ht), (List.pairwise_cons.mp hclock).2⟩
    | some u =>
      obtain ⟨hstart, hstop, -, hlast⟩ := pass_of_update?_some hu
      rw [Option.toList_some, List.singleton_append, List.map_cons]
      refine ⟨hstart, ?_, ?_, ?_⟩
      · rw [hstop]
        exact hhead i.now List.mem_cons_self
      · intro g hg
        obtain ⟨u', hu', rfl⟩ := List.mem_map.mp hg
        rw [hstop]
        exact updates_stop hlater u' hu'
      · rw [← hlast]
        refine ih (List.pairwise_cons.mpr ⟨?_, (List.pairwise_cons.mp hclock).2⟩)
        intro t ht
        rw [hlast]
        split
        · rw [hstop]
          exact (List.pairwise_cons.mp hclock).1 t ht
        · exact hhead t (List.mem_cons_of_mem _ ht)

/-- The heading is the sum of rate times interval, whatever the intervals. -/
theorem control_heading (p : OdomParams) (s : Robot) (is : List Pass) :
    (control p s is).robotPos.z =
      s.robotPos.z + ((updates p s is).map fun u => u.rate * (u.stop - u.start)).sum := by
  induction is generalizing s with
  | nil => simp [control, updates]
  | cons i is ih =>
    rw [control, ih, updates]
    cases hu : update? p s i with
    | none => simp [(pass_of_update?_none hu).1]
    | some u =>
      rw [(pass_of_update?_some hu).2.2.1]
      simp [add_assoc]

/-- Along abutting intervals, rate times interval is rate times the time since
the previous one. -/
theorem sum_eq_headingGain {t : ℚ} {us : List Update} (h : Abut t (segments us)) :
    (us.map fun u => u.rate * (u.stop - u.start)).sum = headingGain t us := by
  induction us generalizing t with
  | nil => rfl
  | cons u us ih =>
    obtain ⟨hstart, -, hrest⟩ := h
    rw [List.map_cons, List.sum_cons, headingGain, ih hrest, hstart]

theorem map_toSegment (us : List Update) :
    (us.map fun u => u.toMarked).map Marked.toSegment = segments us := by
  rw [List.map_map]
  rfl

/-- Disjoint intervals leave no accepted time lost. -/
theorem IntegratesOnce.noLostTime {p : OdomParams} {s : Robot} {is : List Pass}
    (h : IntegratesOnce p s is) (hclock : (s.lastTime :: is.map Pass.now).Pairwise (· ≤ ·)) :
    NoLostTime p s is :=
  (updates_restarts hclock).harmless (by rw [map_toSegment]; exact h.disjoint)

/-- Passes that deliver the bytes of a frame at times `t`, `t + 1`, …; the
odometry publisher throws `e` if it is reached. -/
def deliver (t : ℚ) (e : Option Thrown) : List UInt8 → List Pass
  | [] => []
  | b :: bs =>
    { now := t, read := .byte b, publishOdom := e, publishImuSensor := none,
      publishVoltage := none, publishCharging := none, publishRed := none,
      publishChargingCurrent := none, spinSome := none } :: deliver (t + 1) e bs

/-- A well-formed sensor frame of a robot at rest. -/
def restFrame : List UInt8 :=
  [0x7B, 0, 0, 0, 0, 0, 0, 0, 0, 0, 0, 0, 0, 0, 0, 0, 0, 0, 0, 0, 0, 0, 0x7B, 0x7D]

/-- Parameters of a robot that drives straight on. -/
def unitParams : OdomParams := ⟨1, 1, 1, 1, fun _ => 1, fun _ => 0⟩

/-- **Every instant is integrated exactly once iff no accepted time is lost to
an exception.** -/
theorem integratesOnce_iff (p : OdomParams) (s : Robot) (is : List Pass)
    (hclock : (s.lastTime :: is.map Pass.now).Pairwise (· ≤ ·)) :
    IntegratesOnce p s is ↔ NoLostTime p s is := by
  constructor
  · intro h
    exact h.noLostTime hclock
  · intro h
    have habut : Abut s.lastTime (segments (updates p s is)) := by
      rw [← map_toSegment]
      exact (updates_restarts hclock).abut h
    refine ⟨habut.pairwise_disjoint, fun hne => habut.covers ?_, ?_⟩
    · simpa [segments] using hne
    · rw [control_heading, sum_eq_headingGain habut]

/-- Two frames delivered without an exception are integrated once. -/
theorem integratesOnce_iff_quiet :
    IntegratesOnce unitParams (start (Vector.replicate 0x7C 0) 0)
      (deliver 0 none restFrame ++ deliver 24 none restFrame) :=
  (integratesOnce_iff unitParams (start (Vector.replicate 0x7C 0) 0)
    (deliver 0 none restFrame ++ deliver 24 none restFrame) (by decide +kernel)).mpr
    (by decide +kernel)

/-- Two frames, the publication of the first of which throws: the time before
the first is integrated twice. -/
theorem thrownOdom_not_integratesOnce :
    ¬ IntegratesOnce unitParams (start (Vector.replicate 0x7C 0) 0)
      (deliver 0 (some .rclError) restFrame ++ deliver 24 none restFrame) := by
  intro h
  have hlost := h.noLostTime (by decide +kernel)
  revert hlost
  decide +kernel

end Robot

end Chassis
