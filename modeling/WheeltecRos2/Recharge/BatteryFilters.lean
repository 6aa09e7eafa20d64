/-
What the battery filters count.

`autoRecharger` takes the battery for full after more than ten full readings, and for low
after more than five low ones.  Each count goes back to 0 on the opposite voltage, but only
in the branch for its own value of the charging flag: readings taken before the robot was
plugged in or unplugged stay counted (`fullAcrossGap`).  So the readings need not be
consecutive; `debounced_iff` says when they are.
-/
import WheeltecRos2.Lib.Debounce
import WheeltecRos2.Recharge.StopCharge

namespace Recharge

open Runs Debounce

namespace AutoRecharger

/-! ### The readings -/

/-- What the count of full readings makes of a call. -/
def fullReading (s : AutoRecharger) : Reading :=
  if s.robot.charging then if s.robot.isFull then .counted else .contrary else .other

/-- What the count of low readings makes of a call. -/
def lowReading (s : AutoRecharger) : Reading :=
  if s.robot.charging then .other else if s.robot.isLow then .counted else .contrary

/-- The state in which `autoRecharger` tests for the end of the charge. -/
def beforeFull (s : AutoRecharger) (i : Iteration) : AutoRecharger :=
  (((((s.afterKey i).checkPower i).watchNavigation i).checkRed i).checkTurn i)

/-- The call takes the branch for a complete charge. -/
def CompletesCharge (s : AutoRecharger) (i : Iteration) : Prop :=
  10 < (s.beforeFull i).chargeComplete

/-- The filter for low readings sends the robot to the charger. -/
def NavigatesOnLow (s : AutoRecharger) (i : Iteration) : Prop :=
  (s.checkPower i).requests ≠ s.requests

/-- The filter may fire: it is armed and the robot is not docking. -/
def LowArmed (s : AutoRecharger) : Prop := s.lostPowerOnce = true ∧ s.chargeflag = 0

end AutoRecharger

/-- The node, and the readings of its calls so far. -/
structure Watched where
  node : AutoRecharger
  full : List Reading
  low : List Reading

namespace Watched

def start (carMode : String) (now : ℤ) : Watched :=
  { node := .init carMode now, full := [], low := [] }

def step (w : Watched) (i : Iteration) : Watched :=
  { node := w.node.iterate i
    full := w.full ++ [w.node.fullReading]
    low := w.low ++ [(w.node.afterKey i).lowReading] }

end Watched

/-- A charge is complete only after eleven full readings in a row, and the robot is sent to
the charger only after six low ones. -/
structure Debounced (w : Watched) (i : Iteration) : Prop where
  full : w.node.CompletesCharge i → Steady 11 (w.step i).full
  low : (w.node.afterKey i).NavigatesOnLow i → Steady 6 (w.step i).low

/-- The eleventh full reading that is counted comes when none of the ten calls before it
found the robot unplugged, and a sixth low reading with an armed filter when none of the
five before it found the robot charging. -/
structure Undisturbed (w : Watched) (i : Iteration) : Prop where
  full : 10 ≤ w.node.chargeComplete → w.node.fullReading = .counted → .other ∉ w.full.rtake 10
  low : 5 ≤ w.node.powerLostCount → (w.node.afterKey i).lowReading = .counted →
    (w.node.afterKey i).LowArmed → .other ∉ w.low.rtake 5

namespace AutoRecharger

/-! ### The counts -/

section Counts

variable (s : AutoRecharger) (i : Iteration) (spin : List Callback)

theorem countFull_chargeComplete :
    s.countFull.chargeComplete = next s.chargeComplete s.fullReading := by
  rw [countFull, fullReading]
  split_ifs <;> rfl

@[simp] theorem deliver_chargeComplete :
    (s.deliver spin).chargeComplete = s.chargeComplete := by
  obtain ⟨_, _, _, h, -⟩ := deliver_eq s spin
  rw [h]

@[simp] theorem stopCharge_chargeComplete :
    (s.stopCharge spin).chargeComplete = s.chargeComplete := by
  obtain ⟨_, _, h, -⟩ := stopCharge_eq s spin
  rw [h]

@[simp] theorem setChargeMode_chargeComplete (value : ℕ) :
    (s.setChargeMode value spin).chargeComplete = s.chargeComplete := by
  simp [setChargeMode, send]

@[simp] theorem setChargeMode_powerLostCount (value : ℕ) :
    (s.setChargeMode value spin).powerLostCount = s.powerLostCount := by
  simp [setChargeMode, send]

@[simp] theorem pubRechargerFlag_chargeComplete (setVelflag : Bool) :
    (s.pubRechargerFlag setVelflag spin).chargeComplete = s.chargeComplete := by
  simp [pubRechargerFlag, send]

@[simp] theorem pubRechargerFlag_powerLostCount (setVelflag : Bool) :
    (s.pubRechargerFlag setVelflag spin).powerLostCount = s.powerLostCount := by
  simp [pubRechargerFlag, send]

theorem pressKey_counts :
    (s.pressKey i).chargeComplete = s.chargeComplete ∧
      (s.pressKey i).powerLostCount = s.powerLostCount := by
  rw [pressKey]
  cases i.key with
  | q =>
    dsimp only
    split_ifs
    · simp [pubNavGoalCancel, send]
    · exact ⟨rfl, rfl⟩
  | e => simp
  | t => simp
  | y => simp
  | other => exact ⟨rfl, rfl⟩

theorem goCharging_counts :
    (s.goCharging i).chargeComplete = s.chargeComplete ∧
      (s.goCharging i).powerLostCount = s.powerLostCount := by
  simp [goCharging, pubChargerPosition, pubNavGoalCancel, send]

/-- The filter for low readings may put its own count back. -/
theorem checkPower_counts :
    (s.checkPower i).chargeComplete = s.chargeComplete ∧
      (s.checkPower i).powerLostCount ≤ next s.powerLostCount s.lowReading := by
  rw [checkPower, lowReading]
  split_ifs with hcharging hlow
  · exact ⟨rfl, le_rfl⟩
  · dsimp only
    split_ifs
    · obtain ⟨hfull, hcount⟩ := goCharging_counts { s with powerLostCount := 0 } i
      exact ⟨hfull, hcount.le.trans (Nat.zero_le _)⟩
    · exact ⟨rfl, Nat.zero_le _⟩
    · exact ⟨rfl, le_rfl⟩
  · exact ⟨rfl, le_rfl⟩

theorem navDone_counts :
    (s.navDone i).chargeComplete = s.chargeComplete ∧
      (s.navDone i).powerLostCount = s.powerLostCount := by
  rw [navDone]
  cases i.result with
  | succeeded =>
    dsimp only
    split_ifs
    · simp
    · exact ⟨rfl, rfl⟩
  | canceled => exact ⟨rfl, rfl⟩
  | failed => exact ⟨rfl, rfl⟩
  | unknown => exact ⟨rfl, rfl⟩

theorem navPending_counts :
    (s.navPending i).chargeComplete = s.chargeComplete ∧
      (s.navPending i).powerLostCount = s.powerLostCount := by
  rw [navPending]
  split
  · split_ifs
    · dsimp only
      split_ifs
      · simp [pubNavGoalCancel, send]
      · exact ⟨rfl, rfl⟩
    · exact ⟨rfl, rfl⟩
  · exact ⟨rfl, rfl⟩

theorem watchNavigation_counts :
    (s.watchNavigation i).chargeComplete = s.chargeComplete ∧
      (s.watchNavigation i).powerLostCount = s.powerLostCount := by
  have harm : ∀ u : AutoRecharger,
      u.chargeComplete = s.chargeComplete ∧ u.powerLostCount = s.powerLostCount →
      (if u.robot.charging then { u with lostPowerOnce := true } else u).chargeComplete =
          s.chargeComplete ∧
        (if u.robot.charging then { u with lostPowerOnce := true } else u).powerLostCount =
          s.powerLostCount := by
    intro u hu
    split_ifs
    · exact hu
    · exact hu
  rw [watchNavigation]
  split
  · refine harm _ ?_
    split_ifs
    · exact navDone_counts { s with lastTime := i.later } i
    · exact navPending_counts { s with lastTime := i.later } i
    · exact ⟨rfl, rfl⟩
  · exact ⟨rfl, rfl⟩

theorem checkRed_counts :
    (s.checkRed i).chargeComplete = s.chargeComplete ∧
      (s.checkRed i).powerLostCount = s.powerLostCount := by
  rw [checkRed]
  split_ifs
  · simp [send]
  · exact ⟨rfl, rfl⟩

theorem checkTurn_counts :
    (s.checkTurn i).chargeComplete = s.chargeComplete ∧
      (s.checkTurn i).powerLostCount = s.powerLostCount := by
  rw [checkTurn]
  split_ifs
  · simp
  · exact ⟨rfl, rfl⟩

/-- The end of the charge puts a count above its bound back. -/
theorem checkFull_counts :
    (s.checkFull i).chargeComplete = (if 10 < s.chargeComplete then 0 else s.chargeComplete) ∧
      (s.checkFull i).powerLostCount = s.powerLostCount := by
  rw [checkFull]
  split
  · dsimp only
    split_ifs
    · exact ⟨by simp, by simp⟩
    · exact ⟨rfl, rfl⟩
  · exact ⟨rfl, rfl⟩

theorem afterKey_powerLostCount : (s.afterKey i).powerLostCount = s.powerLostCount := by
  obtain ⟨chargeComplete, hfull⟩ := countFull_eq s
  rw [afterKey, (pressKey_counts _ i).2, hfull]

/-- Up to its test the count of full readings is changed by its own reading only. -/
theorem beforeFull_chargeComplete :
    (s.beforeFull i).chargeComplete = next s.chargeComplete s.fullReading := by
  rw [beforeFull, (checkTurn_counts _ i).1, (checkRed_counts _ i).1,
    (watchNavigation_counts _ i).1, (checkPower_counts _ i).1, afterKey, (pressKey_counts _ i).1,
    countFull_chargeComplete]

theorem beforeFull_powerLostCount_le :
    (s.beforeFull i).powerLostCount ≤ next s.powerLostCount (s.afterKey i).lowReading := by
  rw [beforeFull, (checkTurn_counts _ i).2, (checkRed_counts _ i).2,
    (watchNavigation_counts _ i).2, ← afterKey_powerLostCount s i]
  exact (checkPower_counts _ i).2

/-- **What an iteration makes of the counts.** -/
theorem iterate_counts :
    (s.iterate i).chargeComplete ≤ min 10 (next s.chargeComplete s.fullReading) ∧
      (s.iterate i).powerLostCount ≤ next s.powerLostCount (s.afterKey i).lowReading := by
  have hiterate : s.iterate i = ((s.beforeFull i).checkFull i).deliver i.spin.toList := rfl
  rw [hiterate, deliver_chargeComplete, deliver_powerLostCount, ← beforeFull_chargeComplete s i,
    (checkFull_counts _ i).1, (checkFull_counts _ i).2]
  refine ⟨?_, beforeFull_powerLostCount_le s i⟩
  split_ifs <;> omega

end Counts

/-! ### The two branches -/

section Branches

variable {s : AutoRecharger} {i : Iteration}

theorem completesCharge_iff :
    s.CompletesCharge i ↔ 10 < next s.chargeComplete s.fullReading := by
  rw [CompletesCharge, beforeFull_chargeComplete]

/-- **When the filter for low readings fires.** -/
theorem navigatesOnLow_iff :
    s.NavigatesOnLow i ↔ s.lowReading = .counted ∧ 5 ≤ s.powerLostCount ∧ s.LowArmed := by
  rw [NavigatesOnLow, checkPower, lowReading, LowArmed]
  split_ifs with hcharging hlow
  · exact iff_of_false (by simp) (by simp)
  · dsimp only
    split_ifs with hbound hflag
    · have hlt := asks_goCharging_lt { s with powerLostCount := 0 } i
      refine iff_of_true ?_ ⟨rfl, Nat.le_of_lt_succ hbound.1, hbound.2, hflag⟩
      intro hsame
      exact hlt.ne' (congrArg List.length hsame)
    · exact iff_of_false (fun hne => hne rfl) fun h => hflag h.2.2.2
    · exact iff_of_false (fun hne => hne rfl) fun h => hbound ⟨Nat.lt_succ_of_le h.2.1, h.2.2.1⟩
  · exact iff_of_false (fun hne => hne rfl) (by simp)

end Branches

end AutoRecharger

/-! ### Runs -/

section Runs

variable {w : Watched}

/-- The counts are made of readings, and that of the full ones is below its bound. -/
structure Watched.Backed (w : Watched) : Prop where
  full : Backs w.full w.node.chargeComplete
  low : Backs w.low w.node.powerLostCount
  bound : w.node.chargeComplete ≤ 10

theorem Watched.backed_start (carMode : String) (now : ℤ) : (start carMode now).Backed :=
  ⟨backs_zero _, backs_zero _, Nat.zero_le _⟩

theorem Watched.Backed.step (h : w.Backed) (i : Iteration) : (w.step i).Backed := by
  obtain ⟨hfull, hlow⟩ := w.node.iterate_counts i
  exact ⟨(h.full.next _).mono (hfull.trans (min_le_right _ _)), (h.low.next _).mono hlow,
    hfull.trans (min_le_left _ _)⟩

theorem Watched.Backed.full_iff (h : w.Backed) (i : Iteration) :
    (w.node.CompletesCharge i → Steady 11 (w.step i).full) ↔
      (10 ≤ w.node.chargeComplete → w.node.fullReading = .counted → .other ∉ w.full.rtake 10) := by
  rw [AutoRecharger.completesCharge_iff, Watched.step]
  have hbound := h.bound
  cases hreading : w.node.fullReading with
  | counted =>
    rw [steady_append_counted, next, Nat.lt_succ_iff]
    refine forall_congr' fun hcount => ?_
    rw [h.full.steady_iff hcount]
    simp
  | contrary => exact iff_of_true (fun hlt => absurd hlt (Nat.not_lt_zero _)) (by simp)
  -- nothing is counted, and the count was below the bound before
  | other => exact iff_of_true (fun hlt => absurd hlt hbound.not_gt) (by simp)

theorem Watched.Backed.low_iff (h : w.Backed) (i : Iteration) :
    ((w.node.afterKey i).NavigatesOnLow i → Steady 6 (w.step i).low) ↔
      (5 ≤ w.node.powerLostCount → (w.node.afterKey i).lowReading = .counted →
        (w.node.afterKey i).LowArmed → .other ∉ w.low.rtake 5) := by
  rw [AutoRecharger.navigatesOnLow_iff, AutoRecharger.afterKey_powerLostCount, Watched.step]
  constructor
  · intro hsteady hcount hreading harmed
    have hlast := hsteady ⟨hreading, hcount, harmed⟩
    rw [hreading, steady_append_counted] at hlast
    exact (h.low.steady_iff hcount).mp hlast
  · rintro hother ⟨hreading, hcount, harmed⟩
    rw [hreading, steady_append_counted]
    exact (h.low.steady_iff hcount).mpr (hother hcount hreading harmed)

/-- **When the filters see consecutive readings.**  In any run of the node. -/
theorem debounced_iff (carMode : String) (now : ℤ) (events : List Iteration) :
    Along Watched.step Debounced (.start carMode now) events ↔
      Along Watched.step Undisturbed (.start carMode now) events := by
  refine along_congr (Watched.backed_start carMode now) (fun w i h => h.step i) ?_
  intro w i h
  constructor
  · intro hdebounced
    exact ⟨(h.full_iff i).mp hdebounced.full, (h.low_iff i).mp hdebounced.low⟩
  · intro hundisturbed
    exact ⟨(h.full_iff i).mpr hundisturbed.full, (h.low_iff i).mpr hundisturbed.low⟩

/-- An iteration without a key, with the callback at its end. -/
def idle (spin : Option Callback) : Iteration :=
  { AutoRecharger.report [] with key := .other, spin }

/-- Ten full readings, one without the charger, and the eleventh full one. -/
theorem fullAcrossGap :
    ¬∀ carMode now events, Along Watched.step Debounced (.start carMode now) events := by
  intro hall
  let gap := idle (some (.chargingFlag true)) :: List.replicate 9 (idle none) ++
    [idle (some (.chargingFlag false)), idle (some (.chargingFlag true))]
  have hdebounced : Debounced _ (idle none) :=
    (along_append.mp (hall "mini_mec" 0 (gap ++ [idle none]))).2.1
  have hcomplete :
      (run Watched.step (.start "mini_mec" 0) gap).node.CompletesCharge (idle none) := by
    rw [AutoRecharger.completesCharge_iff]
    decide +kernel
  exact absurd (hdebounced.full hcomplete) (by decide +kernel)

end Runs

end Recharge
