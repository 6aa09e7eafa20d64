/-
The automatic charging node `AutoRecharger` and its main loop.

One iteration of `main` calls `autoRecharger` with the key read and then
`spin_once`.  `autoRecharger` is cut into its consecutive parts, from the count of
full readings to the end of the charge; every part that calls the `/set_charge`
service delivers the topic callbacks that arrive while it waits for the answer.
`sent` collects what the node asks of the chassis and of the navigation.

The clock, the navigation results and the callbacks are inputs.  Prints, sleeps,
the charger marker, the charging current and the charger position are left out;
voltages and angles are rationals.
-/
import Mathlib.Algebra.Order.Field.Rat
import Mathlib.Data.List.Infix

namespace Recharge

/-- `robot['Type']`. -/
inductive RobotType
  | plus
  | mini
  deriving DecidableEq

/-- What the node asks for: a flag for the chassis, a call of `/set_charge`, a
navigation to the charger or its cancellation, a velocity. -/
inductive Command
  | pubRechargerFlag (setVelflag : Bool) (chargeflag : ℕ)
  | setChargeMode (value : ℕ)
  | goToPose
  | cancelTask
  | cmdVel (linearX angularZ : ℚ)
  deriving DecidableEq

/-- A docking request or a navigation to the charger. -/
def Command.isRequest : Command → Bool
  | .pubRechargerFlag _ chargeflag => chargeflag ≠ 0
  | .goToPose => true
  | _ => false

/-- The `robot` dictionary. -/
structure Robot where
  robotType : RobotType
  voltage : ℚ
  charging : Bool
  red : Bool
  rotationZ : ℚ
  carMode : String

/-- The fields of the node. -/
structure AutoRecharger where
  robot : Robot
  navEndZ : ℚ
  startTurn : Bool
  findRedsignal : ℕ
  redCount : UInt8
  chargeflag : ℕ
  lastTime : ℤ
  powerLostCount : ℕ
  lostPowerOnce : Bool
  chargeComplete : ℕ
  lastChargeComplete : ℕ
  starGetNavFeedbackFlag : Bool
  sent : List Command

/-- A message on one of the topics. -/
inductive Callback
  | voltage (data : ℚ)
  | chargingFlag (data : Bool)
  | redFlag (data : UInt8)
  | odom (positionZ : ℚ)

/-- The keys the loop distinguishes. -/
inductive Key
  | q
  | e
  | t
  | y
  | other
  deriving DecidableEq

/-- The results of a navigation task the loop distinguishes. -/
inductive TaskResult
  | succeeded
  | canceled
  | failed
  | unknown
  deriving DecidableEq

/-- What one iteration reads: the key, the clock in nanoseconds when the 1 Hz part is
tested and when it sets `last_time`, the navigation task, the callbacks delivered
during the service calls of each part, and the one of the final `spin_once`. -/
structure Iteration where
  key : Key
  now : ℤ
  later : ℤ
  taskComplete : Bool
  result : TaskResult
  feedback : Option (ℚ × ℚ)
  keySpin : List Callback
  lowSpin : List Callback
  navSpin : List Callback
  redSpin : List Callback
  turnSpin : List Callback
  fullSpin : List Callback
  spin : Option Callback

/-- `'part' in text`. -/
def contains (text part : String) : Bool := decide (part.toList <:+: text.toList)

namespace Robot

/-- The reading that counts as a full battery. -/
def isFull (r : Robot) : Bool :=
  match r.robotType with
  | .plus => 25 < r.voltage
  | .mini => 25 / 2 < r.voltage

/-- The reading that counts as a low battery. -/
def isLow (r : Robot) : Bool :=
  match r.robotType with
  | .plus => r.voltage < 20
  | .mini => r.voltage < 10

end Robot

namespace AutoRecharger

/-- The node when `main` enters its loop. -/
def init (carMode : String) (now : ℤ) : AutoRecharger :=
  { robot :=
      { robotType := if carMode.toList.take 4 = "mini".toList then .mini else .plus
        voltage := 25
        charging := false
        red := false
        rotationZ := 0
        carMode }
    navEndZ := 0
    startTurn := false
    findRedsignal := 0
    redCount := 0
    chargeflag := 0
    lastTime := now
    powerLostCount := 0
    lostPowerOnce := true
    chargeComplete := 0
    lastChargeComplete := 0
    starGetNavFeedbackFlag := false
    sent := [] }

def send (s : AutoRecharger) (command : Command) : AutoRecharger :=
  { s with sent := s.sent ++ [command] }

/-! ### The callbacks -/

/-- `RED_Flag_callback`. -/
def redFlagCallback (s : AutoRecharger) (data : UInt8) : AutoRecharger :=
  let red := decide (0 < data)
  { s with
    redCount := data
    robot.red := red
    findRedsignal :=
      if s.startTurn then if red then s.findRedsignal + 1 else 0 else s.findRedsignal }

/-- A callback. -/
def receive (s : AutoRecharger) : Callback → AutoRecharger
  | .voltage data => { s with robot.voltage := data }
  | .chargingFlag data => { s with robot.charging := data }
  | .redFlag data => s.redFlagCallback data
  | .odom positionZ => { s with robot.rotationZ := positionZ }

/-- The callbacks of a spin. -/
def deliver (s : AutoRecharger) (callbacks : List Callback) : AutoRecharger :=
  callbacks.foldl receive s

/-! ### The requests -/

/-- `set_charge_mode`, with the callbacks that arrive while it spins. -/
def setChargeMode (s : AutoRecharger) (value : ℕ) (spin : List Callback) : AutoRecharger :=
  (s.send (.setChargeMode value)).deliver spin

/-- `Pub_Recharger_Flag`. -/
def pubRechargerFlag (s : AutoRecharger) (setVelflag : Bool) (spin : List Callback) :
    AutoRecharger :=
  (s.send (.pubRechargerFlag setVelflag s.chargeflag)).setChargeMode s.chargeflag spin

/-- `Pub_Charger_Position`. -/
def pubChargerPosition (s : AutoRecharger) : AutoRecharger :=
  { s with starGetNavFeedbackFlag := true }.send .goToPose

/-- `Pub_NavGoal_Cancel`. -/
def pubNavGoalCancel (s : AutoRecharger) : AutoRecharger :=
  { s with starGetNavFeedbackFlag := false }.send .cancelTask

/-- The end of `Stop_Charge`: stop the robot, and drive it off the charger. -/
def leaveCharger (s : AutoRecharger) : AutoRecharger :=
  let s := s.send (.cmdVel 0 0)
  if s.robot.charging then (s.send (.cmdVel (1 / 10) 0)).send (.cmdVel 0 0) else s

/-- `Stop_Charge`. -/
def stopCharge (s : AutoRecharger) (spin : List Callback) : AutoRecharger :=
  let s := s.pubNavGoalCancel
  let s := { s with starGetNavFeedbackFlag := false, lostPowerOnce := true, chargeflag := 0 }
  (s.pubRechargerFlag false spin).leaveCharger

/-! ### The parts of `autoRecharger` -/

/-- Count the full readings while charging. -/
def countFull (s : AutoRecharger) : AutoRecharger :=
  if s.robot.charging then
    { s with chargeComplete := if s.robot.isFull then s.chargeComplete + 1 else 0 }
  else s

/-- The keys. -/
def pressKey (s : AutoRecharger) (i : Iteration) : AutoRecharger :=
  match i.key with
  | .q =>
    -- three signals: the robot already faces the charger
    if 3 ≤ s.redCount then
      let s := s.pubNavGoalCancel
      { s with chargeflag := 1 }.pubRechargerFlag false i.keySpin
    else s.pubChargerPosition
  | .e => s.stopCharge i.keySpin
  | .t => s.setChargeMode 1 i.keySpin
  | .y => s.setChargeMode 0 i.keySpin
  | .other => s

/-- The navigation on a low battery. -/
def goCharging (s : AutoRecharger) (i : Iteration) : AutoRecharger :=
  let s := s.pubNavGoalCancel
  let s := { s with chargeflag := if contains s.robot.carMode "akm" then 2 else 1 }
  let s := (s.pubRechargerFlag true i.lowSpin).pubChargerPosition
  { s with lostPowerOnce := false }

/-- The low battery filter. -/
def checkPower (s : AutoRecharger) (i : Iteration) : AutoRecharger :=
  if s.robot.charging then s
  else if s.robot.isLow then
    let s := { s with powerLostCount := s.powerLostCount + 1 }
    -- the count goes back to 0 even if the node is already docking
    if 5 < s.powerLostCount ∧ s.lostPowerOnce then
      let s := { s with powerLostCount := 0 }
      if s.chargeflag = 0 then s.goCharging i else s
    else s
  else { s with powerLostCount := 0 }

/-- The result of a navigation that is over. -/
def navDone (s : AutoRecharger) (i : Iteration) : AutoRecharger :=
  let s := { s with starGetNavFeedbackFlag := false }
  match i.result with
  | .succeeded =>
    if s.robot.red then { s with chargeflag := 1 }.pubRechargerFlag false i.navSpin
    else
      -- turn on the spot and look for the signal
      { s with navEndZ := s.robot.rotationZ, startTurn := true }.send (.cmdVel 0 (1 / 5))
  | .canceled | .failed | .unknown => s

/-- A navigation that does not arrive. -/
def navPending (s : AutoRecharger) (i : Iteration) : AutoRecharger :=
  match i.feedback with
  | some (distanceRemaining, navigationTime) =>
    if distanceRemaining < 1 / 5 ∧ 120 < navigationTime then
      let s := s.pubNavGoalCancel
      if s.robot.red then { s with chargeflag := 1 }.pubRechargerFlag false i.navSpin else s
    else s
  | none => s

/-- The 1 Hz part. -/
def watchNavigation (s : AutoRecharger) (i : Iteration) : AutoRecharger :=
  if 1000000000 ≤ i.now - s.lastTime then
    let s := { s with lastTime := i.later }
    let s :=
      if s.starGetNavFeedbackFlag then if i.taskComplete then s.navDone i else s.navPending i
      else s
    if s.robot.charging then { s with lostPowerOnce := true } else s
  else s

/-- The infrared signal found by the rotation. -/
def checkRed (s : AutoRecharger) (i : Iteration) : AutoRecharger :=
  if 3 ≤ s.findRedsignal then
    let s := { s with findRedsignal := 0, startTurn := false }.send (.cmdVel 0 0)
    { s with chargeflag := 1 }.pubRechargerFlag false i.redSpin
  else s

/-- The constant `PI`. -/
def pi : ℚ := 3.1415926535897

/-- The rotation is complete. -/
def turned (s : AutoRecharger) : Bool := 2 * pi < |s.robot.rotationZ - s.navEndZ|

/-- The end of the rotation. -/
def checkTurn (s : AutoRecharger) (i : Iteration) : AutoRecharger :=
  if s.startTurn ∧ s.turned then { s with startTurn := false }.stopCharge i.turnSpin else s

/-- The end of the charge. -/
def checkFull (s : AutoRecharger) (i : Iteration) : AutoRecharger :=
  let s :=
    if 10 < s.chargeComplete then
      let s := { s with chargeComplete := 0 }
      if s.lastChargeComplete ≠ 0 then
        { s with lastChargeComplete := 0 }.stopCharge i.fullSpin
      else s
    else s
  { s with lastChargeComplete := s.chargeComplete }

/-- `autoRecharger` up to its keys. -/
def afterKey (s : AutoRecharger) (i : Iteration) : AutoRecharger := s.countFull.pressKey i

/-- `autoRecharger` after its keys. -/
def afterChecks (s : AutoRecharger) (i : Iteration) : AutoRecharger :=
  ((((s.checkPower i).watchNavigation i).checkRed i).checkTurn i).checkFull i

/-- `autoRecharger`. -/
def autoRecharger (s : AutoRecharger) (i : Iteration) : AutoRecharger :=
  (s.afterKey i).afterChecks i

/-- One iteration of `main`. -/
def iterate (s : AutoRecharger) (i : Iteration) : AutoRecharger :=
  (s.autoRecharger i).deliver i.spin.toList

/-- The requests so far. -/
def requests (s : AutoRecharger) : List Command := s.sent.filter Command.isRequest

/-! ### What the parts change -/

@[simp] theorem requests_send (s : AutoRecharger) (command : Command) :
    (s.send command).requests =
      s.requests ++ if command.isRequest then [command] else [] := by
  by_cases h : command.isRequest <;> simp [requests, send, h]

section Deliver

/-- Callbacks change what the node sees, and count infrared signals only during the
rotation. -/
theorem deliver_eq (s : AutoRecharger) (callbacks : List Callback) :
    ∃ robot redCount findRedsignal,
      s.deliver callbacks = { s with robot, redCount, findRedsignal } ∧
        (s.startTurn = false → findRedsignal = s.findRedsignal) := by
  induction callbacks generalizing s with
  | nil => exact ⟨s.robot, s.redCount, s.findRedsignal, rfl, fun _ => rfl⟩
  | cons callback rest ih =>
    obtain ⟨robot, redCount, found, hrest, hkeep⟩ := ih (s.receive callback)
    refine ⟨robot, redCount, found, ?_, ?_⟩
    · show (s.receive callback).deliver rest = _
      rw [hrest]
      cases callback <;> rfl
    · intro hturn
      cases callback with
      | redFlag data => simpa [receive, redFlagCallback, hturn] using hkeep hturn
      | voltage data => exact hkeep hturn
      | chargingFlag data => exact hkeep hturn
      | odom positionZ => exact hkeep hturn

variable (s : AutoRecharger) (callbacks : List Callback)

@[simp] theorem deliver_navEndZ : (s.deliver callbacks).navEndZ = s.navEndZ := by
  obtain ⟨_, _, _, h, -⟩ := deliver_eq s callbacks
  rw [h]

@[simp] theorem deliver_startTurn : (s.deliver callbacks).startTurn = s.startTurn := by
  obtain ⟨_, _, _, h, -⟩ := deliver_eq s callbacks
  rw [h]

@[simp] theorem deliver_chargeflag : (s.deliver callbacks).chargeflag = s.chargeflag := by
  obtain ⟨_, _, _, h, -⟩ := deliver_eq s callbacks
  rw [h]

@[simp] theorem deliver_powerLostCount :
    (s.deliver callbacks).powerLostCount = s.powerLostCount := by
  obtain ⟨_, _, _, h, -⟩ := deliver_eq s callbacks
  rw [h]

@[simp] theorem deliver_lostPowerOnce :
    (s.deliver callbacks).lostPowerOnce = s.lostPowerOnce := by
  obtain ⟨_, _, _, h, -⟩ := deliver_eq s callbacks
  rw [h]

@[simp] theorem deliver_starGetNavFeedbackFlag :
    (s.deliver callbacks).starGetNavFeedbackFlag = s.starGetNavFeedbackFlag := by
  obtain ⟨_, _, _, h, -⟩ := deliver_eq s callbacks
  rw [h]

@[simp] theorem requests_deliver : (s.deliver callbacks).requests = s.requests := by
  obtain ⟨_, _, _, h, -⟩ := deliver_eq s callbacks
  rw [h]
  rfl

variable {s}

theorem deliver_findRedsignal (hturn : s.startTurn = false) :
    (s.deliver callbacks).findRedsignal = s.findRedsignal := by
  obtain ⟨_, _, _, h, hkeep⟩ := deliver_eq s callbacks
  rw [h]
  exact hkeep hturn

/-- What the callbacks show depends on what the node saw and on the rotation only. -/
theorem deliver_congr {t : AutoRecharger} (hrobot : s.robot = t.robot)
    (hturn : s.startTurn = t.startTurn) (hfound : s.findRedsignal = t.findRedsignal) :
    (s.deliver callbacks).robot = (t.deliver callbacks).robot ∧
      (s.deliver callbacks).findRedsignal = (t.deliver callbacks).findRedsignal := by
  induction callbacks generalizing s t with
  | nil => exact ⟨hrobot, hfound⟩
  | cons callback rest ih =>
    cases callback <;>
      exact ih (by simp [receive, redFlagCallback, hrobot]) (by simpa [receive, redFlagCallback])
        (by simp [receive, redFlagCallback, hturn, hfound])

@[simp] theorem requests_setChargeMode (s : AutoRecharger) (value : ℕ) (spin : List Callback) :
    (s.setChargeMode value spin).requests = s.requests := by
  simp [setChargeMode, Command.isRequest]

@[simp] theorem requests_pubRechargerFlag (s : AutoRecharger) (setVelflag : Bool)
    (spin : List Callback) :
    (s.pubRechargerFlag setVelflag spin).requests =
      s.requests ++
        if s.chargeflag = 0 then [] else [.pubRechargerFlag setVelflag s.chargeflag] := by
  by_cases h : s.chargeflag = 0 <;> simp [pubRechargerFlag, Command.isRequest, h]

@[simp] theorem requests_pubChargerPosition (s : AutoRecharger) :
    s.pubChargerPosition.requests = s.requests ++ [.goToPose] := by
  simp [pubChargerPosition, requests, send, Command.isRequest]

@[simp] theorem requests_pubNavGoalCancel (s : AutoRecharger) :
    s.pubNavGoalCancel.requests = s.requests := by
  simp [pubNavGoalCancel, requests, send, Command.isRequest]

end Deliver

section StopCharge

variable (s : AutoRecharger) (spin : List Callback)

@[simp] theorem leaveCharger_requests : s.leaveCharger.requests = s.requests := by
  rw [leaveCharger]
  split <;> simp [Command.isRequest]

theorem leaveCharger_eq : ∃ sent, s.leaveCharger = { s with sent } := by
  rw [leaveCharger]
  split <;> exact ⟨_, rfl⟩

/-- `Stop_Charge` asks for nothing, resets three fields and keeps the others but for
what the callbacks show meanwhile. -/
theorem stopCharge_eq :
    ∃ redCount sent,
      s.stopCharge spin = { s with
        robot := (s.deliver spin).robot
        findRedsignal := (s.deliver spin).findRedsignal
        starGetNavFeedbackFlag := false
        lostPowerOnce := true
        chargeflag := 0
        redCount
        sent } ∧
      sent.filter Command.isRequest = s.requests := by
  let u : AutoRecharger :=
    (({ s.pubNavGoalCancel with
      starGetNavFeedbackFlag := false, lostPowerOnce := true, chargeflag := 0 }.send
        (.pubRechargerFlag false 0)).send (.setChargeMode 0))
  obtain ⟨robot, redCount, found, hdeliver, -⟩ := deliver_eq u spin
  obtain ⟨hrobot, hfound⟩ := deliver_congr spin (s := u) (t := s) rfl rfl rfl
  obtain ⟨sent, hleave⟩ := leaveCharger_eq (u.deliver spin)
  have hstop : s.stopCharge spin = { u.deliver spin with sent } := hleave
  have hrequests : (s.stopCharge spin).requests = s.requests := by
    calc (s.stopCharge spin).requests = (u.deliver spin).requests := leaveCharger_requests _
      _ = u.requests := requests_deliver u spin
      _ = s.requests := by simp [u, pubNavGoalCancel, Command.isRequest, requests, send]
  refine ⟨redCount, sent, ?_, ?_⟩
  · rw [hstop, ← hrobot, ← hfound, hdeliver]
    rfl
  · rw [hstop] at hrequests
    exact hrequests

@[simp] theorem requests_stopCharge : (s.stopCharge spin).requests = s.requests := by
  obtain ⟨_, _, h, hsent⟩ := stopCharge_eq s spin
  rw [h]
  exact hsent

@[simp] theorem stopCharge_chargeflag : (s.stopCharge spin).chargeflag = 0 := by
  obtain ⟨_, _, h, -⟩ := stopCharge_eq s spin
  rw [h]

@[simp] theorem stopCharge_lostPowerOnce : (s.stopCharge spin).lostPowerOnce = true := by
  obtain ⟨_, _, h, -⟩ := stopCharge_eq s spin
  rw [h]

@[simp] theorem stopCharge_starGetNavFeedbackFlag :
    (s.stopCharge spin).starGetNavFeedbackFlag = false := by
  obtain ⟨_, _, h, -⟩ := stopCharge_eq s spin
  rw [h]

@[simp] theorem stopCharge_startTurn : (s.stopCharge spin).startTurn = s.startTurn := by
  obtain ⟨_, _, h, -⟩ := stopCharge_eq s spin
  rw [h]

@[simp] theorem stopCharge_powerLostCount :
    (s.stopCharge spin).powerLostCount = s.powerLostCount := by
  obtain ⟨_, _, h, -⟩ := stopCharge_eq s spin
  rw [h]

variable {s}

theorem stopCharge_findRedsignal (hturn : s.startTurn = false) :
    (s.stopCharge spin).findRedsignal = s.findRedsignal := by
  obtain ⟨_, _, h, -⟩ := stopCharge_eq s spin
  rw [h]
  exact deliver_findRedsignal spin hturn

end StopCharge

end AutoRecharger

end Recharge
