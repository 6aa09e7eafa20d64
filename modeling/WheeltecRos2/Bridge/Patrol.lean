/-
The patrol state of the bridge and the functions that change it.

Every `with self._patrol_lock` block of the source is one definition here, so
that `Threads` can interleave the blocks and this module can run them one after
another: `startPatrol`, `stopPatrol`, `advancePatrolGoal` and `patrolTick` are
the source's methods, executed without interruption.

* `Patrol` — the `_patrol_*` fields and the telemetry record.
* `plan` — what `_advance_patrol_goal` does with its snapshot.
* `patrolTick_cases` — everything one tick can do.

Time stamps of messages and of the telemetry record are left out.
-/
import WheeltecRos2.Bridge.Python
import Mathlib.Data.List.Basic

namespace Bridge

open PyNum

/-- `_patrol_status`. -/
inductive PatrolStatus
  | idle
  | starting
  | running
  | returningHome
  | aborted
  | stopped
  | failed
  | completed
  deriving DecidableEq

/-- The statuses of a mission in progress. -/
def PatrolStatus.isActive : PatrolStatus → Bool
  | .starting | .running | .returningHome => true
  | _ => false

/-- `_patrol_phase`. -/
inductive Phase
  | idle
  | goHomeStart
  | patrol
  | returnHomeEnd
  deriving DecidableEq

/-- A waypoint, the home position or `_patrol_last_goal`. -/
structure Goal (F : Type) where
  x : F
  y : F
  yaw : F
  deriving DecidableEq

/-- The fields the node sets in a `PoseStamped`. -/
structure PoseStamped (F : Type) where
  frameId : String
  x : F
  y : F
  qz : F
  qw : F
  deriving DecidableEq

/-- The fields the node sets in a `Twist`. -/
structure Twist (F : Type) where
  linearX : F
  linearY : F
  angularZ : F
  deriving DecidableEq

/-- What the node published.  Both kinds of goal go to `goal_pub`; they are kept
apart by the code that sent them. -/
inductive Published (F : Type)
  | patrolGoal (goal : Goal F) (message : PoseStamped F)
  | navGoal (message : PoseStamped F)
  | cmdVel (twist : Twist F)
  deriving DecidableEq

/-- `telemetry_data["patrol"]`. -/
structure PatrolTelemetry (F : Type) where
  status : PatrolStatus
  runId : Json F
  scheduleId : Json F
  routeId : Json F
  currentLoop : ℤ
  totalLoops : ℤ
  currentWaypointIndex : ℤ
  totalWaypoints : ℕ
  lastGoal : Option (Goal F)
  message : Option String

/-- The `_patrol_*` fields. -/
structure Patrol (F : Type) where
  status : PatrolStatus
  phase : Phase
  runId : Json F
  scheduleId : Json F
  routeId : Json F
  waypoints : List (Goal F)
  home : Option (Goal F)
  totalLoops : ℤ
  currentLoop : ℤ
  currentWaypointIndex : ℤ
  waypointTolerance : F
  goalSentAt : Option F
  waypointTimeoutSec : F
  lastGoal : Option (Goal F)
  message : Option String
  telemetry : PatrolTelemetry F

/-- The part of the node that patrol and motion commands touch. -/
structure Node (F : Type) where
  patrol : Patrol F
  sent : List (Published F)

section Model

variable {F : Type} [PyNum F]

/-- `_quat_from_yaw`. -/
def quatFromYaw (yaw : F) : F × F := (sin (yaw / lit 2), cos (yaw / lit 2))

/-- The `goal_pose` message of a position and a heading. -/
def poseStamped (x y yaw : F) : PoseStamped F :=
  { frameId := "map", x, y, qz := (quatFromYaw yaw).1, qw := (quatFromYaw yaw).2 }

/-- The message `_publish_goal` sends. -/
def Goal.message (goal : Goal F) : PoseStamped F := poseStamped goal.x goal.y goal.yaw

/-- `items[i]`: an index below zero counts from the end. -/
def pyIndex {α : Type} (items : List α) (i : ℤ) : Option α :=
  if 0 ≤ i then items[i.toNat]?
  else if 0 ≤ items.length + i then items[(items.length + i).toNat]?
  else none

theorem pyIndex_natCast {α : Type} (items : List α) (i : ℕ) :
    pyIndex items (i : ℤ) = items[i]? := by
  simp [pyIndex]

theorem pyIndex_get {α : Type} {items : List α} {i : ℕ} (h : i < items.length) :
    pyIndex items (i : ℤ) = some (items.get ⟨i, h⟩) := by
  rw [pyIndex_natCast, List.getElem?_eq_getElem h, List.get_eq_getElem]

/-- What `_advance_patrol_goal` writes before it publishes the next goal. -/
inductive Mark
  | firstWaypoint
  | waypoint (index : ℤ)
  | loop (loop : ℤ)
  | returnHome
  deriving DecidableEq

/-- What `_advance_patrol_goal` decides from its snapshot: nothing, a call of
`_stop_patrol`, a mark with the status, message and goal that follow it, or a
mark with the `IndexError` that follows it. -/
inductive Plan (F : Type)
  | nothing
  | stop (status : PatrolStatus) (message : String)
  | go (mark : Mark) (status : PatrolStatus) (message : String) (goal : Goal F)
  | indexError (mark : Mark)
  deriving DecidableEq

/-- The local copies of `_advance_patrol_goal`. -/
structure Snapshot (F : Type) where
  phase : Phase
  totalLoops : ℤ
  waypoints : List (Goal F)
  currentLoop : ℤ
  currentWaypointIndex : ℤ
  home : Option (Goal F)

/-- The body of `_advance_patrol_goal` after its snapshot. -/
def Snapshot.plan (s : Snapshot F) : Plan F :=
  let total := s.waypoints.length
  let totalLoops := s.totalLoops
  match s.phase with
  | .goHomeStart =>
    match s.waypoints with
    | [] => .stop .failed "No patrol waypoints configured"
    | waypoint :: _ =>
      .go .firstWaypoint .running s!"Loop 1/{totalLoops}, waypoint 1/{total}" waypoint
  | .patrol =>
    -- the waypoints of a loop, the loops, and then home
    if s.currentWaypointIndex < total - 1 then
      let nextIndex := s.currentWaypointIndex + 1
      let currentLoop := s.currentLoop
      match pyIndex s.waypoints nextIndex with
      | some waypoint =>
        .go (.waypoint nextIndex) .running
          s!"Loop {currentLoop}/{totalLoops}, waypoint {nextIndex + 1}/{total}" waypoint
      | none => .indexError (.waypoint nextIndex)
    else if s.currentLoop < totalLoops then
      let nextLoop := s.currentLoop + 1
      match pyIndex s.waypoints 0 with
      | some waypoint =>
        .go (.loop nextLoop) .running s!"Loop {nextLoop}/{totalLoops}, waypoint 1/{total}" waypoint
      | none => .indexError (.loop nextLoop)
    else
      match s.home with
      | none => .stop .failed "Home position is missing during return phase"
      | some home => .go .returnHome .returningHome "All loops complete, returning home" home
  | .returnHomeEnd => .stop .completed "Patrol completed and returned home"
  | .idle => .nothing

/-- What `_start_patrol` has validated before it takes the lock. -/
structure PatrolOrder (F : Type) where
  runId : Json F
  scheduleId : Json F
  routeId : Json F
  waypoints : List (Goal F)
  home : Goal F
  loops : ℤ
  waypointTolerance : F

namespace Patrol

/-- The fields as `__init__` sets them. -/
def init : Patrol F :=
  { status := .idle
    phase := .idle
    runId := .null
    scheduleId := .null
    routeId := .null
    waypoints := []
    home := none
    totalLoops := 0
    currentLoop := 0
    currentWaypointIndex := -1
    waypointTolerance := lit 0.25
    goalSentAt := none
    waypointTimeoutSec := lit 180
    lastGoal := none
    message := none
    telemetry :=
      { status := .idle
        runId := .null
        scheduleId := .null
        routeId := .null
        currentLoop := 0
        totalLoops := 0
        currentWaypointIndex := -1
        totalWaypoints := 0
        lastGoal := none
        message := none } }

/-! ### The lock blocks -/

/-- `_set_patrol_state`. -/
def setPatrolState (p : Patrol F) (status : PatrolStatus) (message : String) : Patrol F :=
  { p with
    status
    message := some message
    telemetry :=
      { status
        runId := p.runId
        scheduleId := p.scheduleId
        routeId := p.routeId
        currentLoop := p.currentLoop
        totalLoops := p.totalLoops
        currentWaypointIndex := p.currentWaypointIndex
        totalWaypoints := p.waypoints.length
        lastGoal := p.lastGoal
        message := some message } }

/-- `_is_patrol_active`. -/
def isPatrolActive (p : Patrol F) : Bool := p.status.isActive

/-- The lock block of `_publish_goal`. -/
def recordGoal (p : Patrol F) (goal : Goal F) (now : F) : Patrol F :=
  { p with lastGoal := some goal, goalSentAt := some now }

/-- The lock block of `_start_patrol`; `none` stands for its `ValueError`. -/
def accept (p : Patrol F) (order : PatrolOrder F) : Option (Patrol F) :=
  if p.isPatrolActive then none
  else some
    { p with
      runId := order.runId
      scheduleId := order.scheduleId
      routeId := order.routeId
      waypoints := order.waypoints
      home := some order.home
      totalLoops := order.loops
      currentLoop := 0
      currentWaypointIndex := -1
      waypointTolerance := order.waypointTolerance
      phase := .goHomeStart }

/-- The lock block of `_stop_patrol`. -/
def clear (p : Patrol F) : Patrol F :=
  { p with
    phase := .idle
    waypoints := []
    totalLoops := 0
    currentLoop := 0
    currentWaypointIndex := -1
    goalSentAt := none }

/-- The first lock block of `_advance_patrol_goal`. -/
def snapshot (p : Patrol F) : Snapshot F :=
  { phase := p.phase
    totalLoops := p.totalLoops
    waypoints := p.waypoints
    currentLoop := p.currentLoop
    currentWaypointIndex := p.currentWaypointIndex
    home := p.home }

/-- The second lock block of `_advance_patrol_goal`. -/
def mark (p : Patrol F) : Mark → Patrol F
  | .firstWaypoint => { p with phase := .patrol, currentLoop := 1, currentWaypointIndex := 0 }
  | .waypoint index => { p with currentWaypointIndex := index }
  | .loop loop => { p with currentLoop := loop, currentWaypointIndex := 0 }
  | .returnHome => { p with phase := .returnHomeEnd }

/-! ### The methods, uninterrupted -/

/-- `_stop_patrol`. -/
def stopPatrol (p : Patrol F) (status : PatrolStatus) (message : String) : Patrol F :=
  p.clear.setPatrolState status message

/-- `_distance_to_current_goal`. -/
def distanceToCurrentGoal (p : Patrol F) (pose : Option (F × F)) : Option F :=
  match p.lastGoal, pose with
  | some goal, some (x, y) =>
    let dx := x - goal.x
    let dy := y - goal.y
    some (sqrt (dx * dx + dy * dy))
  | _, _ => none

/-- The test `dist is not None and dist <= waypoint_tolerance`. -/
def arrived (p : Patrol F) (waypointTolerance : F) (pose : Option (F × F)) : Bool :=
  match p.distanceToCurrentGoal pose with
  | some dist => le dist waypointTolerance
  | none => false

/-- The test that ends a tick whose goal was sent too long ago. -/
def timedOut (p : Patrol F) (goalSentAt : Option F) (now : F) : Bool :=
  match goalSentAt with
  | some sent => lt p.waypointTimeoutSec (now - sent)
  | none => false

end Patrol

namespace Node

/-- The node before its first command. -/
def init : Node F := { patrol := Patrol.init, sent := [] }

/-- `goal_pub.publish` in `_publish_goal`. -/
def sendGoal (n : Node F) (goal : Goal F) : Node F :=
  { n with sent := n.sent ++ [.patrolGoal goal goal.message] }

/-- `_publish_goal`. -/
def publishGoal (n : Node F) (goal : Goal F) (now : F) : Node F :=
  -- the goal is out before the lock is taken to record it
  let n := n.sendGoal goal
  { n with patrol := n.patrol.recordGoal goal now }

/-- Carry out a plan. -/
def carryOut (n : Node F) (now : F) : Plan F → Node F
  | .nothing => n
  | .stop status message => { n with patrol := n.patrol.stopPatrol status message }
  | .go mark status message goal =>
    publishGoal { n with patrol := (n.patrol.mark mark).setPatrolState status message } goal now
  | .indexError mark => { n with patrol := n.patrol.mark mark }

/-- `_advance_patrol_goal`. -/
def advancePatrolGoal (n : Node F) (now : F) : Node F :=
  n.carryOut now n.patrol.snapshot.plan

/-- `patrol_tick` at the map pose `pose` and time `now`. -/
def patrolTick (n : Node F) (pose : Option (F × F)) (now : F) : Node F :=
  let p := n.patrol
  if p.isPatrolActive then
    if p.arrived p.waypointTolerance pose then n.advancePatrolGoal now
    else if p.timedOut p.goalSentAt now then
      { n with
        patrol := p.stopPatrol .failed "Timeout while waiting to reach patrol goal" }
    else n
  else n

/-- The patrol goals published so far. -/
def patrolGoals (n : Node F) : List (Goal F) :=
  n.sent.filterMap fun
    | .patrolGoal goal _ => some goal
    | _ => none

/-- The messages published on `goal_pose`, whoever sent them. -/
def goalMessages (n : Node F) : List (PoseStamped F) :=
  n.sent.filterMap fun
    | .patrolGoal _ message | .navGoal message => some message
    | .cmdVel _ => none

end Node

end Model

/-! ### What the blocks change -/

section Fields

variable {F : Type} (p : Patrol F) (n : Node F) (goal : Goal F) (status : PatrolStatus)
  (message : String)

@[simp] theorem isPatrolActive_mark (mark : Mark) :
    (p.mark mark).isPatrolActive = p.isPatrolActive := by
  cases mark <;> rfl

@[simp] theorem plan_snapshot_clear : p.clear.snapshot.plan = .nothing := rfl

@[simp] theorem patrolGoals_with (q : Patrol F) :
    Node.patrolGoals { n with patrol := q } = n.patrolGoals := rfl

@[simp] theorem patrolGoals_navGoal (pose : PoseStamped F) :
    Node.patrolGoals { n with sent := n.sent ++ [.navGoal pose] } = n.patrolGoals := by
  simp [Node.patrolGoals]

variable [PyNum F]

@[simp] theorem patrolGoals_sendGoal :
    (n.sendGoal goal).patrolGoals = n.patrolGoals ++ [goal] := by
  simp [Node.patrolGoals, Node.sendGoal]

@[simp] theorem patrolGoals_publishGoal (now : F) :
    (n.publishGoal goal now).patrolGoals = n.patrolGoals ++ [goal] := by
  simp [Node.publishGoal]

@[simp] theorem goalMessages_sendGoal :
    (n.sendGoal goal).goalMessages = n.goalMessages ++ [goal.message] := by
  simp [Node.goalMessages, Node.sendGoal]

end Fields

/-- **What a tick can do.**  Nothing, carry out the plan after an arrival, or
fail the mission after a timeout. -/
theorem patrolTick_cases {F : Type} [PyNum F] (n : Node F) (pose : Option (F × F)) (now : F) :
    n.patrolTick pose now = n ∨
    (n.patrol.isPatrolActive ∧ n.patrol.arrived n.patrol.waypointTolerance pose ∧
      n.patrolTick pose now = n.carryOut now n.patrol.snapshot.plan) ∨
    (n.patrol.isPatrolActive ∧ n.patrol.arrived n.patrol.waypointTolerance pose = false ∧
      n.patrol.timedOut n.patrol.goalSentAt now ∧
      n.patrolTick pose now = { n with
        patrol := n.patrol.stopPatrol .failed "Timeout while waiting to reach patrol goal" }) := by
  by_cases hactive : n.patrol.isPatrolActive
  · by_cases harrived : n.patrol.arrived n.patrol.waypointTolerance pose
    · right; left
      exact ⟨hactive, harrived,
        by simp [Node.patrolTick, hactive, harrived, Node.advancePatrolGoal]⟩
    · by_cases htimeout : n.patrol.timedOut n.patrol.goalSentAt now
      · right; right
        exact ⟨hactive, by simpa using harrived, htimeout,
          by simp [Node.patrolTick, hactive, harrived, htimeout]⟩
      · left
        simp [Node.patrolTick, hactive, harrived, htimeout]
  · left
    simp [Node.patrolTick, hactive]

end Bridge
