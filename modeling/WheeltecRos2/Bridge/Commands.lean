/-
The commands `cmd_vel`, `nav_goal`, `patrol_start` and `patrol_stop` of
`cmd_loop`, each executed without interruption.

Every branch first converts parts of its payload and then changes the node, so an
exception leaves it as it was; only `nav_goal` stops the active patrol before it
converts `x`, `y` and `theta`.  `rejectedWithoutEffect_iff` is the exact
condition, and `badNavGoal_has_effect` a mission that a malformed goal aborts.

`recv_json`, `send_json`, the publishers and the logger are taken not to raise.
-/
import WheeltecRos2.Bridge.Patrol

namespace Bridge

open PyNum

section Model

variable {F : Type} [PyNum F]

/-- The bounds of the motion commands and of the waypoint tolerance. -/
def maxLinearVelocity : F := lit 1.0
@[inherit_doc maxLinearVelocity] def maxAngularVelocity : F := lit 2.0
@[inherit_doc maxLinearVelocity] def maxPatrolWaypointTolerance : F := lit 2.0
@[inherit_doc maxLinearVelocity] def minPatrolWaypointTolerance : F := lit 0.05

/-! ### The conversions -/

/-- The twist of a `cmd_vel` payload. -/
def parseTwist (payload : Json F) : Except PyError (Twist F) := do
  let linearX ← safeFloat (← payload.get "linear_x" (.float (lit 0.0))) "linear_x"
  let linearX := clamp linearX (lit (-1.0)) maxLinearVelocity
  let linearY ← safeFloat (← payload.get "linear_y" (.float (lit 0.0))) "linear_y"
  let linearY := clamp linearY (lit (-1.0)) maxLinearVelocity
  let angularZ ← safeFloat (← payload.get "angular_z" (.float (lit 0.0))) "angular_z"
  let angularZ := clamp angularZ (lit (-2.0)) maxAngularVelocity
  return { linearX, linearY, angularZ }

/-- The goal of a `nav_goal` payload. -/
def parseNavGoal (payload : Json F) : Except PyError (PoseStamped F) := do
  let x ← safeFloat (← payload.get "x" (.float (lit 0.0))) "x"
  let y ← safeFloat (← payload.get "y" (.float (lit 0.0))) "y"
  let yaw ← safeFloat
    (← payload.get "theta" (← payload.get "yaw" (.float (lit 0.0)))) "yaw"
  return poseStamped x y yaw

/-- The loop of `_start_patrol` over the waypoints, from `index` on. -/
def normalizeWaypoints (index : ℕ) : List (Json F) → Except PyError (List (Goal F))
  | [] => .ok []
  | waypoint :: rest => do
    if waypoint.isDict then
      let x ← safeFloat (← waypoint.get "x" .null) s!"waypoints[{index}].x"
      let y ← safeFloat (← waypoint.get "y" .null) s!"waypoints[{index}].y"
      let yaw ← safeFloat (← waypoint.get "yaw" (.float (lit 0.0))) s!"waypoints[{index}].yaw"
      let goals ← normalizeWaypoints (index + 1) rest
      return { x, y, yaw } :: goals
    else .error (.raised s!"Waypoint {index} must be an object")

/-- The list the `waypoints` field must hold. -/
def waypointList : Json F → Except PyError (List (Json F))
  | .list items =>
    if items.length < 2 then .error (.raised "Patrol requires at least 2 waypoints")
    else .ok items
  | _ => .error (.raised "Patrol requires at least 2 waypoints")

/-- `_start_patrol` up to its lock block. -/
def parseStart (payload : Json F) : Except PyError (PatrolOrder F) := do
  let waypoints := (← payload.get "waypoints" .null).orElse (.list [])
  let loops ← ((← payload.get "loops" .null).orElse (.int 0)).toInt
  let home ← payload.get "home" .null
  let items ← waypointList waypoints
  if loops ≤ 0 then .error (.raised "Patrol loops must be > 0")
  else if home.isDict then
    let normalizedWaypoints ← normalizeWaypoints 0 items
    let x ← safeFloat (← home.get "x" .null) "home.x"
    let y ← safeFloat (← home.get "y" .null) "home.y"
    let yaw ← safeFloat (← home.get "yaw" (.float (lit 0.0))) "home.yaw"
    let tolerance ← safeFloat
      (← payload.get "waypoint_tolerance" (.float (lit 0.25))) "waypoint_tolerance"
    return {
      runId := ← payload.get "run_id" .null
      scheduleId := ← payload.get "schedule_id" .null
      routeId := ← payload.get "route_id" .null
      waypoints := normalizedWaypoints
      home := { x, y, yaw }
      loops
      waypointTolerance := clamp tolerance minPatrolWaypointTolerance maxPatrolWaypointTolerance }
  else .error (.raised "Patrol home is required")

/-- The reason of a `patrol_stop` payload. -/
def stopReason (payload : Json F) : Except PyError String := do
  let reason ← payload.get "reason" .null
  return strOf (reason.orElse (.str "Patrol stopped by command"))

/-! ### The branches -/

/-- The node after a branch and what the branch sends or raises. -/
abbrev Outcome (F : Type) := Node F × Except PyError (Json F)

namespace Node

/-- `_start_patrol`. -/
def startPatrol (n : Node F) (payload : Json F) (now : F) : Node F × Except PyError Unit :=
  match parseStart payload with
  | .error e => (n, .error e)
  | .ok order =>
    match n.patrol.accept order with
    | none => (n, .error (.raised "Patrol mission already running"))
    | some p =>
      let p := p.setPatrolState .starting "Navigating to home before patrol"
      (publishGoal { n with patrol := p } order.home now, .ok ())

/-- The branch `cmd_vel`. -/
def cmdVel (n : Node F) (payload : Json F) : Outcome F :=
  match parseTwist payload with
  | .error e => (n, .error e)
  | .ok twist =>
    ({ n with sent := n.sent ++ [.cmdVel twist] }, .ok (.dict [("status", .str "ok")]))

/-- The branch `nav_goal`. -/
def navGoal (n : Node F) (payload : Json F) : Outcome F :=
  -- the patrol is stopped before the payload is looked at
  let n :=
    if n.patrol.isPatrolActive then
      { n with patrol := n.patrol.stopPatrol .aborted "Interrupted by manual nav goal" }
    else n
  match parseNavGoal payload with
  | .error e => (n, .error e)
  | .ok goal =>
    ({ n with sent := n.sent ++ [.navGoal goal] }, .ok (.dict [("status", .str "goal_sent")]))

/-- The branch `patrol_start`. -/
def patrolStart (n : Node F) (payload : Json F) (now : F) : Outcome F :=
  match n.startPatrol payload now with
  | (n, .error e) => (n, .error e)
  | (n, .ok ()) =>
    (n, .ok (.dict [("status", .str "started"), ("run_id", n.patrol.runId)]))

/-- The branch `patrol_stop`. -/
def patrolStop (n : Node F) (payload : Json F) : Outcome F :=
  match stopReason payload with
  | .error e => (n, .error e)
  | .ok reason =>
    let n :=
      if n.patrol.isPatrolActive then { n with patrol := n.patrol.stopPatrol .stopped reason }
      else n
    (n, .ok (.dict [("status", .str "stopped"), ("run_id", n.patrol.runId)]))

end Node

/-- The actions of `cmd_loop` that this module covers. -/
inductive CommandAction
  | cmdVel
  | navGoal
  | patrolStart
  | patrolStop
  deriving DecidableEq

/-- The test of `action` in `cmd_loop`. -/
def CommandAction.ofJson : Json F → Option CommandAction
  | .str "cmd_vel" => some .cmdVel
  | .str "nav_goal" => some .navGoal
  | .str "patrol_start" => some .patrolStart
  | .str "patrol_stop" => some .patrolStop
  | _ => none

/-- The branch of an action. -/
def Node.branch (n : Node F) (now : F) (payload : Json F) : CommandAction → Outcome F
  | .cmdVel => n.cmdVel payload
  | .navGoal => n.navGoal payload
  | .patrolStart => n.patrolStart payload now
  | .patrolStop => n.patrolStop payload

/-- The message `cmd_loop` answers with: the branch's own, or the error reply of
its `except` clause. -/
def reply : Except PyError (Json F) → Json F
  | .ok message => message
  | .error e => .dict [("status", .str "error"), ("message", .str (e.str F))]

/-- The action and the payload of a message. -/
def decode (message : Json F) : Except PyError (Json F × Json F) := do
  let action ← message.get "action" .null
  let payload ← message.get "payload" (.dict [])
  return (action, payload)

/-- One pass of `cmd_loop`: the node afterwards and the reply.  Actions of other
branches get no reply here. -/
def Node.cmdLoop (n : Node F) (message : Json F) (now : F) : Node F × Option (Json F) :=
  match decode message with
  | .error e => (n, some (reply (.error e)))
  | .ok (action, payload) =>
    match CommandAction.ofJson action with
    | none => (n, none)
    | some action =>
      let outcome := n.branch now payload action
      (outcome.1, some (reply outcome.2))

/-! ### Rejected commands -/

/-- The reply reports an error. -/
def IsError (message : Json F) : Prop :=
  message.get "status" .null = .ok (.str "error")

/-- A command answered by an error has changed nothing and published nothing. -/
def RejectedWithoutEffect (n : Node F) (message : Json F) (now : F) : Prop :=
  ∀ answer, (n.cmdLoop message now).2 = some answer → IsError answer →
    (n.cmdLoop message now).1 = n

/-- A value that converts to a finite float. -/
def FiniteNumber (value : Json F) : Prop := ∃ x, value.toFloat = .ok x ∧ isFinite x

/-- A payload with finite `x`, `y` and `theta` (or `yaw`), where they are given. -/
def NavGoalWellFormed (payload : Json F) : Prop :=
  ∃ fields, payload = .dict fields ∧
    FiniteNumber ((fields.lookup "x").getD (.float (lit 0.0))) ∧
    FiniteNumber ((fields.lookup "y").getD (.float (lit 0.0))) ∧
    FiniteNumber ((fields.lookup "theta").getD ((fields.lookup "yaw").getD (.float (lit 0.0))))

end Model

section Results

variable {F : Type} [PyNum F] {n : Node F} {message payload : Json F} {now : F}

theorem parseNavGoal_isOk_iff :
    (∃ goal, parseNavGoal payload = .ok goal) ↔ NavGoalWellFormed payload := by
  simp only [parseNavGoal, bind_eq_ok, get_eq_ok, safeFloat_eq_ok, NavGoalWellFormed, FiniteNumber]
  constructor
  · rintro ⟨goal, xv, ⟨fields, rfl, rfl⟩, x, hx, yv, ⟨_, h1, rfl⟩, y, hy, wv,
      ⟨_, h2, rfl⟩, tv, ⟨_, h3, rfl⟩, yaw, hyaw, -⟩
    cases h1
    cases h2
    cases h3
    exact ⟨fields, rfl, ⟨x, hx⟩, ⟨y, hy⟩, ⟨yaw, hyaw⟩⟩
  · rintro ⟨fields, rfl, ⟨x, hx⟩, ⟨y, hy⟩, ⟨yaw, hyaw⟩⟩
    exact ⟨poseStamped x y yaw, _, ⟨fields, rfl, rfl⟩, x, hx, _, ⟨fields, rfl, rfl⟩, y, hy, _,
      ⟨fields, rfl, rfl⟩, _, ⟨fields, rfl, rfl⟩, yaw, hyaw, rfl⟩

theorem isError_reply_error (e : PyError) : IsError (reply (F := F) (.error e)) := rfl

/-- A branch that returns does not report an error. -/
theorem not_isError_of_branch {action : CommandAction} {answer : Json F}
    (h : (n.branch now payload action).2 = .ok answer) : ¬ IsError answer := by
  cases action with
  | cmdVel =>
    simp only [Node.branch, Node.cmdVel] at h
    split at h <;> cases h
    simp [IsError, Json.get]
  | navGoal =>
    simp only [Node.branch, Node.navGoal] at h
    split at h <;> cases h
    simp [IsError, Json.get]
  | patrolStart =>
    simp only [Node.branch, Node.patrolStart] at h
    split at h <;> cases h
    simp [IsError, Json.get]
  | patrolStop =>
    simp only [Node.branch, Node.patrolStop] at h
    split at h <;> cases h
    simp [IsError, Json.get]

/-- `_start_patrol` validates its payload and takes the lock before it changes
anything. -/
theorem startPatrol_of_error {e : PyError} (h : (n.startPatrol payload now).2 = .error e) :
    (n.startPatrol payload now).1 = n := by
  rw [Node.startPatrol] at h ⊢
  cases hparse : parseStart payload with
  | error e => rfl
  | ok order =>
    rw [hparse] at h
    cases haccept : n.patrol.accept order with
    | none => simp [haccept]
    | some p => simp [haccept] at h

/-- What an accepted order leads to. -/
theorem startPatrol_of_ok (h : (n.startPatrol payload now).2 = .ok ()) :
    ∃ order p, parseStart payload = .ok order ∧ n.patrol.accept order = some p ∧
      (n.startPatrol payload now).1 = Node.publishGoal
        { n with patrol := p.setPatrolState .starting "Navigating to home before patrol" }
        order.home now := by
  rw [Node.startPatrol] at h ⊢
  cases hparse : parseStart payload with
  | error e => simp [hparse] at h
  | ok order =>
    cases haccept : n.patrol.accept order with
    | none => simp [hparse, haccept] at h
    | some p => exact ⟨order, p, rfl, haccept, by simp [haccept]⟩

/-- `nav_goal` fails on the payloads that are not well formed. -/
theorem navGoal_error_iff :
    (∃ e, (n.navGoal payload).2 = .error e) ↔ ¬ NavGoalWellFormed payload := by
  rw [← parseNavGoal_isOk_iff]
  cases hparse : parseNavGoal payload with
  | error e => simp [Node.navGoal, hparse]
  | ok goal => simp [Node.navGoal, hparse]

/-- On such a payload it has already stopped the patrol. -/
theorem navGoal_of_malformed (hbad : ¬ NavGoalWellFormed payload) :
    (n.navGoal payload).1 =
      if n.patrol.isPatrolActive then
        { n with patrol := n.patrol.stopPatrol .aborted "Interrupted by manual nav goal" }
      else n := by
  obtain ⟨e, he⟩ := navGoal_error_iff (n := n).mpr hbad
  cases hparse : parseNavGoal payload with
  | error e => simp [Node.navGoal, hparse]
  | ok goal => simp [Node.navGoal, hparse] at he

omit [PyNum F] in
/-- Stopping an active patrol shows in its status. -/
theorem stopPatrol_ne {p : Patrol F} {status : PatrolStatus} {reason : String}
    (hactive : p.isPatrolActive) (hstatus : status.isActive = false) :
    p.stopPatrol status reason ≠ p := by
  intro h
  have hnot : (p.stopPatrol status reason).isPatrolActive = false := hstatus
  rw [h, hactive] at hnot
  cases hnot

omit [PyNum F] in
theorem ofJson_eq_navGoal {action : Json F} (h : CommandAction.ofJson action = some .navGoal) :
    action = .str "nav_goal" := by
  rw [CommandAction.ofJson.eq_def] at h
  split at h <;> cases h
  rfl

/-- A branch that raises leaves the node alone, unless it is `nav_goal` stopping
an active patrol. -/
theorem branch_of_error {action : CommandAction} {e : PyError}
    (h : (n.branch now payload action).2 = .error e)
    (hquiet : ¬ (action = .navGoal ∧ n.patrol.isPatrolActive)) :
    (n.branch now payload action).1 = n := by
  cases action with
  | cmdVel =>
    simp only [Node.branch, Node.cmdVel] at h ⊢
    cases hparse : parseTwist payload with
    | error e => rfl
    | ok twist => simp [hparse] at h
  | navGoal =>
    -- it failed to convert the goal, after a stop that an idle patrol does not notice
    have hbad := navGoal_error_iff.mp ⟨e, h⟩
    have hidle : ¬ n.patrol.isPatrolActive := fun hactive => hquiet ⟨rfl, hactive⟩
    rw [Node.branch, navGoal_of_malformed hbad, if_neg hidle]
  | patrolStart =>
    have hleft := @startPatrol_of_error F _ n payload now
    simp only [Node.branch, Node.patrolStart] at h ⊢
    rcases hstart : n.startPatrol payload now with ⟨m, e | u⟩
    · rw [hstart] at hleft
      exact hleft rfl
    · rw [hstart] at h
      cases h
  | patrolStop =>
    simp only [Node.branch, Node.patrolStop] at h ⊢
    cases hreason : stopReason payload with
    | error e => rfl
    | ok reason => simp [hreason] at h

/-- **When a rejected command has no effect.**  Every error reply leaves the
whole patrol state and the publications as they were, except for a `nav_goal`
that reaches an active patrol with a payload that is no object with finite
coordinates. -/
theorem rejectedWithoutEffect_iff (n : Node F) (message : Json F) (now : F) :
    RejectedWithoutEffect n message now ↔
      ¬ (n.patrol.isPatrolActive ∧
        ∃ payload, decode message = .ok (.str "nav_goal", payload) ∧
          ¬ NavGoalWellFormed payload) := by
  constructor
  · rintro hreject ⟨hactive, payload, hdecode, hbad⟩
    obtain ⟨e, he⟩ := navGoal_error_iff (n := n).mpr hbad
    have hloop : n.cmdLoop message now = ((n.navGoal payload).1, some (reply (.error e))) := by
      simp [Node.cmdLoop, hdecode, CommandAction.ofJson, Node.branch, he]
    have hsame : (n.navGoal payload).1 = n := by
      have := hreject (reply (.error e)) (by rw [hloop]) (isError_reply_error e)
      rwa [hloop] at this
    rw [navGoal_of_malformed hbad, if_pos hactive] at hsame
    exact stopPatrol_ne hactive rfl (congrArg Node.patrol hsame)
  · intro hquiet answer hanswer herror
    rw [Node.cmdLoop] at hanswer ⊢
    cases hdecode : decode message with
    | error e => rfl
    | ok request =>
      obtain ⟨action, payload⟩ := request
      cases haction : CommandAction.ofJson action with
      | none => simp [haction]
      | some known =>
        simp only [hdecode, haction, Option.some.injEq] at hanswer ⊢
        cases hbranch : (n.branch now payload known).2 with
        | ok sent =>
          rw [hbranch] at hanswer
          subst hanswer
          exact absurd herror (not_isError_of_branch hbranch)
        | error e =>
          by_cases hnav : known = .navGoal ∧ n.patrol.isPatrolActive
          · -- the malformed payloads are excluded, the others do not raise
            obtain ⟨rfl, hactive⟩ := hnav
            have hname : action = .str "nav_goal" := ofJson_eq_navGoal haction
            refine absurd ⟨hactive, payload, by rw [hdecode, hname], ?_⟩ hquiet
            exact navGoal_error_iff.mp ⟨e, hbranch⟩
          · exact branch_of_error hbranch hnav

end Results

/-! ### A malformed goal aborts a mission -/

/-- A patrol of two waypoints and one loop, home at the origin. -/
def smallMission : Json ℚ :=
  .dict [
    ("waypoints", .list [
      .dict [("x", .int 1), ("y", .int 0)],
      .dict [("x", .int 2), ("y", .int 0)]]),
    ("loops", .int 1),
    ("home", .dict [("x", .int 0), ("y", .int 0)])]

/-- What `_start_patrol` reads from it. -/
def smallOrder : PatrolOrder ℚ :=
  { runId := .null
    scheduleId := .null
    routeId := .null
    waypoints := [⟨(1 : ℤ), (0 : ℤ), lit 0.0⟩, ⟨(2 : ℤ), (0 : ℤ), lit 0.0⟩]
    home := ⟨(0 : ℤ), (0 : ℤ), lit 0.0⟩
    loops := 1
    waypointTolerance := clamp (lit 0.25) minPatrolWaypointTolerance maxPatrolWaypointTolerance }

example : parseStart smallMission = .ok smallOrder := rfl

/-- The command that starts it. -/
def startSmallMission : Json ℚ :=
  .dict [("action", .str "patrol_start"), ("payload", smallMission)]

/-- A `nav_goal` without a usable `x`. -/
def badNavGoal : Json ℚ :=
  .dict [("action", .str "nav_goal"), ("payload", .dict [("x", .str "abc")])]

/-- The reply to `badNavGoal` is an error and the mission is aborted. -/
theorem badNavGoal_has_effect :
    ¬ RejectedWithoutEffect (Node.init.cmdLoop startSmallMission 0).1 badNavGoal 0 := by
  intro hreject
  have hsame := hreject _ rfl rfl
  have hstatus := congrArg (fun n => n.patrol.status) hsame
  revert hstatus
  decide +kernel

end Bridge
