/-
The bridge as two threads: the command thread runs `cmd_loop`, the executor runs
`patrol_tick`, and they interleave at every lock block and every publication.

`TickPc` and `CmdPc` are the points at which a thread can be interrupted, with the
local variables it holds there.  `Sys.step` executes the next block of the thread
the action names.  A thread that is not interrupted does what the methods of
`Patrol` and `Commands` do:

* `patrolTick_uninterrupted` — the blocks of a tick make up `patrolTick`;
* `cmdLoop_uninterrupted` — the blocks of a command make up `cmdLoop`.

The map pose is written by the executor itself, so it is read together with the
block before.  The replies and the actions of other branches are left out.
-/
import WheeltecRos2.Lib.Runs
import WheeltecRos2.Bridge.Mission

namespace Bridge

open PyNum

/-- Where `patrol_tick` stands: before its test, before each of its lock blocks and
publications, or dead of an `IndexError`. -/
inductive TickPc (F : Type)
  | idle
  | checked
  | timed (waypointTolerance : F) (goalSentAt : Option F)
  | advancing
  | marking (mark : Mark) (status : PatrolStatus) (message : String) (goal : Goal F)
  | announcing (status : PatrolStatus) (message : String) (goal : Goal F)
  | sending (goal : Goal F)
  | recording (goal : Goal F)
  | crashing (mark : Mark)
  | crashed
  | stopping (status : PatrolStatus) (message : String)
  | stopped (status : PatrolStatus) (message : String)
  deriving DecidableEq

/-- The two calls of `_stop_patrol` in `cmd_loop`. -/
inductive StopCall (F : Type)
  | patrolStop (reason : String)
  | navGoal (payload : Json F)

namespace StopCall

variable {F : Type}

def status : StopCall F → PatrolStatus
  | .patrolStop _ => .stopped
  | .navGoal _ => .aborted

def message : StopCall F → String
  | .patrolStop reason => reason
  | .navGoal _ => "Interrupted by manual nav goal"

@[simp] theorem status_isActive (call : StopCall F) : call.status.isActive = false := by
  cases call <;> rfl

end StopCall

/-- Where `cmd_loop` stands. -/
inductive CmdPc (F : Type)
  | idle
  | accepting (order : PatrolOrder F)
  | starting (home : Goal F)
  | sendingHome (home : Goal F)
  | recordingHome (home : Goal F)
  | checking (call : StopCall F)
  | stopping (call : StopCall F)
  | stopped (call : StopCall F)
  | navigating (payload : Json F)
  | replying

/-- The node and its two threads. -/
structure Sys (F : Type) where
  node : Node F
  tick : TickPc F
  cmd : CmdPc F

/-- The thread that runs next, with what it reads from outside. -/
inductive Action (F : Type)
  | tick (pose : Option (F × F)) (now : F)
  | cmd (request : Json F) (now : F)

/-- What follows `_stop_patrol` in its branch. -/
def StopCall.resume {F : Type} : StopCall F → CmdPc F
  | .patrolStop _ => .replying
  | .navGoal payload => .navigating payload

section Model

variable {F : Type} [PyNum F]

/-- The executor after it decided on a plan. -/
def TickPc.ofPlan : Plan F → TickPc F
  | .nothing => .idle
  | .stop status message => .stopping status message
  | .go mark status message goal => .marking mark status message goal
  | .indexError mark => .crashing mark

/-- The next block of `patrol_tick`. -/
def tickStep (n : Node F) (pose : Option (F × F)) (now : F) : TickPc F → Node F × TickPc F
  | .idle => (n, if n.patrol.isPatrolActive then .checked else .idle)
  | .checked => (n, .timed n.patrol.waypointTolerance n.patrol.goalSentAt)
  -- the test reads the last goal again, the tolerance and the send time are the copies
  | .timed waypointTolerance goalSentAt =>
    (n,
      if n.patrol.arrived waypointTolerance pose then .advancing
      else if n.patrol.timedOut goalSentAt now then
        .stopping .failed "Timeout while waiting to reach patrol goal"
      else .idle)
  -- from here on the tick follows its snapshot, whatever the other thread writes
  | .advancing => (n, .ofPlan n.patrol.snapshot.plan)
  | .marking mark status message goal =>
    ({ n with patrol := n.patrol.mark mark }, .announcing status message goal)
  | .announcing status message goal =>
    ({ n with patrol := n.patrol.setPatrolState status message }, .sending goal)
  | .sending goal => (n.sendGoal goal, .recording goal)
  | .recording goal => ({ n with patrol := n.patrol.recordGoal goal now }, .idle)
  | .crashing mark => ({ n with patrol := n.patrol.mark mark }, .crashed)
  | .crashed => (n, .crashed)
  | .stopping status message => ({ n with patrol := n.patrol.clear }, .stopped status message)
  | .stopped status message =>
    ({ n with patrol := n.patrol.setPatrolState status message }, .idle)

/-- `cmd_loop` up to the first block of its branch. -/
def receive (n : Node F) (request : Json F) : Node F × CmdPc F :=
  match decode request with
  | .error _ => (n, .idle)
  | .ok (action, payload) =>
    match CommandAction.ofJson action with
    | none => (n, .idle)
    | some .cmdVel => ((n.cmdVel payload).1, .idle)
    | some .navGoal => (n, .checking (.navGoal payload))
    | some .patrolStart =>
      match parseStart payload with
      | .error _ => (n, .idle)
      | .ok order => (n, .accepting order)
    | some .patrolStop =>
      match stopReason payload with
      | .error _ => (n, .idle)
      | .ok reason => (n, .checking (.patrolStop reason))

/-- The next block of `cmd_loop`. -/
def cmdStep (n : Node F) (request : Json F) (now : F) : CmdPc F → Node F × CmdPc F
  | .idle => receive n request
  | .accepting order =>
    match n.patrol.accept order with
    | none => (n, .idle)
    | some p => ({ n with patrol := p }, .starting order.home)
  | .starting home =>
    ({ n with patrol := n.patrol.setPatrolState .starting "Navigating to home before patrol" },
      .sendingHome home)
  | .sendingHome home => (n.sendGoal home, .recordingHome home)
  | .recordingHome home => ({ n with patrol := n.patrol.recordGoal home now }, .replying)
  -- the test and the block of `_stop_patrol` are two steps
  | .checking call => (n, if n.patrol.isPatrolActive then .stopping call else call.resume)
  | .stopping call => ({ n with patrol := n.patrol.clear }, .stopped call)
  | .stopped call =>
    ({ n with patrol := n.patrol.setPatrolState call.status call.message }, call.resume)
  | .navigating payload =>
    match parseNavGoal payload with
    | .error _ => (n, .idle)
    | .ok goal => ({ n with sent := n.sent ++ [.navGoal goal] }, .idle)
  | .replying => (n, .idle)

namespace Sys

/-- The node as it is constructed. -/
def init : Sys F := { node := Node.init, tick := .idle, cmd := .idle }

/-- One block of one thread. -/
def step (s : Sys F) : Action F → Sys F
  | .tick pose now =>
    let r := tickStep s.node pose now s.tick
    { s with node := r.1, tick := r.2 }
  | .cmd request now =>
    let r := cmdStep s.node request now s.cmd
    { s with node := r.1, cmd := r.2 }

end Sys

end Model

/-! ### Blocks that leave the patrol alone -/

section Outside

variable {F : Type} [PyNum F] (n : Node F) (request payload : Json F) (now : F)

/-- Receiving a request touches no patrol field and publishes no goal; the thread
comes to a branch that starts or stops a patrol, or is done. -/
theorem receive_spec :
    (receive n request).1.patrol = n.patrol ∧
    (receive n request).1.patrolGoals = n.patrolGoals ∧
    (receive n request).1.goalMessages = n.goalMessages ∧
    ((receive n request).2 = .idle ∨
      (∃ order, order.Valid ∧ (receive n request).2 = .accepting order) ∨
      ∃ call, (receive n request).2 = .checking call) := by
  rw [receive]
  cases hdecode : decode request with
  | error e => exact ⟨rfl, rfl, rfl, Or.inl rfl⟩
  | ok decoded =>
    obtain ⟨name, payload⟩ := decoded
    cases hname : CommandAction.ofJson name with
    | none => simp [hname]
    | some action =>
      cases action with
      | cmdVel =>
        cases htwist : parseTwist payload with
        | error e => simp [hname, Node.cmdVel, htwist]
        | ok twist => simp [hname, Node.cmdVel, htwist, Node.patrolGoals, Node.goalMessages]
      | navGoal => simp [hname]
      | patrolStart =>
        cases hparse : parseStart payload with
        | error e => simp [hname, hparse]
        | ok order => simp [hname, hparse, parseStart_valid hparse]
      | patrolStop =>
        cases hreason : stopReason payload with
        | error e => simp [hname, hreason]
        | ok reason => simp [hname, hreason]

/-- Publishing a manual goal touches no patrol field and publishes no patrol goal. -/
theorem navigating_spec :
    (cmdStep n request now (.navigating payload)).1.patrol = n.patrol ∧
    (cmdStep n request now (.navigating payload)).1.patrolGoals = n.patrolGoals ∧
    (cmdStep n request now (.navigating payload)).2 = .idle := by
  rw [cmdStep]
  cases hparse : parseNavGoal payload with
  | error e => exact ⟨rfl, rfl, rfl⟩
  | ok goal => exact ⟨rfl, patrolGoals_navGoal n goal, rfl⟩

end Outside

/-! ### Uninterrupted threads -/

section Uninterrupted

variable {F : Type} [PyNum F]

/-- Some number of the same action leads from one state to another. -/
def Repeats (a : Action F) (s s' : Sys F) : Prop :=
  ∃ k, Runs.run Sys.step s (List.replicate k a) = s'

theorem Repeats.of_step {a : Action F} {s t u : Sys F} (hstep : s.step a = u)
    (h : Repeats a u t) : Repeats a s t := by
  obtain ⟨k, hk⟩ := h
  refine ⟨k + 1, ?_⟩
  rw [List.replicate_succ, Runs.run_cons, hstep, hk]

theorem Repeats.refl (a : Action F) (s : Sys F) : Repeats a s s := ⟨0, rfl⟩

variable {s : Sys F} {pose : Option (F × F)} {now : F}

/-- The executor carries out the plan it decided on. -/
theorem carryOut_uninterrupted (pose : Option (F × F)) (now : F) (plan : Plan F)
    (h : s.tick = .ofPlan plan) :
    ∃ pc, (pc = .idle ∨ pc = .crashed) ∧ Repeats (.tick pose now) s
      { s with node := s.node.carryOut now plan, tick := pc } := by
  obtain ⟨n, tick, cmd⟩ := s
  obtain rfl : tick = _ := h
  cases plan with
  | nothing => exact ⟨.idle, Or.inl rfl, .refl _ _⟩
  | stop status message =>
    exact ⟨.idle, Or.inl rfl, .of_step rfl (.of_step rfl (.refl _ _))⟩
  | go mark status message goal =>
    exact ⟨.idle, Or.inl rfl,
      .of_step rfl (.of_step rfl (.of_step rfl (.of_step rfl (.refl _ _))))⟩
  | indexError mark => exact ⟨.crashed, Or.inr rfl, .of_step rfl (.refl _ _)⟩

/-- **A tick that is not interrupted is `patrolTick`.** -/
theorem patrolTick_uninterrupted (hidle : s.tick = .idle) :
    ∃ pc, (pc = .idle ∨ pc = .crashed) ∧ Repeats (.tick pose now) s
      { s with node := s.node.patrolTick pose now, tick := pc } := by
  obtain ⟨n, tick, cmd⟩ := s
  obtain rfl : tick = _ := hidle
  by_cases hactive : n.patrol.isPatrolActive
  -- the three ways through a tick, block by block
  · by_cases harrived : n.patrol.arrived n.patrol.waypointTolerance pose
    · obtain ⟨pc, hpc, hrun⟩ := carryOut_uninterrupted
        (s := ⟨n, .ofPlan n.patrol.snapshot.plan, cmd⟩) pose now n.patrol.snapshot.plan rfl
      refine ⟨pc, hpc, ?_⟩
      have htick : n.patrolTick pose now = n.carryOut now n.patrol.snapshot.plan := by
        simp [Node.patrolTick, hactive, harrived, Node.advancePatrolGoal]
      rw [htick]
      exact .of_step (u := ⟨n, .checked, cmd⟩) (by simp [Sys.step, tickStep, hactive])
        (.of_step rfl (.of_step (u := ⟨n, .advancing, cmd⟩)
          (by simp [Sys.step, tickStep, harrived]) (.of_step rfl hrun)))
    · by_cases htimeout : n.patrol.timedOut n.patrol.goalSentAt now
      · refine ⟨.idle, Or.inl rfl, ?_⟩
        have htick : n.patrolTick pose now =
            { n with patrol :=
                n.patrol.stopPatrol .failed "Timeout while waiting to reach patrol goal" } := by
          simp [Node.patrolTick, hactive, harrived, htimeout]
        rw [htick]
        exact .of_step (u := ⟨n, .checked, cmd⟩) (by simp [Sys.step, tickStep, hactive])
          (.of_step rfl (.of_step
            (u := ⟨n, .stopping .failed "Timeout while waiting to reach patrol goal", cmd⟩)
            (by simp [Sys.step, tickStep, harrived, htimeout])
            (.of_step rfl (.of_step rfl (.refl _ _)))))
      · refine ⟨.idle, Or.inl rfl, ?_⟩
        have htick : n.patrolTick pose now = n := by
          simp [Node.patrolTick, hactive, harrived, htimeout]
        rw [htick]
        exact .of_step (u := ⟨n, .checked, cmd⟩) (by simp [Sys.step, tickStep, hactive])
          (.of_step rfl (.of_step (u := ⟨n, .idle, cmd⟩)
            (by simp [Sys.step, tickStep, harrived, htimeout]) (.refl _ _)))
  · refine ⟨.idle, Or.inl rfl, ?_⟩
    have htick : n.patrolTick pose now = n := by simp [Node.patrolTick, hactive]
    rw [htick]
    exact .refl _ _

variable {request : Json F}

/-- The branches that stop a patrol first: check, stop if active, go on. -/
theorem stopCall_uninterrupted {n : Node F} {tick : TickPc F} (call : StopCall F) :
    Repeats (.cmd request now) ⟨n, tick, .checking call⟩
      ⟨if n.patrol.isPatrolActive then
          { n with patrol := n.patrol.stopPatrol call.status call.message }
        else n, tick, call.resume⟩ := by
  by_cases hactive : n.patrol.isPatrolActive
  · rw [if_pos hactive]
    exact .of_step (u := ⟨n, tick, .stopping call⟩) (by simp [Sys.step, cmdStep, hactive])
      (.of_step rfl (.of_step rfl (.refl _ _)))
  · rw [if_neg hactive]
    exact .of_step (by simp [Sys.step, cmdStep, hactive]) (.refl _ _)

theorem Repeats.trans {a : Action F} {s s' s'' : Sys F} (h : Repeats a s s')
    (h' : Repeats a s' s'') : Repeats a s s'' := by
  obtain ⟨k, rfl⟩ := h
  obtain ⟨k', rfl⟩ := h'
  exact ⟨k + k', by rw [← Runs.run_append, List.replicate_append_replicate]⟩

theorem navGoal_uninterrupted {n : Node F} {tick : TickPc F} (payload : Json F) :
    Repeats (.cmd request now) ⟨n, tick, .checking (.navGoal payload)⟩
      ⟨(n.navGoal payload).1, tick, .idle⟩ := by
  refine (stopCall_uninterrupted (.navGoal payload)).trans (.of_step ?_ (.refl _ _))
  cases hparse : parseNavGoal payload with
  | error e => simp [Sys.step, cmdStep, StopCall.resume, Node.navGoal, hparse, StopCall.status,
      StopCall.message]
  | ok goal => simp [Sys.step, cmdStep, StopCall.resume, Node.navGoal, hparse, StopCall.status,
      StopCall.message]

theorem patrolStop_uninterrupted {n : Node F} {tick : TickPc F} {payload : Json F}
    {reason : String} (hreason : stopReason payload = .ok reason) :
    Repeats (.cmd request now) ⟨n, tick, .checking (.patrolStop reason)⟩
      ⟨(n.patrolStop payload).1, tick, .idle⟩ := by
  refine (stopCall_uninterrupted (.patrolStop reason)).trans (.of_step ?_ (.refl _ _))
  simp [Sys.step, cmdStep, StopCall.resume, Node.patrolStop, hreason, StopCall.status,
    StopCall.message]

theorem patrolStart_uninterrupted {n : Node F} {tick : TickPc F} {payload : Json F}
    {order : PatrolOrder F} (hparse : parseStart payload = .ok order) :
    Repeats (.cmd request now) ⟨n, tick, .accepting order⟩
      ⟨(n.patrolStart payload now).1, tick, .idle⟩ := by
  cases haccept : n.patrol.accept order with
  | none =>
    refine .of_step ?_ (.refl _ _)
    simp [Sys.step, cmdStep, haccept, Node.patrolStart, Node.startPatrol, hparse]
  | some p =>
    have hstart : (n.patrolStart payload now).1 = Node.publishGoal { n with
        patrol := p.setPatrolState .starting "Navigating to home before patrol" }
        order.home now := by
      simp [Node.patrolStart, Node.startPatrol, hparse, haccept]
    rw [hstart]
    exact .of_step (u := ⟨{ n with patrol := p }, tick, .starting order.home⟩)
      (by simp [Sys.step, cmdStep, haccept])
      (.of_step rfl (.of_step rfl (.of_step rfl (.of_step rfl (.refl _ _)))))

/-- **A command that is not interrupted is `cmdLoop`.** -/
theorem cmdLoop_uninterrupted (hidle : s.cmd = .idle) :
    Repeats (.cmd request now) s
      { s with node := (s.node.cmdLoop request now).1 } := by
  obtain ⟨n, tick, cmd⟩ := s
  obtain rfl : cmd = _ := hidle
  cases hdecode : decode request with
  | error e =>
    exact .of_step (by simp [Sys.step, cmdStep, receive, Node.cmdLoop, hdecode]) (.refl _ _)
  | ok decoded =>
    obtain ⟨name, payload⟩ := decoded
    cases hname : CommandAction.ofJson name with
    | none =>
      exact .of_step (by simp [Sys.step, cmdStep, receive, Node.cmdLoop, hdecode, hname])
        (.refl _ _)
    | some action =>
      have hbranch : (n.cmdLoop request now).1 = (n.branch now payload action).1 := by
        simp [Node.cmdLoop, hdecode, hname]
      simp only [hbranch]
      cases action with
      | cmdVel =>
        exact .of_step (by simp [Sys.step, cmdStep, receive, hdecode, hname, Node.branch])
          (.refl _ _)
      | navGoal =>
        exact .of_step (u := ⟨n, tick, .checking (.navGoal payload)⟩)
          (by simp [Sys.step, cmdStep, receive, hdecode, hname]) (navGoal_uninterrupted payload)
      | patrolStart =>
        cases hparse : parseStart payload with
        | error e =>
          refine .of_step ?_ (.refl _ _)
          simp [Sys.step, cmdStep, receive, hdecode, hname, hparse, Node.branch,
            Node.patrolStart, Node.startPatrol]
        | ok order =>
          exact .of_step (u := ⟨n, tick, .accepting order⟩)
            (by simp [Sys.step, cmdStep, receive, hdecode, hname, hparse])
            (patrolStart_uninterrupted hparse)
      | patrolStop =>
        cases hreason : stopReason payload with
        | error e =>
          refine .of_step ?_ (.refl _ _)
          simp [Sys.step, cmdStep, receive, hdecode, hname, hreason, Node.branch,
            Node.patrolStop]
        | ok reason =>
          exact .of_step (u := ⟨n, tick, .checking (.patrolStop reason)⟩)
            (by simp [Sys.step, cmdStep, receive, hdecode, hname, hreason])
            (patrolStop_uninterrupted hreason)

end Uninterrupted

end Bridge
