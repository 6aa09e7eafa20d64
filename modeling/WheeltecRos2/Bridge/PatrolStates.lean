/-
The states of the patrol.

An `Operation` is a command of `cmd_loop` or a call of `patrol_tick`, each executed without
interruption, and `Effect` lists everything one of them can do to the patrol
(`operate_effect`).  Between operations the patrol is on a leg of a mission or at rest
(`Settled.operate`), so its fields belong together as `PatrolInvariant` says, and the two
failure branches of `_advance_patrol_goal` are never taken (`patrolInvariant`).

Of the comparisons of floats only `LawfulOrder` is assumed.
-/
import WheeltecRos2.Bridge.MissionOrder

namespace Bridge

open PyNum Mission

/-- What clamping needs of comparisons: `<` implies `<=`, and literals are ordered as they
are written. -/
class LawfulOrder (F : Type) [PyNum F] : Prop where
  le_of_lt : ∀ x y : F, lt x y → le x y
  lit_le_lit : ∀ q q' : ℚ, q ≤ q' → le (lit q : F) (lit q')

instance : LawfulOrder ℚ where
  le_of_lt x y h := by
    have hlt : x < y := of_decide_eq_true h
    exact decide_eq_true (Rat.le_of_lt hlt)
  lit_le_lit q q' h := decide_eq_true h

section Model

variable {F : Type}

/-- A complete operation. -/
inductive Operation (F : Type)
  | command (message : Json F) (now : F)
  | tick (t : Tick F)

variable [PyNum F]

/-- The node after an operation. -/
def Node.operate (n : Node F) : Operation F → Node F
  | .command message now => (n.cmdLoop message now).1
  | .tick t => n.tick t

/-- The operation is a `patrol_start` that is accepted. -/
def Operation.StartsPatrol (n : Node F) : Operation F → Prop
  | .command message now => ∃ payload, decode message = .ok (.str "patrol_start", payload) ∧
      (n.startPatrol payload now).2 = .ok ()
  | .tick _ => False

/-! ### What belongs together -/

/-- The phase of each status. -/
def PatrolStatus.phase : PatrolStatus → Phase
  | .starting => .goHomeStart
  | .running => .patrol
  | .returningHome => .returnHomeEnd
  | .idle | .aborted | .stopped | .failed | .completed => .idle

/-- What holds while a mission is in progress. -/
structure ActivePatrol (p : Patrol F) : Prop where
  two_le_waypoints : 2 ≤ p.waypoints.length
  home : p.home ≠ none
  goalSentAt : p.goalSentAt ≠ none
  totalLoops : 1 ≤ p.totalLoops
  tolerance : le minPatrolWaypointTolerance p.waypointTolerance ∧
    le p.waypointTolerance maxPatrolWaypointTolerance
  counters : p.phase = .patrol →
    (1 ≤ p.currentLoop ∧ p.currentLoop ≤ p.totalLoops) ∧
      0 ≤ p.currentWaypointIndex ∧ p.currentWaypointIndex < p.waypoints.length

/-- How the fields of the patrol belong together. -/
structure PatrolInvariant (p : Patrol F) : Prop where
  phase : p.phase = p.status.phase
  active : p.isPatrolActive → ActivePatrol p
  inactive : p.isPatrolActive = false → p.waypoints = [] ∧ p.goalSentAt = none

/-- The plan is none of the failures of `_advance_patrol_goal`. -/
structure Plan.Sound (plan : Plan F) : Prop where
  waypoints : plan ≠ .stop .failed "No patrol waypoints configured"
  home : plan ≠ .stop .failed "Home position is missing during return phase"
  index : ∀ mark, plan ≠ .indexError mark

/-- **What an operation can do to the patrol.** -/
inductive Effect (n : Node F) (operation : Operation F) : Prop
  | keep (patrol : (n.operate operation).patrol = n.patrol)
      (goals : (n.operate operation).patrolGoals = n.patrolGoals)
      (clock : ∀ t, operation = .tick t → n.patrol.isPatrolActive →
        n.patrol.timedOut n.patrol.goalSentAt t.now = false)
      (noStart : ¬ operation.StartsPatrol n)
  | start (order : PatrolOrder F) (valid : order.Valid) (p : Patrol F) (now : F)
      (starts : operation.StartsPatrol n) (idle : n.patrol.isPatrolActive = false)
      (accept : n.patrol.accept order = some p)
      (after : n.operate operation = Node.publishGoal
        { n with patrol := p.setPatrolState .starting "Navigating to home before patrol" }
        order.home now)
  | stop (status : PatrolStatus) (message : String) (inactive : status.isActive = false)
      (active : n.patrol.isPatrolActive)
      (patrol : (n.operate operation).patrol = n.patrol.stopPatrol status message)
      (goals : (n.operate operation).patrolGoals = n.patrolGoals)
      (noStart : ¬ operation.StartsPatrol n)
  | advance (t : Tick F) (tick : operation = .tick t) (active : n.patrol.isPatrolActive)
      (arrived : n.patrol.arrived n.patrol.waypointTolerance t.pose)
      (after : n.operate operation = n.carryOut t.now n.patrol.snapshot.plan)

end Model

/-! ### The effects -/

section Effects

variable {F : Type} [PyNum F] {n : Node F}

theorem tick_effect (n : Node F) (t : Tick F) : Effect n (.tick t) := by
  by_cases hactive : n.patrol.isPatrolActive
  · by_cases harrived : n.patrol.arrived n.patrol.waypointTolerance t.pose
    · refine .advance t rfl hactive harrived ?_
      simp [Node.operate, Node.tick, Node.patrolTick, hactive, harrived, Node.advancePatrolGoal]
    · by_cases htimeout : n.patrol.timedOut n.patrol.goalSentAt t.now
      · refine .stop .failed "Timeout while waiting to reach patrol goal" rfl hactive ?_ ?_ id <;>
          simp [Node.operate, Node.tick, Node.patrolTick, hactive, harrived, htimeout]
      · have htick : n.operate (.tick t) = n := by
          simp [Node.operate, Node.tick, Node.patrolTick, hactive, harrived, htimeout]
        refine .keep (by rw [htick]) (by rw [htick]) ?_ id
        rintro _ ⟨⟩ -
        simpa using htimeout
  · have htick : n.operate (.tick t) = n := by
      simp [Node.operate, Node.tick, Node.patrolTick, hactive]
    exact .keep (by rw [htick]) (by rw [htick]) (fun _ _ h => absurd h hactive) id

/-- A command that leaves the patrol alone. -/
theorem Effect.of_same {message : Json F} {now : F}
    (h : (n.operate (.command message now)).patrol = n.patrol)
    (hgoals : (n.operate (.command message now)).patrolGoals = n.patrolGoals)
    (hnot : ¬ (Operation.command message now).StartsPatrol n) :
    Effect n (.command message now) :=
  .keep h hgoals nofun hnot

/-- Only the action `patrol_start` starts a patrol. -/
theorem startsPatrol_iff {message action payload : Json F} {now : F} {known : CommandAction}
    (hdecode : decode message = .ok (action, payload))
    (haction : CommandAction.ofJson action = some known) :
    (Operation.command message now).StartsPatrol n ↔
      known = .patrolStart ∧ (n.startPatrol payload now).2 = .ok () := by
  constructor
  · rintro ⟨found, hfound, hok⟩
    rw [hdecode, Except.ok.injEq, Prod.mk.injEq] at hfound
    obtain ⟨rfl, rfl⟩ := hfound
    exact ⟨(Option.some.inj haction).symm, hok⟩
  · rintro ⟨rfl, hok⟩
    refine ⟨payload, ?_, hok⟩
    rw [hdecode]
    rw [CommandAction.ofJson.eq_def] at haction
    split at haction <;> cases haction
    rfl

omit [PyNum F] in
theorem inactive_of_accept {p q : Patrol F} {order : PatrolOrder F}
    (h : p.accept order = some q) : p.isPatrolActive = false := by
  rw [Patrol.accept] at h
  split_ifs at h with hactive
  simpa using hactive

/-! What each branch of `cmd_loop` can do. -/

theorem cmdVel_effect {message payload : Json F} {now : F}
    (hoperate : n.operate (.command message now) = (n.cmdVel payload).1)
    (hnot : ¬ (Operation.command message now).StartsPatrol n) :
    Effect n (.command message now) := by
  have hpatrol : (n.cmdVel payload).1.patrol = n.patrol ∧
      (n.cmdVel payload).1.patrolGoals = n.patrolGoals := by
    rw [Node.cmdVel]
    cases parseTwist payload with
    | error e => exact ⟨rfl, rfl⟩
    | ok twist => exact ⟨rfl, by simp [Node.patrolGoals]⟩
  refine .of_same ?_ ?_ hnot
  · rw [hoperate]
    exact hpatrol.1
  · rw [hoperate]
    exact hpatrol.2

theorem navGoal_effect {message payload : Json F} {now : F}
    (hoperate : n.operate (.command message now) = (n.navGoal payload).1)
    (hnot : ¬ (Operation.command message now).StartsPatrol n) :
    Effect n (.command message now) := by
  set stopped : Node F :=
    if n.patrol.isPatrolActive then
      { n with patrol := n.patrol.stopPatrol .aborted "Interrupted by manual nav goal" }
    else n with hstopped
  have hpatrol : (n.navGoal payload).1.patrol = stopped.patrol ∧
      (n.navGoal payload).1.patrolGoals = stopped.patrolGoals := by
    rw [Node.navGoal]
    cases parseNavGoal payload with
    | error e => exact ⟨rfl, rfl⟩
    | ok goal => exact ⟨rfl, patrolGoals_navGoal _ _⟩
  by_cases hactive : n.patrol.isPatrolActive
  · rw [if_pos hactive] at hstopped
    refine .stop .aborted "Interrupted by manual nav goal" rfl hactive ?_ ?_ hnot
    · rw [hoperate]
      exact hpatrol.1.trans (by rw [hstopped])
    · rw [hoperate]
      exact hpatrol.2.trans (by rw [hstopped, patrolGoals_with])
  · rw [if_neg hactive] at hstopped
    refine .of_same ?_ ?_ hnot
    · rw [hoperate]
      exact hpatrol.1.trans (by rw [hstopped])
    · rw [hoperate]
      exact hpatrol.2.trans (by rw [hstopped])

theorem patrolStart_effect {message payload : Json F} {now : F}
    (hoperate : n.operate (.command message now) = (n.startPatrol payload now).1)
    (hstarts : (Operation.command message now).StartsPatrol n ↔
      (n.startPatrol payload now).2 = .ok ()) :
    Effect n (.command message now) := by
  rcases hstart : (n.startPatrol payload now).2 with e | u
  · have hsame := startPatrol_of_error hstart
    refine .of_same ?_ ?_ fun h => ?_
    · rw [hoperate, hsame]
    · rw [hoperate, hsame]
    · rw [hstarts.mp h] at hstart
      cases hstart
  · obtain ⟨order, p, hparse, haccept, hafter⟩ := startPatrol_of_ok hstart
    exact .start order (parseStart_valid hparse) p now (hstarts.mpr hstart)
      (inactive_of_accept haccept) haccept (hoperate.trans hafter)

theorem patrolStop_effect {message payload : Json F} {now : F}
    (hoperate : n.operate (.command message now) = (n.patrolStop payload).1)
    (hnot : ¬ (Operation.command message now).StartsPatrol n) :
    Effect n (.command message now) := by
  cases hreason : stopReason payload with
  | error e =>
    refine .of_same ?_ ?_ hnot <;> rw [hoperate, Node.patrolStop, hreason]
  | ok reason =>
    by_cases hactive : n.patrol.isPatrolActive
    · refine .stop .stopped reason rfl hactive ?_ ?_ hnot <;>
        simp [hoperate, Node.patrolStop, hreason, hactive]
    · refine .of_same ?_ ?_ hnot <;>
        simp [hoperate, Node.patrolStop, hreason, hactive]

theorem command_effect (n : Node F) (message : Json F) (now : F) :
    Effect n (.command message now) := by
  rcases hdecode : decode message with e | ⟨action, payload⟩
  · refine .of_same ?_ ?_ ?_
    · rw [Node.operate, Node.cmdLoop, hdecode]
    · rw [Node.operate, Node.cmdLoop, hdecode]
    · rintro ⟨payload, hfound, -⟩
      rw [hdecode] at hfound
      cases hfound
  rcases haction : CommandAction.ofJson action with - | known
  · refine .of_same ?_ ?_ ?_
    · simp [Node.operate, Node.cmdLoop, hdecode, haction]
    · simp [Node.operate, Node.cmdLoop, hdecode, haction]
    · rintro ⟨found, hfound, -⟩
      rw [hdecode, Except.ok.injEq, Prod.mk.injEq] at hfound
      rw [hfound.1] at haction
      cases haction
  have hoperate : n.operate (.command message now) = (n.branch now payload known).1 := by
    simp [Node.operate, Node.cmdLoop, hdecode, haction]
  have hstarts : (Operation.command message now).StartsPatrol n ↔
      known = .patrolStart ∧ (n.startPatrol payload now).2 = .ok () :=
    startsPatrol_iff hdecode haction
  have hother : known ≠ .patrolStart → ¬ (Operation.command message now).StartsPatrol n :=
    fun hne h => hne (hstarts.mp h).1
  cases known with
  | cmdVel => exact cmdVel_effect hoperate (hother (by decide))
  | navGoal => exact navGoal_effect hoperate (hother (by decide))
  | patrolStart =>
    refine patrolStart_effect ?_ (hstarts.trans (and_iff_right rfl))
    rw [hoperate, Node.branch, Node.patrolStart]
    rcases n.startPatrol payload now with ⟨m, e | u⟩ <;> rfl
  | patrolStop => exact patrolStop_effect hoperate (hother (by decide))

theorem operate_effect (n : Node F) (operation : Operation F) : Effect n operation := by
  cases operation with
  | command message now => exact command_effect n message now
  | tick t => exact tick_effect n t

end Effects

/-! ### The invariant -/

/-- Between operations, on a leg. -/
structure Patrolling {F : Type} [PyNum F] (m : Mission F) (leg : m.Leg) (p : Patrol F) : Prop where
  carries : m.Carries leg p
  status : p.status = leg.status
  goalSentAt : p.goalSentAt ≠ none
  tolerance : le minPatrolWaypointTolerance m.tolerance ∧
    le m.tolerance maxPatrolWaypointTolerance

/-- Between operations, without a mission. -/
structure AtRest {F : Type} (p : Patrol F) : Prop where
  inactive : p.isPatrolActive = false
  phase : p.phase = .idle
  waypoints : p.waypoints = []
  goalSentAt : p.goalSentAt = none

/-- On a leg or at rest. -/
def Settled {F : Type} [PyNum F] (p : Patrol F) : Prop :=
  (∃ (m : Mission F) (leg : m.Leg), Patrolling m leg p) ∨ AtRest p

section Invariant

variable {F : Type} [PyNum F] {n : Node F} {p : Patrol F} {m : Mission F} {leg : m.Leg}

/-- A clamped value is within the bounds. -/
theorem clamp_bounds [LawfulOrder F] {lo hi : ℚ} (h : lo ≤ hi) (x : F) :
    le (lit lo) (clamp x (lit lo) (lit hi)) ∧ le (clamp x (lit lo) (lit hi)) (lit hi) := by
  have hlo : le (lit lo : F) (lit lo) := LawfulOrder.lit_le_lit lo lo Rat.le_refl
  have hmin : le (pyMin (lit hi) x) (lit hi) := by
    rw [pyMin]
    split_ifs with hlt
    · exact LawfulOrder.le_of_lt _ _ hlt
    · exact LawfulOrder.lit_le_lit hi hi Rat.le_refl
  rw [clamp, pyMax]
  split_ifs with hlt
  · exact ⟨LawfulOrder.le_of_lt _ _ hlt, hmin⟩
  · exact ⟨hlo, LawfulOrder.lit_le_lit lo hi h⟩

theorem Patrolling.isPatrolActive (h : Patrolling m leg p) : p.isPatrolActive := by
  rw [Patrol.isPatrolActive, h.status]
  exact leg.status_isActive

/-- **An operation leaves the patrol settled.** -/
theorem Settled.operate [LawfulOrder F] (h : Settled n.patrol) (operation : Operation F) :
    Settled (n.operate operation).patrol := by
  cases operate_effect n operation with
  | keep patrol =>
    rw [patrol]
    exact h
  | start order valid p now starts idle accept after =>
    have hcarries := carries_of_accept valid accept
    refine .inl ⟨order.mission valid, .goHome, ?_⟩
    rw [after]
    obtain ⟨requested, hclamped⟩ := valid.tolerance_clamped
    exact {
      carries := (hcarries.setPatrolState _ _).recordGoal _ _
      status := rfl
      goalSentAt := by simp [Node.publishGoal, Patrol.recordGoal]
      tolerance := by
        show le _ order.waypointTolerance ∧ le order.waypointTolerance _
        rw [hclamped]
        exact clamp_bounds (by decide +kernel) requested }
  | stop status message inactive active patrol =>
    refine .inr ?_
    rw [patrol]
    exact { inactive := inactive, phase := rfl, waypoints := rfl, goalSentAt := rfl }
  | advance t tick active arrived after =>
    rw [after]
    rcases h with ⟨m, leg, h⟩ | h
    · cases hnext : leg.next with
      | some leg' =>
        obtain ⟨mark, message, hplan, hmark⟩ := h.carries.plan_of_next hnext
        rw [hplan]
        exact .inl ⟨m, leg', {
          carries := ((hmark _ h.carries).setPatrolState _ _).recordGoal _ _
          status := rfl
          goalSentAt := by simp [Node.carryOut, Node.publishGoal, Patrol.recordGoal]
          tolerance := h.tolerance }⟩
      | none =>
        obtain rfl := Leg.next_eq_none_iff.mp hnext
        rw [h.carries.plan_of_last]
        exact .inr { inactive := rfl, phase := rfl, waypoints := rfl, goalSentAt := rfl }
    · rw [h.inactive] at active
      cases active

theorem settled_init : Settled (Node.init : Node F).patrol :=
  .inr ⟨rfl, rfl, rfl, rfl⟩

/-- **Between any two operations the patrol is settled.** -/
theorem settled_run [LawfulOrder F] (operations : List (Operation F)) :
    Settled (Runs.run Node.operate Node.init operations).patrol :=
  Runs.run_invariant (I := fun n : Node F => Settled n.patrol) settled_init
    fun _ operation h => h.operate operation

/-! ### What the invariant says -/

theorem Patrolling.activePatrol (h : Patrolling m leg p) : ActivePatrol p where
  two_le_waypoints := by
    rw [h.carries.waypoints]
    exact m.two_le_waypoints
  home := by
    rw [h.carries.home]
    exact Option.some_ne_none _
  goalSentAt := h.goalSentAt
  totalLoops := by
    have := m.loops_pos
    rw [h.carries.totalLoops]
    omega
  tolerance := by
    rw [h.carries.waypointTolerance]
    exact h.tolerance
  counters := by
    intro hphase
    rw [h.carries.phase] at hphase
    cases leg with
    | visit loop index =>
      have hloop := loop.isLt
      have hindex := index.isLt
      rw [h.carries.currentLoop, h.carries.totalLoops, h.carries.currentWaypointIndex,
        h.carries.waypoints]
      simp only [Leg.currentLoop, Leg.currentWaypointIndex]
      omega
    | goHome | returnHome => cases hphase

theorem Settled.invariant (h : Settled p) : PatrolInvariant p := by
  rcases h with ⟨m, leg, h⟩ | h
  · exact {
      phase := by
        rw [h.carries.phase, h.status]
        cases leg <;> rfl
      active := fun _ => h.activePatrol
      inactive := by
        intro hinactive
        rw [h.isPatrolActive] at hinactive
        cases hinactive }
  · exact {
      phase := by
        have hinactive := h.inactive
        rw [Patrol.isPatrolActive] at hinactive
        rw [h.phase]
        cases hstatus : p.status <;> simp [hstatus, PatrolStatus.isActive] at hinactive <;> rfl
      active := by
        intro hactive
        rw [h.inactive] at hactive
        cases hactive
      inactive := fun _ => ⟨h.waypoints, h.goalSentAt⟩ }

/-- The plan of a settled patrol goes on, completes the mission or does nothing. -/
theorem Settled.plan_sound (h : Settled p) : p.snapshot.plan.Sound := by
  rcases h with ⟨m, leg, h⟩ | h
  · cases hnext : leg.next with
    | some leg' =>
      obtain ⟨mark, message, hplan, -⟩ := h.carries.plan_of_next hnext
      rw [hplan]
      exact ⟨by simp, by simp, by simp⟩
    | none =>
      obtain rfl := Leg.next_eq_none_iff.mp hnext
      rw [h.carries.plan_of_last]
      exact ⟨by simp, by simp, by simp⟩
  · have hplan : p.snapshot.plan = .nothing := by
      simp [Snapshot.plan, Patrol.snapshot, h.phase]
    rw [hplan]
    exact ⟨by simp, by simp, by simp⟩

/-- **The states of the patrol.**  After any operations its fields belong together, and
`_advance_patrol_goal` would not fail. -/
theorem patrolInvariant [LawfulOrder F] (operations : List (Operation F)) :
    PatrolInvariant (Runs.run Node.operate Node.init operations).patrol ∧
      (Runs.run Node.operate Node.init operations).patrol.snapshot.plan.Sound :=
  ⟨(settled_run operations).invariant, (settled_run operations).plan_sound⟩

/-- After the mission of two waypoints was started. -/
theorem patrolInvariant_small :
    PatrolInvariant (Runs.run Node.operate Node.init
        [.command startSmallMission (0 : ℚ)]).patrol ∧
      (Runs.run Node.operate Node.init
        [.command startSmallMission (0 : ℚ)]).patrol.snapshot.plan.Sound :=
  patrolInvariant [.command startSmallMission 0]

end Invariant

end Bridge
