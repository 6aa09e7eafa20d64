/-
The patrol record of the telemetry.

`_set_patrol_state` copies the fields of the patrol into `telemetry_data["patrol"]`, but the
goal that follows is recorded only after that, by `_publish_goal`: from an accepted
`patrol_start` on, `last_goal` is the goal before the one the robot was sent last
(`startedMission_lags`).  The other keys agree after every operation (`mirrorsButGoal_run`).
`telemetryMirrors_iff` is the exact condition on a run.
-/
import WheeltecRos2.Bridge.PatrolStates

namespace Bridge

section Model

variable {F : Type}

/-- The record of the fields as they are. -/
def Patrol.record (p : Patrol F) : PatrolTelemetry F :=
  { status := p.status
    runId := p.runId
    scheduleId := p.scheduleId
    routeId := p.routeId
    currentLoop := p.currentLoop
    totalLoops := p.totalLoops
    currentWaypointIndex := p.currentWaypointIndex
    totalWaypoints := p.waypoints.length
    lastGoal := p.lastGoal
    message := p.message }

/-- The telemetry agrees with the fields on every key. -/
def Mirrors (p : Patrol F) : Prop := p.telemetry = p.record

/-- It agrees on every key but `last_goal`. -/
def MirrorsButGoal (p : Patrol F) : Prop :=
  p.telemetry = { p.record with lastGoal := p.telemetry.lastGoal }

end Model

section Results

variable {F : Type} {p q : Patrol F}

theorem mirrors_iff : Mirrors p ↔ MirrorsButGoal p ∧ p.telemetry.lastGoal = p.lastGoal := by
  constructor
  · intro h
    rw [Mirrors] at h
    rw [MirrorsButGoal, h]
    exact ⟨rfl, rfl⟩
  · rintro ⟨hkeys, hgoal⟩
    rw [MirrorsButGoal, hgoal] at hkeys
    exact hkeys

/-- The copy is complete when it is made. -/
theorem mirrors_setPatrolState (p : Patrol F) (status : PatrolStatus) (message : String) :
    Mirrors (p.setPatrolState status message) := rfl

/-- The goal recorded after the copy shows in the fields only. -/
theorem mirrors_recordGoal_iff {goal : Goal F} {now : F} (h : Mirrors p) :
    Mirrors (p.recordGoal goal now) ↔ p.lastGoal = some goal := by
  obtain ⟨hkeys, hgoal⟩ := mirrors_iff.mp h
  rw [mirrors_iff, and_iff_right (show MirrorsButGoal (p.recordGoal goal now) from hkeys), ← hgoal]
  rfl

theorem lastGoal_of_accept {order : PatrolOrder F} (h : p.accept order = some q) :
    q.lastGoal = p.lastGoal := by
  rw [Patrol.accept] at h
  split_ifs at h
  cases h
  rfl

variable [PyNum F] {n : Node F} {operation : Operation F}

/-- Before the first mission. -/
structure NeverStarted (p : Patrol F) : Prop where
  mirrors : Mirrors p
  inactive : p.isPatrolActive = false
  lastGoal : p.lastGoal = none

theorem neverStarted_init : NeverStarted (Node.init : Node F).patrol where
  mirrors := rfl
  inactive := rfl
  lastGoal := rfl

omit [PyNum F] in
theorem NeverStarted.not_active (h : NeverStarted p) : ¬ p.isPatrolActive := by
  rw [h.inactive]
  exact Bool.false_ne_true

theorem NeverStarted.operate (h : NeverStarted n.patrol) (hnot : ¬ operation.StartsPatrol n) :
    NeverStarted (n.operate operation).patrol := by
  cases operate_effect n operation with
  | keep patrol =>
    rw [patrol]
    exact h
  | start _ _ _ _ starts => exact absurd starts hnot
  | stop _ _ _ active => exact absurd active h.not_active
  | advance _ _ active => exact absurd active h.not_active

/-- **The first mission lags behind.** -/
theorem NeverStarted.not_mirrors (h : NeverStarted n.patrol) (hstarts : operation.StartsPatrol n) :
    ¬ Mirrors (n.operate operation).patrol := by
  cases operate_effect n operation with
  | keep _ _ _ noStart => exact absurd hstarts noStart
  | start order valid p now _ _ accept after =>
    rw [after]
    show ¬ Mirrors ((p.setPatrolState _ _).recordGoal order.home now)
    rw [mirrors_recordGoal_iff (mirrors_setPatrolState _ _ _)]
    show p.lastGoal ≠ some order.home
    rw [lastGoal_of_accept accept, h.lastGoal]
    exact nofun
  | stop _ _ _ active => exact absurd active h.not_active
  | advance _ _ active => exact absurd active h.not_active

/-- **When the telemetry mirrors the patrol.**  It agrees with the fields after every
operation of a run exactly if no `patrol_start` of the run is accepted. -/
theorem telemetryMirrors_iff {F : Type} [PyNum F] (operations : List (Operation F)) :
    (∀ before, before <+: operations →
        Mirrors (Runs.run Node.operate Node.init before).patrol) ↔
      Runs.Along Node.operate (fun n operation => ¬ operation.StartsPatrol n)
        Node.init operations := by
  refine Runs.forall_prefix_iff_along (J := fun n : Node F => NeverStarted n.patrol)
    neverStarted_init (fun _ h => h.mirrors) (fun _ _ h => h.operate) ?_
  intro n operation h hstarts
  exact h.not_mirrors (not_not.mp hstarts)

/-! ### The other keys -/

theorem MirrorsButGoal.operate (h : MirrorsButGoal n.patrol) (hsettled : Settled n.patrol)
    (operation : Operation F) : MirrorsButGoal (n.operate operation).patrol := by
  cases operate_effect n operation with
  | keep patrol =>
    rw [patrol]
    exact h
  | start order valid p now starts idle accept after =>
    rw [after]
    rfl
  | stop status message inactive active patrol =>
    rw [patrol]
    rfl
  | advance t tick active arrived after =>
    have hsound := hsettled.plan_sound
    rw [after]
    cases hplan : n.patrol.snapshot.plan with
    | nothing => exact h
    | stop status message => rfl
    | go mark status message goal => rfl
    | indexError mark => exact absurd hplan (hsound.index mark)

/-- **All keys but `last_goal` agree** after any operations. -/
theorem mirrorsButGoal_run [LawfulOrder F] (operations : List (Operation F)) :
    MirrorsButGoal (Runs.run Node.operate Node.init operations).patrol := by
  have hinit : MirrorsButGoal (Node.init : Node F).patrol := rfl
  have hrun : MirrorsButGoal (Runs.run Node.operate Node.init operations).patrol ∧
      Settled (Runs.run Node.operate Node.init operations).patrol :=
    Runs.run_invariant (I := fun n : Node F => MirrorsButGoal n.patrol ∧ Settled n.patrol)
      ⟨hinit, settled_init⟩
      fun _ operation h => ⟨h.1.operate h.2 operation, h.2.operate operation⟩
  exact hrun.1

/-- The mission of two waypoints is started: the robot is sent home, and `last_goal` is
still unset. -/
theorem startedMission_lags :
    ¬ ∀ before, before <+: [.command startSmallMission (0 : ℚ)] →
      Mirrors (Runs.run Node.operate Node.init before).patrol := by
  intro hmirrors
  have hlast := congrArg PatrolTelemetry.lastGoal (hmirrors _ (List.prefix_refl _))
  revert hlast
  decide +kernel

end Results

end Bridge
