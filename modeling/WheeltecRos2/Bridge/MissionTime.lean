/-
A mission ends in bounded time.

`patrol_tick` fails a mission whose goal was sent more than 180 seconds ago, and only a new
goal sets the time again.  The goals spell the route (`Leg.sent_next`), so every one of them
adds at most the timeout and one pause between ticks: that is the bound `OnTime` carries
from operation to operation (`OnTime.operate`), and `missionTime` is the result.

* `Clock` — the readings of a clock, and what their differences have to be.
* `Timed` — the node and the time of its last tick.
* `Paced` — ticks in the order of time, at most `d` apart.
-/
import Mathlib.Tactic.Linarith
import WheeltecRos2.Bridge.PatrolStates

namespace Bridge

open PyNum Mission

/-- Clock readings as numbers of seconds: for two of them `now_sec - goal_sent_at` is their
difference, and `>` compares it with the timeout as numbers do.  Nothing is asked of other floats;
doubles of today's epoch times, say, subtract exactly. -/
structure Clock (F K : Type) [PyNum F] [Field K] [LinearOrder K] where
  val : F → K
  Reading : F → Prop
  val_sub : ∀ x y, Reading x → Reading y → val (x - y) = val x - val y
  lt_iff : ∀ x y, Reading x → Reading y →
    (lt (lit 180) (x - y) = true ↔ val (lit 180) < val (x - y))
  val_lit : val (lit 180) = 180

/-- Exact readings. -/
def Clock.exact : Clock ℚ ℚ where
  val := id
  Reading _ := True
  val_sub _ _ _ _ := rfl
  lt_iff _ _ _ _ := decide_eq_true_iff
  val_lit := rfl

/-- The node, and the time of its last tick; before the first one, of the start. -/
structure Timed (F : Type) where
  node : Node F
  last : F

section Model

variable {F K : Type} [PyNum F] [Field K] [LinearOrder K]

/-- One operation. -/
def Timed.operate (s : Timed F) (operation : Operation F) : Timed F :=
  { node := s.node.operate operation
    last :=
      match operation with
      | .tick t => t.now
      | .command _ _ => s.last }

/-- A tick reads the clock at most `d` seconds after the last one, and no command starts the
next mission. -/
def Paced (clock : Clock F K) (d : K) (s : Timed F) : Operation F → Prop
  | .tick t => clock.Reading t.now ∧
      clock.val s.last ≤ clock.val t.now ∧ clock.val t.now ≤ clock.val s.last + d
  | .command message now => ¬ (Operation.command message now).StartsPatrol s.node

/-- What holds of a state of the mission `m`, accepted in `n` at the time `start`. -/
structure InTime (clock : Clock F K) (d : K) (m : Mission F) (n : Node F) (start : F)
    (s : Timed F) : Prop where
  goalSentAt : s.node.patrol.isPatrolActive → ∃ sent, s.node.patrol.goalSentAt = some sent ∧
    clock.val s.last - clock.val sent ≤ 180
  goals : (publishedSince n s.node).length ≤ m.waypoints.length * m.loops + 2
  ends : ∀ time, clock.val s.last ≤ time → time ≤ clock.val s.last + d →
    (m.waypoints.length * m.loops + 2) * (180 + d) < time - clock.val start →
    s.node.patrol.isPatrolActive = false

end Model

/-! ### The timeout is a constant -/

section Timeout

variable {F : Type} [PyNum F] {n : Node F}

omit [PyNum F] in
theorem waypointTimeoutSec_of_accept {p q : Patrol F} {order : PatrolOrder F}
    (h : p.accept order = some q) : q.waypointTimeoutSec = p.waypointTimeoutSec := by
  rw [Patrol.accept] at h
  split_ifs at h
  cases h
  rfl

theorem waypointTimeoutSec_carryOut (n : Node F) (now : F) (plan : Plan F) :
    (n.carryOut now plan).patrol.waypointTimeoutSec = n.patrol.waypointTimeoutSec := by
  cases plan with
  | nothing => rfl
  | stop status message => rfl
  | go mark status message goal => cases mark <;> rfl
  | indexError mark => cases mark <;> rfl

theorem waypointTimeoutSec_operate (n : Node F) (operation : Operation F) :
    (n.operate operation).patrol.waypointTimeoutSec = n.patrol.waypointTimeoutSec := by
  cases operate_effect n operation with
  | keep patrol => rw [patrol]
  | start order valid p now starts idle accept after =>
    rw [after]
    show p.waypointTimeoutSec = n.patrol.waypointTimeoutSec
    exact waypointTimeoutSec_of_accept accept
  | stop status message inactive active patrol =>
    rw [patrol]
    rfl
  | advance t tick active arrived after =>
    rw [after, waypointTimeoutSec_carryOut]

theorem waypointTimeoutSec_run (operations : List (Operation F)) :
    (Runs.run Node.operate Node.init operations).patrol.waypointTimeoutSec = lit 180 :=
  Runs.run_invariant (I := fun n : Node F => n.patrol.waypointTimeoutSec = lit 180) rfl
    fun n operation h => (waypointTimeoutSec_operate n operation).trans h

end Timeout

/-! ### The invariant -/

section Invariant

variable {F K : Type} [PyNum F] [Field K] [LinearOrder K]

/-- The mission is on a leg whose goal was sent in time. -/
structure OnTime (clock : Clock F K) (d : K) (start : F) (m : Mission F)
    (base : List (Goal F)) (leg : m.Leg) (s : Timed F) : Prop where
  onLeg : OnLeg m base leg s.node
  timeout : s.node.patrol.waypointTimeoutSec = lit 180
  goal : ∃ sent, s.node.patrol.goalSentAt = some sent ∧ clock.Reading sent ∧
    clock.val s.last - clock.val sent ≤ 180 ∧
      clock.val sent + (180 + d) ≤ clock.val start + leg.sent.length * (180 + d)

/-- The mission ended on a leg, or was stopped. -/
structure MissionOver (m : Mission F) (base : List (Goal F)) (leg : m.Leg) (s : Timed F) :
    Prop where
  inactive : s.node.patrol.isPatrolActive = false
  patrolGoals : s.node.patrolGoals = base ++ leg.sent

/-- On a leg or over. -/
def Timely (clock : Clock F K) (d : K) (start : F) (m : Mission F) (base : List (Goal F))
    (s : Timed F) : Prop :=
  ∃ leg, OnTime clock d start m base leg s ∨ MissionOver m base leg s

variable {clock : Clock F K} {d : K} {start : F} {m : Mission F} {base : List (Goal F)}
  {leg : m.Leg} {n : Node F} {s : Timed F} {operation : Operation F}

/-- After the end only a start publishes. -/
theorem MissionOver.operate (h : MissionOver m base leg s) (hpaced : Paced clock d s operation) :
    MissionOver m base leg (s.operate operation) := by
  cases operate_effect s.node operation with
  | keep patrol goals =>
    exact {
      inactive := by
        show (s.node.operate operation).patrol.isPatrolActive = false
        rw [patrol]
        exact h.inactive
      patrolGoals := goals.trans h.patrolGoals }
  | start order valid p now starts =>
    cases operation with
    | command message time => exact absurd starts hpaced
    | tick t => exact starts.elim
  | stop status message inactive active =>
    rw [h.inactive] at active
    cases active
  | advance t tick active =>
    rw [h.inactive] at active
    cases active

/-- A tick that finds the goal in time. -/
theorem Clock.le_of_not_timedOut {p : Patrol F} {sent now : F} (hsent : clock.Reading sent)
    (hnow : clock.Reading now) (htimeout : p.waypointTimeoutSec = lit 180)
    (hquiet : p.timedOut (some sent) now = false) : clock.val now - clock.val sent ≤ 180 := by
  rw [Patrol.timedOut, htimeout, Bool.eq_false_iff, ne_eq, clock.lt_iff _ _ hnow hsent,
    clock.val_sub _ _ hnow hsent, clock.val_lit] at hquiet
  exact not_lt.mp hquiet

variable [IsStrictOrderedRing K]

/-- **An arrival sends the next goal in time.** -/
theorem OnTime.advance (h : OnTime clock d start m base leg s) {t : Tick F}
    (hpaced : Paced clock d s (.tick t)) (harrived : s.node.patrol.arrived
      s.node.patrol.waypointTolerance t.pose) {leg' : m.Leg} (hnext : leg.next = some leg')
    (hafter : s.node.operate (.tick t) = s.node.carryOut t.now s.node.patrol.snapshot.plan) :
    OnTime clock d start m base leg' (s.operate (.tick t)) := by
  obtain ⟨sent, hsent, -, hlate, hbound⟩ := h.goal
  obtain ⟨mark, message, hplan, -⟩ := h.onLeg.carries.plan_of_next hnext
  have hreached : Reached m leg.goal t := h.onLeg.arrived_iff.mp harrived
  refine {
    onLeg := h.onLeg.tick_of_next hreached hnext
    timeout := (waypointTimeoutSec_operate _ _).trans h.timeout
    goal := ⟨t.now, ?_, hpaced.1, ?_, ?_⟩ }
  · show (s.node.operate (.tick t)).patrol.goalSentAt = some t.now
    rw [hafter, hplan]
    rfl
  · show clock.val t.now - clock.val t.now ≤ 180
    rw [sub_self]
    norm_num
  -- the tick comes `d` after the last one, which found the goal in time
  · have hlength : (leg'.sent.length : K) = leg.sent.length + 1 := by
      rw [Leg.sent_next hnext, List.length_append]
      simp
    have hnow := hpaced.2.2
    rw [hlength]
    linarith

theorem OnTime.operate (h : OnTime clock d start m base leg s)
    (hpaced : Paced clock d s operation) :
    Timely clock d start m base (s.operate operation) := by
  obtain ⟨sent, hsent, hreading, hlate, hbound⟩ := h.goal
  cases operate_effect s.node operation with
  | keep patrol goals quiet =>
    -- the goal stays, and a tick that keeps it has not found it timed out
    refine ⟨leg, .inl {
      onLeg := {
        carries := by
          show m.Carries leg (s.node.operate operation).patrol
          rw [patrol]
          exact h.onLeg.carries
        status := (congrArg Patrol.status patrol).trans h.onLeg.status
        lastGoal := (congrArg Patrol.lastGoal patrol).trans h.onLeg.lastGoal
        patrolGoals := goals.trans h.onLeg.patrolGoals }
      timeout := (congrArg Patrol.waypointTimeoutSec patrol).trans h.timeout
      goal := ⟨sent, (congrArg Patrol.goalSentAt patrol).trans hsent, hreading, ?_, hbound⟩ }⟩
    cases operation with
    | command message now => exact hlate
    | tick t =>
      have hnot := quiet t rfl h.onLeg.isPatrolActive
      rw [hsent] at hnot
      exact Clock.le_of_not_timedOut hreading hpaced.1 h.timeout hnot
  | start order valid p now starts =>
    -- a paced run has no second start
    cases operation with
    | command message time => exact absurd starts hpaced
    | tick t => exact starts.elim
  | stop status message inactive active patrol goals =>
    refine ⟨leg, .inr { inactive := ?_, patrolGoals := goals.trans h.onLeg.patrolGoals }⟩
    show (s.node.operate operation).patrol.isPatrolActive = false
    rw [patrol]
    exact inactive
  | advance t tick active arrived after =>
    subst tick
    cases hnext : leg.next with
    | some leg' => exact ⟨leg', .inl (h.advance hpaced arrived hnext after)⟩
    | none =>
      obtain rfl := Leg.next_eq_none_iff.mp hnext
      obtain ⟨hended, hcompleted⟩ := h.onLeg.tick_of_last (h.onLeg.arrived_iff.mp arrived)
      refine ⟨.returnHome, .inr { inactive := ?_, patrolGoals := hended.patrolGoals }⟩
      show (s.node.tick t).patrol.isPatrolActive = false
      rw [Patrol.isPatrolActive, hcompleted]
      rfl

/-- **An operation keeps the mission in time.** -/
theorem Timely.operate (h : Timely clock d start m base s) (hpaced : Paced clock d s operation) :
    Timely clock d start m base (s.operate operation) := by
  obtain ⟨leg, hleg | hover⟩ := h
  · exact hleg.operate hpaced
  · exact ⟨leg, .inr (hover.operate hpaced)⟩

omit [PyNum F] in
theorem length_sent_le (leg : m.Leg) :
    leg.sent.length ≤ m.waypoints.length * m.loops + 2 := by
  have hroute : m.route.length = m.waypoints.length * m.loops + 2 := by
    simp [Mission.route, Nat.mul_comm]
  rw [← hroute]
  exact leg.sent_prefix_route.length_le

/-- **What the invariant says.** -/
theorem Timely.inTime (h : Timely clock d start m n.patrolGoals s) :
    InTime clock d m n start s := by
  obtain ⟨leg, hleg | hover⟩ := h
  · obtain ⟨sent, hsent, -, hlate, hbound⟩ := hleg.goal
    refine {
      goalSentAt := fun _ => ⟨sent, hsent, hlate⟩
      goals := ?_
      ends := ?_ }
    · rw [publishedSince_of_append hleg.onLeg.patrolGoals]
      exact length_sent_le leg
    -- a mission still on a leg is not yet that old
    · intro time hafter hbefore hold
      have hd : 0 ≤ 180 + d := by linarith
      have hgoals : (leg.sent.length : K) ≤ m.waypoints.length * m.loops + 2 := by
        exact_mod_cast length_sent_le leg
      have hlegs := mul_le_mul_of_nonneg_right hgoals hd
      exfalso
      linarith
  · exact {
      goalSentAt := by
        intro hactive
        rw [hover.inactive] at hactive
        cases hactive
      goals := by
        rw [publishedSince_of_append hover.patrolGoals]
        exact length_sent_le leg
      ends := fun _ _ _ _ => hover.inactive }

/-- **A mission ends in bounded time.**  After any operations a `patrol_start` is accepted;
from then on ticks come at most `d` seconds apart, at any poses and among any other
commands.  Then each goal is left after 180 seconds, at most one goal for every waypoint of
every loop and two for home are published, and the mission is over after 180 seconds and a
pause for each of them. -/
theorem missionTime (clock : Clock F K) (d : K) (before : List (Operation F))
    (payload : Json F) (start : F) (hreading : clock.Reading start)
    (haccepted : ((Runs.run Node.operate Node.init before).startPatrol payload start).2 = .ok ())
    (operations : List (Operation F))
    (hpaced : Runs.Along Timed.operate (Paced clock d)
      ⟨((Runs.run Node.operate Node.init before).startPatrol payload start).1, start⟩ operations) :
    ∃ order, ∃ hvalid : order.Valid, parseStart payload = .ok order ∧
      InTime clock d (order.mission hvalid) (Runs.run Node.operate Node.init before) start
        (Runs.run Timed.operate
          ⟨((Runs.run Node.operate Node.init before).startPatrol payload start).1, start⟩
          operations) := by
  have htimeout := waypointTimeoutSec_run before
  generalize Runs.run Node.operate Node.init before = n at *
  obtain ⟨order, hvalid, hparse, honLeg⟩ := onLeg_of_start haccepted
  obtain ⟨order', p, -, haccept, hafter⟩ := startPatrol_of_ok haccepted
  have hstart : OnTime clock d start (order.mission hvalid) n.patrolGoals .goHome
      ⟨(n.startPatrol payload start).1, start⟩ := {
    onLeg := honLeg
    timeout := by
      rw [hafter]
      show p.waypointTimeoutSec = lit 180
      exact (waypointTimeoutSec_of_accept haccept).trans htimeout
    goal := by
      refine ⟨start, ?_, hreading, ?_, ?_⟩
      · rw [hafter]
        rfl
      · rw [sub_self]
        norm_num
      · simp [Leg.sent] }
  refine ⟨order, hvalid, hparse, ?_⟩
  have htimely : Timely clock d start (order.mission hvalid) n.patrolGoals
      (Runs.run Timed.operate ⟨(n.startPatrol payload start).1, start⟩ operations) :=
    hpaced.invariant ⟨.goHome, .inl hstart⟩ fun _ _ => Timely.operate
  exact htimely.inTime

end Invariant

/-- The mission of two waypoints, with no pose at any tick. -/
theorem missionTime_small :
    ∃ order, ∃ hvalid : order.Valid, parseStart smallMission = .ok order ∧
      InTime Clock.exact 100 (order.mission hvalid) Node.init 0
        (Runs.run Timed.operate ⟨((Node.init : Node ℚ).startPatrol smallMission 0).1, 0⟩
          [.tick ⟨none, 100⟩, .tick ⟨none, 190⟩]) :=
  missionTime Clock.exact 100 [] smallMission 0 trivial rfl [.tick ⟨none, 100⟩, .tick ⟨none, 190⟩]
    (by simp [Paced, Timed.operate, Clock.exact]; norm_num)

end Bridge
