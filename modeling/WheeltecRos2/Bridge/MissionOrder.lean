/-
A mission without interference: after an accepted `patrol_start`, any sequence of
ticks at any poses and times.

`mission_order` is the result: at every point the goals published are a prefix of
the route, a further goal needs an arrival at the one before it, the counters name
the goal last published, and the mission completes at the arrival that ends it.
It rests on one invariant, `OnLeg` or `Ended`, and on what a tick does in each
(`OnLeg.tick`, `Ended.tick`).
-/
import WheeltecRos2.Lib.Runs
import WheeltecRos2.Bridge.Mission

namespace Bridge

open PyNum Mission

variable {F : Type} [PyNum F]

/-- What a call of `patrol_tick` finds: the map pose and the clock. -/
structure Tick (F : Type) where
  pose : Option (F × F)
  now : F

/-- One call of `patrol_tick`. -/
def Node.tick (n : Node F) (t : Tick F) : Node F := n.patrolTick t.pose t.now

/-- The patrol goals published between two states. -/
def publishedSince (n s : Node F) : List (Goal F) := s.patrolGoals.drop n.patrolGoals.length

/-- The distance `_distance_to_current_goal` computes. -/
def distance (x y : F) (goal : Goal F) : F :=
  sqrt ((x - goal.x) * (x - goal.x) + (y - goal.y) * (y - goal.y))

/-- The tick finds the robot within the mission's tolerance of a goal. -/
def Reached (m : Mission F) (goal : Goal F) (t : Tick F) : Prop :=
  ∃ x y, t.pose = some (x, y) ∧ le (distance x y goal) m.tolerance

/-- What holds of every state `s` after a mission was accepted in `n`. -/
structure InOrder (m : Mission F) (n s : Node F) : Prop where
  goals : publishedSince n s <+: m.route
  counters : s.patrol.phase = .patrol →
    ∃ (loop : Fin m.loops) (index : Fin m.waypoints.length),
      s.patrol.currentLoop = (loop : ℕ) + 1 ∧ s.patrol.currentWaypointIndex = (index : ℕ) ∧
        publishedSince n s = (Leg.visit loop index).sent
  completed : s.patrol.status = .completed → publishedSince n s = m.route

/-- What holds of every tick `t` in such a state. -/
structure TickInOrder (m : Mission F) (n s : Node F) (t : Tick F) : Prop where
  goals : publishedSince n (s.tick t) = publishedSince n s ∨
    ∃ last goal, (publishedSince n s).getLast? = some last ∧ Reached m last t ∧
      publishedSince n (s.tick t) = publishedSince n s ++ [goal]
  completes : ((s.tick t).patrol.status = .completed ∧ s.patrol.status ≠ .completed) ↔
    (s.patrol.isPatrolActive ∧ publishedSince n s = m.route ∧ Reached m m.home t)

/-! ### The invariant -/

/-- The mission is on a leg; `base` was published before it. -/
structure OnLeg (m : Mission F) (base : List (Goal F)) (leg : m.Leg) (s : Node F) : Prop where
  carries : m.Carries leg s.patrol
  status : s.patrol.status = leg.status
  lastGoal : s.patrol.lastGoal = some leg.goal
  patrolGoals : s.patrolGoals = base ++ leg.sent

/-- The mission ended on a leg: it failed, or it completed on the last one. -/
structure Ended (m : Mission F) (base : List (Goal F)) (leg : m.Leg) (s : Node F) : Prop where
  status : s.patrol.status = .failed ∨ s.patrol.status = .completed ∧ leg = .returnHome
  phase : s.patrol.phase = .idle
  patrolGoals : s.patrolGoals = base ++ leg.sent

section Steps

variable {m : Mission F} {base : List (Goal F)} {leg leg' : m.Leg} {n s : Node F} {t : Tick F}

omit [PyNum F] in
theorem OnLeg.isPatrolActive (h : OnLeg m base leg s) : s.patrol.isPatrolActive := by
  rw [Patrol.isPatrolActive, h.status]
  exact leg.status_isActive

theorem OnLeg.arrived_iff (h : OnLeg m base leg s) :
    s.patrol.arrived s.patrol.waypointTolerance t.pose ↔ Reached m leg.goal t := by
  cases hpose : t.pose with
  | none => simp [Patrol.arrived, Patrol.distanceToCurrentGoal, Reached, hpose]
  | some pose =>
    simp [Patrol.arrived, Patrol.distanceToCurrentGoal, h.lastGoal, h.carries.waypointTolerance,
      Reached, distance, hpose, Prod.ext_iff]

/-- An arrival starts the next leg. -/
theorem OnLeg.tick_of_next (h : OnLeg m base leg s) (hreached : Reached m leg.goal t)
    (hnext : leg.next = some leg') : OnLeg m base leg' (s.tick t) := by
  obtain ⟨mark, message, hplan, hmark⟩ := h.carries.plan_of_next hnext
  have htick : s.tick t = Node.publishGoal
      { s with patrol := (s.patrol.mark mark).setPatrolState leg'.status message }
      leg'.goal t.now := by
    simp [Node.tick, Node.patrolTick, h.isPatrolActive, h.arrived_iff.mpr hreached,
      Node.advancePatrolGoal, hplan, Node.carryOut]
  rw [htick]
  exact {
    carries := ((hmark _ h.carries).setPatrolState _ _).recordGoal _ _
    status := rfl
    lastGoal := rfl
    patrolGoals := by
      rw [patrolGoals_publishGoal, patrolGoals_with, h.patrolGoals, Leg.sent_next hnext,
        List.append_assoc] }

/-- The last arrival completes the mission. -/
theorem OnLeg.tick_of_last (h : OnLeg m base .returnHome s) (hreached : Reached m m.home t) :
    Ended m base .returnHome (s.tick t) ∧ (s.tick t).patrol.status = .completed := by
  have htick : s.tick t = { s with
      patrol := s.patrol.stopPatrol .completed "Patrol completed and returned home" } := by
    have harrived := h.arrived_iff.mpr hreached
    simp [Node.tick, Node.patrolTick, h.isPatrolActive, harrived, Node.advancePatrolGoal,
      h.carries.plan_of_last, Node.carryOut]
  rw [htick]
  exact ⟨{ status := Or.inr ⟨rfl, rfl⟩, phase := rfl, patrolGoals := h.patrolGoals }, rfl⟩

/-- Without an arrival the mission stays on its leg or fails. -/
theorem OnLeg.tick_of_not_reached (h : OnLeg m base leg s) (hfar : ¬ Reached m leg.goal t) :
    s.tick t = s ∨ Ended m base leg (s.tick t) ∧ (s.tick t).patrol.status = .failed := by
  have harrived : s.patrol.arrived s.patrol.waypointTolerance t.pose = false := by
    simpa using mt h.arrived_iff.mp hfar
  rcases patrolTick_cases s t.pose t.now with htick | ⟨-, hcontra, -⟩ | ⟨-, -, -, htick⟩
  · exact Or.inl htick
  · rw [harrived] at hcontra
    cases hcontra
  · right
    rw [Node.tick, htick]
    exact ⟨{ status := Or.inl rfl, phase := rfl, patrolGoals := h.patrolGoals }, rfl⟩

/-- After the end a tick does nothing. -/
theorem Ended.tick (h : Ended m base leg s) : s.tick t = s := by
  have hidle : s.patrol.isPatrolActive = false := by
    rcases h.status with hstatus | ⟨hstatus, -⟩ <;> simp [Patrol.isPatrolActive, hstatus,
      PatrolStatus.isActive]
  simp [Node.tick, Node.patrolTick, hidle]

/-- The mission is on some leg or ended on it. -/
def Underway (m : Mission F) (base : List (Goal F)) (s : Node F) : Prop :=
  ∃ leg, OnLeg m base leg s ∨ Ended m base leg s

/-- **One tick keeps the mission under way.** -/
theorem Underway.tick (h : Underway m base s) : Underway m base (s.tick t) := by
  obtain ⟨leg, hleg | hended⟩ := h
  · by_cases hreached : Reached m leg.goal t
    -- an arrival: the next leg, or the end of the mission
    · cases hnext : leg.next with
      | some leg' => exact ⟨leg', Or.inl (hleg.tick_of_next hreached hnext)⟩
      | none =>
        obtain rfl := Leg.next_eq_none_iff.mp hnext
        exact ⟨.returnHome, Or.inr (hleg.tick_of_last hreached).1⟩
    · rcases hleg.tick_of_not_reached hreached with htick | ⟨hended, -⟩
      · rw [htick]
        exact ⟨leg, Or.inl hleg⟩
      · exact ⟨leg, Or.inr hended⟩
  · rw [hended.tick]
    exact ⟨leg, Or.inr hended⟩

/-! ### What the invariant says -/

omit [PyNum F] in
theorem publishedSince_of_append {goals : List (Goal F)}
    (h : s.patrolGoals = n.patrolGoals ++ goals) : publishedSince n s = goals := by
  rw [publishedSince, h, List.drop_left]

omit [PyNum F] in
/-- The counters of a leg of the patrol phase. -/
theorem OnLeg.counters (h : OnLeg m base leg s) (hphase : s.patrol.phase = .patrol) :
    ∃ (loop : Fin m.loops) (index : Fin m.waypoints.length), leg = .visit loop index ∧
      s.patrol.currentLoop = (loop : ℕ) + 1 ∧ s.patrol.currentWaypointIndex = (index : ℕ) := by
  rw [h.carries.phase] at hphase
  cases leg with
  | visit loop index =>
    exact ⟨loop, index, rfl, h.carries.currentLoop, h.carries.currentWaypointIndex⟩
  | goHome => cases hphase
  | returnHome => cases hphase

omit [PyNum F] in
theorem Underway.inOrder (h : Underway m n.patrolGoals s) : InOrder m n s := by
  obtain ⟨leg, hleg | hended⟩ := h
  · have hgoals := publishedSince_of_append hleg.patrolGoals
    exact {
      goals := by rw [hgoals]; exact leg.sent_prefix_route
      counters := by
        intro hphase
        obtain ⟨loop, index, rfl, hloop, hindex⟩ := hleg.counters hphase
        exact ⟨loop, index, hloop, hindex, hgoals⟩
      completed := by
        intro hstatus
        rw [hleg.status] at hstatus
        cases leg <;> cases hstatus }
  · have hgoals := publishedSince_of_append hended.patrolGoals
    exact {
      goals := by rw [hgoals]; exact leg.sent_prefix_route
      counters := by
        intro hphase
        rw [hended.phase] at hphase
        cases hphase
      completed := by
        intro hstatus
        rcases hended.status with hfailed | ⟨-, rfl⟩
        · rw [hfailed] at hstatus
          cases hstatus
        · exact hgoals }

theorem OnLeg.tickInOrder (h : OnLeg m n.patrolGoals leg s) : TickInOrder m n s t := by
  have hgoals := publishedSince_of_append h.patrolGoals
  have hnot : s.patrol.status ≠ .completed := by
    rw [h.status]
    cases leg <;> simp [Leg.status]
  by_cases hreached : Reached m leg.goal t
  · cases hnext : leg.next with
    | some leg' =>
      have hafter := h.tick_of_next hreached hnext
      have hgoals' := publishedSince_of_append hafter.patrolGoals
      obtain ⟨earlier, hearlier⟩ := leg.sent_eq_append_goal
      exact {
        goals := by
          right
          refine ⟨leg.goal, leg'.goal, ?_, hreached, ?_⟩
          · rw [hgoals, hearlier, List.getLast?_concat]
          · rw [hgoals', hgoals, Leg.sent_next hnext]
        completes := by
          constructor
          · rintro ⟨hcompleted, -⟩
            rw [hafter.status] at hcompleted
            cases leg' <;> cases hcompleted
          · rintro ⟨-, hroute, -⟩
            rw [hgoals, Leg.sent_eq_route_iff] at hroute
            rw [hroute] at hnext
            cases hnext }
    | none =>
      obtain rfl := Leg.next_eq_none_iff.mp hnext
      obtain ⟨hended, hcompleted⟩ := h.tick_of_last hreached
      exact {
        goals := by
          left
          rw [publishedSince_of_append hended.patrolGoals, hgoals]
        completes :=
          iff_of_true ⟨hcompleted, hnot⟩ ⟨h.isPatrolActive, hgoals, hreached⟩ }
  -- no arrival: nothing is published and the mission does not complete
  · have hroute : ¬ (publishedSince n s = m.route ∧ Reached m m.home t) := by
      rintro ⟨hroute, hhome⟩
      rw [hgoals, Leg.sent_eq_route_iff] at hroute
      rw [hroute] at hreached
      exact hreached hhome
    rcases h.tick_of_not_reached hreached with htick | ⟨hended, hfailed⟩
    · exact {
        goals := Or.inl (by rw [htick])
        completes := iff_of_false
          (fun hcompleted => hnot (htick ▸ hcompleted.1))
          (fun hlast => hroute hlast.2) }
    · exact {
        goals := Or.inl (by rw [publishedSince_of_append hended.patrolGoals, hgoals])
        completes := iff_of_false
          (fun hcompleted => by rw [hfailed] at hcompleted; cases hcompleted.1)
          (fun hlast => hroute hlast.2) }

theorem Underway.tickInOrder (h : Underway m n.patrolGoals s) : TickInOrder m n s t := by
  obtain ⟨leg, hleg | hended⟩ := h
  · exact hleg.tickInOrder
  · have hinactive : s.patrol.isPatrolActive = false := by
      rcases hended.status with hstatus | ⟨hstatus, -⟩ <;>
        simp [Patrol.isPatrolActive, hstatus, PatrolStatus.isActive]
    exact {
      goals := Or.inl (by rw [hended.tick])
      completes := iff_of_false
        (fun hcompleted => hcompleted.2 (hended.tick (t := t) ▸ hcompleted.1))
        (fun hlast => by rw [hinactive] at hlast; cases hlast.1) }

/-- An accepted `patrol_start` sends the robot home. -/
theorem onLeg_of_start {payload : Json F} {now : F}
    (h : (n.startPatrol payload now).2 = .ok ()) :
    ∃ order, ∃ hvalid : order.Valid, parseStart payload = .ok order ∧
      OnLeg (order.mission hvalid) n.patrolGoals .goHome (n.startPatrol payload now).1 := by
  obtain ⟨order, p, hparse, haccept, hafter⟩ := startPatrol_of_ok h
  have hvalid := parseStart_valid hparse
  have hcarries := carries_of_accept hvalid haccept
  refine ⟨order, hvalid, hparse, ?_⟩
  rw [hafter]
  exact {
    carries := (hcarries.setPatrolState _ _).recordGoal _ _
    status := rfl
    lastGoal := rfl
    patrolGoals := by
      rw [patrolGoals_publishGoal, patrolGoals_with]
      rfl }

end Steps

/-- **Mission order.**  After an accepted `patrol_start` and any ticks, whatever
the poses and the clock, the goals published are in order, and so is whatever
the next tick does. -/
theorem mission_order (n : Node F) (payload : Json F) (now : F)
    (haccepted : (n.startPatrol payload now).2 = .ok ()) :
    ∃ order, ∃ hvalid : order.Valid, parseStart payload = .ok order ∧
      ∀ ticks : List (Tick F),
        let s := Runs.run Node.tick (n.startPatrol payload now).1 ticks
        InOrder (order.mission hvalid) n s ∧
          ∀ t, TickInOrder (order.mission hvalid) n s t := by
  obtain ⟨order, hvalid, hparse, hstart⟩ := onLeg_of_start haccepted
  refine ⟨order, hvalid, hparse, ?_⟩
  intro ticks
  have hunderway : Underway (order.mission hvalid) n.patrolGoals
      (Runs.run Node.tick (n.startPatrol payload now).1 ticks) :=
    Runs.run_invariant ⟨.goHome, Or.inl hstart⟩ (fun _ _ => Underway.tick)
  exact ⟨hunderway.inOrder, fun t => hunderway.tickInOrder⟩

/-- The mission of two waypoints, from the state in which the node starts. -/
theorem mission_order_small :
    ∃ order, ∃ hvalid : order.Valid, parseStart smallMission = .ok order ∧
      ∀ ticks : List (Tick ℚ),
        let s := Runs.run Node.tick ((Node.init : Node ℚ).startPatrol smallMission 0).1 ticks
        InOrder (order.mission hvalid) Node.init s ∧
          ∀ t, TickInOrder (order.mission hvalid) Node.init s t :=
  mission_order Node.init smallMission 0 rfl

end Bridge
