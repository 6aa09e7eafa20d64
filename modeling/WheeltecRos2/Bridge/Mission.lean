/-
What a patrol is for: a `Mission` sends the robot home, along its waypoints a
given number of times, and home again.

A `Leg` of a mission is the goal it is under way to.  The patrol fields carry a
leg (`Carries`), and `_advance_patrol_goal` takes a patrol that carries a leg to
the next one:

* `plan_of_next` — the plan marks and publishes the next leg;
* `plan_of_last` — after the return home the plan completes the mission;
* `Leg.sent_next`, `Leg.sent_prefix_route` — leg by leg, the goals spell the route.
-/
import WheeltecRos2.Bridge.Commands

namespace Bridge

/-- An accepted patrol. -/
structure Mission (F : Type) where
  home : Goal F
  waypoints : List (Goal F)
  loops : ℕ
  tolerance : F
  two_le_waypoints : 2 ≤ waypoints.length
  loops_pos : 0 < loops

namespace Mission

variable {F : Type} (m : Mission F)

theorem waypoints_pos : 0 < m.waypoints.length :=
  lt_of_lt_of_le Nat.zero_lt_two m.two_le_waypoints

/-- Home, the waypoints once for each loop, home. -/
def route : List (Goal F) :=
  m.home :: (List.replicate m.loops m.waypoints).flatten ++ [m.home]

/-- The goal a mission is under way to. -/
inductive Leg
  | goHome
  | visit (loop : Fin m.loops) (index : Fin m.waypoints.length)
  | returnHome

namespace Leg

variable {m}

def goal : m.Leg → Goal F
  | .goHome => m.home
  | .visit _ index => m.waypoints.get index
  | .returnHome => m.home

/-- The goals sent up to and including a leg. -/
def sent : m.Leg → List (Goal F)
  | .goHome => [m.home]
  | .visit loop index =>
    m.home :: (List.replicate loop m.waypoints).flatten ++ m.waypoints.take (index + 1)
  | .returnHome => m.route

/-- The leg after this one. -/
def next : m.Leg → Option m.Leg
  | .goHome => some (.visit ⟨0, m.loops_pos⟩ ⟨0, m.waypoints_pos⟩)
  | .visit loop index =>
    if hindex : index + 1 < m.waypoints.length then some (.visit loop ⟨index + 1, hindex⟩)
    else if hloop : loop + 1 < m.loops then
      some (.visit ⟨loop + 1, hloop⟩ ⟨0, m.waypoints_pos⟩)
    else some .returnHome
  | .returnHome => none

/-! ### How the fields record a leg -/

def phase : m.Leg → Phase
  | .goHome => .goHomeStart
  | .visit _ _ => .patrol
  | .returnHome => .returnHomeEnd

def status : m.Leg → PatrolStatus
  | .goHome => .starting
  | .visit _ _ => .running
  | .returnHome => .returningHome

/-- `_patrol_current_loop`. -/
def currentLoop : m.Leg → ℤ
  | .goHome => 0
  | .visit loop _ => loop + 1
  | .returnHome => m.loops

/-- `_patrol_current_waypoint_index`. -/
def currentWaypointIndex : m.Leg → ℤ
  | .goHome => -1
  | .visit _ index => index
  | .returnHome => m.waypoints.length - 1

theorem status_isActive (leg : m.Leg) : leg.status.isActive := by
  cases leg <;> rfl

theorem next_eq_none_iff {leg : m.Leg} : leg.next = none ↔ leg = .returnHome := by
  cases leg with
  | goHome => simp [next]
  | visit loop index =>
    simp only [next]
    split_ifs <;> simp
  | returnHome => simp [next]

/-! ### The legs spell the route -/

theorem replicate_succ_flatten {α : Type} (k : ℕ) (l : List α) :
    (List.replicate (k + 1) l).flatten = (List.replicate k l).flatten ++ l := by
  rw [List.replicate_succ', List.flatten_append]
  simp

/-- **One leg adds one goal.** -/
theorem sent_next {leg leg' : m.Leg} (h : leg.next = some leg') :
    leg'.sent = leg.sent ++ [leg'.goal] := by
  cases leg with
  | goHome =>
    cases h
    simp [sent, goal, List.take_one, List.head?_eq_getElem?, m.waypoints_pos]
  | visit loop index =>
    simp only [next] at h
    -- within a loop, into the next loop, and from the last one home
    split_ifs at h with hindex hloop
    · cases h
      simp [sent, goal]
    · cases h
      have hlast : (index : ℕ) + 1 = m.waypoints.length := by have := index.isLt; omega
      simp [sent, goal, hlast, replicate_succ_flatten, List.take_one, List.head?_eq_getElem?,
        m.waypoints_pos]
    · cases h
      have hlast : (index : ℕ) + 1 = m.waypoints.length := by have := index.isLt; omega
      have hloops : m.loops = loop + 1 := by have := loop.isLt; omega
      simp [sent, goal, route, hlast, hloops, replicate_succ_flatten]
  | returnHome => cases h

/-- The last goal sent is the goal of the leg. -/
theorem sent_eq_append_goal (leg : m.Leg) : ∃ earlier, leg.sent = earlier ++ [leg.goal] := by
  cases leg with
  | goHome => exact ⟨[], rfl⟩
  | visit loop index =>
    exact ⟨m.home :: (List.replicate loop m.waypoints).flatten ++ m.waypoints.take index,
      by simp [sent, goal]⟩
  | returnHome => exact ⟨_, rfl⟩

/-- **The goals sent are a prefix of the route.** -/
theorem sent_prefix_route (leg : m.Leg) : leg.sent <+: m.route := by
  cases leg with
  | goHome => exact ⟨_, rfl⟩
  | visit loop index =>
    obtain ⟨rest, hrest⟩ : ∃ k, m.loops = loop + 1 + k :=
      ⟨m.loops - (loop + 1), by have := loop.isLt; omega⟩
    have htake := List.take_append_drop (index + 1) m.waypoints
    refine ⟨m.waypoints.drop (index + 1) ++ (List.replicate rest m.waypoints).flatten ++
      [m.home], ?_⟩
    have hflat : (List.replicate m.loops m.waypoints).flatten =
        (List.replicate loop m.waypoints).flatten ++ m.waypoints ++
          (List.replicate rest m.waypoints).flatten := by
      rw [← replicate_succ_flatten, ← List.flatten_append, List.replicate_append_replicate,
        ← hrest]
    rw [sent, route, hflat]
    simp only [List.cons_append, List.append_assoc, List.append_cancel_left_eq, List.cons.injEq,
      true_and]
    rw [← List.append_assoc, htake]
  | returnHome => exact List.prefix_refl _

/-- The route is sent once the way home is. -/
theorem sent_eq_route_iff {leg : m.Leg} : leg.sent = m.route ↔ leg = .returnHome := by
  constructor
  · intro h
    cases hnext : leg.next with
    | none => exact next_eq_none_iff.mp hnext
    | some leg' =>
      -- a further leg would send more than the route has
      have hle := (sent_prefix_route leg').length_le
      rw [sent_next hnext, h, List.length_append] at hle
      exact absurd hle (Nat.not_succ_le_self _)
  · rintro rfl
    rfl

end Leg

/-! ### The patrol fields carry a leg -/

/-- The fields hold the mission and record the leg. -/
structure Carries (leg : m.Leg) (p : Patrol F) : Prop where
  waypoints : p.waypoints = m.waypoints
  home : p.home = some m.home
  totalLoops : p.totalLoops = m.loops
  waypointTolerance : p.waypointTolerance = m.tolerance
  phase : p.phase = leg.phase
  currentLoop : p.currentLoop = leg.currentLoop
  currentWaypointIndex : p.currentWaypointIndex = leg.currentWaypointIndex

variable {m} {leg leg' : m.Leg} {p : Patrol F}

theorem Carries.setPatrolState (h : m.Carries leg p) (status : PatrolStatus) (message : String) :
    m.Carries leg (p.setPatrolState status message) :=
  { h with }

theorem Carries.recordGoal (h : m.Carries leg p) (goal : Goal F) (now : F) :
    m.Carries leg (p.recordGoal goal now) :=
  { h with }

/-- The plan publishes the goal of another leg, and its mark records that leg in any patrol
that carries the first one. -/
def GoesTo (leg leg' : m.Leg) (p : Patrol F) : Prop :=
  ∃ mark message, p.snapshot.plan = .go mark leg'.status message leg'.goal ∧
    ∀ q : Patrol F, m.Carries leg q → m.Carries leg' (q.mark mark)

theorem Carries.goesTo_first (h : m.Carries .goHome p) :
    GoesTo .goHome (.visit ⟨0, m.loops_pos⟩ ⟨0, m.waypoints_pos⟩) p := by
  have hphase : p.phase = .goHomeStart := h.phase
  obtain ⟨w, ws, hws⟩ := List.exists_cons_of_length_pos m.waypoints_pos
  have hget : m.waypoints.get ⟨0, m.waypoints_pos⟩ = w := by simp [hws]
  refine ⟨.firstWaypoint, ?_, ?_, ?_⟩
  rotate_left
  · simp [Snapshot.plan, Patrol.snapshot, hphase, h.waypoints, hws, Leg.status, Leg.goal]
    rfl
  · intro q hq
    exact { hq with phase := rfl, currentLoop := rfl, currentWaypointIndex := rfl }

section Visit

variable {loop : Fin m.loops} {index : Fin m.waypoints.length}

/-- The next waypoint of the loop. -/
theorem Carries.goesTo_waypoint (h : m.Carries (.visit loop index) p)
    (hmore : index + 1 < m.waypoints.length) :
    GoesTo (.visit loop index) (.visit loop ⟨index + 1, hmore⟩) p := by
  have hphase : p.phase = .patrol := h.phase
  have hindex : p.currentWaypointIndex = index := h.currentWaypointIndex
  have hlt : ((index : ℕ) : ℤ) < (m.waypoints.length : ℤ) - 1 := by omega
  have hget : pyIndex m.waypoints ((index : ℤ) + 1) =
      some (m.waypoints.get ⟨index + 1, hmore⟩) := pyIndex_get hmore
  refine ⟨.waypoint (index + 1), ?_, ?_, ?_⟩
  rotate_left
  · simp [Snapshot.plan, Patrol.snapshot, hphase, h.waypoints, hindex, hlt, hget, Leg.status,
      Leg.goal]
    rfl
  · intro q hq
    exact { hq with currentWaypointIndex := by simp [Patrol.mark, Leg.currentWaypointIndex] }

/-- The first waypoint of the next loop. -/
theorem Carries.goesTo_loop (h : m.Carries (.visit loop index) p)
    (hlast : ¬ index + 1 < m.waypoints.length) (hagain : loop + 1 < m.loops) :
    GoesTo (.visit loop index) (.visit ⟨loop + 1, hagain⟩ ⟨0, m.waypoints_pos⟩) p := by
  have hphase : p.phase = .patrol := h.phase
  have hindex : p.currentWaypointIndex = index := h.currentWaypointIndex
  have hloop : p.currentLoop = loop + 1 := h.currentLoop
  have hnlt : ¬ ((index : ℕ) : ℤ) < (m.waypoints.length : ℤ) - 1 := by omega
  have hloops : ((loop : ℕ) : ℤ) + 1 < m.loops := by omega
  have hget : pyIndex m.waypoints 0 = some (m.waypoints.get ⟨0, m.waypoints_pos⟩) :=
    pyIndex_get m.waypoints_pos
  refine ⟨.loop (loop + 1 + 1), ?_, ?_, ?_⟩
  rotate_left
  · simp [Snapshot.plan, Patrol.snapshot, hphase, h.waypoints, hindex, hnlt, hloop, hloops,
      h.totalLoops, hget, Leg.status, Leg.goal]
    rfl
  · intro q hq
    exact { hq with
      currentLoop := by simp [Patrol.mark, Leg.currentLoop]
      currentWaypointIndex := by simp [Patrol.mark, Leg.currentWaypointIndex] }

/-- The way home after the last loop. -/
theorem Carries.goesTo_home (h : m.Carries (.visit loop index) p)
    (hlast : ¬ index + 1 < m.waypoints.length) (hend : ¬ loop + 1 < m.loops) :
    GoesTo (.visit loop index) .returnHome p := by
  have hphase : p.phase = .patrol := h.phase
  have hindex : p.currentWaypointIndex = index := h.currentWaypointIndex
  have hloop : p.currentLoop = loop + 1 := h.currentLoop
  have hnlt : ¬ ((index : ℕ) : ℤ) < (m.waypoints.length : ℤ) - 1 := by omega
  have hnloops : ¬ ((loop : ℕ) : ℤ) + 1 < m.loops := by omega
  refine ⟨.returnHome, ?_, ?_, ?_⟩
  rotate_left
  · simp [Snapshot.plan, Patrol.snapshot, hphase, h.waypoints, hindex, hnlt, hloop, hnloops,
      h.totalLoops, h.home, Leg.status, Leg.goal]
    rfl
  · intro q hq
    have hi := index.isLt
    have hl := loop.isLt
    exact { hq with
      phase := rfl
      currentLoop := by
        have := hq.currentLoop
        simp only [Leg.currentLoop] at this
        simp only [Patrol.mark, Leg.currentLoop, this]
        omega
      currentWaypointIndex := by
        have := hq.currentWaypointIndex
        simp only [Leg.currentWaypointIndex] at this
        simp only [Patrol.mark, Leg.currentWaypointIndex, this]
        omega }

end Visit

/-- **The plan of a leg is the next leg.** -/
theorem Carries.plan_of_next (h : m.Carries leg p) (hnext : leg.next = some leg') :
    GoesTo leg leg' p := by
  cases leg with
  | goHome =>
    cases hnext
    exact h.goesTo_first
  | visit loop index =>
    simp only [Leg.next] at hnext
    split_ifs at hnext with hmore hagain
    · cases hnext
      exact h.goesTo_waypoint hmore
    · cases hnext
      exact h.goesTo_loop hmore hagain
    · cases hnext
      exact h.goesTo_home hmore hagain
  | returnHome => cases hnext

/-- **After the last leg the plan completes the mission.** -/
theorem Carries.plan_of_last (h : m.Carries .returnHome p) :
    p.snapshot.plan = .stop .completed "Patrol completed and returned home" := by
  have hphase : p.phase = .returnHomeEnd := h.phase
  simp [Snapshot.plan, Patrol.snapshot, hphase]

end Mission

/-! ### Accepted payloads are missions -/

section Accepted

open PyNum

variable {F : Type} [PyNum F]

/-- Coordinates that `_safe_float` lets through. -/
def Goal.IsFinite (goal : Goal F) : Prop :=
  isFinite goal.x ∧ isFinite goal.y ∧ isFinite goal.yaw

theorem normalizeWaypoints_spec {items : List (Json F)} {index : ℕ} {goals : List (Goal F)}
    (h : normalizeWaypoints index items = .ok goals) :
    goals.length = items.length ∧ ∀ goal ∈ goals, goal.IsFinite := by
  induction items generalizing index goals with
  | nil =>
    cases h
    simp
  | cons waypoint rest ih =>
    rw [normalizeWaypoints] at h
    split_ifs at h with hdict
    simp only [bind_eq_ok, safeFloat_eq_ok] at h
    obtain ⟨_, -, x, ⟨-, hx⟩, _, -, y, ⟨-, hy⟩, _, -, yaw, ⟨-, hyaw⟩, tail, htail, hgoals⟩ := h
    cases hgoals
    obtain ⟨hlength, hfinite⟩ := ih htail
    refine ⟨by simp [hlength], ?_⟩
    intro goal hgoal
    rcases List.mem_cons.mp hgoal with rfl | hgoal
    · exact ⟨hx, hy, hyaw⟩
    · exact hfinite goal hgoal

omit [PyNum F] in
theorem waypointList_spec {value : Json F} {items : List (Json F)}
    (h : waypointList value = .ok items) : 2 ≤ items.length := by
  cases value with
  | list found =>
    rw [waypointList] at h
    split_ifs at h with hshort
    cases h
    exact not_lt.mp hshort
  | _ => cases h

/-- What `_start_patrol` has checked when it takes the lock. -/
structure PatrolOrder.Valid (order : PatrolOrder F) : Prop where
  two_le_waypoints : 2 ≤ order.waypoints.length
  waypoints_finite : ∀ goal ∈ order.waypoints, goal.IsFinite
  home_finite : order.home.IsFinite
  loops_pos : 0 < order.loops
  tolerance_clamped : ∃ requested, order.waypointTolerance =
    clamp requested minPatrolWaypointTolerance maxPatrolWaypointTolerance

/-- **What is accepted is well formed.** -/
theorem parseStart_valid {payload : Json F} {order : PatrolOrder F}
    (h : parseStart payload = .ok order) : order.Valid := by
  simp only [parseStart, bind_eq_ok] at h
  obtain ⟨_, -, _, -, loops, -, home, -, items, hitems, h⟩ := h
  split_ifs at h with hloops hhome
  simp only [bind_eq_ok, safeFloat_eq_ok] at h
  obtain ⟨goals, hgoals, _, -, x, ⟨-, hx⟩, _, -, y, ⟨-, hy⟩, _, -, yaw, ⟨-, hyaw⟩, _, -,
    tolerance, -, _, -, _, -, _, -, horder⟩ := h
  cases horder
  obtain ⟨hlength, hfinite⟩ := normalizeWaypoints_spec hgoals
  exact {
    two_le_waypoints := by rw [hlength]; exact waypointList_spec hitems
    waypoints_finite := hfinite
    home_finite := ⟨hx, hy, hyaw⟩
    loops_pos := Int.not_le.mp hloops
    tolerance_clamped := ⟨tolerance, rfl⟩ }

/-- The mission of a valid order. -/
def PatrolOrder.mission (order : PatrolOrder F) (h : order.Valid) : Mission F :=
  { home := order.home
    waypoints := order.waypoints
    loops := order.loops.toNat
    tolerance := order.waypointTolerance
    two_le_waypoints := h.two_le_waypoints
    loops_pos := by have := h.loops_pos; omega }

/-- **An accepted order is carried from its first leg on.** -/
theorem carries_of_accept {p q : Patrol F} {order : PatrolOrder F} (hvalid : order.Valid)
    (h : p.accept order = some q) : (order.mission hvalid).Carries .goHome q := by
  rw [Patrol.accept] at h
  split_ifs at h
  cases h
  exact {
    waypoints := rfl
    home := rfl
    totalLoops := by
      have := hvalid.loops_pos
      simp only [PatrolOrder.mission]
      omega
    waypointTolerance := rfl
    phase := rfl
    currentLoop := rfl
    currentWaypointIndex := rfl }

end Accepted

end Bridge
