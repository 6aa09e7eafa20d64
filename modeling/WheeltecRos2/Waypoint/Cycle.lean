/-
The node `waypoint_cycle`, which sends the robot round the clicked points.

`click_callback` appends a marker, and publishes the first one as a goal.
`pose_callback` looks at the last entry of the status list and publishes a marker
again, the next marker, or nothing.  `Decision` names the three, and
`WellFormed.poseCallback_cases` says that from a reachable state the callback does what
`WaypointCycle.decide` decides; no index is ever out of range.

Markers keep the position and orientation that `publish_pose` copies; what RViz
shows of them and the log are left out.
-/
import WheeltecRos2.Bridge.Patrol
import WheeltecRos2.Lib.Runs
import Mathlib.Algebra.Order.Ring.Int

namespace Waypoint

open Bridge (pyIndex)

/-! ### Messages -/

/-- `GoalStatus.STATUS_...`, the codes of `action_msgs`. -/
def statusAccepted : ℤ := 1
@[inherit_doc statusAccepted] def statusExecuting : ℤ := 2
@[inherit_doc statusAccepted] def statusCanceling : ℤ := 3
@[inherit_doc statusAccepted] def statusSucceeded : ℤ := 4
@[inherit_doc statusAccepted] def statusCanceled : ℤ := 5
@[inherit_doc statusAccepted] def statusAborted : ℤ := 6

/-- An entry of the status topic. -/
structure GoalStatus (ι : Type) where
  goalId : ι
  status : ℤ
  deriving DecidableEq

/-- A message of the status topic that lists at least one goal. -/
structure GoalStatusArray (ι : Type) where
  statusList : List (GoalStatus ι)
  nonempty : statusList ≠ []
  deriving DecidableEq

/-- `msg.status_list[-1]`. -/
def GoalStatusArray.last {ι : Type} (msg : GoalStatusArray ι) : GoalStatus ι :=
  msg.statusList.getLast msg.nonempty

/-- The pose of a marker. -/
structure Marker (F : Type) where
  x : F
  y : F
  z : F
  w : F
  deriving DecidableEq

/-- A goal on `/goal_pose`, with the argument of `publish_pose` it comes from. -/
structure Goal (F : Type) where
  index : ℤ
  pose : Marker F
  deriving DecidableEq

/-! ### The node -/

/-- The fields of the node and the goals it has published. -/
structure WaypointCycle (F : Type) where
  markers : List (Marker F)
  count : ℕ
  index : ℕ
  tryAgain : Bool
  published : List (Goal F)
  deriving DecidableEq

namespace WaypointCycle

variable {F ι : Type}

/-- `__init__`. -/
def init : WaypointCycle F :=
  { markers := [], count := 0, index := 0, tryAgain := true, published := [] }

/-- `publish_pose`, with the `IndexError` of a marker that is not there. -/
def publishPose (s : WaypointCycle F) (index : ℤ) : Option (WaypointCycle F) :=
  (pyIndex s.markers index).map fun pose =>
    { s with published := s.published ++ [{ index, pose }] }

/-- `print_marker_info`, of which the `IndexError` remains. -/
def printMarkerInfo (s : WaypointCycle F) (index : ℤ) : Option Unit :=
  (pyIndex s.markers index).map fun _ => ()

/-- `pose_callback`, with the exception that may leave it. -/
def poseCallback (s : WaypointCycle F) (msg : GoalStatusArray ι) : Option (WaypointCycle F) := do
  if msg.last.status ≠ statusExecuting then
    if msg.last.status ≥ statusSucceeded ∧ s.count > 0 then
      let s := { s with tryAgain := true }
      if s.index = s.count then
        s.printMarkerInfo ((s.index : ℤ) - 1)
        let s := { s with index := 0 }
        let s ← s.publishPose s.index
        return { s with index := s.index + 1 }
      else if s.index < s.count then
        s.printMarkerInfo ((s.index : ℤ) - 1)
        let s ← s.publishPose s.index
        return { s with index := s.index + 1 }
      else return s
    else if s.count > 0 then
      s.printMarkerInfo ((s.index : ℤ) - 1)
      if s.tryAgain then
        let s ← s.publishPose ((s.index : ℤ) - 1)
        return { s with tryAgain := false }
      else if s.index < s.markers.length then
        s.printMarkerInfo ((s.index : ℤ) - 1)
        let s := if s.index = s.count then { s with index := 0 } else s
        let s ← s.publishPose s.index
        return { s with index := s.index + 1, tryAgain := true }
      else return s
    else return s
  else return s

variable [Zero F] [One F]

/-- `click_callback` at the clicked point. -/
def clickCallback (s : WaypointCycle F) (x y : F) : Option (WaypointCycle F) := do
  let marker : Marker F := { x, y, z := 0, w := 1 }
  let s := { s with markers := s.markers ++ [marker] }
  if s.count = 0 then
    let s ← s.publishPose s.count
    return { s with index := s.index + 1, count := s.count + 1 }
  else return { s with count := s.count + 1 }

end WaypointCycle

/-- What reaches the node: a clicked point or a status message. -/
inductive Event (F ι : Type)
  | click (x y : F)
  | status (msg : GoalStatusArray ι)

namespace WaypointCycle

variable {F ι : Type} [Zero F] [One F]

/-- The callback of an event. -/
def handle (s : WaypointCycle F) : Event F ι → Option (WaypointCycle F)
  | .click x y => s.clickCallback x y
  | .status msg => s.poseCallback msg

/-- The node after an event.  An exception would end it; `WellFormed.handle` shows that
there is none. -/
def step (s : WaypointCycle F) (event : Event F ι) : WaypointCycle F :=
  (s.handle event).getD s

end WaypointCycle

/-! ### What a status message does -/

/-- Publish nothing, the current waypoint once more, or the next one. -/
inductive Decision
  | stay
  | again
  | onward
  deriving DecidableEq

namespace WaypointCycle

variable {F ι : Type} (s : WaypointCycle F)

/-- What the code of the last goal makes of the state. -/
def decide (status : ℤ) : Decision :=
  if status = statusExecuting ∨ s.count = 0 then .stay
  else if statusSucceeded ≤ status then .onward
  else if s.tryAgain then .again
  else if s.index < s.count then .onward
  else .stay

/-- The waypoint published last. -/
def current : ℕ := s.index - 1

/-- The waypoint after it, cyclically. -/
def next : ℕ := if s.index = s.count then 0 else s.index

/-- The waypoint of the goal published last. -/
def lastGoal : Option ℤ := s.published.getLast?.map Goal.index

/-- The markers and the counters agree, and once there is a waypoint one is current. -/
structure WellFormed : Prop where
  count_eq : s.count = s.markers.length
  index_le : s.index ≤ s.count
  index_pos : 0 < s.count → 0 < s.index
  published_nil : s.count = 0 → s.published = []
  published_last : 0 < s.count → ∃ goal, s.published.getLast? = some goal ∧ goal.index = s.current

variable {s}

theorem wellFormed_init : (init : WaypointCycle F).WellFormed where
  count_eq := rfl
  index_le := le_rfl
  index_pos h := absurd h (by simp [init])
  published_nil _ := rfl
  published_last h := absurd h (by simp [init])

theorem WellFormed.pyIndex (h : s.WellFormed) {i : ℕ} (hi : i < s.count) :
    ∃ pose, Bridge.pyIndex s.markers i = some pose :=
  ⟨_, Bridge.pyIndex_get (h.count_eq ▸ hi)⟩

theorem WellFormed.current_lt (h : s.WellFormed) (hcount : 0 < s.count) :
    s.current < s.count := by
  have hpos := h.index_pos hcount
  have hle := h.index_le
  rw [current]
  omega

theorem WellFormed.next_lt (h : s.WellFormed) (hcount : 0 < s.count) : s.next < s.count := by
  have hle := h.index_le
  rw [next]
  split_ifs with heq
  · exact hcount
  · omega

theorem WellFormed.lastGoal_eq (h : s.WellFormed) (hcount : 0 < s.count) :
    s.lastGoal = some (s.current : ℤ) := by
  obtain ⟨goal, hgoal, hindex⟩ := h.published_last hcount
  rw [lastGoal, hgoal, Option.map_some, hindex]

theorem WellFormed.lastGoal_eq_none (h : s.WellFormed) (hcount : s.count = 0) :
    s.lastGoal = none := by
  rw [lastGoal, h.published_nil hcount]
  rfl

/-- The next waypoint is the cyclic successor of the current one. -/
theorem WellFormed.next_eq (h : s.WellFormed) (hcount : 0 < s.count) :
    (s.next : ℤ) = ((s.current : ℤ) + 1) % s.count := by
  have hpos := h.index_pos hcount
  have hle := h.index_le
  have hsucc : (s.current : ℤ) + 1 = s.index := by
    rw [current]
    omega
  rw [hsucc, next]
  split_ifs with heq
  · rw [heq, Int.emod_self]
    rfl
  · rw [Int.emod_eq_of_lt (by omega) (by omega)]

/-- It is another waypoint unless there is only one. -/
theorem WellFormed.next_eq_current_iff (h : s.WellFormed) (hcount : 0 < s.count) :
    s.next = s.current ↔ s.count = 1 := by
  have hpos := h.index_pos hcount
  have hle := h.index_le
  rw [next, current]
  split_ifs with heq
  · omega
  · omega

theorem decide_eq_stay_iff {status : ℤ} : s.decide status = .stay ↔
    status = statusExecuting ∨ s.count = 0 ∨
      status < statusSucceeded ∧ s.tryAgain = false ∧ s.count ≤ s.index := by
  rw [decide]
  split_ifs <;> grind

theorem decide_eq_again_iff {status : ℤ} : s.decide status = .again ↔
    status ≠ statusExecuting ∧ 0 < s.count ∧ status < statusSucceeded ∧ s.tryAgain = true := by
  rw [decide]
  split_ifs <;> grind

theorem decide_eq_onward_iff {status : ℤ} : s.decide status = .onward ↔
    status ≠ statusExecuting ∧ 0 < s.count ∧
      (statusSucceeded ≤ status ∨ s.tryAgain = false ∧ s.index < s.count) := by
  rw [decide]
  split_ifs <;> grind

/-- **A status message does what is decided.**  In no case is a marker missing. -/
theorem WellFormed.poseCallback_cases (h : s.WellFormed) (msg : GoalStatusArray ι) :
    s.decide msg.last.status = .stay ∧ s.poseCallback msg = some s ∨
    s.decide msg.last.status = .again ∧ 0 < s.count ∧
      (∃ pose, s.poseCallback msg = some { s with
        tryAgain := false
        published := s.published ++ [{ index := s.current, pose }] }) ∨
    s.decide msg.last.status = .onward ∧ 0 < s.count ∧
      ∃ pose, s.poseCallback msg = some { s with
        tryAgain := true
        index := s.next + 1
        published := s.published ++ [{ index := s.next, pose }] } := by
  by_cases hexec : msg.last.status = statusExecuting
  · exact Or.inl ⟨by simp [decide, hexec], by simp [poseCallback, hexec]⟩
  rcases Nat.eq_zero_or_pos s.count with hcount | hcount
  · exact Or.inl ⟨by simp [decide, hcount], by simp [poseCallback, hcount]⟩
  obtain ⟨last, hlast⟩ := h.pyIndex (h.current_lt hcount)
  obtain ⟨pose, hpose⟩ := h.pyIndex (h.next_lt hcount)
  have hcurrent : (s.index : ℤ) - 1 = s.current := by
    have := h.index_pos hcount
    rw [current]
    omega
  by_cases hsucceeded : statusSucceeded ≤ msg.last.status
  · -- any code from SUCCEEDED on moves to the next waypoint
    refine Or.inr (Or.inr ⟨by simp [decide, hexec, hcount.ne', hsucceeded], hcount, pose, ?_⟩)
    rw [next] at hpose ⊢
    rw [poseCallback, if_pos hexec, if_pos ⟨hsucceeded, hcount⟩]
    by_cases heq : s.index = s.count
    · rw [if_pos heq, Int.natCast_zero] at hpose
      rw [if_pos heq, if_pos heq]
      simp [printMarkerInfo, publishPose, hcurrent, hlast, hpose]
    · have hlt : s.index < s.count := lt_of_le_of_ne h.index_le heq
      rw [if_neg heq] at hpose ⊢
      rw [if_neg heq, if_pos hlt]
      simp [printMarkerInfo, publishPose, hcurrent, hlast, hpose]
  · have hbelow : ¬ (msg.last.status ≥ statusSucceeded ∧ s.count > 0) := fun hboth =>
      hsucceeded hboth.1
    rw [poseCallback, if_pos hexec, if_neg hbelow, if_pos hcount]
    by_cases htry : s.tryAgain = true
    · refine Or.inr (Or.inl ⟨by simp [decide, hexec, hcount.ne', hsucceeded, htry], hcount, last, ?_⟩)
      rw [if_pos htry]
      simp [printMarkerInfo, publishPose, hcurrent, hlast]
    · by_cases hlt : s.index < s.count
      · refine Or.inr (Or.inr
          ⟨by simp [decide, hexec, hcount.ne', hsucceeded, htry, hlt], hcount, pose, ?_⟩)
        have hne : s.index ≠ s.count := hlt.ne
        rw [next, if_neg hne] at hpose ⊢
        rw [if_neg htry, if_pos (h.count_eq ▸ hlt)]
        simp [printMarkerInfo, publishPose, hcurrent, hlast, hpose, hne]
      · refine Or.inl ⟨by simp [decide, hexec, hcount.ne', hsucceeded, htry, hlt], ?_⟩
        rw [if_neg htry, if_neg (h.count_eq ▸ hlt)]
        simp [printMarkerInfo, hcurrent, hlast]

section Step

variable [Zero F] [One F]

/-- The first click publishes its point, the others are only recorded. -/
theorem WellFormed.clickCallback_cases (h : s.WellFormed) (x y : F) :
    s.count = 0 ∧ s.clickCallback x y = some
      { markers := [⟨x, y, 0, 1⟩]
        count := 1
        index := 1
        tryAgain := s.tryAgain
        published := [{ index := 0, pose := ⟨x, y, 0, 1⟩ }] } ∨
    0 < s.count ∧ s.clickCallback x y = some
      { s with markers := s.markers ++ [⟨x, y, 0, 1⟩], count := s.count + 1 } := by
  rcases Nat.eq_zero_or_pos s.count with hcount | hcount
  · have hmarkers : s.markers = [] := List.length_eq_zero_iff.mp (h.count_eq ▸ hcount)
    have hindex : s.index = 0 := Nat.le_zero.mp (hcount ▸ h.index_le)
    refine Or.inl ⟨hcount, ?_⟩
    simp [clickCallback, publishPose, Bridge.pyIndex, hcount, hmarkers, hindex,
      h.published_nil hcount]
  · exact Or.inr ⟨hcount, by simp [clickCallback, hcount.ne']⟩

/-- No callback raises at a reachable node. -/
theorem WellFormed.handle (h : s.WellFormed) (event : Event F ι) :
    ∃ s', s.handle event = some s' := by
  cases event with
  | click x y =>
    rcases h.clickCallback_cases x y with ⟨-, heq⟩ | ⟨-, heq⟩
    · exact ⟨_, heq⟩
    · exact ⟨_, heq⟩
  | status msg =>
    rcases h.poseCallback_cases msg with ⟨-, heq⟩ | ⟨-, -, pose, heq⟩ | ⟨-, -, pose, heq⟩
    · exact ⟨_, heq⟩
    · exact ⟨_, heq⟩
    · exact ⟨_, heq⟩

/-- **Every event keeps the node well formed.** -/
theorem WellFormed.step (h : s.WellFormed) (event : Event F ι) : (s.step event).WellFormed := by
  cases event with
  | click x y =>
    rw [WaypointCycle.step, WaypointCycle.handle]
    rcases h.clickCallback_cases x y with ⟨hcount, heq⟩ | ⟨hcount, heq⟩
    · rw [heq]
      constructor <;> simp [current]
    · rw [heq]
      have hlast := h.published_last hcount
      have hle := h.index_le
      constructor
      · simp [h.count_eq]
      · simp; omega
      · intro _; exact h.index_pos hcount
      · simp
      · intro _; exact hlast
  | status msg =>
    rw [WaypointCycle.step, WaypointCycle.handle]
    rcases h.poseCallback_cases msg with ⟨-, heq⟩ | ⟨-, hcount, pose, heq⟩ | ⟨-, hcount, pose, heq⟩
    · rw [heq]
      exact h
    · rw [heq]
      constructor
      · exact h.count_eq
      · exact h.index_le
      · exact h.index_pos
      · intro hzero
        exact absurd hzero hcount.ne'
      · intro _
        exact ⟨_, List.getLast?_concat, rfl⟩
    · rw [heq]
      have hnext := h.next_lt hcount
      constructor
      · exact h.count_eq
      · exact hnext
      · intro _
        exact Nat.succ_pos _
      · intro hzero
        exact absurd hzero hcount.ne'
      · intro _
        exact ⟨_, List.getLast?_concat, by simp [current]⟩

end Step

end WaypointCycle

end Waypoint
