/-
Whether `waypoint_cycle` goes on.

Every status message that is not EXECUTING should make the node publish one goal: the
waypoint it is on after the first failure there, else the next one, cyclically.  The branch
for a second failure wraps the index around too, but under a guard that already excludes it
(`self.index < len(markers)`): once the retry of the last clicked point has failed, further
failures publish nothing (`lastPoint_stranded`).  `neverStalls_iff` says that this is the only
way to stall.
-/
import WheeltecRos2.Waypoint.Retry

namespace Waypoint

variable {F ι : Type} [Zero F] [One F]

/-- The node, and how many failures it has seen since it went on to its waypoint. -/
structure Visit (F : Type) where
  node : WaypointCycle F
  failures : ℕ

namespace Visit

def start : Visit F := { node := .init, failures := 0 }

/-- The event makes the node publish another waypoint. -/
def Leaves (v : Visit F) (event : Event F ι) : Prop :=
  ∃ goal ∈ v.node.emitted event, some goal.index ≠ v.node.lastGoal

instance (v : Visit F) (event : Event F ι) : Decidable (v.Leaves event) :=
  inferInstanceAs (Decidable (∃ goal ∈ _, _))

def step (v : Visit F) (event : Event F ι) : Visit F :=
  { node := v.node.step event
    failures :=
      match event with
      | .click _ _ => v.failures
      | .status msg =>
        if msg.last.status = statusExecuting ∨ v.node.count = 0 then v.failures
        else if statusSucceeded ≤ msg.last.status ∨ v.Leaves (.status msg : Event F ι) then 0
        else v.failures + 1 }

/-- The waypoint to publish after waypoint `k`. -/
def due (v : Visit F) (status k : ℤ) : ℤ :=
  if status < statusSucceeded ∧ v.failures = 0 then k else (k + 1) % v.node.count

/-- The retry of the last clicked point has failed too. -/
def Stranded (v : Visit F) (event : Event F ι) : Prop :=
  ∃ msg, event = .status msg ∧ msg.last.status ≠ statusExecuting ∧ 0 < v.node.count ∧
    msg.last.status < statusSucceeded ∧ v.node.tryAgain = false ∧ v.node.index = v.node.count

/-- The flag of the node says whether there was a failure. -/
structure Counted (v : Visit F) : Prop where
  node : v.node.WellFormed
  flag : v.node.tryAgain = true ↔ v.failures = 0

end Visit

/-- A message that ends a goal makes the node publish the waypoint that is due. -/
def Progresses (v : Visit F) (event : Event F ι) : Prop :=
  ∀ msg, event = .status msg → msg.last.status ≠ statusExecuting → 0 < v.node.count →
    ∃ k ∈ v.node.lastGoal, (v.node.emitted event).map Goal.index = [v.due msg.last.status k]

/-! ### One event -/

namespace Visit

variable {v : Visit F} {msg : GoalStatusArray ι}

omit [Zero F] [One F] in
theorem counted_start : (start : Visit F).Counted :=
  ⟨WaypointCycle.wellFormed_init, iff_of_true rfl rfl⟩

theorem Counted.step_click (h : v.Counted) (x y : F) :
    (v.step (.click x y : Event F ι)).node.tryAgain = true ↔
      (v.step (.click x y : Event F ι)).failures = 0 := by
  refine Iff.trans ?_ h.flag
  rw [Visit.step, WaypointCycle.step, WaypointCycle.handle]
  rcases h.node.clickCallback_cases x y with ⟨-, heq⟩ | ⟨-, heq⟩
  · rw [heq]
    rfl
  · rw [heq]
    rfl

/-- A failure moves on without wrapping around, so that the waypoint is another one. -/
theorem Counted.leaves_iff (h : v.Counted) (hfailed : msg.last.status < statusSucceeded) :
    v.Leaves (.status msg) ↔ v.node.decide msg.last.status = .onward := by
  rw [Leaves]
  rcases h.node.emitted_status msg with ⟨hdec, hemitted⟩ | ⟨hdec, hcount, pose, hemitted⟩ |
    ⟨hdec, hcount, pose, hemitted⟩
  · rw [hemitted, hdec]
    exact iff_of_false (by simp) (by simp)
  · rw [hemitted, hdec, h.node.lastGoal_eq hcount]
    exact iff_of_false (by simp) (by simp)
  · rw [hemitted, hdec, h.node.lastGoal_eq hcount]
    refine iff_of_true ⟨_, List.mem_singleton_self _, ?_⟩ rfl
    obtain ⟨-, -, hsucceeded | ⟨-, hlt⟩⟩ := WaypointCycle.decide_eq_onward_iff.mp hdec
    · exact absurd hfailed hsucceeded.not_gt
    · have hpos := h.node.index_pos hcount
      rw [WaypointCycle.next, WaypointCycle.current, if_neg hlt.ne]
      simp only [ne_eq, Option.some.injEq]
      omega

theorem Counted.step_status (h : v.Counted) (msg : GoalStatusArray ι) :
    (v.step (.status msg : Event F ι)).node.tryAgain = true ↔
      (v.step (.status msg : Event F ι)).failures = 0 := by
  have hleaves : msg.last.status < statusSucceeded →
      (v.Leaves (.status msg) ↔ v.node.decide msg.last.status = .onward) := h.leaves_iff
  rw [Visit.step, WaypointCycle.step, WaypointCycle.handle]
  dsimp only
  rcases h.node.poseCallback_cases msg with ⟨hdec, heq⟩ | ⟨hdec, -, pose, heq⟩ |
    ⟨hdec, hcount, pose, heq⟩
  · rw [heq, Option.getD_some]
    rcases WaypointCycle.decide_eq_stay_iff.mp hdec with hexec | hzero | ⟨hfailed, hflag, -⟩
    · rw [if_pos (.inl hexec)]
      exact h.flag
    · rw [if_pos (.inr hzero)]
      exact h.flag
    · -- a further failure where there was one already
      have hstays : ¬(statusSucceeded ≤ msg.last.status ∨ v.Leaves (.status msg)) := by
        rw [hleaves hfailed, hdec]
        simp [hfailed]
      have hpositive : v.failures ≠ 0 := fun hzero => by simp [h.flag.mpr hzero] at hflag
      rw [if_neg hstays, hflag]
      refine iff_of_false Bool.false_ne_true ?_
      split_ifs
      · exact hpositive
      · exact not_false
  · obtain ⟨hexec, hcount, hfailed, -⟩ := WaypointCycle.decide_eq_again_iff.mp hdec
    have hstays : ¬(statusSucceeded ≤ msg.last.status ∨ v.Leaves (.status msg)) := by
      rw [hleaves hfailed, hdec]
      simp [hfailed]
    rw [heq, Option.getD_some, if_neg (not_or.mpr ⟨hexec, hcount.ne'⟩), if_neg hstays]
    exact iff_of_false Bool.false_ne_true (Nat.succ_ne_zero _)
  · obtain ⟨hexec, -, -⟩ := WaypointCycle.decide_eq_onward_iff.mp hdec
    have hends : statusSucceeded ≤ msg.last.status ∨ v.Leaves (.status msg) := by
      by_cases hfailed : msg.last.status < statusSucceeded
      · exact .inr ((hleaves hfailed).mpr hdec)
      · exact .inl (not_lt.mp hfailed)
    rw [heq, Option.getD_some, if_neg (not_or.mpr ⟨hexec, hcount.ne'⟩), if_pos hends]
    exact iff_of_true rfl rfl

theorem Counted.step (h : v.Counted) (event : Event F ι) : (v.step event).Counted := by
  refine ⟨h.node.step event, ?_⟩
  cases event with
  | click x y => exact h.step_click x y
  | status msg => exact h.step_status msg

/-- **One status message.** -/
theorem Counted.progresses_status_iff (h : v.Counted) (hexec : msg.last.status ≠ statusExecuting)
    (hcount : 0 < v.node.count) :
    (∃ k ∈ v.node.lastGoal,
      (v.node.emitted (.status msg : Event F ι)).map Goal.index = [v.due msg.last.status k]) ↔
      ¬(msg.last.status < statusSucceeded ∧ v.node.tryAgain = false ∧
        v.node.index = v.node.count) := by
  simp only [h.node.lastGoal_eq hcount, Option.mem_some_iff, exists_eq_left']
  have hle := h.node.index_le
  rcases h.node.emitted_status msg with ⟨hdec, hemitted⟩ | ⟨hdec, -, pose, hemitted⟩ |
    ⟨hdec, -, pose, hemitted⟩
  · rw [hemitted]
    refine iff_of_false (by simp) (not_not_intro ?_)
    rcases WaypointCycle.decide_eq_stay_iff.mp hdec with hstatus | hzero | ⟨hfailed, hflag, hge⟩
    · exact absurd hstatus hexec
    · exact absurd hzero hcount.ne'
    · exact ⟨hfailed, hflag, le_antisymm hle hge⟩
  · obtain ⟨-, -, hfailed, hflag⟩ := WaypointCycle.decide_eq_again_iff.mp hdec
    rw [hemitted, due, if_pos ⟨hfailed, h.flag.mp hflag⟩]
    exact iff_of_true rfl (by simp [hflag])
  · obtain ⟨-, -, honward⟩ := WaypointCycle.decide_eq_onward_iff.mp hdec
    have hagain : ¬(msg.last.status < statusSucceeded ∧ v.failures = 0) := by
      rintro ⟨hfailed, hzero⟩
      rcases honward with hsucceeded | ⟨hflag, -⟩
      · exact absurd hfailed hsucceeded.not_gt
      · simp [h.flag.mpr hzero] at hflag
    rw [hemitted, due, if_neg hagain, ← h.node.next_eq hcount]
    refine iff_of_true rfl ?_
    rintro ⟨hfailed, -, hlast⟩
    rcases honward with hsucceeded | ⟨-, hlt⟩
    · exact absurd hfailed hsucceeded.not_gt
    · exact absurd hlast hlt.ne

theorem Counted.progresses_iff (h : v.Counted) (event : Event F ι) :
    Progresses v event ↔ ¬v.Stranded event := by
  constructor
  · rintro hprogress ⟨msg, rfl, hexec, hcount, hstranded⟩
    exact (h.progresses_status_iff hexec hcount).mp (hprogress msg rfl hexec hcount) hstranded
  · rintro hstranded msg rfl hexec hcount
    exact (h.progresses_status_iff hexec hcount).mpr fun hfailed =>
      hstranded ⟨msg, rfl, hexec, hcount, hfailed⟩

end Visit

/-- **When the cycle never stalls.** -/
theorem neverStalls_iff (events : List (Event F ι)) :
    Runs.Along Visit.step Progresses (Visit.start : Visit F) events ↔
      Runs.Along Visit.step (fun v event => ¬v.Stranded event) (Visit.start : Visit F) events :=
  Runs.along_congr Visit.counted_start (fun _ event h => h.step event)
    fun _ event h => h.progresses_iff event

/-- One point is clicked, and two goals in a row are reported as CANCELING. -/
def cancelingTwice : List (Event ℤ ℕ) :=
  [.click 1 0, .status (oneGoal 1 statusCanceling), .status (oneGoal 2 statusCanceling)]

/-- The second failure publishes nothing. -/
theorem lastPoint_stranded : ¬Runs.Along Visit.step Progresses Visit.start cancelingTwice := by
  rintro ⟨-, -, hprogress, -⟩
  obtain ⟨k, -, hemitted⟩ :=
    hprogress (oneGoal 2 statusCanceling) rfl (by decide) (by decide)
  have hnothing :
      ((Visit.start.step (.click 1 0 : Event ℤ ℕ)).step
        (.status (oneGoal 1 statusCanceling))).node.emitted
        (.status (oneGoal 2 statusCanceling)) = [] := by decide
  rw [hnothing] at hemitted
  cases hemitted

end Waypoint
