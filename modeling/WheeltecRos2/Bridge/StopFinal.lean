/-
Is a stopped patrol stopped for good?

`_stop_patrol` of the command thread and `_advance_patrol_goal` of the executor
share the lock but not their decisions: a tick that has taken its snapshot writes
its phase, status and goal without looking again.  `stopIsFinal_iff` says when a
stop is final under every interleaving that follows: exactly if the executor has
no goal pending (`GoalPending`) when the stop returns.  `lateGoal_not_final` is a
reachable state in which it has.
-/
import WheeltecRos2.Bridge.Threads

namespace Bridge

open Runs

section Model

variable {F : Type} [PyNum F]

/-- The plan publishes a goal. -/
def Plan.publishes : Plan F → Bool
  | .go _ _ _ _ => true
  | _ => false

/-- The step accepts a `patrol_start`. -/
def Accepts (s : Sys F) : Action F → Prop
  | .tick _ _ => False
  | .cmd _ _ => ∃ order, s.cmd = .accepting order ∧ s.node.patrol.isPatrolActive = false

/-- From here on no patrol goal is published and no status is active, until a
`patrol_start` is accepted. -/
def StopIsFinal (s : Sys F) : Prop :=
  ∀ after : List (Action F), Along Sys.step (fun s a => ¬ Accepts s a) s after →
    (run Sys.step s after).node.patrol.isPatrolActive = false ∧
      (run Sys.step s after).node.patrolGoals = s.node.patrolGoals

/-- The executor holds a goal that it has not sent, or is on its way to one: past
its test, with a plan that publishes and a pose at which it would carry it out. -/
def GoalPending (s : Sys F) : Prop :=
  let p := s.node.patrol
  match s.tick with
  | .marking _ _ _ _ | .announcing _ _ _ | .sending _ => True
  | .advancing => p.snapshot.plan.publishes
  | .timed waypointTolerance _ =>
    p.snapshot.plan.publishes ∧ ∃ pose, p.arrived waypointTolerance pose
  | .checked => p.snapshot.plan.publishes ∧ ∃ pose, p.arrived p.waypointTolerance pose
  | .idle | .recording _ | .crashing _ | .crashed | .stopping _ _ | .stopped _ _ => False

/-- The command thread is between the acceptance of a start and its last block. -/
def CmdPc.inStart : CmdPc F → Bool
  | .starting _ | .sendingHome _ | .recordingHome _ => true
  | _ => false

end Model

section Results

variable {F : Type} [PyNum F] {s : Sys F} {a : Action F}

/-! ### The executor ends missions only with an inactive status -/

/-- The statuses the executor stops with. -/
def EndsInactive (s : Sys F) : Prop :=
  match s.tick with
  | .stopping status _ | .stopped status _ => status.isActive = false
  | _ => True

omit [PyNum F] in
theorem Snapshot.status_of_plan_stop {q : Snapshot F} {status : PatrolStatus} {message : String}
    (h : q.plan = .stop status message) : status.isActive = false := by
  rw [Snapshot.plan.eq_def] at h
  dsimp only at h
  repeat' split at h
  all_goals cases h
  all_goals rfl

theorem EndsInactive.step (h : EndsInactive s) : EndsInactive (s.step a) := by
  cases a with
  | cmd request now => exact h
  | tick pose now =>
    obtain ⟨n, tick, cmd⟩ := s
    cases tick with
    | advancing =>
      show EndsInactive ⟨n, .ofPlan n.patrol.snapshot.plan, cmd⟩
      cases hplan : n.patrol.snapshot.plan with
      | stop status message => exact Snapshot.status_of_plan_stop hplan
      | nothing => trivial
      | go mark status message goal => trivial
      | indexError mark => trivial
    | idle =>
      simp only [Sys.step, tickStep]
      split <;> trivial
    | timed waypointTolerance goalSentAt =>
      simp only [Sys.step, tickStep]
      split_ifs <;> trivial
    | stopping status message => exact h
    | checked => trivial
    | marking mark status message goal => trivial
    | announcing status message goal => trivial
    | sending goal => trivial
    | recording goal => trivial
    | crashing mark => trivial
    | crashed => trivial
    | stopped status message => trivial

/-! ### Without a pending goal the stop is final -/

/-- The patrol is over and neither thread is about to revive it. -/
structure Halted (goals : List (Goal F)) (s : Sys F) : Prop where
  inactive : s.node.patrol.isPatrolActive = false
  noStart : s.cmd.inStart = false
  noGoal : ¬ GoalPending s
  ends : EndsInactive s
  goals : s.node.patrolGoals = goals

variable {goals : List (Goal F)}

/-- Clearing the mission leaves no plan to carry out. -/
theorem GoalPending.of_clear {n : Node F} {tick : TickPc F} {cmd cmd' : CmdPc F}
    (h : GoalPending ⟨{ n with patrol := n.patrol.clear }, tick, cmd'⟩) :
    GoalPending ⟨n, tick, cmd⟩ := by
  cases tick <;> simp_all [GoalPending, Plan.publishes]

theorem Halted.tickStep (h : Halted goals s) (pose : Option (F × F)) (now : F) :
    Halted goals (s.step (.tick pose now)) := by
  have hends := h.ends.step (a := .tick pose now)
  obtain ⟨n, tick, cmd⟩ := s
  cases tick with
  | idle =>
    have hidle : (if n.patrol.isPatrolActive then TickPc.checked else TickPc.idle) =
        (.idle : TickPc F) := by rw [h.inactive]; rfl
    exact { h with
      noGoal := by simp [Sys.step, tickStep, hidle, GoalPending]
      ends := hends }
  | checked => exact { h with noGoal := h.noGoal, ends := hends }
  | timed waypointTolerance goalSentAt =>
    refine { h with noGoal := ?_, ends := hends }
    intro hpending
    by_cases harrived : n.patrol.arrived waypointTolerance pose
    · simp only [Sys.step, tickStep, if_pos harrived, GoalPending] at hpending
      exact h.noGoal ⟨hpending, pose, harrived⟩
    · simp only [Sys.step, tickStep, if_neg harrived] at hpending
      split_ifs at hpending <;> exact hpending
  -- the snapshot is taken now, and the plan it gives was asked about beforehand
  | advancing =>
    have hquiet : ¬ n.patrol.snapshot.plan.publishes := h.noGoal
    refine { h with noGoal := ?_, ends := hends }
    intro hpending
    simp only [Sys.step, tickStep] at hpending
    cases hplan : n.patrol.snapshot.plan with
    | go mark status message goal => exact hquiet (by rw [hplan]; rfl)
    | nothing => rw [hplan] at hpending; exact hpending
    | stop status message => rw [hplan] at hpending; exact hpending
    | indexError mark => rw [hplan] at hpending; exact hpending
  -- a tick past its snapshot with a goal in hand is excluded
  | marking mark status message goal => exact absurd trivial h.noGoal
  | announcing status message goal => exact absurd trivial h.noGoal
  | sending goal => exact absurd trivial h.noGoal
  | recording goal => exact { h with noGoal := id, ends := hends }
  | crashing mark =>
    have hinactive : (n.patrol.mark mark).isPatrolActive = false := by
      rw [isPatrolActive_mark]
      exact h.inactive
    exact { h with inactive := hinactive, noGoal := id, ends := hends }
  | crashed => exact { h with noGoal := id, ends := hends }
  | stopping status message => exact { h with noGoal := id, ends := hends }
  | stopped status message =>
    exact { h with inactive := h.ends, noGoal := id, ends := hends }

/-- A block that leaves the patrol and its goals alone keeps it halted. -/
theorem Halted.of_same {n n' : Node F} {tick : TickPc F} {cmd cmd' : CmdPc F}
    (h : Halted goals ⟨n, tick, cmd⟩) (hpatrol : n'.patrol = n.patrol)
    (hgoals : n'.patrolGoals = n.patrolGoals) (hcmd : cmd'.inStart = false) :
    Halted goals ⟨n', tick, cmd'⟩ := by
  have hpending : GoalPending ⟨n', tick, cmd'⟩ = GoalPending ⟨n, tick, cmd⟩ := by
    simp only [GoalPending, hpatrol]
  exact {
    inactive := by rw [hpatrol]; exact h.inactive
    noStart := hcmd
    noGoal := by rw [hpending]; exact h.noGoal
    ends := h.ends
    goals := hgoals.trans h.goals }

theorem Halted.cmdStep (h : Halted goals s) (request : Json F) (now : F)
    (hquiet : ¬ Accepts s (.cmd request now)) : Halted goals (s.step (.cmd request now)) := by
  obtain ⟨n, tick, cmd⟩ := s
  cases cmd with
  | idle =>
    obtain ⟨hpatrol, hgoals, -, hpc⟩ := receive_spec n request
    refine h.of_same hpatrol hgoals ?_
    rcases hpc with hpc | ⟨order, -, hpc⟩ | ⟨call, hpc⟩ <;> rw [Bridge.cmdStep, hpc] <;> rfl
  -- the status is inactive, so this start would be accepted
  | accepting order => exact absurd ⟨order, rfl, h.inactive⟩ hquiet
  | starting home => exact absurd h.noStart (by simp [CmdPc.inStart])
  | sendingHome home => exact absurd h.noStart (by simp [CmdPc.inStart])
  | recordingHome home => exact absurd h.noStart (by simp [CmdPc.inStart])
  | checking call =>
    have hpc : (if n.patrol.isPatrolActive then CmdPc.stopping call else call.resume) =
        call.resume := by rw [h.inactive]; rfl
    refine h.of_same rfl rfl ?_
    simp only [Bridge.cmdStep, hpc]
    cases call <;> rfl
  | stopping call =>
    exact { h with noStart := rfl, noGoal := fun hpending => h.noGoal hpending.of_clear }
  | stopped call =>
    refine { h with inactive := call.status_isActive, noStart := ?_, noGoal := h.noGoal }
    cases call <;> rfl
  | navigating payload =>
    obtain ⟨hpatrol, hgoals, hpc⟩ := navigating_spec n request payload now
    exact h.of_same hpatrol hgoals (by rw [hpc]; rfl)
  | replying => exact h.of_same rfl rfl rfl

/-! ### With a pending goal it is not -/

/-- Left to itself at this pose, the executor publishes a goal. -/
def Sends (pose : Option (F × F)) (now : F) (s : Sys F) : Prop :=
  ∃ k, s.node.patrolGoals ≠
    (run Sys.step s (List.replicate k (.tick pose now))).node.patrolGoals

variable {pose : Option (F × F)} {now : F}

/-- A block that publishes nothing only postpones it. -/
theorem Sends.of_step {t : Sys F} (hstep : s.step (.tick pose now) = t)
    (hgoals : s.node.patrolGoals = t.node.patrolGoals) (h : Sends pose now t) :
    Sends pose now s := by
  obtain ⟨k, hk⟩ := h
  refine ⟨k + 1, ?_⟩
  rw [List.replicate_succ, run_cons, hstep, hgoals]
  exact hk

theorem sends_of_sending (n : Node F) (cmd : CmdPc F) (goal : Goal F) :
    Sends pose now ⟨n, .sending goal, cmd⟩ := by
  refine ⟨1, ?_⟩
  show n.patrolGoals ≠ (n.sendGoal goal).patrolGoals
  simp

theorem sends_of_announcing (n : Node F) (cmd : CmdPc F) (status : PatrolStatus)
    (message : String) (goal : Goal F) :
    Sends pose now ⟨n, .announcing status message goal, cmd⟩ :=
  .of_step rfl rfl (sends_of_sending _ _ _)

theorem sends_of_marking (n : Node F) (cmd : CmdPc F) (mark : Mark) (status : PatrolStatus)
    (message : String) (goal : Goal F) :
    Sends pose now ⟨n, .marking mark status message goal, cmd⟩ :=
  .of_step rfl rfl (sends_of_announcing _ _ _ _ _)

theorem sends_of_advancing {n : Node F} (cmd : CmdPc F)
    (hplan : n.patrol.snapshot.plan.publishes) : Sends pose now ⟨n, .advancing, cmd⟩ := by
  cases hgo : n.patrol.snapshot.plan with
  | go mark status message goal =>
    refine .of_step (t := ⟨n, .marking mark status message goal, cmd⟩) ?_ rfl
      (sends_of_marking _ _ _ _ _ _)
    simp [Sys.step, Bridge.tickStep, hgo, TickPc.ofPlan]
  | nothing => simp [hgo, Plan.publishes] at hplan
  | stop status message => simp [hgo, Plan.publishes] at hplan
  | indexError mark => simp [hgo, Plan.publishes] at hplan

theorem sends_of_timed {n : Node F} (cmd : CmdPc F) {waypointTolerance : F}
    {goalSentAt : Option F} (hplan : n.patrol.snapshot.plan.publishes)
    (harrived : n.patrol.arrived waypointTolerance pose) :
    Sends pose now ⟨n, .timed waypointTolerance goalSentAt, cmd⟩ :=
  .of_step (t := ⟨n, .advancing, cmd⟩) (by simp [Sys.step, Bridge.tickStep, harrived]) rfl
    (sends_of_advancing cmd hplan)

/-- A pending goal is sent at some pose, whatever the clock. -/
theorem GoalPending.sends (h : GoalPending s) (now : F) : ∃ pose, Sends pose now s := by
  obtain ⟨n, tick, cmd⟩ := s
  cases tick with
  | checked =>
    obtain ⟨hplan, pose, harrived⟩ := h
    exact ⟨pose, .of_step rfl rfl (sends_of_timed cmd hplan harrived)⟩
  | timed waypointTolerance goalSentAt =>
    obtain ⟨hplan, pose, harrived⟩ := h
    exact ⟨pose, sends_of_timed cmd hplan harrived⟩
  | advancing => exact ⟨none, sends_of_advancing cmd h⟩
  | marking mark status message goal => exact ⟨none, sends_of_marking _ _ _ _ _ _⟩
  | announcing status message goal => exact ⟨none, sends_of_announcing _ _ _ _ _⟩
  | sending goal => exact ⟨none, sends_of_sending _ _ _⟩
  | idle => exact h.elim
  | recording goal => exact h.elim
  | crashing mark => exact h.elim
  | crashed => exact h.elim
  | stopping status message => exact h.elim
  | stopped status message => exact h.elim

theorem along_ticks (k : ℕ) :
    Along Sys.step (fun s a => ¬ Accepts s a) s (List.replicate k (.tick pose now)) := by
  induction k generalizing s with
  | zero => trivial
  | succ k ih => exact ⟨id, ih⟩

end Results

/-- The reason of the `patrol_stop` that is about to return. -/
def CmdPc.stoppedReason {F : Type} : CmdPc F → Option String
  | .stopped (.patrolStop reason) => some reason
  | _ => none

theorem CmdPc.eq_of_stoppedReason {F : Type} {pc : CmdPc F} {reason : String}
    (h : pc.stoppedReason = some reason) : pc = .stopped (.patrolStop reason) := by
  rw [stoppedReason.eq_def] at h
  split at h
  · cases h
    rfl
  · cases h

/-- A `patrol_stop` runs between the mark and the announcement of the first
waypoint. -/
def stopDuringAdvance : List (Action ℚ) :=
  List.replicate 6 (.cmd startSmallMission 0) ++ List.replicate 5 (.tick (some (0, 0)) 1) ++
    List.replicate 3 (.cmd (.dict [("action", .str "patrol_stop")]) 1)

theorem stopDuringAdvance_stopped : (run Sys.step Sys.init stopDuringAdvance).cmd =
    .stopped (.patrolStop "Patrol stopped by command") :=
  CmdPc.eq_of_stoppedReason (by decide +kernel)

/-- After that stop the executor announces and sends its goal. -/
theorem lateGoal_not_final :
    ∃ call, (run Sys.step Sys.init stopDuringAdvance).cmd = .stopped call ∧
      ¬ StopIsFinal ((run Sys.step Sys.init stopDuringAdvance).step (.cmd .null 0)) := by
  refine ⟨_, stopDuringAdvance_stopped, ?_⟩
  intro hfinal
  have hinactive := (hfinal [.tick none 1] ⟨id, trivial⟩).1
  revert hinactive
  decide +kernel

/-- **When a stop is final.**  In every reachable state in which the command
thread is about to leave `_stop_patrol`: no interleaving publishes another patrol
goal or makes the status active again, up to the next accepted start, exactly if
the executor has no goal pending. -/
theorem stopIsFinal_iff {F : Type} [PyNum F] (before : List (Action F)) (call : StopCall F)
    (hstop : (run Sys.step Sys.init before).cmd = .stopped call) (request : Json F) (now : F) :
    StopIsFinal ((run Sys.step Sys.init before).step (.cmd request now)) ↔
      ¬ GoalPending (run Sys.step Sys.init before) := by
  have hends : EndsInactive (run Sys.step (Sys.init : Sys F) before) :=
    run_invariant (I := EndsInactive) trivial (fun _ _ h => h.step)
  generalize run Sys.step Sys.init before = s at hstop hends
  obtain ⟨n, tick, cmd⟩ := s
  obtain rfl : cmd = _ := hstop
  constructor
  · intro hfinal hpending
    -- writing the status leaves the snapshot, the last goal and the tolerance alone
    have hpending' : GoalPending (Sys.step ⟨n, tick, .stopped call⟩ (.cmd request now)) := hpending
    -- the executor alone, at the right pose, sends the pending goal
    obtain ⟨pose, k, hk⟩ := hpending'.sends now
    exact hk (hfinal _ (along_ticks k)).2.symm
  · intro hquiet after hafter
    have hhalted : Halted n.patrolGoals (Sys.step ⟨n, tick, .stopped call⟩ (.cmd request now)) :=
      { inactive := call.status_isActive
        noStart := by cases call <;> rfl
        noGoal := hquiet
        ends := hends
        goals := rfl }
    have hrun := hafter.invariant hhalted (fun s a hs ha => by
      cases a with
      | tick pose now => exact hs.tickStep pose now
      | cmd request now => exact hs.cmdStep request now ha)
    exact ⟨hrun.inactive, hrun.goals⟩

/-- The first waypoint is due and the executor has taken its snapshot. -/
theorem stopIsFinal_iff_small :
    StopIsFinal ((run Sys.step Sys.init stopDuringAdvance).step (.cmd .null 0)) ↔
      ¬ GoalPending (run Sys.step Sys.init stopDuringAdvance) :=
  stopIsFinal_iff stopDuringAdvance _ stopDuringAdvance_stopped .null 0

end Bridge
