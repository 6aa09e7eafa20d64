/-
Is a patrol start atomic for the tick?

`_start_patrol` writes the mission, then its status, then sends the first goal and
records it, and leaves `_patrol_last_goal` of the mission before in place until
then.  `start_atomic` says that this is safe in the runs in which the executor is
between ticks when the start is accepted and no tick begins between the status
and the record (unless no goal was ever recorded), and no stop falls between the
snapshot and the mark of the first waypoint.  `staleArrival_breaks_order` is a run
outside them: a tick arrives at the last goal of the mission before and sends
waypoint 0 ahead of home.

The proof follows a mission through `Starting`, `Running` and `Ended`; in
`Running`, `Executor` says where the tick stands between two legs.
-/
import WheeltecRos2.Bridge.MissionOrder
import WheeltecRos2.Bridge.StopFinal

namespace Bridge

open Runs Mission

section Model

variable {F : Type} [PyNum F]

/-- The step runs the lock block of `_stop_patrol`. -/
def Clears (s : Sys F) : Action F → Prop
  | .tick _ _ => ∃ status message, s.tick = .stopping status message
  | .cmd _ _ => ∃ call, s.cmd = .stopping call

/-- The steps of a run that leaves a starting mission alone: no other start is
accepted, no tick begins while the home goal is being sent (unless no goal was
ever recorded), and no command clears the mission of a tick that is about to mark
the first waypoint. -/
def Quiet (s : Sys F) (a : Action F) : Prop :=
  ¬ Accepts s a ∧
  match a with
  | .tick _ _ => s.tick = .idle →
      (∃ home, s.cmd = .sendingHome home ∨ s.cmd = .recordingHome home) →
        s.node.patrol.lastGoal = none
  | .cmd _ _ => ∀ status message goal, (∃ call, s.cmd = .stopping call) →
      s.tick ≠ .marking .firstWaypoint status message goal

/-- The goal that is recorded but not sent yet, in a state between the two. -/
def held (s : Sys F) : Option (Goal F) :=
  match s.cmd, s.tick with
  | .starting home, _ | .sendingHome home, _ => some home
  | _, .announcing _ _ goal | _, .sending goal => some goal
  | _, _ => none

/-- The phase, loop and index record the goal last sent; while a thread holds a
goal they record that one. -/
def InSync (m : Mission F) (n : Node F) (s : Sys F) : Prop :=
  ∃ recorded : m.Leg, m.Carries recorded s.node.patrol ∧
    match held s with
    | none => publishedSince n s.node = recorded.sent ∧
        s.node.goalMessages.getLast? = some recorded.goal.message
    | some goal => goal = recorded.goal ∧ publishedSince n s.node ++ [goal] = recorded.sent

/-- A tick that decides something at this pose and time decides it on the goal the
mission records, once the start has recorded it, and on its send time. -/
def DecidesOnCurrent (m : Mission F) (s : Sys F) (pose : Option (F × F)) (now : F) : Prop :=
  ∀ waypointTolerance goalSentAt, s.tick = .timed waypointTolerance goalSentAt →
    s.node.patrol.arrived waypointTolerance pose ∨ s.node.patrol.timedOut goalSentAt now →
      s.cmd.inStart = false ∧
      (∃ recorded : m.Leg, m.Carries recorded s.node.patrol ∧
        s.node.patrol.lastGoal = some recorded.goal) ∧
      (s.node.patrol.timedOut goalSentAt now → goalSentAt = s.node.patrol.goalSentAt)

/-! ### The stages of a mission -/

/-- A tick that has read nothing of an earlier mission. -/
def Undecided (p : Patrol F) (tick : TickPc F) : Prop :=
  tick = .idle ∨ p.lastGoal = none ∧ p.goalSentAt = none ∧
    (tick = .checked ∨ ∃ waypointTolerance, tick = .timed waypointTolerance none)

/-- `_start_patrol` is between its acceptance and the record of its goal. -/
structure Starting (m : Mission F) (base : List (Goal F)) (s : Sys F) : Prop where
  carries : m.Carries .goHome s.node.patrol
  undecided : Undecided s.node.patrol s.tick
  unsent : s.node.patrol.lastGoal = none → s.node.patrol.goalSentAt = none
  block :
    (s.cmd = .starting m.home ∧ s.node.patrolGoals = base ∧
      s.node.patrol.isPatrolActive = false) ∨
    (s.cmd = .sendingHome m.home ∧ s.node.patrolGoals = base ∧ s.node.patrol.isPatrolActive) ∨
    (s.cmd = .recordingHome m.home ∧ s.node.patrolGoals = base ++ [m.home] ∧
      s.node.goalMessages.getLast? = some m.home.message ∧ s.node.patrol.isPatrolActive)

/-- Where the executor stands while `recorded` is recorded and `sent` was sent. -/
inductive Executor (m : Mission F) (p : Patrol F) : m.Leg → m.Leg → TickPc F → Prop
  | idle {leg} (hgoal : p.lastGoal = some leg.goal) : Executor m p leg leg .idle
  | checked {leg} (hgoal : p.lastGoal = some leg.goal) : Executor m p leg leg .checked
  | timed {leg} (hgoal : p.lastGoal = some leg.goal) {waypointTolerance goalSentAt}
      (hsent : goalSentAt = none ∨ goalSentAt = p.goalSentAt) :
      Executor m p leg leg (.timed waypointTolerance goalSentAt)
  | advancing {leg} (hgoal : p.lastGoal = some leg.goal) : Executor m p leg leg .advancing
  | marking {leg leg'} {mark message} (hgoal : p.lastGoal = some leg.goal)
      (hnext : leg.next = some leg') (hmark : ∀ q, m.Carries leg q → m.Carries leg' (q.mark mark)) :
      Executor m p leg leg (.marking mark leg'.status message leg'.goal)
  | announcing {leg leg'} {message} (hnext : leg.next = some leg') :
      Executor m p leg' leg (.announcing leg'.status message leg'.goal)
  | sending {leg leg'} (hnext : leg.next = some leg') :
      Executor m p leg' leg (.sending leg'.goal)
  | recording {leg} : Executor m p leg leg (.recording leg.goal)
  | stopping {leg} {status message} (hgoal : p.lastGoal = some leg.goal) :
      Executor m p leg leg (.stopping status message)

/-- The command thread neither starts a patrol nor is past the block that stops
one. -/
def CmdPc.atRest : CmdPc F → Bool
  | .idle | .accepting _ | .checking _ | .stopping _ | .replying => true
  | _ => false

/-- The mission is under way. -/
structure Running (m : Mission F) (base : List (Goal F)) (s : Sys F) : Prop where
  active : s.node.patrol.isPatrolActive
  cmd : s.cmd.atRest
  legs : ∃ recorded sent, m.Carries recorded s.node.patrol ∧
    Executor m s.node.patrol recorded sent s.tick ∧
    s.node.patrolGoals = base ++ sent.sent ∧
    s.node.goalMessages.getLast? = some sent.goal.message

/-- What an executor caught by a stop can still send: the next goal at most. -/
def LastHeld {m : Mission F} (leg : m.Leg) : TickPc F → Prop
  | .marking mark _ _ goal =>
    mark ≠ .firstWaypoint ∧ ∃ leg', leg.next = some leg' ∧ goal = leg'.goal
  | .announcing _ _ goal | .sending goal => ∃ leg', leg.next = some leg' ∧ goal = leg'.goal
  | .crashing _ => False
  | _ => True

/-- The mission was cleared. -/
structure Over (m : Mission F) (base : List (Goal F)) (s : Sys F) : Prop where
  noStart : s.cmd.inStart = false
  phase : s.node.patrol.phase = .idle ∨ s.node.patrol.phase = .returnHomeEnd
  legs : ∃ leg : m.Leg, s.node.patrolGoals = base ++ leg.sent ∧ LastHeld leg s.tick

end Model

section Results

variable {F : Type} [PyNum F] {m : Mission F} {base : List (Goal F)} {s : Sys F}
  {pose : Option (F × F)} {request : Json F} {now : F}

/-! ### The start -/

/-- During the start a quiet tick decides nothing. -/
theorem Starting.tick (h : Starting m base s) (hquiet : Quiet s (.tick pose now)) :
    Starting m base (s.step (.tick pose now)) := by
  obtain ⟨n, tick, cmd⟩ := s
  suffices hsame : (tickStep n pose now tick).1 = n ∧
      Undecided n.patrol (tickStep n pose now tick).2 by
    obtain ⟨hnode, hundecided⟩ := hsame
    exact {
      carries := by rw [Sys.step, hnode]; exact h.carries
      undecided := by rw [Sys.step, hnode]; exact hundecided
      unsent := by rw [Sys.step, hnode]; exact h.unsent
      block := by rw [Sys.step, hnode]; exact h.block }
  -- idle, past its test, or with its copies of the tolerance and the send time
  rcases h.undecided with rfl | ⟨hlast, hsent, rfl | ⟨waypointTolerance, rfl⟩⟩
  · refine ⟨rfl, ?_⟩
    by_cases hactive : n.patrol.isPatrolActive
    -- a tick that begins while the status is active: the run is quiet, so no goal is recorded
    · have hnone : n.patrol.lastGoal = none := by
        refine hquiet.2 rfl ?_
        rcases h.block with ⟨-, -, hinactive⟩ | ⟨hcmd, -⟩ | ⟨hcmd, -⟩
        · rw [hinactive] at hactive
          cases hactive
        · exact ⟨m.home, Or.inl hcmd⟩
        · exact ⟨m.home, Or.inr hcmd⟩
      simp only [tickStep, if_pos hactive]
      exact Or.inr ⟨hnone, h.unsent hnone, Or.inl rfl⟩
    · simp only [tickStep, if_neg hactive]
      exact Or.inl rfl
  · refine ⟨rfl, Or.inr ⟨hlast, hsent, Or.inr ⟨n.patrol.waypointTolerance, ?_⟩⟩⟩
    simp only at hsent
    simp only [tickStep, hsent]
  · refine ⟨rfl, Or.inl ?_⟩
    simp only at hlast
    simp [tickStep, Patrol.arrived, Patrol.distanceToCurrentGoal, hlast, Patrol.timedOut]

omit [PyNum F] in
/-- The tick that saw the start may go on, it has read nothing stale. -/
theorem Undecided.executor {p : Patrol F} {tick : TickPc F} (h : Undecided p tick) :
    Executor m (p.recordGoal m.home now) .goHome .goHome tick := by
  rcases h with rfl | ⟨-, -, rfl | ⟨waypointTolerance, rfl⟩⟩
  · exact .idle rfl
  · exact .checked rfl
  · exact .timed rfl (Or.inl rfl)

/-- During the start neither thread clears the mission. -/
theorem Starting.not_clears (h : Starting m base s) (a : Action F) : ¬ Clears s a := by
  intro hclears
  cases a with
  | tick pose now =>
    obtain ⟨status, message, htick⟩ := hclears
    rcases h.undecided with hidle | ⟨-, -, hidle | ⟨_, hidle⟩⟩ <;> rw [htick] at hidle <;>
      cases hidle
  | cmd request now =>
    obtain ⟨call, hcmd⟩ := hclears
    rcases h.block with ⟨hblock, -⟩ | ⟨hblock, -⟩ | ⟨hblock, -⟩ <;> rw [hcmd] at hblock <;>
      cases hblock

/-- The blocks of the start lead to a mission under way. -/
theorem Starting.cmd (h : Starting m base s) :
    Starting m base (s.step (.cmd request now)) ∨ Running m base (s.step (.cmd request now)) := by
  obtain ⟨n, tick, cmd⟩ := s
  rcases h.block with ⟨hcmd, hgoals, -⟩ | ⟨hcmd, hgoals, hactive⟩ |
    ⟨hcmd, hgoals, hmessages, hactive⟩ <;> obtain rfl : cmd = _ := hcmd
  · left
    exact {
      carries := h.carries.setPatrolState _ _
      undecided := h.undecided
      unsent := h.unsent
      block := Or.inr (Or.inl ⟨rfl, hgoals, rfl⟩) }
  · left
    exact {
      carries := h.carries
      undecided := h.undecided
      unsent := h.unsent
      block := by
        refine Or.inr (Or.inr ⟨rfl, ?_, ?_, hactive⟩)
        · simp only at hgoals
          simp [Sys.step, cmdStep, hgoals]
        · simp [Sys.step, cmdStep] }
  · right
    exact {
      active := hactive
      cmd := rfl
      legs := ⟨.goHome, .goHome, h.carries.recordGoal _ _, h.undecided.executor, hgoals,
        hmessages⟩ }

/-! ### The mission under way -/

/-- A block of the tick that does not clear the mission keeps it under way. -/
theorem Running.tick (h : Running m base s) (hclears : ¬ Clears s (.tick pose now)) :
    Running m base (s.step (.tick pose now)) := by
  obtain ⟨recorded, sent, hcarries, hexec, hgoals, hmessages⟩ := h.legs
  have hactive := h.active
  have hcmd := h.cmd
  obtain ⟨n, tick, cmd⟩ := s
  simp only at hcarries hgoals hmessages hexec hactive hcmd
  cases hexec with
  | idle hgoal =>
    refine ⟨hactive, hcmd, recorded, recorded, hcarries, ?_, hgoals, hmessages⟩
    simp only [Sys.step, tickStep, if_pos hactive]
    exact .checked hgoal
  | checked hgoal =>
    exact ⟨hactive, hcmd, recorded, recorded, hcarries, .timed hgoal (Or.inr rfl), hgoals,
      hmessages⟩
  | timed hgoal hsent =>
    refine ⟨hactive, hcmd, recorded, recorded, hcarries, ?_, hgoals, hmessages⟩
    simp only [Sys.step, tickStep]
    split_ifs
    · exact .advancing hgoal
    · exact .stopping hgoal
    · exact .idle hgoal
  | advancing hgoal =>
    refine ⟨hactive, hcmd, recorded, recorded, hcarries, ?_, hgoals, hmessages⟩
    simp only [Sys.step, tickStep]
    cases hnext : recorded.next with
    | some leg' =>
      obtain ⟨mark, message, hplan, hmark⟩ := hcarries.plan_of_next hnext
      rw [hplan]
      exact .marking hgoal hnext hmark
    | none =>
      obtain rfl := Leg.next_eq_none_iff.mp hnext
      rw [hcarries.plan_of_last]
      exact .stopping hgoal
  -- the fields move on to the next leg, its goal is sent later
  | marking hgoal hnext hmark =>
    refine ⟨?_, hcmd, _, recorded, hmark _ hcarries, .announcing hnext, hgoals, hmessages⟩
    simpa [Sys.step, tickStep] using hactive
  | announcing hnext =>
    exact ⟨Leg.status_isActive _, hcmd, recorded, sent, hcarries.setPatrolState _ _,
      .sending hnext, hgoals, hmessages⟩
  | sending hnext =>
    refine ⟨hactive, hcmd, recorded, recorded, hcarries, .recording, ?_, ?_⟩
    · simp [Sys.step, tickStep, hgoals, Leg.sent_next hnext]
    · simp [Sys.step, tickStep]
  | recording =>
    exact ⟨hactive, hcmd, recorded, recorded, hcarries.recordGoal _ _, .idle rfl, hgoals, hmessages⟩
  -- this block clears the mission
  | stopping hgoal => exact absurd ⟨_, _, rfl⟩ hclears

/-- So does a block of a command that does not clear it. -/
theorem Running.cmdStep (h : Running m base s) (hclears : ¬ Clears s (.cmd request now)) :
    Running m base (s.step (.cmd request now)) := by
  obtain ⟨recorded, sent, hcarries, hexec, hgoals, hmessages⟩ := h.legs
  have hactive := h.active
  have hcmd := h.cmd
  obtain ⟨n, tick, cmd⟩ := s
  simp only at hcarries hgoals hmessages hexec hactive hcmd
  cases cmd with
  | idle =>
    obtain ⟨hpatrol, hpatrolGoals, hgoalMessages, hpc⟩ := receive_spec n request
    refine ⟨?_, ?_, recorded, sent, ?_, ?_, ?_, ?_⟩ <;> simp only [Sys.step, Bridge.cmdStep]
    · rw [hpatrol]; exact hactive
    · rcases hpc with hpc | ⟨order, -, hpc⟩ | ⟨call, hpc⟩ <;> rw [hpc] <;> rfl
    · rw [hpatrol]; exact hcarries
    · rw [hpatrol]; exact hexec
    · rw [hpatrolGoals]; exact hgoals
    · rw [hgoalMessages]; exact hmessages
  | accepting order =>
    -- an active patrol rejects the start
    have hrejected : n.patrol.accept order = none := by rw [Patrol.accept, if_pos hactive]
    refine ⟨?_, ?_, recorded, sent, ?_, ?_, ?_, ?_⟩ <;>
      simp only [Sys.step, Bridge.cmdStep, hrejected]
    · exact hactive
    · rfl
    · exact hcarries
    · exact hexec
    · exact hgoals
    · exact hmessages
  | checking call =>
    refine ⟨hactive, ?_, recorded, sent, hcarries, hexec, hgoals, hmessages⟩
    simp only [Sys.step, Bridge.cmdStep, if_pos hactive]
    rfl
  | replying => exact ⟨hactive, rfl, recorded, sent, hcarries, hexec, hgoals, hmessages⟩
  | stopping call => exact absurd ⟨call, rfl⟩ hclears
  | starting home => cases hcmd
  | sendingHome home => cases hcmd
  | recordingHome home => cases hcmd
  | stopped call => cases hcmd
  | navigating payload => cases hcmd

/-! ### The mission cleared -/

/-- A quiet block that clears the mission leaves at most the next goal to be sent. -/
theorem Running.clear (h : Running m base s) {a : Action F} (hclears : Clears s a)
    (hquiet : Quiet s a) : Over m base (s.step a) := by
  obtain ⟨recorded, sent, -, hexec, hgoals, -⟩ := h.legs
  have hcmd := h.cmd
  obtain ⟨n, tick, cmd⟩ := s
  simp only at hgoals hexec hcmd
  cases a with
  | tick pose now =>
    obtain ⟨status, message, rfl⟩ : ∃ status message, tick = .stopping status message := hclears
    refine ⟨?_, Or.inl rfl, sent, hgoals, trivial⟩
    cases cmd <;> first | rfl | cases hcmd
  | cmd request now =>
    obtain ⟨call, rfl⟩ : ∃ call, cmd = .stopping call := hclears
    refine ⟨rfl, Or.inl rfl, sent, hgoals, ?_⟩
    cases hexec with
    -- the mark of the first waypoint would bring the phase back to life
    | marking hgoal hnext hmark =>
      refine ⟨?_, _, hnext, rfl⟩
      rintro rfl
      exact hquiet.2 _ _ _ ⟨call, rfl⟩ rfl
    | announcing hnext => exact ⟨_, hnext, rfl⟩
    | sending hnext => exact ⟨_, hnext, rfl⟩
    | idle hgoal => trivial
    | checked hgoal => trivial
    | timed hgoal hsent => trivial
    | advancing hgoal => trivial
    | recording => trivial
    | stopping hgoal => trivial

/-- After the end a tick sends the goal it holds and no other. -/
theorem Over.tick (h : Over m base s) : Over m base (s.step (.tick pose now)) := by
  obtain ⟨leg, hgoals, hheld⟩ := h.legs
  have hphase := h.phase
  obtain ⟨n, tick, cmd⟩ := s
  simp only at hgoals hheld hphase
  cases tick with
  | idle =>
    refine ⟨h.noStart, hphase, leg, hgoals, ?_⟩
    simp only [Sys.step, tickStep]
    split_ifs <;> trivial
  | checked => exact ⟨h.noStart, hphase, leg, hgoals, trivial⟩
  | timed waypointTolerance goalSentAt =>
    refine ⟨h.noStart, hphase, leg, hgoals, ?_⟩
    simp only [Sys.step, tickStep]
    split_ifs <;> trivial
  | advancing =>
    refine ⟨h.noStart, hphase, leg, hgoals, ?_⟩
    rcases hphase with hphase | hphase <;>
      simp [Sys.step, tickStep, Snapshot.plan, Patrol.snapshot, hphase, TickPc.ofPlan, LastHeld]
  -- a late mark of another kind leaves a phase in which no plan publishes
  | marking mark status message goal =>
    refine ⟨h.noStart, ?_, leg, hgoals, hheld.2⟩
    cases mark with
    | firstWaypoint => exact absurd rfl hheld.1
    | waypoint index => exact hphase
    | loop loop => exact hphase
    | returnHome => exact Or.inr rfl
  | announcing status message goal => exact ⟨h.noStart, hphase, leg, hgoals, hheld⟩
  | sending goal =>
    obtain ⟨leg', hnext, rfl⟩ := hheld
    refine ⟨h.noStart, hphase, leg', ?_, trivial⟩
    simp [Sys.step, tickStep, hgoals, Leg.sent_next hnext]
  | recording goal => exact ⟨h.noStart, hphase, leg, hgoals, trivial⟩
  | crashing mark => exact hheld.elim
  | crashed => exact ⟨h.noStart, hphase, leg, hgoals, trivial⟩
  | stopping status message => exact ⟨h.noStart, Or.inl rfl, leg, hgoals, trivial⟩
  | stopped status message => exact ⟨h.noStart, hphase, leg, hgoals, trivial⟩

/-- A command sends none. -/
theorem Over.cmdStep (h : Over m base s) (hquiet : ¬ Accepts s (.cmd request now)) :
    Over m base (s.step (.cmd request now)) := by
  obtain ⟨leg, hgoals, hheld⟩ := h.legs
  have hphase := h.phase
  have hstart := h.noStart
  obtain ⟨n, tick, cmd⟩ := s
  simp only at hgoals hheld hphase hstart
  cases cmd with
  | idle =>
    obtain ⟨hpatrol, hpatrolGoals, -, hpc⟩ := receive_spec n request
    refine ⟨?_, ?_, leg, ?_, hheld⟩ <;> simp only [Sys.step, Bridge.cmdStep]
    · rcases hpc with hpc | ⟨order, -, hpc⟩ | ⟨call, hpc⟩ <;> rw [hpc] <;> rfl
    · rw [hpatrol]; exact hphase
    · rw [hpatrolGoals]; exact hgoals
  | accepting order =>
    have hrejected : n.patrol.accept order = none := by
      rw [Patrol.accept, if_pos]
      by_contra hinactive
      exact hquiet ⟨order, rfl, by simpa using hinactive⟩
    refine ⟨?_, ?_, leg, ?_, hheld⟩ <;> simp only [Sys.step, Bridge.cmdStep, hrejected]
    · rfl
    · exact hphase
    · exact hgoals
  | checking call =>
    refine ⟨?_, hphase, leg, hgoals, hheld⟩
    simp only [Sys.step, Bridge.cmdStep]
    cases call <;> split_ifs <;> rfl
  | stopping call => exact ⟨rfl, Or.inl rfl, leg, hgoals, hheld⟩
  | stopped call =>
    refine ⟨?_, hphase, leg, hgoals, hheld⟩
    cases call <;> rfl
  | navigating payload =>
    obtain ⟨hpatrol, hpatrolGoals, hpc⟩ := navigating_spec n request payload now
    refine ⟨?_, ?_, leg, ?_, hheld⟩ <;> simp only [Sys.step]
    · rw [hpc]; rfl
    · rw [hpatrol]; exact hphase
    · rw [hpatrolGoals]; exact hgoals
  | replying => exact ⟨rfl, hphase, leg, hgoals, hheld⟩
  -- the rest of a start that was accepted
  | starting home => cases hstart
  | sendingHome home => cases hstart
  | recordingHome home => cases hstart

/-! ### Runs -/

/-- The mission is starting or under way. -/
def Live (m : Mission F) (base : List (Goal F)) (s : Sys F) : Prop :=
  Starting m base s ∨ Running m base s

/-- A quiet step that clears a live mission ends it. -/
theorem Live.over {a : Action F} (h : Live m base s) (hquiet : Quiet s a) (hclears : Clears s a) :
    Over m base (s.step a) := by
  rcases h with hstarting | hrunning
  · exact absurd hclears (hstarting.not_clears a)
  · exact hrunning.clear hclears hquiet

/-- **A quiet step that does not clear it keeps it live.** -/
theorem Live.step {a : Action F} (h : Live m base s) (hquiet : Quiet s a)
    (hclears : ¬ Clears s a) : Live m base (s.step a) := by
  cases a with
  | tick pose now =>
    rcases h with hstarting | hrunning
    · exact Or.inl (hstarting.tick hquiet)
    · exact Or.inr (hrunning.tick hclears)
  | cmd request now =>
    rcases h with hstarting | hrunning
    · exact hstarting.cmd
    · exact Or.inr (hrunning.cmdStep hclears)

theorem Over.step {a : Action F} (h : Over m base s) (hquiet : Quiet s a) :
    Over m base (s.step a) := by
  cases a with
  | tick pose now => exact h.tick
  | cmd request now => exact h.cmdStep hquiet.1

/-- A quiet run of a live mission leaves it live or over. -/
theorem Live.run {after : List (Action F)} (h : Live m base s)
    (hquiet : Along Sys.step Quiet s after) :
    Live m base (Runs.run Sys.step s after) ∨ Over m base (Runs.run Sys.step s after) := by
  refine hquiet.invariant (I := fun s => Live m base s ∨ Over m base s) (Or.inl h) ?_
  rintro s a (hlive | hover) hq
  · by_cases hclears : Clears s a
    · exact Or.inr (hlive.over hq hclears)
    · exact Or.inl (hlive.step hq hclears)
  · exact Or.inr (hover.step hq)

/-! ### What the stages say -/

variable {n : Node F}

omit [PyNum F] in
theorem publishedSince_nil (h : s.node.patrolGoals = n.patrolGoals) :
    publishedSince n s.node = [] :=
  publishedSince_of_append (by rw [h, List.append_nil])

/-- The goals of a mission are in order. -/
theorem Live.in_order (h : Live m n.patrolGoals s) : publishedSince n s.node <+: m.route := by
  rcases h with hstarting | hrunning
  · rcases hstarting.block with ⟨-, hgoals, -⟩ | ⟨-, hgoals, -⟩ | ⟨-, hgoals, -⟩
    · rw [publishedSince_nil hgoals]
      exact List.nil_prefix
    · rw [publishedSince_nil hgoals]
      exact List.nil_prefix
    · rw [publishedSince_of_append hgoals]
      exact Leg.sent_prefix_route .goHome
  · obtain ⟨recorded, sent, -, -, hgoals, -⟩ := hrunning.legs
    rw [publishedSince_of_append hgoals]
    exact sent.sent_prefix_route

omit [PyNum F] in
theorem Over.in_order (h : Over m n.patrolGoals s) : publishedSince n s.node <+: m.route := by
  obtain ⟨leg, hgoals, -⟩ := h.legs
  rw [publishedSince_of_append hgoals]
  exact leg.sent_prefix_route

omit [PyNum F] in
/-- While no patrol is starting, only the executor can hold a goal. -/
theorem held_of_atRest (h : s.cmd.atRest) :
    held s = match s.tick with
      | .announcing _ _ goal | .sending goal => some goal
      | _ => none := by
  obtain ⟨node, tick, cmd⟩ := s
  cases cmd <;> first | (cases tick <;> rfl) | cases h

theorem Live.inSync (h : Live m n.patrolGoals s) : InSync m n s := by
  rcases h with hstarting | hrunning
  · refine ⟨.goHome, hstarting.carries, ?_⟩
    rcases hstarting.block with ⟨hcmd, hgoals, -⟩ | ⟨hcmd, hgoals, -⟩ |
      ⟨hcmd, hgoals, hmessages, -⟩
    · have hheld : held s = some m.home := by simp [held, hcmd]
      rw [hheld, publishedSince_nil hgoals]
      exact ⟨rfl, rfl⟩
    · have hheld : held s = some m.home := by simp [held, hcmd]
      rw [hheld, publishedSince_nil hgoals]
      exact ⟨rfl, rfl⟩
    · have hheld : held s = none := by
        rcases hstarting.undecided with htick | ⟨-, -, htick | ⟨_, htick⟩⟩ <;>
          simp [held, hcmd, htick]
      rw [hheld, publishedSince_of_append hgoals]
      exact ⟨rfl, hmessages⟩
  · obtain ⟨recorded, sent, hcarries, hexec, hgoals, hmessages⟩ := hrunning.legs
    refine ⟨recorded, hcarries, ?_⟩
    rw [publishedSince_of_append hgoals, held_of_atRest hrunning.cmd]
    generalize s.tick = tick at hexec
    cases hexec with
    | announcing hnext => exact ⟨rfl, (Leg.sent_next hnext).symm⟩
    | sending hnext => exact ⟨rfl, (Leg.sent_next hnext).symm⟩
    | idle hgoal => exact ⟨rfl, hmessages⟩
    | checked hgoal => exact ⟨rfl, hmessages⟩
    | timed hgoal hsent => exact ⟨rfl, hmessages⟩
    | advancing hgoal => exact ⟨rfl, hmessages⟩
    | marking hgoal hnext hmark => exact ⟨rfl, hmessages⟩
    | recording => exact ⟨rfl, hmessages⟩
    | stopping hgoal => exact ⟨rfl, hmessages⟩

theorem Live.decidesOnCurrent (h : Live m base s) : DecidesOnCurrent m s pose now := by
  intro waypointTolerance goalSentAt htick hdecides
  rcases h with hstarting | hrunning
  · -- a tick of the start has neither a goal nor a send time
    rcases hstarting.undecided with hidle | ⟨hlast, hsent, hidle | ⟨_, hidle⟩⟩ <;>
      rw [htick] at hidle <;> cases hidle
    simp [Patrol.arrived, Patrol.distanceToCurrentGoal, hlast, Patrol.timedOut] at hdecides
  · obtain ⟨recorded, sent, hcarries, hexec, -, -⟩ := hrunning.legs
    have hcmd := hrunning.cmd
    rw [htick] at hexec
    cases hexec with
    | timed hgoal hsent =>
      refine ⟨?_, ⟨recorded, hcarries, hgoal⟩, ?_⟩
      · cases hpc : s.cmd <;> rw [hpc] at hcmd <;> first | rfl | cases hcmd
      · intro htimeout
        rcases hsent with rfl | hsent
        · cases htimeout
        · exact hsent

/-! ### The state in which a start is accepted -/

/-- Of every reachable state: a send time needs a goal, and what waits for the lock
is valid. -/
structure Sound (s : Sys F) : Prop where
  unsent : s.node.patrol.lastGoal = none → s.node.patrol.goalSentAt = none
  valid : ∀ order, s.cmd = .accepting order → order.Valid

theorem Sound.tick (h : Sound s) : Sound (s.step (.tick pose now)) := by
  refine ⟨?_, h.valid⟩
  have hunsent := h.unsent
  obtain ⟨n, tick, cmd⟩ := s
  cases tick with
  | marking mark status message goal => cases mark <;> exact hunsent
  | crashing mark => cases mark <;> exact hunsent
  | recording goal => exact fun hnone => by cases hnone
  | stopping status message => exact fun _ => rfl
  | idle => exact hunsent
  | checked => exact hunsent
  | timed waypointTolerance goalSentAt => exact hunsent
  | advancing => exact hunsent
  | announcing status message goal => exact hunsent
  | sending goal => exact hunsent
  | crashed => exact hunsent
  | stopped status message => exact hunsent

theorem Sound.cmd (h : Sound s) : Sound (s.step (.cmd request now)) := by
  have hunsent := h.unsent
  obtain ⟨n, tick, cmd⟩ := s
  cases cmd with
  | idle =>
    obtain ⟨hpatrol, -, -, hpc⟩ := receive_spec n request
    refine ⟨?_, ?_⟩ <;> simp only [Sys.step, cmdStep]
    · rw [hpatrol]; exact hunsent
    · intro order horder
      rcases hpc with hpc | ⟨received, hvalid, hpc⟩ | ⟨call, hpc⟩ <;> rw [hpc] at horder <;>
        cases horder
      exact hvalid
  | accepting order =>
    refine ⟨?_, ?_⟩ <;> simp only [Sys.step, cmdStep, Patrol.accept] <;> split_ifs
    · exact hunsent
    · exact hunsent
    · exact fun _ hpc => by cases hpc
    · exact fun _ hpc => by cases hpc
  | recordingHome home =>
    refine ⟨?_, fun _ hpc => by cases hpc⟩
    intro hnone
    cases hnone
  | stopping call => exact ⟨fun _ => rfl, fun _ hpc => by cases hpc⟩
  | navigating payload =>
    obtain ⟨hpatrol, -, hpc⟩ := navigating_spec n request payload now
    refine ⟨?_, ?_⟩ <;> simp only [Sys.step]
    · rw [hpatrol]; exact hunsent
    · rw [hpc]; exact fun _ hpc => by cases hpc
  | starting home => exact ⟨hunsent, fun _ hpc => by cases hpc⟩
  | sendingHome home => exact ⟨hunsent, fun _ hpc => by cases hpc⟩
  | checking call =>
    refine ⟨hunsent, ?_⟩
    simp only [Sys.step, cmdStep]
    cases call <;> split_ifs <;> exact fun _ hpc => by cases hpc
  | stopped call => exact ⟨hunsent, by cases call <;> exact fun _ hpc => by cases hpc⟩
  | replying => exact ⟨hunsent, fun _ hpc => by cases hpc⟩

theorem sound_run (before : List (Action F)) : Sound (run Sys.step (Sys.init : Sys F) before) := by
  refine run_invariant ⟨fun _ => rfl, fun _ hpc => by cases hpc⟩ ?_
  intro s a h
  cases a with
  | tick pose now => exact h.tick
  | cmd request now => exact h.cmd

/-- Accepted between two ticks, a mission starts undisturbed. -/
theorem Sound.starting {order : PatrolOrder F} (h : Sound s) (request : Json F) (now : F)
    (hcmd : s.cmd = .accepting order) (hinactive : s.node.patrol.isPatrolActive = false)
    (hidle : s.tick = .idle) :
    Starting (order.mission (h.valid order hcmd)) s.node.patrolGoals
      (s.step (.cmd request now)) := by
  have hvalid := h.valid order hcmd
  have hunsent := h.unsent
  obtain ⟨n, tick, cmd⟩ := s
  obtain rfl : cmd = _ := hcmd
  have haccept : ∃ p, n.patrol.accept order = some p := by
    simp only at hinactive
    exact ⟨_, by rw [Patrol.accept, if_neg (by simp [hinactive])]⟩
  obtain ⟨p, hp⟩ := haccept
  have hstep : Sys.step ⟨n, tick, .accepting order⟩ (.cmd request now) =
      ⟨{ n with patrol := p }, tick, .starting order.home⟩ := by simp [Sys.step, cmdStep, hp]
  have hcarries := carries_of_accept hvalid hp
  have hfields : p.lastGoal = n.patrol.lastGoal ∧ p.goalSentAt = n.patrol.goalSentAt ∧
      p.status = n.patrol.status := by
    rw [Patrol.accept] at hp
    split_ifs at hp
    cases hp
    exact ⟨rfl, rfl, rfl⟩
  rw [hstep]
  exact {
    carries := hcarries
    undecided := Or.inl hidle
    unsent := by
      simp only [hfields.1, hfields.2.1]
      exact hunsent
    block := by
      refine Or.inl ⟨rfl, rfl, ?_⟩
      simp only [Patrol.isPatrolActive, hfields.2.2]
      exact hinactive }

/-! ### Quiet steps -/

omit [PyNum F] in
theorem Quiet.tick_of_starting {home : Goal F} (h : s.cmd = .starting home) :
    Quiet s (.tick pose now) := by
  refine ⟨id, fun _ => ?_⟩
  rintro ⟨_, hcmd | hcmd⟩ <;> rw [h] at hcmd <;> cases hcmd

omit [PyNum F] in
theorem Quiet.tick_of_atRest (h : s.cmd.atRest) : Quiet s (.tick pose now) := by
  refine ⟨id, fun _ => ?_⟩
  rintro ⟨_, hcmd | hcmd⟩ <;> rw [hcmd] at h <;> cases h

omit [PyNum F] in
/-- The blocks of the start itself are quiet. -/
theorem Quiet.cmd_of_inStart (h : s.cmd.inStart) : Quiet s (.cmd request now) := by
  refine ⟨?_, ?_⟩
  · rintro ⟨_, hcmd, -⟩
    rw [hcmd] at h
    cases h
  · rintro _ _ _ ⟨_, hcmd⟩
    rw [hcmd] at h
    cases h

omit [PyNum F] in
theorem not_clears_of_inStart (h : s.cmd.inStart) : ¬ Clears s (.cmd request now) := by
  rintro ⟨_, hcmd⟩
  rw [hcmd] at h
  cases h

/-- The executor is at the lock block of `_stop_patrol`. -/
def TickPc.inStop : TickPc F → Bool
  | .stopping _ _ => true
  | _ => false

omit [PyNum F] in
theorem not_clears_of_not_inStop (h : s.tick.inStop = false) : ¬ Clears s (.tick pose now) := by
  rintro ⟨_, _, htick⟩
  rw [htick] at h
  cases h

end Results

/-! ### A stale arrival -/

/-- A mission was started and stopped at home, and the next start is at the lock. -/
def restart : List (Action ℚ) :=
  List.replicate 6 (.cmd startSmallMission 0) ++
    List.replicate 5 (.cmd (.dict [("action", .str "patrol_stop")]) 1) ++
    [.cmd startSmallMission 2]

/-- A tick of the robot still at home runs while the home goal is being sent. -/
def tickDuringStart : List (Action ℚ) :=
  .cmd .null 2 :: List.replicate 7 (.tick (some (0, 0)) 2)

/-- It takes the last goal of the mission before for the home of the new one and
sends waypoint 0 first. -/
theorem staleArrival_breaks_order :
    ∃ hvalid : smallOrder.Valid,
      (run Sys.step Sys.init restart).cmd = .accepting smallOrder ∧
      (run Sys.step Sys.init restart).node.patrol.isPatrolActive = false ∧
      ¬ publishedSince (run Sys.step Sys.init restart).node
          (run Sys.step ((run Sys.step Sys.init restart).step (.cmd .null 2))
            tickDuringStart).node <+:
        (smallOrder.mission hvalid).route := by
  refine ⟨parseStart_valid (show parseStart smallMission = .ok smallOrder from rfl), rfl, rfl, ?_⟩
  intro hprefix
  have hpublished : publishedSince (run Sys.step Sys.init restart).node
      (run Sys.step ((run Sys.step Sys.init restart).step (.cmd .null 2)) tickDuringStart).node =
        [⟨1, 0, 0⟩] := by decide +kernel
  rw [hpublished] at hprefix
  have hfirst := (List.cons_prefix_cons.mp hprefix).1
  revert hfirst
  decide +kernel

/-- **A start is atomic for the ticks of a quiet run.**  After any history, a start
accepted between two ticks and followed by quiet steps publishes its goals in
order; until the mission is cleared the goal last sent is the one recorded (or the
one a thread holds), and every tick decides on that goal and its send time. -/
theorem start_atomic {F : Type} [PyNum F] (before : List (Action F)) (order : PatrolOrder F)
    (haccepting : (run Sys.step Sys.init before).cmd = .accepting order)
    (hinactive : (run Sys.step Sys.init before).node.patrol.isPatrolActive = false)
    (hbetween : (run Sys.step Sys.init before).tick = .idle) (request : Json F) (now : F)
    (after : List (Action F))
    (hquiet : Along Sys.step Quiet ((run Sys.step Sys.init before).step (.cmd request now)) after) :
    ∃ hvalid : order.Valid,
      let n := (run Sys.step Sys.init before).node
      let start := (run Sys.step Sys.init before).step (.cmd request now)
      let s := run Sys.step start after
      publishedSince n s.node <+: (order.mission hvalid).route ∧
        (Along Sys.step (fun s a => ¬ Clears s a) start after →
          InSync (order.mission hvalid) n s ∧
          ∀ pose now, DecidesOnCurrent (order.mission hvalid) s pose now) := by
  have hsound := sound_run before
  generalize run Sys.step Sys.init before = s₀ at *
  have hstarting := hsound.starting request now haccepting hinactive hbetween
  have hlive : Live _ s₀.node.patrolGoals (s₀.step (.cmd request now)) := Or.inl hstarting
  refine ⟨hsound.valid order haccepting, ?_, ?_⟩
  · rcases hlive.run hquiet with hlive | hover
    · exact hlive.in_order
    · exact hover.in_order
  · intro hclear
    have hkept := (along_and hquiet hclear).invariant hlive (fun s a h hqc => h.step hqc.1 hqc.2)
    exact ⟨hkept.inSync, fun _ _ => hkept.decidesOnCurrent⟩

/-- The second mission again: a tick finds the patrol not active yet, the start sends
and records home, and the next tick arrives there. -/
def quietStart : List (Action ℚ) :=
  .tick (some (0, 0)) 2 :: List.replicate 3 (.cmd .null 2) ++
    List.replicate 8 (.tick (some (0, 0)) 3)

/-- Home and waypoint 0, in this order. -/
theorem start_atomic_restart :
    ∃ hvalid : smallOrder.Valid,
      let n := (run Sys.step Sys.init restart).node
      let s := run Sys.step ((run Sys.step Sys.init restart).step (.cmd .null 2)) quietStart
      publishedSince n s.node = [smallOrder.home, ⟨1, 0, 0⟩] ∧
      publishedSince n s.node <+: (smallOrder.mission hvalid).route ∧
      InSync (smallOrder.mission hvalid) n s ∧
      ∀ pose now, DecidesOnCurrent (smallOrder.mission hvalid) s pose now := by
  have hquiet : Along Sys.step Quiet
      ((run Sys.step Sys.init restart).step (.cmd .null 2)) quietStart :=
    -- the tick before the status, the blocks of the start, the ticks after its record
    ⟨.tick_of_starting rfl, .cmd_of_inStart rfl, .cmd_of_inStart rfl, .cmd_of_inStart rfl,
      .tick_of_atRest rfl, .tick_of_atRest rfl, .tick_of_atRest rfl, .tick_of_atRest rfl,
      .tick_of_atRest rfl, .tick_of_atRest rfl, .tick_of_atRest rfl, .tick_of_atRest rfl, trivial⟩
  have hkept : Along Sys.step (fun s a => ¬ Clears s a)
      ((run Sys.step Sys.init restart).step (.cmd .null 2)) quietStart := by
    refine ⟨?_, not_clears_of_inStart rfl, not_clears_of_inStart rfl, not_clears_of_inStart rfl,
      ?_, ?_, ?_, ?_, ?_, ?_, ?_, ?_, trivial⟩
    all_goals exact not_clears_of_not_inStop (by decide +kernel)
  obtain ⟨hvalid, hroute, hsync⟩ :=
    start_atomic restart smallOrder rfl rfl rfl .null 2 quietStart hquiet
  exact ⟨hvalid, by decide +kernel, hroute, hsync hkept⟩

end Bridge
