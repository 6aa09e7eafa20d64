/-
Status messages delivered again.

The status topic carries the list of all goals and is published whenever one of them
changes, so the last entry may well be one that `waypoint_cycle` has seen before.  The
node keeps no goal: every message with a code from SUCCEEDED on moves it to the next
waypoint, and the log says that the point only just published was reached
(`redelivered_moves_on`).  `advancesOnce` is what holds: in a run whose messages find
nothing to do, or are new and move the node on only by the first terminal status of
their last goal, the node moves on at most once for each finished goal.
-/
import WheeltecRos2.Waypoint.Retry
import Mathlib.Data.Finset.Card

namespace Waypoint

variable {F ι : Type}

/-- The goals that some message has reported as ended. -/
def finished [DecidableEq ι] (delivered : List (GoalStatusArray ι)) : Finset ι :=
  (((delivered.flatMap GoalStatusArray.statusList).filter fun entry =>
    IsTerminal entry.status).map GoalStatus.goalId).toFinset

/-- The node, the messages it was sent and how often it has moved on. -/
structure History (F ι : Type) where
  node : WaypointCycle F
  delivered : List (GoalStatusArray ι)
  moves : ℕ

def History.start : History F ι := { node := .init, delivered := [], moves := 0 }

section History

variable [Zero F] [One F]

/-- The goals of an event that are for another waypoint than the last one. -/
def WaypointCycle.movesOn (s : WaypointCycle F) (event : Event F ι) : List (Goal F) :=
  (s.emitted event).filter fun goal => s.lastGoal.any fun k => goal.index ≠ k

/-- The history after an event. -/
def History.step (h : History F ι) (event : Event F ι) : History F ι :=
  { node := h.node.step event
    delivered :=
      match event with
      | .click _ _ => h.delivered
      | .status msg => h.delivered ++ [msg]
    moves := h.moves + (h.node.movesOn event).length }

/-- The fields a message delivered again must not change. -/
structure Unchanged (s s' : WaypointCycle F) : Prop where
  index : s'.index = s.index
  tryAgain : s'.tryAgain = s.tryAgain
  published : s'.published = s.published

/-- The node moves on at most once for each finished goal, and a message delivered again
changes nothing. -/
structure AdvancesOnce [DecidableEq ι] (events : List (Event F ι)) : Prop where
  moves : ∀ before, before <+: events →
    (Runs.run History.step .start before).moves ≤
      (finished (Runs.run History.step .start before).delivered).card
  redelivered : Runs.Along History.step (fun h event => ∀ msg, event = .status msg →
    msg ∈ h.delivered → Unchanged h.node (h.node.step event)) .start events

/-- The message finds nothing to do. -/
def FindsNothing (s : WaypointCycle F) (status : ℤ) : Prop :=
  status = statusExecuting ∨ s.count = 0 ∨
    status < statusSucceeded ∧ s.tryAgain = false ∧ s.count ≤ s.index

/-- The message finds nothing to do, or it is new and does not lead to another waypoint,
or it is the first to report its last goal as ended. -/
def Fresh [DecidableEq ι] (h : History F ι) : Event F ι → Prop
  | .click _ _ => True
  | .status msg =>
    FindsNothing h.node msg.last.status ∨
      msg ∉ h.delivered ∧
        (h.node.count = 1 ∨ msg.last.status < statusSucceeded ∧ h.node.tryAgain = true ∨
          IsTerminal msg.last.status ∧ msg.last.goalId ∉ finished h.delivered)

/-! ### A message delivered again -/

/-- Two points are clicked, and the success of the first goal is reported twice. -/
def succeededTwice : List (Event ℤ ℕ) :=
  [.click 1 0, .click 2 0, .status (oneGoal 1 statusSucceeded),
    .status (oneGoal 1 statusSucceeded)]

/-- One goal has finished, and the node has moved on twice. -/
theorem redelivered_moves_on : ¬ AdvancesOnce succeededTwice := by
  intro honce
  have hmoves := honce.moves succeededTwice (List.prefix_refl _)
  revert hmoves
  decide

/-! ### One event -/

section Event

variable [DecidableEq ι] {h : History F ι} {event : Event F ι} {msg : GoalStatusArray ι}

theorem finished_mono (delivered : List (GoalStatusArray ι)) (msg : GoalStatusArray ι) :
    finished delivered ⊆ finished (delivered ++ [msg]) := by
  intro goalId
  simp only [finished, List.mem_toFinset, List.mem_map, List.mem_filter, List.mem_flatMap]
  rintro ⟨entry, ⟨⟨m, hm, hentry⟩, hterminal⟩, hid⟩
  exact ⟨entry, ⟨⟨m, List.mem_append_left _ hm, hentry⟩, hterminal⟩, hid⟩

/-- The last goal of a message counts from then on, if it has ended. -/
theorem mem_finished_last (delivered : List (GoalStatusArray ι)) {msg : GoalStatusArray ι}
    (hterminal : IsTerminal msg.last.status) :
    msg.last.goalId ∈ finished (delivered ++ [msg]) := by
  simp only [finished, List.mem_toFinset, List.mem_map, List.mem_filter, List.mem_flatMap]
  exact ⟨msg.last, ⟨⟨msg, by simp, List.getLast_mem _⟩, by simpa using hterminal⟩, rfl⟩

omit [DecidableEq ι] in
/-- A click never moves the node on. -/
theorem movesOn_click {s : WaypointCycle F} (hs : s.WellFormed) (x y : F) :
    s.movesOn (.click x y : Event F ι) = [] := by
  rw [WaypointCycle.movesOn]
  rcases hs.emitted_click (ι := ι) x y with hnone | hnothing
  · simp [hnone]
  · simp [hnothing]

omit [DecidableEq ι] in
/-- A status message moves it on at most once, to the next waypoint if there is another
one. -/
theorem movesOn_status {s : WaypointCycle F} (hs : s.WellFormed) (msg : GoalStatusArray ι) :
    s.movesOn (.status msg) = [] ∨
      s.decide msg.last.status = .onward ∧ s.count ≠ 1 ∧ (s.movesOn (.status msg)).length = 1 := by
  rw [WaypointCycle.movesOn]
  rcases hs.emitted_status msg with ⟨-, hemitted⟩ | ⟨-, hcount, pose, hemitted⟩ |
    ⟨hdec, hcount, pose, hemitted⟩
  · simp [hemitted]
  · simp [hemitted, hs.lastGoal_eq hcount]
  · by_cases hone : s.count = 1
    · have hsame := (hs.next_eq_current_iff hcount).mpr hone
      simp [hemitted, hs.lastGoal_eq hcount, hsame]
    · have hother : (s.next : ℤ) ≠ s.current := by
        exact_mod_cast mt (hs.next_eq_current_iff hcount).mp hone
      exact Or.inr ⟨hdec, hone, by simp [hemitted, hs.lastGoal_eq hcount, hother]⟩

/-- What the invariant of a run says: the node is well formed, and it has moved on at
most once for each finished goal. -/
structure AtMostFinished (h : History F ι) : Prop where
  wellFormed : h.node.WellFormed
  moves : h.moves ≤ (finished h.delivered).card

/-- **A fresh event keeps the count.** -/
theorem AtMostFinished.step (hh : AtMostFinished h) (hfresh : Fresh h event) :
    AtMostFinished (h.step event) := by
  refine ⟨hh.wellFormed.step event, ?_⟩
  cases event with
  | click x y =>
    simp only [History.step, movesOn_click hh.wellFormed, List.length_nil, Nat.add_zero]
    exact hh.moves
  | status msg =>
    have hmono := Finset.card_le_card (finished_mono h.delivered msg)
    rcases movesOn_status hh.wellFormed msg with hnone | ⟨hdec, hone, hlength⟩
    · simp only [History.step, hnone, List.length_nil, Nat.add_zero]
      exact le_trans hh.moves hmono
    · -- the move is to another waypoint, so its goal is the first report of its end
      have hnew : IsTerminal msg.last.status ∧ msg.last.goalId ∉ finished h.delivered := by
        rw [WaypointCycle.decide_eq_onward_iff] at hdec
        simp only [Fresh, FindsNothing] at hfresh
        grind
      have hcard : (finished h.delivered).card < (finished (h.delivered ++ [msg])).card := by
        refine Finset.card_lt_card ((finished_mono h.delivered msg).ssubset_of_ne ?_)
        intro hsame
        have hin := mem_finished_last h.delivered hnew.1
        rw [← hsame] at hin
        exact hnew.2 hin
      simp only [History.step, hlength]
      exact le_trans (Nat.succ_le_succ hh.moves) hcard

omit [DecidableEq ι] in
/-- A message that finds nothing to do changes nothing. -/
theorem unchanged_of_findsNothing {s : WaypointCycle F} (hs : s.WellFormed)
    (hnothing : FindsNothing s msg.last.status) : Unchanged s (s.step (.status msg)) := by
  have hstay : s.decide msg.last.status = .stay := WaypointCycle.decide_eq_stay_iff.mpr hnothing
  rcases hs.poseCallback_cases msg with ⟨-, heq⟩ | ⟨hdec, -⟩ | ⟨hdec, -⟩
  · have hstep : s.step (.status msg) = s := by
      simp [WaypointCycle.step, WaypointCycle.handle, heq]
    rw [hstep]
    exact ⟨rfl, rfl, rfl⟩
  · rw [hstay] at hdec
    cases hdec
  · rw [hstay] at hdec
    cases hdec

/-- A message that was delivered before changes nothing if it is fresh all the same. -/
theorem unchanged_of_redelivered (hh : AtMostFinished h) (hfresh : Fresh h (.status msg))
    (hdelivered : msg ∈ h.delivered) : Unchanged h.node (h.node.step (.status msg)) := by
  rcases hfresh with hnothing | ⟨hnew, -⟩
  · exact unchanged_of_findsNothing hh.wellFormed hnothing
  · exact absurd hdelivered hnew

end Event

/-! ### Runs -/

/-- **A finished goal advances the cycle at most once** in every run of clicks and
status messages that are fresh or find nothing to do. -/
theorem advancesOnce [DecidableEq ι] {events : List (Event F ι)}
    (hfresh : Runs.Along History.step Fresh .start events) : AdvancesOnce events := by
  have hstart : AtMostFinished (.start : History F ι) :=
    ⟨WaypointCycle.wellFormed_init, Nat.zero_le _⟩
  constructor
  · intro before hbefore
    exact ((hfresh.of_prefix hbefore).invariant hstart fun _ _ hh hf => hh.step hf).moves
  · refine hfresh.imp hstart (fun _ _ hh hf => hh.step hf) ?_
    rintro h event hh hf msg rfl hdelivered
    exact unchanged_of_redelivered hh hf hdelivered

/-- Two points, the goal of the first reported under way twice and then as reached. -/
theorem advancesOnce_small : AdvancesOnce
    ([.click 1 0, .click 2 0, .status (oneGoal 1 statusExecuting),
      .status (oneGoal 1 statusExecuting), .status (oneGoal 1 statusSucceeded)] :
      List (Event ℤ ℕ)) :=
  advancesOnce ⟨trivial, trivial, Or.inl (Or.inl rfl), Or.inl (Or.inl rfl),
    Or.inr ⟨by decide, Or.inr (Or.inr ⟨by decide, by decide⟩)⟩, trivial⟩

end History

end Waypoint
