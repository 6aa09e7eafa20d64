/-
The action server under every navigation server, `SimpleActionServer`.

Goals arrive on the thread of an executor.  One worker thread at a time runs the callback for the
current goal, a further goal waits as the pending one, and a new pending goal ends the one before.
Each method holds `update_mutex_`, so a run is an interleaving of whole methods (`Event`); the
tests of the worker's loop, and its return until its future is ready, are steps of their own.

`completion_callback_` is null unless a server passes one; its call then throws
`std::bad_function_call`, which leaves `work` like any exception that the loop does not catch.

* `accounted`: no accepted goal gets lost, and none ends twice.
* `attended_iff`: exactly which interleavings leave a goal to no worker: a goal that is accepted
  after the last look of the worker at the pending one, a deactivation before its first, a
  pending goal behind one that was not completed and has no completion callback, and a shutdown.
* `stuck`: a current goal that is left so is never executed, nor is any later one.
-/
import WheeltecRos2.Lib.Runs

namespace SimpleAction

/-- The states of a goal handle. -/
inductive Status
  | executing
  | canceling
  | succeeded
  | canceled
  | aborted
  deriving DecidableEq

def Status.isActive : Status → Bool
  | .executing | .canceling => true
  | .succeeded | .canceled | .aborted => false

/-- Where the worker thread is; `is_running` unless it is idle. -/
inductive Worker
  | idle
  /-- before the test of the loop -/
  | testing
  /-- in the callback -/
  | executing
  /-- out of the loop, its future is not ready yet -/
  | leaving
  deriving DecidableEq

/-- What the callback calls. -/
inductive Call
  | acceptPendingGoal
  | terminatePendingGoal
  | terminateAll
  | terminateCurrent
  | succeededCurrent

/-- Where `deactivate` is. -/
inductive Deactivation
  | none
  /-- in the wait for the worker -/
  | waiting
  /-- past the deadline of the wait, before `terminate_all` -/
  | late
  deriving DecidableEq

inductive Event
  | activate
  | deactivate
  /-- The wait of `deactivate` sees that the worker has returned. -/
  | deactivated
  /-- It sees that the worker has not, and the deadline is over. -/
  | timeout
  | deadline
  | handleGoal
  | handleAccepted
  | cancel (g : ℕ)
  | test
  | call (c : Call)
  /-- The callback returns; `throws` if the completion callback throws. -/
  | returned (throws : Bool)
  | thrown
  /-- The callback throws what is no `std::exception`. -/
  | escaped
  | ready
  /-- `rclcpp::shutdown` -/
  | shutdown

/-- The server.  Goals are numbered in the order of their acceptance. -/
structure Server where
  goals : List Status := []
  current : Option ℕ := none
  pending : Option ℕ := none
  serverActive : Bool := false
  stopExecution : Bool := false
  preemptRequested : Bool := false
  worker : Worker := .idle
  /-- A goal is accepted, and `handle_accepted` is yet to be called. -/
  arriving : Bool := false
  deactivation : Deactivation := .none
  /-- `completion_callback_` is not null. -/
  completionCallback : Bool := false
  /-- `rclcpp::ok` -/
  ok : Bool := true

namespace Server

def activeGoal (s : Server) (g : ℕ) : Bool := (s.goals[g]?).any Status.isActive

/-- `is_active` of a handle, which may be null. -/
def isActive (s : Server) (handle : Option ℕ) : Bool := handle.any s.activeGoal

/-- A goal handle takes its result. -/
def finish (s : Server) (g : ℕ) (q : Status) : Server := { s with goals := s.goals.set g q }

def terminate (s : Server) (handle : Option ℕ) : Server :=
  match handle with
  | none => s
  | some g =>
    if s.activeGoal g then
      s.finish g (if s.goals[g]? = some .canceling then .canceled else .aborted)
    else s

def terminateAll (s : Server) : Server :=
  let s := s.terminate s.current
  let s := s.terminate s.pending
  { s with preemptRequested := false }

def acceptPendingGoal (s : Server) : Server :=
  if s.isActive s.pending then
    let s := match s.current with
      | none => s
      | some g => if s.activeGoal g ∧ s.current ≠ s.pending then s.finish g .aborted else s
    { s with current := s.pending, pending := none, preemptRequested := false }
  else s

def terminatePendingGoal (s : Server) : Server :=
  if s.isActive s.pending then { s.terminate s.pending with preemptRequested := false } else s

def succeededCurrent (s : Server) : Server :=
  match s.current with
  | none => s
  | some g => if s.activeGoal g then { s.finish g .succeeded with current := none } else s

def call (s : Server) : Call → Server
  | .acceptPendingGoal => s.acceptPendingGoal
  | .terminatePendingGoal => s.terminatePendingGoal
  | .terminateAll => s.terminateAll
  | .terminateCurrent => s.terminate s.current
  | .succeededCurrent => s.succeededCurrent

/-- The goal that `handle_accepted` is called with. -/
def accept (s : Server) : Server :=
  { s with goals := s.goals ++ [Status.executing], arriving := false }

/-- `handle_accepted`; a pending goal that is replaced is terminated in both branches. -/
def handleAccepted (s : Server) : Server :=
  let g := s.goals.length
  let s := s.accept
  if s.isActive s.current ∨ s.worker ≠ .idle then
    let s := if s.isActive s.pending then s.terminate s.pending else s
    { s with pending := some g, preemptRequested := true }
  else
    let s := if s.isActive s.pending then
      { s.terminate s.pending with preemptRequested := false } else s
    { s with current := some g, worker := .testing }

/-- The call of `completion_callback_` returns. -/
def completes (s : Server) (throws : Bool) : Bool := s.completionCallback && !throws

/-- The rest of the loop of `work`, under the lock. -/
def afterCallback (s : Server) (throws : Bool) : Server :=
  -- here the loop ends, whatever becomes of the completion callback
  if s.stopExecution then { s.terminateAll with worker := .leaving }
  -- its exception leaves the loop before the look at the pending goal
  else if s.isActive s.current ∧ s.completes throws = false then
    { s.terminate s.current with worker := .leaving }
  else
    let s := if s.isActive s.current then s.terminate s.current else s
    if s.isActive s.pending then { s.acceptPendingGoal with worker := .testing }
    else { s with worker := .leaving }

/-- One step of a thread.  An event that is not possible in a state changes nothing. -/
def step (s : Server) : Event → Server
  | .activate =>
    if s.deactivation ≠ .none then s else { s with serverActive := true, stopExecution := false }
  | .deactivate =>
    if s.deactivation ≠ .none then s
    else { s with serverActive := false, stopExecution := true, deactivation := .waiting }
  | .deactivated =>
    if s.deactivation = .waiting ∧ s.worker = .idle then { s with deactivation := .none } else s
  | .timeout =>
    if s.deactivation = .waiting ∧ s.worker ≠ .idle then { s with deactivation := .late } else s
  | .deadline =>
    if s.deactivation = .late then { s.terminateAll with deactivation := .none } else s
  | .handleGoal => if s.serverActive ∧ s.arriving = false then { s with arriving := true } else s
  | .handleAccepted => if s.arriving then s.handleAccepted else s
  | .cancel g => if s.activeGoal g then s.finish g .canceling else s
  | .test =>
    if s.worker = .testing then
      if s.ok ∧ s.stopExecution = false ∧ s.isActive s.current then { s with worker := .executing }
      else { s with worker := .leaving }
    else s
  | .call c => if s.worker = .executing then s.call c else s
  | .returned throws => if s.worker = .executing then s.afterCallback throws else s
  | .thrown => if s.worker = .executing then { s.terminateAll with worker := .leaving } else s
  | .escaped => if s.worker = .executing then { s with worker := .leaving } else s
  | .ready => if s.worker = .leaving then { s with worker := .idle } else s
  | .shutdown => { s with ok := false }

/-- The state after some events. -/
abbrev run : Server → List Event → Server := Runs.run step

/-- The server as it is constructed, with or without a completion callback. -/
def start (completionCallback : Bool) : Server := { completionCallback }

end Server

/-! ### What becomes of a goal -/

namespace Server

variable {s s' s'' : Server} {g k : ℕ} {q : Status} {handle : Option ℕ}

theorem activeGoal_finish (hq : q.isActive = false) :
    (s.finish g q).activeGoal k = (s.activeGoal k && k ≠ g) := by
  rw [activeGoal, activeGoal, finish, List.getElem?_set]
  by_cases hk : g = k
  · subst hk
    by_cases hg : g < s.goals.length
    · simp [hg, hq]
    · simp [hg]
  · simp [hk, Ne.symm hk]

/-- A goal that is asked to cancel is still active. -/
theorem activeGoal_canceling (hg : s.activeGoal g) :
    (s.finish g .canceling).activeGoal k = s.activeGoal k := by
  by_cases hk : g = k
  · subst hk
    have hlt : g < s.goals.length := by
      by_contra hge
      rw [activeGoal, List.getElem?_eq_none (Nat.not_lt.mp hge)] at hg
      cases hg
    rw [hg]
    simp [activeGoal, finish, hlt, Status.isActive]
  · rw [activeGoal, activeGoal, finish, List.getElem?_set_ne hk]

/-- Accepted goals stay, and one that has its result keeps it. -/
def Advance (s s' : Server) : Prop :=
  ∀ (g : ℕ) (q : Status), s.goals[g]? = some q →
    ∃ q', s'.goals[g]? = some q' ∧ (q.isActive = false → q' = q)

theorem Advance.refl (s : Server) : Advance s s := fun _ q hq => ⟨q, hq, fun _ => rfl⟩

theorem Advance.trans (h : Advance s s') (h' : Advance s' s'') : Advance s s'' := by
  intro g q hq
  obtain ⟨q', hq', hsame⟩ := h g q hq
  obtain ⟨q'', hq'', hsame'⟩ := h' g q' hq'
  refine ⟨q'', hq'', fun hdone => ?_⟩
  rw [hsame' (by rw [hsame hdone, hdone]), hsame hdone]

theorem advance_finish (hg : s.activeGoal g) (q : Status) : Advance s (s.finish g q) := by
  intro k q₀ hk
  by_cases hkg : g = k
  · subst hkg
    obtain ⟨hlt, -⟩ := List.getElem?_eq_some_iff.mp hk
    refine ⟨q, by simp [finish, hlt], fun hdone => ?_⟩
    rw [activeGoal, hk] at hg
    exact absurd hg (by simp [hdone])
  · exact ⟨q₀, by simp [finish, hkg, hk], fun _ => rfl⟩

theorem advance_terminate (s : Server) (handle : Option ℕ) : Advance s (s.terminate handle) := by
  cases handle with
  | none => exact .refl s
  | some g =>
    rw [terminate]
    by_cases hg : s.activeGoal g
    · rw [if_pos hg]
      exact advance_finish hg _
    · rw [if_neg hg]
      exact .refl s

theorem advance_terminateAll (s : Server) : Advance s s.terminateAll :=
  (advance_terminate s s.current).trans (advance_terminate _ _)

theorem advance_acceptPendingGoal (s : Server) : Advance s s.acceptPendingGoal := by
  rw [acceptPendingGoal]
  split_ifs
  · cases s.current with
    | none => exact .refl s
    | some g =>
      dsimp only
      split_ifs with hg
      · exact advance_finish hg.1 _
      · exact .refl s
  · exact .refl s

theorem advance_call (s : Server) (c : Call) : Advance s (s.call c) := by
  cases c with
  | acceptPendingGoal => exact advance_acceptPendingGoal s
  | terminatePendingGoal =>
    rw [call, terminatePendingGoal]
    split_ifs
    · exact advance_terminate s s.pending
    · exact .refl s
  | terminateAll => exact advance_terminateAll s
  | terminateCurrent => exact advance_terminate s s.current
  | succeededCurrent =>
    rw [call, succeededCurrent]
    cases s.current with
    | none => exact .refl s
    | some g =>
      dsimp only
      split_ifs with hg
      · exact advance_finish hg _
      · exact .refl s

theorem advance_handleAccepted (s : Server) : Advance s s.handleAccepted := by
  have haccept : Advance s s.accept := by
    intro g q hg
    obtain ⟨hlt, -⟩ := List.getElem?_eq_some_iff.mp hg
    exact ⟨q, by simp [accept, List.getElem?_append_left hlt, hg], fun _ => rfl⟩
  simp only [handleAccepted]
  split_ifs
  · exact haccept.trans (advance_terminate _ s.pending)
  · exact haccept
  · exact haccept.trans (advance_terminate _ s.pending)
  · exact haccept

theorem advance_afterCallback (s : Server) (throws : Bool) :
    Advance s (s.afterCallback throws) := by
  have hfirst : Advance s (if s.isActive s.current then s.terminate s.current else s) := by
    split_ifs
    · exact advance_terminate s s.current
    · exact .refl s
  rw [afterCallback]
  by_cases hstop : s.stopExecution
  · rw [if_pos hstop]
    exact advance_terminateAll s
  · rw [if_neg hstop]
    dsimp only
    generalize (if s.isActive s.current then s.terminate s.current else s) = s₁ at hfirst ⊢
    split_ifs
    · exact advance_terminate s s.current
    · exact hfirst.trans (advance_acceptPendingGoal s₁)
    · exact hfirst

theorem advance_step (s : Server) (event : Event) : Advance s (s.step event) := by
  cases event with
  | deadline =>
    rw [step]
    split_ifs
    · exact advance_terminateAll s
    · exact .refl s
  | handleAccepted =>
    rw [step]
    split_ifs
    · exact advance_handleAccepted s
    · exact .refl s
  | cancel g =>
    rw [step]
    split_ifs with hg
    · exact advance_finish hg _
    · exact .refl s
  | call c =>
    rw [step]
    split_ifs
    · exact advance_call s c
    · exact .refl s
  | returned throws =>
    rw [step]
    split_ifs
    · exact advance_afterCallback s throws
    · exact .refl s
  | thrown =>
    rw [step]
    split_ifs
    · exact advance_terminateAll s
    · exact .refl s
  | shutdown => exact .refl s
  | activate | deactivate | deactivated | timeout | handleGoal | test | escaped | ready =>
    rw [step]
    split_ifs <;> exact .refl s

theorem advance_run (s : Server) (events : List Event) : Advance s (run s events) :=
  Runs.run_invariant (I := Advance s) (.refl s) fun s' event h => h.trans (advance_step s' event)

/-! ### Where the active goals are -/

theorem terminate_cases (s : Server) (handle : Option ℕ) :
    s.terminate handle = s ∨ ∃ g q, s.terminate handle = s.finish g q := by
  cases handle with
  | none => exact .inl rfl
  | some g =>
    rw [terminate]
    by_cases hg : s.activeGoal g
    · exact .inr ⟨g, _, if_pos hg⟩
    · exact .inl (if_neg hg)

@[simp] theorem terminate_current : (s.terminate handle).current = s.current := by
  obtain h | ⟨g, q, h⟩ := terminate_cases s handle <;> rw [h]
  rfl

@[simp] theorem terminate_pending : (s.terminate handle).pending = s.pending := by
  obtain h | ⟨g, q, h⟩ := terminate_cases s handle <;> rw [h]
  rfl

@[simp] theorem terminate_worker : (s.terminate handle).worker = s.worker := by
  obtain h | ⟨g, q, h⟩ := terminate_cases s handle <;> rw [h]
  rfl

@[simp] theorem terminate_deactivation : (s.terminate handle).deactivation = s.deactivation := by
  obtain h | ⟨g, q, h⟩ := terminate_cases s handle <;> rw [h]
  rfl

@[simp] theorem terminate_length : (s.terminate handle).goals.length = s.goals.length := by
  obtain h | ⟨g, q, h⟩ := terminate_cases s handle <;> rw [h]
  exact List.length_set

theorem activeGoal_terminate :
    (s.terminate handle).activeGoal k = (s.activeGoal k && handle ≠ some k) := by
  cases handle with
  | none => simp [terminate]
  | some g =>
    rw [terminate]
    by_cases hg : s.activeGoal g
    · rw [if_pos hg, activeGoal_finish (by split_ifs <;> rfl)]
      simp [eq_comm]
    · rw [if_neg hg]
      by_cases hk : g = k
      · subst hk
        simpa using hg
      · simp [hk]

theorem isActive_of_activeGoal (hk : s.activeGoal k) (hhandle : handle = some k) :
    s.isActive handle := by
  rw [hhandle]
  exact hk

theorem activeGoal_of_isActive (h : s.isActive handle) :
    ∃ g, handle = some g ∧ s.activeGoal g := by
  cases handle with
  | none => exact absurd h (by simp [isActive])
  | some g => exact ⟨g, rfl, h⟩

/-- Active goals are held by a handle, and handles hold different goals. -/
structure Inv (s : Server) : Prop where
  owned {g : ℕ} : s.activeGoal g → s.current = some g ∨ s.pending = some g
  current {g : ℕ} : s.current = some g → g < s.goals.length
  pending {g : ℕ} : s.pending = some g → g < s.goals.length
  apart {g : ℕ} : s.current = some g → s.pending ≠ some g

/-- Handles that stay, while goals end. -/
theorem Inv.mono (h : Inv s) (hactive : ∀ g, s'.activeGoal g → s.activeGoal g)
    (hlength : s'.goals.length = s.goals.length) (hcurrent : s'.current = s.current)
    (hpending : s'.pending = s.pending) : Inv s' where
  owned hg := by
    rw [hcurrent, hpending]
    exact h.owned (hactive _ hg)
  current hg := hlength ▸ h.current (hcurrent ▸ hg)
  pending hg := hlength ▸ h.pending (hpending ▸ hg)
  apart hg := by
    rw [hpending]
    exact h.apart (hcurrent ▸ hg)

theorem Inv.terminate (h : Inv s) (handle : Option ℕ) : Inv (s.terminate handle) := by
  refine h.mono ?_ terminate_length terminate_current terminate_pending
  intro g hg
  rw [activeGoal_terminate, Bool.and_eq_true] at hg
  exact hg.1

theorem Inv.terminateAll (h : Inv s) : Inv s.terminateAll :=
  let h' := (h.terminate s.current).terminate (s.terminate s.current).pending
  ⟨h'.owned, h'.current, h'.pending, h'.apart⟩

theorem terminateAll_idle (h : Inv s) (k : ℕ) : s.terminateAll.activeGoal k = false := by
  have hk : s.terminateAll.activeGoal k =
      ((s.terminate s.current).terminate (s.terminate s.current).pending).activeGoal k := rfl
  rw [hk, activeGoal_terminate, activeGoal_terminate, terminate_pending]
  by_cases hactive : s.activeGoal k
  · rcases h.owned hactive with hc | hp
    · simp [hc]
    · simp [hp]
  · simp [hactive]

theorem Inv.acceptPendingGoal (h : Inv s) : Inv s.acceptPendingGoal := by
  rw [Server.acceptPendingGoal]
  by_cases hpending : s.isActive s.pending
  · rw [if_pos hpending]
    cases hcurrent : s.current with
    | none =>
      -- an active goal is the pending one, which moves up
      refine ⟨fun hg => .inl ?_, h.pending, fun hg => (by cases hg), fun _ hg => by cases hg⟩
      exact (h.owned hg).resolve_left (by simp [hcurrent])
    | some g =>
      dsimp only
      split_ifs with hg
      · -- the current goal is aborted for it
        refine ⟨fun {k} hk => .inl ?_, fun hk => ?_, fun hk => (by cases hk),
          fun _ hk => by cases hk⟩
        · have hk' : (s.finish g .aborted).activeGoal k := hk
          rw [activeGoal_finish rfl, Bool.and_eq_true, decide_eq_true_eq] at hk'
          refine (h.owned hk'.1).resolve_left ?_
          rw [hcurrent]
          rintro ⟨⟩
          exact hk'.2 rfl
        · exact lt_of_lt_of_eq (h.pending hk) List.length_set.symm
      · refine ⟨fun {k} hk => .inl ?_, h.pending, fun hk => (by cases hk), fun _ hk => by cases hk⟩
        have hk' : s.activeGoal k := hk
        rcases h.owned hk' with hc | hp
        · by_contra hne
          rw [hcurrent] at hc
          cases hc
          exact hg ⟨hk', fun h => hne h.symm⟩
        · exact hp
  · rw [if_neg hpending]
    exact h

theorem Inv.call (h : Inv s) (c : Call) : Inv (s.call c) := by
  cases c with
  | acceptPendingGoal => exact h.acceptPendingGoal
  | terminatePendingGoal =>
    rw [Server.call, terminatePendingGoal]
    split_ifs
    · exact (h.terminate s.pending).mono (fun _ hg => hg) rfl rfl rfl
    · exact h
  | terminateAll => exact h.terminateAll
  | terminateCurrent => exact h.terminate s.current
  | succeededCurrent =>
    rw [Server.call, succeededCurrent]
    cases hcurrent : s.current with
    | none => exact h
    | some g =>
      dsimp only
      split_ifs with hg
      · refine ⟨fun {k} hk => .inr ?_, fun hk => (by cases hk), fun hk => ?_, fun hk => by cases hk⟩
        · have hk' : (s.finish g .succeeded).activeGoal k := hk
          rw [activeGoal_finish rfl, Bool.and_eq_true, decide_eq_true_eq] at hk'
          refine (h.owned hk'.1).resolve_left ?_
          rw [hcurrent]
          rintro ⟨⟩
          exact hk'.2 rfl
        · exact lt_of_lt_of_eq (h.pending hk) List.length_set.symm
      · exact h

theorem activeGoal_accept : s.accept.activeGoal k = (s.activeGoal k || k = s.goals.length) := by
  rw [activeGoal, activeGoal, accept]
  rcases Nat.lt_trichotomy k s.goals.length with hk | hk | hk
  · rw [List.getElem?_append_left hk]
    simp [Nat.ne_of_lt hk]
  · subst hk
    simp [Status.isActive]
  · rw [List.getElem?_eq_none (by simp; omega), List.getElem?_eq_none (by omega)]
    simp [Nat.ne_of_gt hk]

theorem isActive_accept (hhandle : ∀ g, handle = some g → g < s.goals.length) :
    s.accept.isActive handle = s.isActive handle := by
  cases handle with
  | none => rfl
  | some g =>
    rw [isActive, isActive, Option.any_some, Option.any_some, activeGoal_accept]
    simp [Nat.ne_of_lt (hhandle g rfl)]

theorem terminate_inactive (h : ¬ s.isActive handle) : s.terminate handle = s := by
  cases handle with
  | none => rfl
  | some g => exact if_neg h

/-- A goal that is accepted while another one is on. -/
theorem handleAccepted_busy (h : Inv s) (hbusy : s.isActive s.current ∨ s.worker ≠ .idle) :
    s.handleAccepted = { s.accept.terminate s.pending with
      pending := some s.goals.length
      preemptRequested := true } := by
  have hbusy' : s.accept.isActive s.accept.current ∨ s.accept.worker ≠ .idle :=
    isActive_accept (fun _ hg => h.current hg) ▸ hbusy
  simp only [handleAccepted]
  refine (if_pos hbusy').trans ?_
  by_cases hpending : s.accept.isActive s.accept.pending
  · rw [if_pos hpending]
    rfl
  · have hsame : s.accept.terminate s.pending = s.accept := terminate_inactive hpending
    rw [if_neg hpending, hsame]

/-- A goal that is accepted by an idle server. -/
theorem handleAccepted_idle (h : Inv s) (hidle : ¬ (s.isActive s.current ∨ s.worker ≠ .idle)) :
    ∃ requested, s.handleAccepted = { s.accept.terminate s.pending with
      current := some s.goals.length
      worker := .testing
      preemptRequested := requested } := by
  have hidle' : ¬ (s.accept.isActive s.accept.current ∨ s.accept.worker ≠ .idle) :=
    isActive_accept (fun _ hg => h.current hg) ▸ hidle
  simp only [handleAccepted]
  by_cases hpending : s.accept.isActive s.accept.pending
  · refine ⟨false, (if_neg hidle').trans ?_⟩
    rw [if_pos hpending]
    rfl
  · refine ⟨s.preemptRequested, (if_neg hidle').trans ?_⟩
    have hsame : s.accept.terminate s.pending = s.accept := terminate_inactive hpending
    rw [if_neg hpending, hsame]
    rfl

theorem activeGoal_handleAccepted (h : Inv s) : s.handleAccepted.activeGoal k =
    ((s.activeGoal k || k = s.goals.length) && s.pending ≠ some k) := by
  rw [← activeGoal_accept, ← activeGoal_terminate]
  by_cases hbusy : s.isActive s.current ∨ s.worker ≠ .idle
  · rw [handleAccepted_busy h hbusy]
    rfl
  · obtain ⟨_, heq⟩ := handleAccepted_idle h hbusy
    rw [heq]
    rfl

theorem Inv.handleAccepted (h : Inv s) : Inv s.handleAccepted := by
  have hlength : (s.accept.terminate s.pending).goals.length = s.goals.length + 1 := by
    rw [terminate_length, accept, List.length_append]
    rfl
  -- an old goal that stays active is the current one
  have hold : ∀ {k}, s.handleAccepted.activeGoal k → s.current = some k ∨ k = s.goals.length := by
    intro k hk
    rw [activeGoal_handleAccepted h, Bool.and_eq_true, Bool.or_eq_true, decide_eq_true_eq,
      decide_eq_true_eq] at hk
    rcases hk.1 with hactive | hnew
    · exact .inl ((h.owned hactive).resolve_right hk.2)
    · exact .inr hnew
  by_cases hbusy : s.isActive s.current ∨ s.worker ≠ .idle
  · have heq := handleAccepted_busy h hbusy
    refine ⟨fun {k} hk => ?_, fun {k} hk => ?_, fun {k} hk => ?_, fun {k} hk => ?_⟩
    · rw [heq]
      rcases hold hk with hc | rfl
      · exact .inl (terminate_current.trans hc)
      · exact .inr rfl
    · rw [heq] at hk ⊢
      have hk' : (s.accept.terminate s.pending).current = some k := hk
      rw [terminate_current] at hk'
      exact lt_of_lt_of_eq (Nat.lt_succ_of_lt (h.current hk')) hlength.symm
    · rw [heq] at hk ⊢
      cases hk
      exact lt_of_lt_of_eq (Nat.lt_succ_self _) hlength.symm
    · rw [heq] at hk ⊢
      have hk' : (s.accept.terminate s.pending).current = some k := hk
      rw [terminate_current] at hk'
      rintro ⟨⟩
      exact absurd (h.current hk') (Nat.lt_irrefl _)
  · obtain ⟨_, heq⟩ := handleAccepted_idle h hbusy
    rw [not_or] at hbusy
    refine ⟨fun {k} hk => ?_, fun {k} hk => ?_, fun {k} hk => ?_, fun {k} hk => ?_⟩
    · rcases hold hk with hc | rfl
      · have hactive := activeGoal_handleAccepted h (k := k) ▸ hk
        rw [Bool.and_eq_true, Bool.or_eq_true, decide_eq_true_eq] at hactive
        rcases hactive.1 with hactive | hnew
        · exact absurd (isActive_of_activeGoal hactive hc) hbusy.1
        · exact absurd (h.current hc) (by omega)
      · rw [heq]
        exact .inl rfl
    · rw [heq] at hk ⊢
      cases hk
      exact lt_of_lt_of_eq (Nat.lt_succ_self _) hlength.symm
    · rw [heq] at hk ⊢
      have hk' : (s.accept.terminate s.pending).pending = some k := hk
      rw [terminate_pending] at hk'
      exact lt_of_lt_of_eq (Nat.lt_succ_of_lt (h.pending hk')) hlength.symm
    · rw [heq] at hk ⊢
      intro hp
      have hp' : (s.accept.terminate s.pending).pending = some k := hp
      rw [terminate_pending] at hp'
      cases hk
      exact absurd (h.pending hp') (Nat.lt_irrefl _)

/-- Terminating a current goal that is over changes nothing. -/
theorem terminate_current_eq :
    (if s.isActive s.current then s.terminate s.current else s) = s.terminate s.current := by
  by_cases hcurrent : s.isActive s.current
  · exact if_pos hcurrent
  · rw [if_neg hcurrent, terminate_inactive hcurrent]

/-- What is active when the current goal is over is the pending goal. -/
theorem eq_pending_of_terminate_current (h : Inv s) (hk : (s.terminate s.current).activeGoal k) :
    s.pending = some k ∧ s.activeGoal k := by
  have hactive := hk
  rw [activeGoal_terminate, Bool.and_eq_true, decide_eq_true_eq] at hactive
  exact ⟨(h.owned hactive.1).resolve_left hactive.2, hactive.1⟩

theorem Inv.afterCallback (h : Inv s) (throws : Bool) : Inv (s.afterCallback throws) := by
  have h₁ := h.terminate s.current
  rw [Server.afterCallback, terminate_current_eq]
  dsimp only
  split_ifs
  · have h' := h.terminateAll
    exact ⟨h'.owned, h'.current, h'.pending, h'.apart⟩
  · exact ⟨h₁.owned, h₁.current, h₁.pending, h₁.apart⟩
  · have h' := h₁.acceptPendingGoal
    exact ⟨h'.owned, h'.current, h'.pending, h'.apart⟩
  · exact ⟨h₁.owned, h₁.current, h₁.pending, h₁.apart⟩

/-- The part under the lock leaves a goal alone only behind a current one that is not over, by
the exception of the completion callback. -/
theorem afterCallback_attends (h : Inv s) {throws : Bool}
    (hcompletes : s.stopExecution = false → s.isActive s.current → s.completes throws = false →
      ¬ s.isActive s.pending) :
    (s.afterCallback throws).worker = .testing ∨
      ∀ k, (s.afterCallback throws).activeGoal k = false := by
  rw [Server.afterCallback, terminate_current_eq]
  dsimp only
  split_ifs with hstop hthrown hpending
  · exact .inr (terminateAll_idle h)
  · refine .inr fun k => ?_
    show (s.terminate s.current).activeGoal k = false
    by_contra hk
    obtain ⟨hp, hactive⟩ := eq_pending_of_terminate_current h (Bool.not_eq_false _ ▸ hk)
    exact hcompletes (Bool.not_eq_true _ ▸ hstop) hthrown.1 hthrown.2
      (isActive_of_activeGoal hactive hp)
  · exact .inl rfl
  · refine .inr fun k => ?_
    show (s.terminate s.current).activeGoal k = false
    by_contra hk
    rw [Bool.not_eq_false] at hk
    obtain ⟨hp, -⟩ := eq_pending_of_terminate_current h hk
    exact hpending (isActive_of_activeGoal hk (terminate_pending.trans hp))

theorem Inv.step (h : Inv s) (event : Event) : Inv (s.step event) := by
  cases event with
  | deadline =>
    rw [Server.step]
    split_ifs
    · exact h.terminateAll.mono (fun _ hk => hk) rfl rfl rfl
    · exact h
  | handleAccepted =>
    rw [Server.step]
    split_ifs
    · exact h.handleAccepted
    · exact h
  | cancel g =>
    rw [Server.step]
    split_ifs with hg
    · refine h.mono (fun k hk => ?_) List.length_set rfl rfl
      rwa [activeGoal_canceling hg] at hk
    · exact h
  | call c =>
    rw [Server.step]
    split_ifs
    · exact h.call c
    · exact h
  | returned throws =>
    rw [Server.step]
    split_ifs
    · exact h.afterCallback throws
    · exact h
  | thrown =>
    rw [Server.step]
    split_ifs
    · exact h.terminateAll.mono (fun _ hk => hk) rfl rfl rfl
    · exact h
  | shutdown => exact ⟨h.owned, h.current, h.pending, h.apart⟩
  | activate | deactivate | deactivated | timeout | handleGoal | test | escaped | ready =>
    rw [Server.step]
    split_ifs <;> exact ⟨h.owned, h.current, h.pending, h.apart⟩

theorem inv_start (completion : Bool) : Inv (start completion) where
  owned hg := by simp [start, activeGoal] at hg
  current hg := by simp [start] at hg
  pending hg := by simp [start] at hg
  apart hg := by simp [start] at hg

theorem inv_run (completion : Bool) (events : List Event) : Inv (run (start completion) events) :=
  Runs.run_invariant (inv_start completion) fun _ event h => h.step event

/-- **No goal gets lost.**  Whatever the threads do, an accepted goal either has a result, which
never changes, or it is the current or the pending one: at most two goals are active. -/
theorem accounted (completion : Bool) (before after : List Event) {g : ℕ} {q : Status}
    (hg : (run (start completion) before).goals[g]? = some q) :
    ∃ q', (run (start completion) (before ++ after)).goals[g]? = some q' ∧
      (q.isActive = false → q' = q) ∧
      (q'.isActive → (run (start completion) (before ++ after)).current = some g ∨
        (run (start completion) (before ++ after)).pending = some g) := by
  have hrun : run (start completion) (before ++ after) =
      run (run (start completion) before) after := Runs.run_append ..
  obtain ⟨q', hq', hsame⟩ := advance_run (run (start completion) before) after g q hg
  rw [← hrun] at hq'
  refine ⟨q', hq', hsame, fun hactive => (inv_run completion _).owned ?_⟩
  rw [activeGoal, hq']
  exact hactive

/-! ### Which goals have a worker -/

/-- Every active goal has a worker that will look at it. -/
def Attended (s : Server) : Prop :=
  ∀ g, s.activeGoal g → s.worker = .testing ∨ s.worker = .executing

/-- What a step must not do for that: a goal must not be accepted by a server whose worker is on
its way out, the worker must not end its loop at the test while a goal is active, nor by an
exception that it does not catch: of the callback, or of the completion callback for a current
goal that is not over, while another one is pending. -/
def Attends (s : Server) : Event → Prop
  | .handleAccepted => s.arriving → s.worker ≠ .leaving
  | .test => s.worker = .testing → s.ok = false ∨ s.stopExecution ∨ ¬ s.isActive s.current →
      ∀ g, s.activeGoal g = false
  | .returned throws => s.worker = .executing → s.stopExecution = false → s.isActive s.current →
      s.completes throws = false → ¬ s.isActive s.pending
  | .escaped => s.worker = .executing → ∀ g, s.activeGoal g = false
  | _ => True

theorem attended_of_worker (h : s.worker = .testing ∨ s.worker = .executing) : Attended s :=
  fun _ _ => h

theorem attended_of_idle (h : ∀ g, s.activeGoal g = false) : Attended s := by
  intro g hg
  rw [h] at hg
  exact absurd hg (by simp)

theorem Attended.mono (h : Attended s) (hactive : ∀ g, s'.activeGoal g → s.activeGoal g)
    (hworker : s'.worker = s.worker) : Attended s' := by
  intro g hg
  rw [hworker]
  exact h g (hactive g hg)

theorem call_worker (s : Server) (c : Call) : (s.call c).worker = s.worker := by
  cases c with
  | acceptPendingGoal =>
    rw [call, acceptPendingGoal]
    split_ifs
    · cases s.current with
      | none => rfl
      | some g =>
        dsimp only
        split_ifs <;> rfl
    · rfl
  | terminatePendingGoal =>
    rw [call, terminatePendingGoal]
    split_ifs
    · exact terminate_worker
    · rfl
  | terminateAll => exact terminate_worker.trans terminate_worker
  | terminateCurrent => exact terminate_worker
  | succeededCurrent =>
    rw [call, succeededCurrent]
    cases s.current with
    | none => rfl
    | some g =>
      dsimp only
      split_ifs <;> rfl

/-- **The step lemma.** -/
theorem Attended.step (h : Attended s) (hinv : Inv s) {event : Event} (hevent : Attends s event) :
    Attended (s.step event) := by
  cases event with
  | deadline =>
    rw [Server.step]
    split_ifs
    · exact attended_of_idle (terminateAll_idle hinv)
    · exact h
  | handleAccepted =>
    rw [Server.step]
    split_ifs with harriving
    · by_cases hbusy : s.isActive s.current ∨ s.worker ≠ .idle
      · -- the worker is on, or would have to be
        have hworker : s.worker = .testing ∨ s.worker = .executing := by
          rcases hbusy with hactive | hbusy
          · obtain ⟨g, -, hg⟩ := activeGoal_of_isActive hactive
            exact h g hg
          · have hleaving := hevent harriving
            cases hw : s.worker with
            | idle => exact absurd hw hbusy
            | testing => exact .inl rfl
            | executing => exact .inr rfl
            | leaving => exact absurd hw hleaving
        refine attended_of_worker ?_
        rw [handleAccepted_busy hinv hbusy]
        exact terminate_worker (s := s.accept) ▸ hworker
      · obtain ⟨_, heq⟩ := handleAccepted_idle hinv hbusy
        rw [heq]
        exact attended_of_worker (.inl rfl)
    · exact h
  | cancel g =>
    rw [Server.step]
    split_ifs with hg
    · refine h.mono (fun k hk => ?_) rfl
      rwa [activeGoal_canceling hg] at hk
    · exact h
  | test =>
    rw [Server.step]
    split_ifs with hworker hgo
    · exact attended_of_worker (.inr rfl)
    · refine attended_of_idle (hevent hworker ?_)
      by_contra hnot
      rw [not_or, not_or, not_not, Bool.not_eq_false, Bool.not_eq_true] at hnot
      exact hgo hnot
    · exact h
  | call c =>
    rw [Server.step]
    split_ifs with hworker
    · exact attended_of_worker (.inr ((call_worker s c).trans hworker))
    · exact h
  | returned throws =>
    rw [Server.step]
    split_ifs with hworker
    · rcases afterCallback_attends hinv (hevent hworker) with htesting | hidle
      · exact attended_of_worker (.inl htesting)
      · exact attended_of_idle hidle
    · exact h
  | escaped =>
    rw [Server.step]
    split_ifs with hworker
    · exact attended_of_idle (hevent hworker)
    · exact h
  | thrown =>
    rw [Server.step]
    split_ifs
    · exact attended_of_idle (terminateAll_idle hinv)
    · exact h
  | ready =>
    rw [Server.step]
    split_ifs with hworker
    · refine attended_of_idle fun g => ?_
      show s.activeGoal g = false
      by_contra hg
      rw [Bool.not_eq_false] at hg
      have hw := h g hg
      rw [hworker] at hw
      rcases hw with hw | hw <;> cases hw
    · exact h
  | shutdown => exact h
  | activate | deactivate | deactivated | timeout | handleGoal =>
    rw [Server.step]
    split_ifs <;> exact h

/-- A worker on its way out attends no goal. -/
theorem not_attended_of_leaving (hg : s.activeGoal g) (hworker : s.worker = .leaving) :
    ¬ Attended s := by
  intro h
  have hw := h g hg
  rw [hworker] at hw
  rcases hw with hw | hw <;> cases hw

/-- What breaks it. -/
theorem not_attended_step (hinv : Inv s) {event : Event} (hevent : ¬ Attends s event) :
    ¬ Attended (s.step event) := by
  cases event with
  | handleAccepted =>
    simp only [Attends, Classical.not_imp, not_not] at hevent
    obtain ⟨harriving, hworker⟩ := hevent
    have hactive : s.handleAccepted.activeGoal s.goals.length := by
      rw [activeGoal_handleAccepted hinv]
      simp only [Bool.or_eq_true, decide_eq_true_eq, Bool.and_eq_true]
      refine ⟨.inr trivial, fun hp => ?_⟩
      exact absurd (hinv.pending hp) (by omega)
    rw [step, if_pos harriving]
    refine not_attended_of_leaving hactive ?_
    rw [handleAccepted_busy hinv (.inr (by rw [hworker]; decide))]
    show (s.accept.terminate s.pending).worker = .leaving
    exact terminate_worker.trans hworker
  | test =>
    simp only [Attends, Classical.not_imp, not_forall, Bool.not_eq_false] at hevent
    obtain ⟨hworker, hstop, g, hg⟩ := hevent
    rw [step, if_pos hworker, if_neg]
    · exact not_attended_of_leaving (g := g) hg rfl
    · rintro ⟨hok, hrun, hactive⟩
      rcases hstop with hstop | hstop | hstop
      · exact absurd (hok.symm.trans hstop) (by decide)
      · exact absurd (hrun.symm.trans hstop) (by decide)
      · exact hstop hactive
  | returned throws =>
    simp only [Attends, Classical.not_imp, not_not] at hevent
    obtain ⟨hworker, hstop, hcurrent, hthrown, hpending⟩ := hevent
    -- the pending goal is not the one that is terminated
    obtain ⟨g, hg, hactive⟩ := activeGoal_of_isActive hpending
    rw [step, if_pos hworker, afterCallback, if_neg (by rw [hstop]; decide),
      if_pos ⟨hcurrent, hthrown⟩]
    refine not_attended_of_leaving (g := g) ?_ rfl
    show (s.terminate s.current).activeGoal g
    rw [activeGoal_terminate, hactive, Bool.true_and, decide_eq_true_eq]
    exact fun hc => hinv.apart hc hg
  | escaped =>
    simp only [Attends, Classical.not_imp, not_forall, Bool.not_eq_false] at hevent
    obtain ⟨hworker, g, hg⟩ := hevent
    rw [step, if_pos hworker]
    exact not_attended_of_leaving (g := g) hg rfl
  | activate | deactivate | deactivated | timeout | deadline | handleGoal | cancel | call | thrown
  | ready | shutdown => exact absurd trivial hevent

/-- **When goals are attended.**  In all states of a run every active goal has a worker that will
look at it, exactly if no goal is accepted by a server whose worker is on its way out, no worker
ends its loop at the test while a goal is active, and none leaves it by an exception with a goal
still active. -/
theorem attended_iff (completion : Bool) (events : List Event) :
    (∀ before, before <+: events → Attended (run (start completion) before)) ↔
      Runs.Along step Attends (start completion) events :=
  Runs.forall_prefix_iff_along (J := fun s => Inv s ∧ Attended s)
    ⟨inv_start completion, attended_of_idle fun g => by simp [start, activeGoal]⟩ (fun _ h => h.2)
    (fun _ event h hevent => ⟨h.1.step event, h.2.step h.1 hevent⟩)
    (fun _ _ h hevent => not_attended_step h.1 hevent)

/-- Without a completion callback a goal that waits behind one that was not completed is left. -/
example : ¬ Attended (run (start false)
    [.activate, .handleGoal, .handleAccepted, .test, .handleGoal, .handleAccepted,
      .returned false]) :=
  not_attended_of_leaving (g := 1) rfl rfl

/-- A deactivation between the acceptance of a goal and the first test of its worker. -/
def early : List Event :=
  [.activate, .handleGoal, .handleAccepted, .deactivate, .test, .ready, .deactivated]

theorem stuck_step (hinv : Inv s) (hworker : s.worker = .idle) (hlate : s.deactivation ≠ .late)
    (hcurrent : s.current = some g) (hg : s.activeGoal g) (event : Event) :
    (s.step event).worker = .idle ∧ (s.step event).deactivation ≠ .late ∧
      (s.step event).current = some g ∧ (s.step event).activeGoal g := by
  cases event with
  | handleAccepted =>
    rw [step]
    split_ifs
    · have hbusy := handleAccepted_busy hinv (.inl (isActive_of_activeGoal hg hcurrent))
      refine ⟨?_, ?_, ?_, ?_⟩
      · rw [hbusy]
        exact terminate_worker.trans hworker
      · rw [hbusy]
        show (s.accept.terminate s.pending).deactivation ≠ .late
        rwa [terminate_deactivation]
      · rw [hbusy]
        exact terminate_current.trans hcurrent
      · rw [activeGoal_handleAccepted hinv, hg, Bool.true_or, Bool.true_and, decide_eq_true_eq]
        exact hinv.apart hcurrent
    · exact ⟨hworker, hlate, hcurrent, hg⟩
  | cancel k =>
    rw [step]
    split_ifs with hk
    · refine ⟨hworker, hlate, hcurrent, ?_⟩
      rwa [activeGoal_canceling hk]
    · exact ⟨hworker, hlate, hcurrent, hg⟩
  -- the wait of a deactivation sees that there is no worker
  | timeout =>
    rw [step, if_neg (fun h => h.2 hworker)]
    exact ⟨hworker, hlate, hcurrent, hg⟩
  | deadline =>
    rw [step, if_neg hlate]
    exact ⟨hworker, hlate, hcurrent, hg⟩
  | shutdown => exact ⟨hworker, hlate, hcurrent, hg⟩
  | activate | handleGoal =>
    rw [step]
    split_ifs <;> exact ⟨hworker, hlate, hcurrent, hg⟩
  | deactivate =>
    rw [step]
    split_ifs
    · exact ⟨hworker, hlate, hcurrent, hg⟩
    · exact ⟨hworker, nofun, hcurrent, hg⟩
  | deactivated =>
    rw [step]
    split_ifs
    · exact ⟨hworker, nofun, hcurrent, hg⟩
    · exact ⟨hworker, hlate, hcurrent, hg⟩
  | test | call | returned | thrown | escaped | ready =>
    rw [step, if_neg (by simp [hworker])]
    exact ⟨hworker, hlate, hcurrent, hg⟩

/-- **A server that is stuck.**  An active current goal without a worker stays that for good,
whatever happens, unless a deactivation was past its deadline: no goal is executed any more. -/
theorem stuck (completion : Bool) (before after : List Event)
    (hworker : (run (start completion) before).worker = .idle)
    (hlate : (run (start completion) before).deactivation ≠ .late)
    (hcurrent : (run (start completion) before).current = some g)
    (hg : (run (start completion) before).activeGoal g) :
    (run (start completion) (before ++ after)).worker = .idle ∧
      (run (start completion) (before ++ after)).current = some g ∧
      (run (start completion) (before ++ after)).activeGoal g := by
  have hrun : run (start completion) (before ++ after) =
      run (run (start completion) before) after := Runs.run_append ..
  rw [hrun]
  have h := @Runs.run_invariant _ _ step
    (fun s => Inv s ∧ s.worker = .idle ∧ s.deactivation ≠ .late ∧ s.current = some g ∧
      s.activeGoal g) _ after ⟨inv_run completion before, hworker, hlate, hcurrent, hg⟩
    (fun s event h =>
      ⟨h.1.step event, stuck_step h.1 h.2.1 h.2.2.1 h.2.2.2.1 h.2.2.2.2 event⟩)
  exact ⟨h.2.1, h.2.2.2⟩

theorem stuck_early :
    (run (start false) (early ++ [.activate, .handleGoal, .handleAccepted])).worker = .idle ∧
      (run (start false) (early ++ [.activate, .handleGoal, .handleAccepted])).current = some 0 ∧
      (run (start false) (early ++ [.activate, .handleGoal, .handleAccepted])).activeGoal 0 :=
  stuck false early _ rfl (by decide) rfl rfl

theorem accounted_early : ∃ q', (run (start false) (early ++ [.cancel 0])).goals[0]? = some q' ∧
    (Status.executing.isActive = false → q' = .executing) ∧
      (q'.isActive → (run (start false) (early ++ [.cancel 0])).current = some 0 ∨
        (run (start false) (early ++ [.cancel 0])).pending = some 0) :=
  accounted false early [.cancel 0] rfl

end Server

end SimpleAction
