/-
Whether the stop key is final.

`StopIsFinal` says that after the iteration that reads the stop key nothing is asked
for and the charge mode stays 0, as long as the start key is not pressed and at most
five later iterations see a low battery while not charging.  `Stop_Charge` resets
neither the rotation that looks for the infrared signal nor the count of low
readings, so this depends on where they stand:

* a rotation that is not complete when the key is read goes on, and docks at the
  third infrared signal;
* a count that is not back at 0 after the low battery filter of that iteration
  reaches its bound one reading early.

`stopCharge_final_iff` shows that nothing else is left over.
-/
import WheeltecRos2.Lib.Runs
import WheeltecRos2.Recharge.AutoRecharger

namespace Recharge

/-- The iteration with the stop key. -/
def Iteration.pressE (i : Iteration) : Iteration := { i with key := .e }

namespace AutoRecharger

open Runs

/-- A low battery while not charging. -/
def low (s : AutoRecharger) : Bool := !s.robot.charging && s.robot.isLow

/-- How many iterations see a low battery while not charging. -/
def lows : AutoRecharger → List Iteration → ℕ
  | _, [] => 0
  | s, i :: rest => (if (s.afterKey i).low then 1 else 0) + lows (s.iterate i) rest

/-- The stop of iteration `i` is final. -/
def StopIsFinal (s : AutoRecharger) (i : Iteration) : Prop :=
  ∀ after : List Iteration, (∀ j ∈ after, j.key ≠ .q) → lows (s.iterate i.pressE) after ≤ 5 →
    (run iterate (s.iterate i.pressE) after).chargeflag = 0 ∧
      (run iterate (s.iterate i.pressE) after).requests = (s.afterKey i.pressE).requests

/-- With what the callbacks show during `Stop_Charge`: no rotation, or one that is
complete without the signal; and a battery that is not low, or one that charges with
no low reading counted. -/
def SafeToStop (s : AutoRecharger) (i : Iteration) : Prop :=
  let p := s.deliver i.keySpin
  (p.startTurn = false ∨ p.findRedsignal < 3 ∧ p.turned) ∧
    (p.robot.charging = false ∧ p.robot.isLow = false ∨
      p.robot.charging ∧ p.powerLostCount = 0)

/-! ### The parts -/

/-- The count of low readings after the filter, unless it reaches the bound. -/
def nextCount (s : AutoRecharger) : ℕ :=
  if s.robot.charging then s.powerLostCount
  else if s.robot.isLow then s.powerLostCount + 1 else 0

theorem nextCount_le (s : AutoRecharger) :
    s.nextCount ≤ s.powerLostCount + if s.low then 1 else 0 := by
  cases hcharging : s.robot.charging <;> cases hlow : s.robot.isLow <;>
    simp [nextCount, low, hcharging, hlow]

theorem nextCount_eq_zero_iff (s : AutoRecharger) :
    s.nextCount = 0 ↔
      s.robot.charging = false ∧ s.robot.isLow = false ∨
        s.robot.charging ∧ s.powerLostCount = 0 := by
  cases hcharging : s.robot.charging <;> cases hlow : s.robot.isLow <;>
    simp [nextCount, hcharging, hlow]

theorem countFull_eq (s : AutoRecharger) :
    ∃ chargeComplete, s.countFull = { s with chargeComplete } := by
  rw [countFull]
  split <;> exact ⟨_, rfl⟩

/-- The filter below its bound only counts. -/
theorem checkPower_eq {s : AutoRecharger} (i : Iteration) (hcount : s.low → s.nextCount ≤ 5) :
    s.checkPower i = { s with powerLostCount := s.nextCount } := by
  rw [nextCount] at hcount ⊢
  rw [checkPower]
  cases hcharging : s.robot.charging <;> cases hlow : s.robot.isLow <;>
    simp_all [low]

/-- The filter above its bound navigates to the charger. -/
theorem checkPower_of_bound {s : AutoRecharger} (i : Iteration) (hlow : s.low)
    (hcount : 5 < s.nextCount) (honce : s.lostPowerOnce = true) (hflag : s.chargeflag = 0) :
    s.checkPower i = { s with powerLostCount := 0 }.goCharging i := by
  rw [nextCount] at hcount
  simp only [low, Bool.and_eq_true, Bool.not_eq_true'] at hlow
  obtain ⟨hcharging, hlow⟩ := hlow
  simp [checkPower, hcharging, hlow] at hcount ⊢
  simp [hcount, honce, hflag]

/-- With no navigation to watch, the 1 Hz part only allows the filter to fire. -/
theorem watchNavigation_eq {s : AutoRecharger} (i : Iteration)
    (hstar : s.starGetNavFeedbackFlag = false) :
    ∃ lastTime lostPowerOnce,
      s.watchNavigation i = { s with lastTime, lostPowerOnce } ∧
        (s.lostPowerOnce → lostPowerOnce) := by
  rw [watchNavigation]
  split
  · simp only [hstar, Bool.false_eq_true, if_false]
    split
    · exact ⟨_, _, rfl, fun _ => rfl⟩
    · exact ⟨_, _, rfl, id⟩
  · exact ⟨_, _, rfl, id⟩

/-- The end of the charge changes its two counts, and may stop. -/
theorem checkFull_cases (s : AutoRecharger) (i : Iteration) :
    (∃ chargeComplete lastChargeComplete,
      s.checkFull i = { s with chargeComplete, lastChargeComplete }) ∨
    ∃ lastChargeComplete, s.checkFull i =
      { { s with chargeComplete := 0, lastChargeComplete := 0 }.stopCharge i.fullSpin with
        lastChargeComplete } := by
  rw [checkFull]
  split
  · dsimp only
    split
    · exact .inr ⟨_, rfl⟩
    · exact .inl ⟨0, 0, rfl⟩
  · exact .inl ⟨s.chargeComplete, s.chargeComplete, rfl⟩

/-- What the stop key leaves before the checks of its iteration. -/
theorem afterKey_pressE (s : AutoRecharger) (i : Iteration) :
    ∃ chargeComplete redCount sent,
      s.afterKey i.pressE = { s with
        robot := (s.deliver i.keySpin).robot
        findRedsignal := (s.deliver i.keySpin).findRedsignal
        starGetNavFeedbackFlag := false
        lostPowerOnce := true
        chargeflag := 0
        chargeComplete
        redCount
        sent } := by
  obtain ⟨chargeComplete, hfull⟩ := countFull_eq s
  obtain ⟨redCount, sent, hstop, -⟩ := stopCharge_eq s.countFull i.keySpin
  obtain ⟨hrobot, hfound⟩ := deliver_congr i.keySpin (s := s.countFull) (t := s)
    (by rw [hfull]) (by rw [hfull]) (by rw [hfull])
  refine ⟨chargeComplete, redCount, sent, ?_⟩
  -- the count of full readings is all that comes before the stop
  calc s.afterKey i.pressE = s.countFull.stopCharge i.keySpin := rfl
    _ = _ := by rw [hstop, hrobot, hfound, hfull]

/-! ### A stopped node stays stopped -/

/-- Nothing is asked for beyond `asked`, and only low readings can change that: no
navigation is watched, a rotation that goes on is complete, at most `k` low readings
are counted. -/
structure Stopping (asked : List Command) (k : ℕ) (s : AutoRecharger) : Prop where
  chargeflag : s.chargeflag = 0
  star : s.starGetNavFeedbackFlag = false
  found : s.findRedsignal < 3
  turn : s.startTurn → s.turned
  count : s.powerLostCount ≤ k
  requests : s.requests = asked

/-- And there is no rotation. -/
structure Stopped (asked : List Command) (k : ℕ) (s : AutoRecharger) : Prop
    extends Stopping asked k s where
  noTurn : s.startTurn = false

variable {asked : List Command} {k : ℕ} {s : AutoRecharger}

theorem stopped_of_noTurn (hflag : s.chargeflag = 0) (hstar : s.starGetNavFeedbackFlag = false)
    (hfound : s.findRedsignal < 3) (hcount : s.powerLostCount ≤ k)
    (hrequests : s.requests = asked) (hturn : s.startTurn = false) : Stopped asked k s :=
  ⟨⟨hflag, hstar, hfound, fun h => by simp [hturn] at h, hcount, hrequests⟩, hturn⟩

/-- `Stop_Charge` stops a node that does not rotate. -/
theorem stopped_stopCharge (spin : List Callback) (hfound : s.findRedsignal < 3)
    (hcount : s.powerLostCount ≤ k) (hrequests : s.requests = asked)
    (hturn : s.startTurn = false) : Stopped asked k (s.stopCharge spin) :=
  stopped_of_noTurn (by simp) (by simp) (by rwa [stopCharge_findRedsignal spin hturn])
    (by simpa) (by simpa) (by simpa)

namespace Stopped

theorem deliver (h : Stopped asked k s) (callbacks : List Callback) :
    Stopped asked k (s.deliver callbacks) :=
  stopped_of_noTurn (by simpa using h.chargeflag) (by simpa using h.star)
    (by rw [deliver_findRedsignal callbacks h.noTurn]; exact h.found)
    (by simpa using h.count) (by simpa using h.requests) (by simpa using h.noTurn)

theorem setChargeMode (h : Stopped asked k s) (value : ℕ) (spin : List Callback) :
    Stopped asked k (s.setChargeMode value spin) := by
  refine Stopped.deliver (s := s.send (.setChargeMode value)) ?_ spin
  exact stopped_of_noTurn h.chargeflag h.star h.found h.count
    (by simpa [Command.isRequest] using h.requests) h.noTurn

theorem afterKey (h : Stopped asked k s) {i : Iteration} (hkey : i.key ≠ .q) :
    Stopped asked k (s.afterKey i) := by
  obtain ⟨chargeComplete, hfull⟩ := countFull_eq s
  have hstopped : Stopped asked k s.countFull := by
    rw [hfull]
    exact stopped_of_noTurn h.chargeflag h.star h.found h.count h.requests h.noTurn
  rw [AutoRecharger.afterKey, pressKey]
  cases hi : i.key with
  | q => exact absurd hi hkey
  -- a further stop changes nothing
  | e =>
    exact stopped_stopCharge i.keySpin hstopped.found hstopped.count hstopped.requests
      hstopped.noTurn
  | t => exact hstopped.setChargeMode 1 i.keySpin
  | y => exact hstopped.setChargeMode 0 i.keySpin
  | other => exact hstopped

end Stopped

namespace Stopping

theorem checkPower (h : Stopping asked k s) (i : Iteration) {k' : ℕ}
    (hnext : s.nextCount ≤ k') (hk : k' ≤ 5) : Stopping asked k' (s.checkPower i) := by
  rw [checkPower_eq i fun _ => hnext.trans hk]
  exact ⟨h.chargeflag, h.star, h.found, h.turn, hnext, h.requests⟩

theorem watchNavigation (h : Stopping asked k s) (i : Iteration) :
    Stopping asked k (s.watchNavigation i) := by
  obtain ⟨lastTime, lostPowerOnce, hwatch, -⟩ := watchNavigation_eq i h.star
  rw [hwatch]
  exact ⟨h.chargeflag, h.star, h.found, h.turn, h.count, h.requests⟩

theorem checkRed_eq (h : Stopping asked k s) (i : Iteration) : s.checkRed i = s :=
  if_neg (Nat.not_le.mpr h.found)

/-- A complete rotation ends with `Stop_Charge`. -/
theorem checkTurn (h : Stopping asked k s) (i : Iteration) :
    Stopped asked k (s.checkTurn i) := by
  rw [AutoRecharger.checkTurn]
  cases hturn : s.startTurn with
  | false =>
    rw [if_neg (by simp)]
    exact ⟨h, hturn⟩
  | true =>
    rw [if_pos ⟨rfl, h.turn hturn⟩]
    exact stopped_stopCharge i.turnSpin h.found h.count h.requests rfl

end Stopping

theorem Stopped.checkFull (h : Stopped asked k s) (i : Iteration) :
    Stopped asked k (s.checkFull i) := by
  rcases checkFull_cases s i with ⟨chargeComplete, lastChargeComplete, hfull⟩ |
    ⟨lastChargeComplete, hfull⟩
  · rw [hfull]
    exact stopped_of_noTurn h.chargeflag h.star h.found h.count h.requests h.noTurn
  · have hstop := stopped_stopCharge (s := { s with chargeComplete := 0, lastChargeComplete := 0 })
      i.fullSpin h.found h.count h.requests h.noTurn
    rw [hfull]
    exact stopped_of_noTurn hstop.chargeflag hstop.star hstop.found hstop.count hstop.requests
      hstop.noTurn

/-- The checks of an iteration that leaves the count below its bound. -/
theorem Stopping.afterChecks (h : Stopping asked k s) (i : Iteration) {k' : ℕ}
    (hnext : s.nextCount ≤ k') (hk : k' ≤ 5) : Stopped asked k' (s.afterChecks i) := by
  have hwatch := (h.checkPower i hnext hk).watchNavigation i
  have hturn := hwatch.checkTurn i
  rw [AutoRecharger.afterChecks, hwatch.checkRed_eq]
  exact hturn.checkFull i

theorem Stopped.iterate (h : Stopped asked k s) {i : Iteration} (hkey : i.key ≠ .q)
    (hk : k + (if (s.afterKey i).low then 1 else 0) ≤ 5) :
    Stopped asked (k + if (s.afterKey i).low then 1 else 0) (s.iterate i) := by
  have hpressed := h.afterKey hkey
  have hnext : (s.afterKey i).nextCount ≤ k + if (s.afterKey i).low then 1 else 0 :=
    (nextCount_le _).trans (Nat.add_le_add_right hpressed.count _)
  exact (hpressed.toStopping.afterChecks i hnext hk).deliver i.spin.toList

/-- A stopped node stays stopped until more than five low readings, the counted ones
included. -/
theorem Stopped.run {after : List Iteration} (h : Stopped asked k s)
    (hkeys : ∀ j ∈ after, j.key ≠ .q) (hk : k + lows s after ≤ 5) :
    Stopped asked (k + lows s after) (Runs.run AutoRecharger.iterate s after) := by
  induction after generalizing s k with
  | nil => exact h
  | cons j rest ih =>
    rw [lows, ← Nat.add_assoc] at hk ⊢
    have hstep := h.iterate (hkeys j List.mem_cons_self) ((Nat.le_add_right _ _).trans hk)
    exact ih hstep (fun l hl => hkeys l (List.mem_cons_of_mem j hl)) hk

/-! ### The iteration of the stop key -/

/-- The signals counted outside a rotation do not reach the bound. -/
def Sound (s : AutoRecharger) : Prop := s.startTurn = false → s.findRedsignal < 3

theorem final_of_safe (hsound : Sound s) {i : Iteration} (hsafe : SafeToStop s i) :
    StopIsFinal s i := by
  obtain ⟨hturn, hpower⟩ := hsafe
  obtain ⟨chargeComplete, redCount, sent, hstop⟩ := afterKey_pressE s i
  have hstopping : Stopping (s.afterKey i.pressE).requests s.powerLostCount
      (s.afterKey i.pressE) := by
    rw [hstop]
    refine ⟨rfl, rfl, ?_, ?_, le_rfl, rfl⟩
    · rcases hturn with hnoTurn | ⟨hfound, -⟩
      · have hnoTurn : s.startTurn = false := by simpa using hnoTurn
        simpa only [deliver_findRedsignal i.keySpin hnoTurn] using hsound hnoTurn
      · exact hfound
    · intro hrotates
      rcases hturn with hnoTurn | ⟨-, hcomplete⟩
      · simp_all
      · simpa [turned] using hcomplete
  -- the count is back at 0 when the iteration ends
  have hnext : (s.afterKey i.pressE).nextCount ≤ 0 := by
    rw [Nat.le_zero, nextCount_eq_zero_iff, hstop]
    simpa using hpower
  intro after hkeys hlows
  have hiterate : Stopped (s.afterKey i.pressE).requests 0 (s.iterate i.pressE) :=
    (hstopping.afterChecks i.pressE hnext (Nat.zero_le 5)).deliver i.spin.toList
  have hrun := hiterate.run hkeys (by rwa [Nat.zero_add])
  exact ⟨hrun.chargeflag, hrun.requests⟩

/-! ### Requests are never taken back -/

/-- How much was asked for. -/
def asks (s : AutoRecharger) : ℕ := s.requests.length

section Asks

variable (s : AutoRecharger) (i : Iteration)

theorem asks_send_le (command : Command) : s.asks ≤ (s.send command).asks := by
  rw [asks, asks, requests_send]
  exact (List.prefix_append _ _).length_le

theorem asks_pubRechargerFlag_le (setVelflag : Bool) (spin : List Callback) :
    s.asks ≤ (s.pubRechargerFlag setVelflag spin).asks := by
  rw [asks, asks, requests_pubRechargerFlag]
  exact (List.prefix_append _ _).length_le

/-- The navigation on a low battery is a request. -/
theorem asks_goCharging_lt : s.asks < (s.goCharging i).asks := by
  let u : AutoRecharger :=
    { s.pubNavGoalCancel with chargeflag := if contains s.robot.carMode "akm" then 2 else 1 }
  calc s.asks = s.pubNavGoalCancel.asks := by rw [asks, asks, requests_pubNavGoalCancel]
    _ ≤ (u.pubRechargerFlag true i.lowSpin).asks := u.asks_pubRechargerFlag_le true i.lowSpin
    _ < (u.pubRechargerFlag true i.lowSpin).pubChargerPosition.asks := by
      rw [asks, asks, requests_pubChargerPosition]
      simp
    _ = (s.goCharging i).asks := rfl

theorem asks_navDone_le : s.asks ≤ (s.navDone i).asks := by
  rw [navDone]
  cases i.result with
  | succeeded =>
    let t : AutoRecharger := { s with starGetNavFeedbackFlag := false }
    dsimp only
    split
    · exact asks_pubRechargerFlag_le { t with chargeflag := 1 } false i.navSpin
    · exact asks_send_le { t with navEndZ := s.robot.rotationZ, startTurn := true } _
  | canceled => exact le_rfl
  | failed => exact le_rfl
  | unknown => exact le_rfl

theorem asks_navPending_le : s.asks ≤ (s.navPending i).asks := by
  have hcancel : s.asks = s.pubNavGoalCancel.asks := by
    rw [asks, asks, requests_pubNavGoalCancel]
  rw [navPending]
  split
  · split
    · rw [hcancel]
      dsimp only
      split
      · exact asks_pubRechargerFlag_le { s.pubNavGoalCancel with chargeflag := 1 } false i.navSpin
      · exact le_rfl
    · exact le_rfl
  · exact le_rfl

theorem asks_watchNavigation_le : s.asks ≤ (s.watchNavigation i).asks := by
  rw [watchNavigation]
  split
  · let t : AutoRecharger := { s with lastTime := i.later }
    have hwatch : t.asks ≤ (if t.starGetNavFeedbackFlag then
        if i.taskComplete then t.navDone i else t.navPending i else t).asks := by
      split
      · split
        · exact asks_navDone_le t i
        · exact asks_navPending_le t i
      · exact le_rfl
    have hcharging : ∀ u : AutoRecharger, t.asks ≤ u.asks →
        s.asks ≤ (if u.robot.charging then { u with lostPowerOnce := true } else u).asks := by
      intro u hu
      split <;> exact hu
    exact hcharging _ hwatch
  · exact le_rfl

/-- The infrared signal found by the rotation is a request. -/
theorem asks_checkRed_lt (hfound : 3 ≤ s.findRedsignal) : s.asks < (s.checkRed i).asks := by
  rw [checkRed, if_pos hfound, asks, asks, requests_pubRechargerFlag]
  simp [requests, send, Command.isRequest]

theorem asks_checkTurn : (s.checkTurn i).asks = s.asks := by
  rw [checkTurn]
  split
  · exact congrArg List.length (requests_stopCharge _ _)
  · rfl

theorem checkTurn_of_not_turned {s : AutoRecharger} (hturned : s.turned = false) :
    s.checkTurn i = s :=
  if_neg fun h => by simp [hturned] at h

theorem checkFull_startTurn : (s.checkFull i).startTurn = s.startTurn := by
  rcases checkFull_cases s i with ⟨_, _, h⟩ | ⟨_, h⟩
  · rw [h]
  · rw [h, stopCharge_startTurn]

theorem asks_checkFull : (s.checkFull i).asks = s.asks := by
  rcases checkFull_cases s i with ⟨_, _, h⟩ | ⟨_, h⟩
  · rw [h]
    rfl
  · rw [h]
    exact congrArg List.length (requests_stopCharge _ i.fullSpin)

theorem asks_checkRed_le : s.asks ≤ (s.checkRed i).asks := by
  by_cases hfound : 3 ≤ s.findRedsignal
  · exact (asks_checkRed_lt s i hfound).le
  · rw [checkRed, if_neg hfound]

theorem asks_afterChecks :
    (s.afterChecks i).asks = (((s.checkPower i).watchNavigation i).checkRed i).asks := by
  rw [afterChecks, asks_checkFull, asks_checkTurn]

end Asks

/-! ### What wakes a stopped node -/

/-- No navigation is watched, and the low battery filter may fire at its bound, with
`n` low readings counted. -/
structure Armed (n : ℕ) (s : AutoRecharger) : Prop where
  star : s.starGetNavFeedbackFlag = false
  chargeflag : s.chargeflag = 0
  once : s.lostPowerOnce = true
  count : s.powerLostCount = n

namespace Armed

variable {n : ℕ}

theorem deliver (h : Armed n s) (callbacks : List Callback) : Armed n (s.deliver callbacks) :=
  ⟨by simpa using h.star, by simpa using h.chargeflag, by simpa using h.once,
    by simpa using h.count⟩

theorem stopCharge (hcount : s.powerLostCount = n) (spin : List Callback) :
    Armed n (s.stopCharge spin) :=
  ⟨by simp, by simp, by simp, by simpa⟩

theorem checkTurn (h : Armed n s) (i : Iteration) : Armed n (s.checkTurn i) := by
  rw [AutoRecharger.checkTurn]
  split
  · exact stopCharge (s := { s with startTurn := false }) h.count i.turnSpin
  · exact h

theorem checkFull (h : Armed n s) (i : Iteration) : Armed n (s.checkFull i) := by
  rcases checkFull_cases s i with ⟨_, _, hfull⟩ | ⟨_, hfull⟩
  · rw [hfull]
    exact ⟨h.star, h.chargeflag, h.once, h.count⟩
  · have hstop := stopCharge (s := { s with chargeComplete := 0, lastChargeComplete := 0 })
      h.count i.fullSpin
    rw [hfull]
    exact ⟨hstop.star, hstop.chargeflag, hstop.once, hstop.count⟩

/-- Checks that ask for nothing found no signal and did not reach the bound. -/
theorem of_quiet (h : Armed n s) {i : Iteration} (hquiet : (s.afterChecks i).asks ≤ s.asks) :
    s.findRedsignal < 3 ∧ (s.low → s.nextCount ≤ 5) ∧
      Armed s.nextCount (s.afterChecks i) ∧
      (s.startTurn → s.turned = false → (s.afterChecks i).startTurn) := by
  have hcount : s.low → s.nextCount ≤ 5 := by
    intro hlow
    by_contra hbound
    -- the filter would have fired, and later parts take nothing back
    have hfires := checkPower_of_bound i hlow (by omega) h.once h.chargeflag
    have hpower : s.asks < (s.checkPower i).asks := by
      rw [hfires]
      exact asks_goCharging_lt { s with powerLostCount := 0 } i
    have hwatch := asks_watchNavigation_le (s.checkPower i) i
    have hred := asks_checkRed_le ((s.checkPower i).watchNavigation i) i
    have hchecks := asks_afterChecks s i
    omega
  obtain ⟨lastTime, hwatch⟩ : ∃ lastTime, (s.checkPower i).watchNavigation i =
      { s with powerLostCount := s.nextCount, lastTime } := by
    rw [checkPower_eq i hcount]
    obtain ⟨lastTime, lostPowerOnce, hwatch, honce⟩ :=
      watchNavigation_eq (s := { s with powerLostCount := s.nextCount }) i h.star
    have honce : lostPowerOnce = s.lostPowerOnce := (honce h.once).trans h.once.symm
    exact ⟨lastTime, by rw [hwatch, honce]⟩
  rw [asks_afterChecks, hwatch] at hquiet
  rw [afterChecks, hwatch]
  have hfound : s.findRedsignal < 3 := by
    by_contra hbound
    have hred := asks_checkRed_lt { s with powerLostCount := s.nextCount, lastTime } i
      (Nat.not_lt.mp hbound)
    exact Nat.not_lt.mpr hquiet hred
  rw [checkRed, if_neg (Nat.not_le.mpr hfound)]
  refine ⟨hfound, hcount, ?_, ?_⟩
  · have harmed : Armed s.nextCount { s with powerLostCount := s.nextCount, lastTime } :=
      ⟨h.star, h.chargeflag, h.once, rfl⟩
    exact (harmed.checkTurn i).checkFull i
  · intro hturn hturned
    have hrotates := checkTurn_of_not_turned
      (s := { s with powerLostCount := s.nextCount, lastTime }) i hturned
    rw [checkFull_startTurn, hrotates]
    exact hturn

theorem setChargeMode (h : Armed n s) (value : ℕ) (spin : List Callback) :
    Armed n (s.setChargeMode value spin) := by
  refine Armed.deliver (s := s.send (.setChargeMode value)) ?_ spin
  exact ⟨h.star, h.chargeflag, h.once, h.count⟩

theorem countFull (h : Armed n s) : Armed n s.countFull := by
  obtain ⟨chargeComplete, hfull⟩ := countFull_eq s
  rw [hfull]
  exact ⟨h.star, h.chargeflag, h.once, h.count⟩

end Armed

theorem armed_afterKey_pressE (s : AutoRecharger) (i : Iteration) :
    Armed s.powerLostCount (s.afterKey i.pressE) := by
  obtain ⟨chargeComplete, redCount, sent, hstop⟩ := afterKey_pressE s i
  rw [hstop]
  exact ⟨rfl, rfl, rfl, rfl⟩

/-- An iteration that turns the charge mode off, with what the chassis reports
meanwhile. -/
def report (keySpin : List Callback) : Iteration :=
  { key := .y, now := 0, later := 0, taskComplete := false, result := .unknown, feedback := none
    keySpin, lowSpin := [], navSpin := [], redSpin := [], turnSpin := [], fullSpin := []
    spin := none }

/-- Three infrared signals. -/
def sight : Iteration := report [.redFlag 1, .redFlag 1, .redFlag 1]

/-- A low battery. -/
def drain : Iteration := report [.chargingFlag false, .voltage 0]

section Report

variable {n : ℕ}

theorem Armed.afterKey_report (h : Armed n s) (keySpin : List Callback) :
    Armed n (s.afterKey (report keySpin)) :=
  h.countFull.setChargeMode 0 keySpin

theorem asks_afterKey_report (s : AutoRecharger) (keySpin : List Callback) :
    (s.afterKey (report keySpin)).asks = s.asks := by
  obtain ⟨chargeComplete, hfull⟩ := countFull_eq s
  calc (s.afterKey (report keySpin)).asks = (s.countFull.setChargeMode 0 keySpin).asks := rfl
    _ = s.countFull.asks := by rw [asks, asks, requests_setChargeMode]
    _ = s.asks := by rw [hfull]; rfl

theorem asks_iterate (s : AutoRecharger) (i : Iteration) :
    (s.iterate i).asks = ((s.afterKey i).afterChecks i).asks := by
  rw [AutoRecharger.iterate, asks, requests_deliver]
  rfl

/-- A rotation that goes on docks at three signals. -/
theorem Armed.asks_sight_lt (h : Armed n s) (hturn : s.startTurn = true) :
    s.asks < (s.iterate sight).asks := by
  by_contra hquiet
  rw [asks_iterate, ← asks_afterKey_report s _, Nat.not_lt] at hquiet
  obtain ⟨hfound, -⟩ := (h.afterKey_report _).of_quiet hquiet
  obtain ⟨chargeComplete, hfull⟩ := countFull_eq s
  have hthree : (s.afterKey sight).findRedsignal = s.findRedsignal + 3 := by
    calc (s.afterKey sight).findRedsignal
        = (s.countFull.setChargeMode 0 sight.keySpin).findRedsignal := rfl
      _ = s.findRedsignal + 3 := by
        rw [hfull]
        simp [AutoRecharger.setChargeMode, AutoRecharger.deliver, send, receive,
          redFlagCallback, sight, report, hturn]
  have hfound : (s.afterKey sight).findRedsignal < 3 := hfound
  omega

theorem Armed.nextCount_drain (h : Armed n s) :
    (s.afterKey drain).low ∧ (s.afterKey drain).nextCount = n + 1 := by
  obtain ⟨chargeComplete, hfull⟩ := countFull_eq s
  have hkey : s.afterKey drain = s.countFull.setChargeMode 0 drain.keySpin := rfl
  rw [hkey, hfull]
  cases hrobot : s.robot.robotType <;>
    simp [AutoRecharger.setChargeMode, AutoRecharger.deliver, send, receive, drain, report, low,
      nextCount, Robot.isLow, hrobot, h.count]

/-- Low readings that ask for nothing stay within the bound. -/
theorem Armed.drain_le (h : Armed n s) {m : ℕ}
    (hquiet : ∀ l ≤ m, (run AutoRecharger.iterate s (List.replicate l drain)).asks = s.asks) :
    m = 0 ∨ n + m ≤ 5 := by
  induction m generalizing n s with
  | zero => exact .inl rfl
  | succ m ih =>
    right
    have hfirst : (s.iterate drain).asks = s.asks := hquiet 1 (by omega)
    have hchecks : ((s.afterKey drain).afterChecks drain).asks ≤ (s.afterKey drain).asks := by
      rw [← asks_iterate, hfirst]
      exact (asks_afterKey_report s _).ge
    obtain ⟨-, hbound, harmed, -⟩ := (h.afterKey_report _).of_quiet hchecks
    obtain ⟨hlow, hnext⟩ := h.nextCount_drain
    have hn : n + 1 ≤ 5 := hnext ▸ hbound hlow
    have hstep : Armed (n + 1) (s.iterate drain) := by
      rw [← hnext]
      exact harmed.deliver []
    have hrest := ih hstep fun l hl => by
      have hl := hquiet (l + 1) (by omega)
      -- the rest of the run starts after the first reading
      rw [List.replicate_succ, run_cons] at hl
      rw [hl, hfirst]
    omega

end Report

theorem lows_le_length (s : AutoRecharger) (after : List Iteration) :
    lows s after ≤ after.length := by
  induction after generalizing s with
  | nil => exact le_rfl
  | cons i rest ih =>
    have hrest := ih (s.iterate i)
    rw [lows, List.length_cons]
    split <;> omega

theorem safe_of_final {i : Iteration} (hfinal : StopIsFinal s i) : SafeToStop s i := by
  have hstop := armed_afterKey_pressE s i
  obtain ⟨chargeComplete, redCount, sent, hpressed⟩ := afterKey_pressE s i
  have hasks : ∀ after : List Iteration, (∀ j ∈ after, j.key = .y) → after.length ≤ 5 →
      (run AutoRecharger.iterate (s.iterate i.pressE) after).asks = (s.afterKey i.pressE).asks := by
    intro after hkeys hlength
    have hrun := hfinal after (fun j hj => by simp [hkeys j hj])
      ((lows_le_length _ after).trans hlength)
    exact congrArg List.length hrun.2
  have hstart := hasks [] (by simp) (by simp)
  rw [run_nil] at hstart
  obtain ⟨hfound, -, harmed, hturns⟩ := hstop.of_quiet (i := i.pressE)
    (by rw [← asks_iterate, hstart])
  have harmed : Armed (s.afterKey i.pressE).nextCount (s.iterate i.pressE) :=
    harmed.deliver i.spin.toList
  constructor
  -- a rotation that goes on docks at three signals
  · by_contra hunsafe
    simp only [not_or, Bool.not_eq_false, not_and, Bool.not_eq_true] at hunsafe
    obtain ⟨hturn, hturned⟩ := hunsafe
    have hkeeps : (s.iterate i.pressE).startTurn := by
      rw [AutoRecharger.iterate, deliver_startTurn]
      refine hturns ?_ ?_
      · rw [hpressed]
        simpa using hturn
      · rw [hpressed] at hfound ⊢
        simpa [turned] using hturned hfound
    have hdocks := harmed.asks_sight_lt hkeeps
    have hsame := hasks [sight] (by simp [sight, report]) (by simp)
    rw [run_cons, run_nil] at hsame
    omega
  -- a count above 0 reaches its bound within five low readings
  · have hdrain := harmed.drain_le (m := 5) fun l hl => by
      rw [hstart]
      exact hasks _ (by simp [drain, report]) (by simpa)
    have hzero : (s.afterKey i.pressE).nextCount = 0 := by omega
    rw [nextCount_eq_zero_iff, hpressed] at hzero
    simpa using hzero

/-! ### Reachable states -/

theorem checkRed_found (s : AutoRecharger) (i : Iteration) : (s.checkRed i).findRedsignal < 3 := by
  rw [checkRed]
  split
  · -- the rotation is over before the callbacks of the request arrive
    rw [pubRechargerFlag, setChargeMode, deliver_findRedsignal]
    · show 0 < 3
      omega
    · rfl
  · next hfound => exact Nat.not_le.mp hfound

theorem Sound.stopCharge (h : Sound s) (spin : List Callback) : Sound (s.stopCharge spin) := by
  intro hturn
  rw [stopCharge_startTurn] at hturn
  rw [stopCharge_findRedsignal spin hturn]
  exact h hturn

theorem Sound.checkFull (h : Sound s) (i : Iteration) : Sound (s.checkFull i) := by
  rcases checkFull_cases s i with ⟨_, _, hfull⟩ | ⟨_, hfull⟩
  · rw [hfull]
    exact h
  · rw [hfull]
    exact Sound.stopCharge (s := { s with chargeComplete := 0, lastChargeComplete := 0 }) h
      i.fullSpin

theorem sound_checkTurn (hfound : s.findRedsignal < 3) (i : Iteration) :
    Sound (s.checkTurn i) := by
  rw [checkTurn]
  split
  · exact Sound.stopCharge (s := { s with startTurn := false }) (fun _ => hfound) i.turnSpin
  · exact fun _ => hfound

/-- Every iteration tests the signals before it ends the rotation. -/
theorem sound_iterate (s : AutoRecharger) (i : Iteration) : Sound (s.iterate i) := by
  have hchecks : Sound ((s.afterKey i).afterChecks i) :=
    (sound_checkTurn (checkRed_found _ i) i).checkFull i
  intro hturn
  rw [iterate, deliver_startTurn] at hturn
  rw [iterate, deliver_findRedsignal _ hturn]
  exact hchecks hturn

/-- **The stop is final exactly when it is safe.** -/
theorem stopCharge_final_iff (carMode : String) (now : ℤ) (before : List Iteration)
    (i : Iteration) :
    StopIsFinal (run iterate (init carMode now) before) i ↔
      SafeToStop (run iterate (init carMode now) before) i := by
  have hsound : Sound (run iterate (init carMode now) before) :=
    run_invariant (fun _ => by simp [init]) fun s j _ => sound_iterate s j
  exact ⟨safe_of_final, final_of_safe hsound⟩

/-- The start key and a navigation that succeeds without an infrared signal. -/
def searching : Iteration :=
  { key := .q, now := 1000000000, later := 1000000000, taskComplete := true
    result := .succeeded, feedback := none, keySpin := [], lowSpin := [], navSpin := []
    redSpin := [], turnSpin := [], fullSpin := [], spin := none }

/-- The rotation that goes on after the stop key docks. -/
theorem rotation_not_final :
    ¬StopIsFinal (run iterate (init "mini_mec" 0) [searching]) (report []) := by
  intro hfinal
  have hrun := hfinal [sight] (by decide) (by decide +kernel)
  exact absurd hrun.1 (by decide +kernel)

end AutoRecharger

end Recharge
