/-
Keyboard teleoperation.

Every pass of the key loop of `main` polls a key for 0.1 s, which may give none, and publishes one
command.  A movement key sets the directions, a speed key scales the speeds; the targets are
their products, and the command goes to them in ramps.  The fifth poll that gives no known key
sets the directions to 0, so that the robot comes to a halt once the keys are let go
(`keyboard_safe`); neither space nor `k` resets that count.

Numbers are exact.  The command published after the loop, the texts and the key `b`, which only
prints one, are left out.
-/
import WheeltecRos2.Lib.Ramp
import Mathlib.Algebra.Order.Field.Rat
import Mathlib.Algebra.Order.Floor.Semiring
import Mathlib.Data.Rat.Floor

namespace Keyboard

open Ramp

/-- A polled key; `none` is the empty text. -/
abbrev Key := Option Char

/-- `moveBindings`: the directions `x`, `y` and `th`. -/
def moveBindings : List (Char × ℚ × ℚ × ℚ) :=
  [('w', 1, 0, 0), ('a', 0, 1, 0), ('s', -1, 0, 0), ('d', 0, -1, 0), ('q', 1, 1, 0),
    ('e', 1, -1, 0), ('z', -1, 1, 0), ('c', -1, -1, 0), ('x', 0, 0, -1),
    (Char.ofNat 0x18, 0, 0, 1)]

/-- `speedBindings`: the factors of `speed` and `turn`. -/
def speedBindings : List (Char × ℚ × ℚ) :=
  [('u', 1.1, 1), ('i', 0.9, 1), ('o', 1, 1.1), ('p', 1, 0.9)]

/-- `moveBindings[key]`, if the key is there. -/
def movement (key : Key) : Option (ℚ × ℚ × ℚ) := key.bind fun c => moveBindings.lookup c

@[inherit_doc movement] def scaling (key : Key) : Option (ℚ × ℚ) :=
  key.bind fun c => speedBindings.lookup c

/-- The keys that stop at once. -/
def IsStop (key : Key) : Prop := key = some ' ' ∨ key = some 'k'

instance (key : Key) : Decidable (IsStop key) := inferInstanceAs (Decidable (_ ∨ _))

/-- Ctrl-C. -/
def quit : Key := some (Char.ofNat 3)

/-- The published command; its other components are 0. -/
structure Twist where
  linearX : ℚ
  linearY : ℚ
  angularZ : ℚ
  deriving DecidableEq

/-- The variables of the loop. -/
structure Teleop where
  speed : ℚ
  turn : ℚ
  x : ℚ
  y : ℚ
  th : ℚ
  count : ℕ
  targetSpeedX : ℚ
  targetSpeedY : ℚ
  targetTurn : ℚ
  controlSpeedX : ℚ
  controlSpeedY : ℚ
  controlTurn : ℚ
  deriving DecidableEq

namespace Teleop

def init : Teleop :=
  { speed := 0.2, turn := 1, x := 0, y := 0, th := 0, count := 0, targetSpeedX := 0
    targetSpeedY := 0, targetTurn := 0, controlSpeedX := 0, controlSpeedY := 0, controlTurn := 0 }

/-- What the loop does with the key; Ctrl-C ends it. -/
def press (s : Teleop) (key : Key) : Option Teleop :=
  match movement key with
  | some (x, y, th) => some { s with x, y, th, count := 0 }
  | none =>
    match scaling key with
    | some (linear, angular) =>
      some { s with speed := s.speed * linear, turn := s.turn * angular, count := 0 }
    | none =>
      if IsStop key then
        some { s with
          x := 0, y := 0, th := 0, controlSpeedX := 0, controlSpeedY := 0, controlTurn := 0 }
      else
        let s := { s with count := s.count + 1 }
        let s := if 4 < s.count then { s with x := 0, y := 0, th := 0 } else s
        if key = quit then none else some s

/-- The targets, and one step of each ramp. -/
def approach (s : Teleop) : Teleop :=
  let s :=
    { s with targetSpeedX := s.speed * s.x, targetSpeedY := s.speed * s.y
             targetTurn := s.turn * s.th }
  { s with
    controlSpeedX := ramp 0.1 s.targetSpeedX s.controlSpeedX
    controlSpeedY := ramp 0.1 s.targetSpeedY s.controlSpeedY
    controlTurn := ramp 0.5 s.targetTurn s.controlTurn }

/-- One pass of the loop. -/
def poll (s : Teleop) (key : Key) : Option Teleop := (s.press key).map approach

/-- Passes of the loop, up to Ctrl-C. -/
def polls (s : Teleop) (keys : List Key) : Option Teleop := keys.foldlM poll s

/-- The command a pass publishes. -/
def twist (s : Teleop) : Twist :=
  { linearX := s.controlSpeedX, linearY := s.controlSpeedY, angularZ := s.controlTurn }

end Teleop

/-! ### What is safe -/

/-- No movement and no speed key. -/
def LetGo (key : Key) : Prop := movement key = none ∧ scaling key = none

instance (key : Key) : Decidable (LetGo key) := inferInstanceAs (Decidable (_ ∧ _))

theorem IsStop.letGo {key : Key} (h : IsStop key) : LetGo key := by
  rcases h with rfl | rfl
  · decide
  · decide

/-- The polls that the dead-man count counts. -/
def idle (keys : List Key) : ℕ := keys.countP fun key => LetGo key ∧ ¬IsStop key

/-- A stop key gives the command 0, any other a command near the one before. -/
def RateLimited (before : Twist) (key : Key) (after : Twist) : Prop :=
  if IsStop key then after = ⟨0, 0, 0⟩
  else |after.linearX - before.linearX| ≤ 0.1 ∧ |after.linearY - before.linearY| ≤ 0.1 ∧
    |after.angularZ - before.angularZ| ≤ 0.5

namespace Teleop

/-- The targets are the speeds in the directions. -/
structure Aimed (s : Teleop) : Prop where
  x : s.targetSpeedX = s.speed * s.x
  y : s.targetSpeedY = s.speed * s.y
  turn : s.targetTurn = s.turn * s.th

/-- No component goes beyond its target, and all go on by a step until they are there; a stop key
takes them there at once. -/
structure TowardTargets (before : Teleop) (key : Key) (after : Teleop) : Prop where
  aimed : after.Aimed
  between : Between before.controlSpeedX after.controlSpeedX after.targetSpeedX ∧
    Between before.controlSpeedY after.controlSpeedY after.targetSpeedY ∧
    Between before.controlTurn after.controlTurn after.targetTurn
  advances : ¬IsStop key →
    Advances 0.1 before.controlSpeedX after.controlSpeedX after.targetSpeedX ∧
    Advances 0.1 before.controlSpeedY after.controlSpeedY after.targetSpeedY ∧
    Advances 0.5 before.controlTurn after.controlTurn after.targetTurn
  stops : IsStop key → after.controlSpeedX = after.targetSpeedX ∧
    after.controlSpeedY = after.targetSpeedY ∧ after.controlTurn = after.targetTurn

def TargetsZero (s : Teleop) : Prop :=
  s.targetSpeedX = 0 ∧ s.targetSpeedY = 0 ∧ s.targetTurn = 0

/-- How many polls the ramps take to 0. -/
def stoppingPolls (s : Teleop) : ℕ :=
  ⌈max (max (|s.controlSpeedX| / 0.1) (|s.controlSpeedY| / 0.1)) (|s.controlTurn| / 0.5)⌉₊

/-! ### One poll -/

section Poll

variable {s s' : Teleop} {key : Key}

theorem press_cases (h : s.press key = some s') :
    (∃ x y th, ¬LetGo key ∧ s' = { s with x, y, th, count := 0 }) ∨
    (∃ speed turn, ¬LetGo key ∧ s' = { s with speed, turn, count := 0 }) ∨
    (LetGo key ∧ IsStop key ∧ s' = { s with
      x := 0, y := 0, th := 0, controlSpeedX := 0, controlSpeedY := 0, controlTurn := 0 }) ∨
    (LetGo key ∧ ¬IsStop key ∧ ∃ x y th, s' = { s with x, y, th, count := s.count + 1 } ∧
      (x = s.x ∧ y = s.y ∧ th = s.th ∧ s.count + 1 ≤ 4 ∨ x = 0 ∧ y = 0 ∧ th = 0)) := by
  rw [press] at h
  cases hmove : movement key with
  | some directions =>
    rw [hmove] at h
    exact .inl ⟨_, _, _, fun hletGo => by simp [hletGo.1] at hmove, (Option.some.inj h).symm⟩
  | none =>
    rw [hmove] at h
    cases hscale : scaling key with
    | some factors =>
      rw [hscale] at h
      exact .inr (.inl ⟨_, _, fun hletGo => by simp [hletGo.2] at hscale,
        (Option.some.inj h).symm⟩)
    | none =>
      rw [hscale] at h
      refine .inr (.inr ?_)
      dsimp only at h
      -- a stop key or an idle poll; the key that ends the loop leaves no state
      split_ifs at h with hstop hquit hcount
      · exact .inl ⟨⟨hmove, hscale⟩, hstop, (Option.some.inj h).symm⟩
      · exact .inr ⟨⟨hmove, hscale⟩, hstop, 0, 0, 0, (Option.some.inj h).symm,
          .inr ⟨rfl, rfl, rfl⟩⟩
      · exact .inr ⟨⟨hmove, hscale⟩, hstop, s.x, s.y, s.th, (Option.some.inj h).symm,
          .inl ⟨rfl, rfl, rfl, not_lt.mp hcount⟩⟩

/-- What the passes keep: the dead-man count does its work, and the targets are the products. -/
structure Sound (s : Teleop) : Prop where
  deadMan : 4 < s.count → s.x = 0 ∧ s.y = 0 ∧ s.th = 0
  aimed : s.Aimed

theorem sound_init : init.Sound :=
  ⟨fun h => absurd h (by decide), (mul_zero _).symm, (mul_zero _).symm, (mul_zero _).symm⟩

theorem sound_poll (h : s.poll key = some s') : s'.Sound := by
  obtain ⟨u, hpress, rfl⟩ := Option.map_eq_some_iff.mp h
  refine ⟨?_, ⟨rfl, rfl, rfl⟩⟩
  intro hcount
  rcases press_cases hpress with ⟨_, _, _, -, rfl⟩ | ⟨_, _, -, rfl⟩ | ⟨-, -, rfl⟩ |
    ⟨-, -, _, _, _, rfl, ⟨-, -, -, hle⟩ | hzero⟩
  · exact absurd hcount (Nat.not_lt_zero _)
  · exact absurd hcount (Nat.not_lt_zero _)
  · exact ⟨rfl, rfl, rfl⟩
  · exact absurd hcount (not_lt.mpr hle)
  · exact hzero

theorem Sound.polls (hs : s.Sound) {keys : List Key} (h : s.polls keys = some s') : s'.Sound := by
  induction keys generalizing s with
  | nil => rwa [← Option.some.inj h]
  | cons key keys ih =>
    obtain ⟨u, hpoll, hrest⟩ := Option.bind_eq_some_iff.mp h
    exact ih (sound_poll hpoll) hrest

theorem Sound.targetsZero (hs : s.Sound) (hcount : 4 < s.count) : s.TargetsZero := by
  obtain ⟨hx, hy, hth⟩ := hs.deadMan hcount
  rw [TargetsZero, hs.aimed.x, hs.aimed.y, hs.aimed.turn, hx, hy, hth]
  exact ⟨mul_zero _, mul_zero _, mul_zero _⟩

/-- The key leaves the command as it is, or it is a stop key. -/
theorem press_controls (h : s.press key = some s') :
    s'.controlSpeedX = s.controlSpeedX ∧ s'.controlSpeedY = s.controlSpeedY ∧
        s'.controlTurn = s.controlTurn ∧ ¬IsStop key ∨
      s' = { s with
        x := 0, y := 0, th := 0, controlSpeedX := 0, controlSpeedY := 0, controlTurn := 0 } ∧
      IsStop key := by
  rcases press_cases h with ⟨_, _, _, hkey, rfl⟩ | ⟨_, _, hkey, rfl⟩ | ⟨-, hstop, rfl⟩ |
    ⟨-, hstop, _, _, _, rfl, -⟩
  · exact .inl ⟨rfl, rfl, rfl, fun hstop => hkey (IsStop.letGo hstop)⟩
  · exact .inl ⟨rfl, rfl, rfl, fun hstop => hkey (IsStop.letGo hstop)⟩
  · exact .inr ⟨rfl, hstop⟩
  · exact .inl ⟨rfl, rfl, rfl, hstop⟩

theorem rateLimited_poll (h : s.poll key = some s') : RateLimited s.twist key s'.twist := by
  obtain ⟨u, hpress, rfl⟩ := Option.map_eq_some_iff.mp h
  rcases press_controls hpress with ⟨hx, hy, hturn, hstop⟩ | ⟨rfl, hstop⟩
  · rw [RateLimited, if_neg hstop]
    simp only [twist, ← hx, ← hy, ← hturn]
    exact ⟨abs_ramp_sub_le (by norm_num), abs_ramp_sub_le (by norm_num),
      abs_ramp_sub_le (by norm_num)⟩
  · rw [RateLimited, if_pos hstop]
    simp [twist, approach]

theorem towardTargets_poll (h : s.poll key = some s') : TowardTargets s key s' := by
  have haimed := (sound_poll h).aimed
  obtain ⟨u, hpress, rfl⟩ := Option.map_eq_some_iff.mp h
  rcases press_controls hpress with ⟨hx, hy, hturn, hstop⟩ | ⟨rfl, hstop⟩
  · refine {
      aimed := haimed
      between := ?_
      advances := ?_
      stops := fun hkey => absurd hkey hstop }
    · rw [← hx, ← hy, ← hturn]
      exact ⟨ramp_between (by norm_num), ramp_between (by norm_num), ramp_between (by norm_num)⟩
    · intro _
      rw [← hx, ← hy, ← hturn]
      exact ⟨abs_sub_ramp (by norm_num), abs_sub_ramp (by norm_num), abs_sub_ramp (by norm_num)⟩
  · refine {
      aimed := haimed
      between := ?_
      advances := fun hkey => absurd hstop hkey
      stops := ?_ }
    -- the targets are 0 as well
    · simp only [approach, mul_zero, ramp_self]
      exact ⟨between_self _ _, between_self _ _, between_self _ _⟩
    · intro _
      simp only [approach, mul_zero, ramp_self, and_self]

/-! ### The dead-man stop -/

theorem count_poll (h : s.poll key = some s') (hkey : LetGo key) :
    s'.count = s.count + idle [key] := by
  obtain ⟨u, hpress, rfl⟩ := Option.map_eq_some_iff.mp h
  rcases press_cases hpress with ⟨_, _, _, hnot, -⟩ | ⟨_, _, hnot, -⟩ | ⟨-, hstop, rfl⟩ |
    ⟨-, hstop, _, _, _, rfl, -⟩
  · exact absurd hkey hnot
  · exact absurd hkey hnot
  · simp [approach, idle, hstop]
  · simp [approach, idle, hstop, hkey]

theorem count_polls {keys : List Key} (h : s.polls keys = some s')
    (hkeys : ∀ key ∈ keys, LetGo key) : s'.count = s.count + idle keys := by
  induction keys generalizing s with
  | nil =>
    rw [← Option.some.inj h]
    rfl
  | cons key keys ih =>
    obtain ⟨u, hpoll, hrest⟩ := Option.bind_eq_some_iff.mp h
    obtain ⟨hkey, hkeys⟩ := List.forall_mem_cons.mp hkeys
    have hidle : idle (key :: keys) = idle [key] + idle keys := by
      rw [← List.singleton_append, idle, List.countP_append]
      rfl
    rw [ih hrest hkeys, count_poll hpoll hkey, hidle, add_assoc]

/-- The command is at most `n` steps of the ramps away from 0. -/
structure Within (n : ℕ) (s : Teleop) : Prop where
  x : |s.controlSpeedX| ≤ n • 0.1
  y : |s.controlSpeedY| ≤ n • 0.1
  turn : |s.controlTurn| ≤ n • 0.5

theorem within_stoppingPolls (s : Teleop) : s.Within s.stoppingPolls := by
  have hceil := Nat.le_ceil
    (max (max (|s.controlSpeedX| / 0.1) (|s.controlSpeedY| / 0.1)) (|s.controlTurn| / 0.5))
  have hx := ((le_max_left _ _).trans (le_max_left _ _)).trans hceil
  have hy := ((le_max_right _ _).trans (le_max_left _ _)).trans hceil
  have hturn := (le_max_right _ _).trans hceil
  constructor <;> rw [nsmul_eq_mul]
  · exact (div_le_iff₀ (by norm_num)).mp hx
  · exact (div_le_iff₀ (by norm_num)).mp hy
  · exact (div_le_iff₀ (by norm_num)).mp hturn

theorem Within.twist_eq (h : s.Within 0) : s.twist = ⟨0, 0, 0⟩ := by
  obtain ⟨hx, hy, hturn⟩ := h
  simp only [zero_nsmul, abs_nonpos_iff] at hx hy hturn
  rw [twist, hx, hy, hturn]

/-- With targets 0 every poll takes the command a step nearer. -/
theorem Within.poll {n : ℕ} (h : s.Within n) (hpoll : s.poll key = some s')
    (hzero : s'.TargetsZero) : s'.Within (n - 1) := by
  obtain ⟨u, hpress, rfl⟩ := Option.map_eq_some_iff.mp hpoll
  obtain ⟨htargetX, htargetY, htargetTurn⟩ := hzero
  have hu : u.Within n := by
    rcases press_controls hpress with ⟨hx, hy, hturn, -⟩ | ⟨rfl, -⟩
    · exact ⟨hx ▸ h.x, hy ▸ h.y, hturn ▸ h.turn⟩
    · exact ⟨abs_zero.trans_le ((abs_nonneg _).trans h.x),
        abs_zero.trans_le ((abs_nonneg _).trans h.y),
        abs_zero.trans_le ((abs_nonneg _).trans h.turn)⟩
  simp only [approach] at htargetX htargetY htargetTurn
  constructor
  · simp only [approach, htargetX]
    exact abs_ramp_zero_le (by norm_num) hu.x
  · simp only [approach, htargetY]
    exact abs_ramp_zero_le (by norm_num) hu.y
  · simp only [approach, htargetTurn]
    exact abs_ramp_zero_le (by norm_num) hu.turn

/-- Once the dead-man count has done its work, the keys that are let go keep it so. -/
theorem Within.polls {n : ℕ} (h : s.Within n) (hcount : 4 < s.count) {further : List Key}
    (hkeys : ∀ key ∈ further, LetGo key) (hpolls : s.polls further = some s') :
    s'.Within (n - further.length) := by
  induction further generalizing s n with
  | nil => rwa [← Option.some.inj hpolls]
  | cons key further ih =>
    obtain ⟨u, hpoll, hrest⟩ := Option.bind_eq_some_iff.mp hpolls
    obtain ⟨hkey, hkeys⟩ := List.forall_mem_cons.mp hkeys
    have hcount' : 4 < u.count := by
      rw [count_poll hpoll hkey]
      exact Nat.lt_add_right _ hcount
    rw [List.length_cons, Nat.add_comm, ← Nat.sub_sub]
    exact ih (h.poll hpoll ((sound_poll hpoll).targetsZero hcount')) hcount' hkeys hrest

/-- Only Ctrl-C ends the loop. -/
theorem exists_poll (s : Teleop) (hkey : key ≠ quit) : ∃ s', s.poll key = some s' := by
  rw [poll, press]
  cases movement key with
  | some directions => exact ⟨_, rfl⟩
  | none =>
    cases scaling key with
    | some factors => exact ⟨_, rfl⟩
    | none =>
      dsimp only
      rw [if_neg hkey]
      split_ifs
      · exact ⟨_, rfl⟩
      · exact ⟨_, rfl⟩
      · exact ⟨_, rfl⟩

theorem exists_polls (s : Teleop) {keys : List Key} (hkeys : quit ∉ keys) :
    ∃ s', s.polls keys = some s' := by
  induction keys generalizing s with
  | nil => exact ⟨s, rfl⟩
  | cons key keys ih =>
    rw [List.mem_cons, not_or] at hkeys
    obtain ⟨hkey, hkeys⟩ := hkeys
    obtain ⟨u, hpoll⟩ := s.exists_poll (Ne.symm hkey)
    obtain ⟨s', hrest⟩ := ih u hkeys
    exact ⟨s', Option.bind_eq_some_iff.mpr ⟨u, hpoll, hrest⟩⟩

end Poll

end Teleop

open Teleop

/-- **The keyboard is safe.**  Whatever the keys, each command is near the one before and goes
on towards its target.  When the keys were let go for five polls the targets are 0, and so is the
command at the latest `stoppingPolls` polls later. -/
theorem keyboard_safe (keys : List Key) (hkeys : quit ∉ keys) :
    ∃ s, init.polls keys = some s ∧
      (∀ key ≠ quit, ∃ s', s.poll key = some s' ∧
        RateLimited s.twist key s'.twist ∧ TowardTargets s key s') ∧
      ∀ before pause, keys = before ++ pause → (∀ key ∈ pause, LetGo key) → 5 ≤ idle pause →
        s.TargetsZero ∧
        ∀ further, (∀ key ∈ further, LetGo key) → quit ∉ further →
          s.stoppingPolls ≤ further.length →
          ∃ s', s.polls further = some s' ∧ s'.twist = ⟨0, 0, 0⟩ := by
  obtain ⟨s, hs⟩ := init.exists_polls hkeys
  refine ⟨s, hs, ?_, ?_⟩
  · intro key hkey
    obtain ⟨s', hpoll⟩ := s.exists_poll hkey
    exact ⟨s', hpoll, rateLimited_poll hpoll, towardTargets_poll hpoll⟩
  · intro before pause hsplit hpause hidle
    have hcount : 4 < s.count := by
      rw [hsplit, polls, List.foldlM_append] at hs
      obtain ⟨u, -, hrest⟩ := Option.bind_eq_some_iff.mp hs
      rw [count_polls hrest hpause]
      omega
    refine ⟨(sound_init.polls hs).targetsZero hcount, ?_⟩
    intro further hfurther hquit hlength
    obtain ⟨s', hpolls⟩ := s.exists_polls hquit
    have hwithin := s.within_stoppingPolls.polls hcount hfurther hpolls
    rw [Nat.sub_eq_zero_of_le hlength] at hwithin
    exact ⟨s', hpolls, hwithin.twist_eq⟩

/-- Forward, then five polls without a key; from there one more step forward. -/
theorem keyboard_safe_forward :
    ∃ s, init.polls [some 'w', none, none, none, none, none] = some s ∧ s.TargetsZero ∧
      ∃ s', s.poll (some 'w') = some s' ∧ TowardTargets s (some 'w') s' := by
  obtain ⟨s, hs, hpoll, hdeadMan⟩ :=
    keyboard_safe [some 'w', none, none, none, none, none] (by decide)
  obtain ⟨s', hs', -, htoward⟩ := hpoll (some 'w') (by decide)
  exact ⟨s, hs, (hdeadMan [some 'w'] [none, none, none, none, none] rfl (by decide)
    (by decide)).1, s', hs', htoward⟩

end Keyboard
