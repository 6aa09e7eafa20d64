/-
The maximal stretches of a predicate on an initial segment of the natural numbers.

`IsStretch p n a b` says that `[a, b)` is such a stretch below `n`.  Two stretches are
equal or leave a gap (`IsStretch.gap`), and every number with the predicate lies in
one (`exists_isStretch`).  How the stretches change when the segment grows by one
number (`isStretch_closed_succ_iff`, `isStretch_succ_of_not`) is what a scan from left to
right needs.
-/
import Mathlib.Order.Nat
import Mathlib.Tactic.Common

namespace Stretch

/-- A maximal nonempty stretch `[a, b)` of the numbers below `n` with the predicate `p`. -/
structure IsStretch (p : ℕ → Prop) (n a b : ℕ) : Prop where
  lt : a < b
  le : b ≤ n
  holds : ∀ i, a ≤ i → i < b → p i
  before : ∀ i, i + 1 = a → ¬p i
  after : b < n → ¬p b

variable {p : ℕ → Prop} {n a b a' b' i j : ℕ}

namespace IsStretch

/-- A stretch that meets a window of the predicate holds its end. -/
theorem le_of_window (h : IsStretch p n a b) (hai : i < b) (hj : j ≤ n)
    (hwin : ∀ k, i ≤ k → k < j → p k) : j ≤ b := by
  by_contra hb
  exact h.after (by omega) (hwin b (by omega) (by omega))

/-- Two stretches are separated by a number without the predicate. -/
theorem gap (h : IsStretch p n a b) (h' : IsStretch p n a' b') (hb : b < b') : b < a' := by
  by_contra ha
  exact h.after (by have := h'.le; omega) (h'.holds b (by omega) hb)

/-- A stretch is determined by its end. -/
theorem start_eq (h : IsStretch p n a b) (h' : IsStretch p n a' b) : a = a' := by
  have hle : ∀ {c d : ℕ}, IsStretch p n c b → IsStretch p n d b → c ≤ d := by
    intro c d hc hd
    by_contra hdc
    exact hc.before (c - 1) (by omega) (hd.holds (c - 1) (by omega) (by have := hc.lt; omega))
  exact Nat.le_antisymm (hle h h') (hle h' h)

end IsStretch

/-! ### One number more -/

/-- Up to the old bound nothing changes. -/
theorem isStretch_of_lt (hb : b < n) : IsStretch p (n + 1) a b ↔ IsStretch p n a b := by
  constructor
  · intro h
    exact ⟨h.lt, Nat.le_of_lt hb, h.holds, h.before, fun _ => h.after (by omega)⟩
  · intro h
    exact ⟨h.lt, by omega, h.holds, h.before, fun _ => h.after hb⟩

/-- A number without the predicate closes the last stretch. -/
theorem isStretch_succ_of_not (hn : ¬p n) : IsStretch p (n + 1) a b ↔ IsStretch p n a b := by
  constructor
  · intro h
    have hb : b ≠ n + 1 := by
      intro hb
      exact hn (h.holds n (by have := h.lt; omega) (by omega))
    have := h.le
    exact ⟨h.lt, by omega, h.holds, h.before, fun _ => h.after (by omega)⟩
  · intro h
    refine ⟨h.lt, by have := h.le; omega, h.holds, h.before, fun hb => ?_⟩
    rcases Nat.lt_or_ge b n with hlt | hge
    · exact h.after hlt
    · rwa [show b = n from by omega]

/-- A number with the predicate extends the stretch that ended before it. -/
theorem IsStretch.extend (h : IsStretch p n a n) (hn : p n) : IsStretch p (n + 1) a (n + 1) := by
  refine ⟨by have := h.lt; omega, Nat.le_refl _, fun i hi hin => ?_, h.before, by omega⟩
  rcases Nat.lt_or_ge i n with hlt | hge
  · exact h.holds i hi hlt
  · rwa [show i = n from by omega]

/-- Or it begins one. -/
theorem isStretch_begin (hprev : ∀ i, i + 1 = n → ¬p i) (hn : p n) :
    IsStretch p (n + 1) n (n + 1) := by
  refine ⟨by omega, Nat.le_refl _, fun i hi hin => ?_, hprev, by omega⟩
  rwa [show i = n from by omega]

/-- A number with the predicate leaves the closed stretches as they are. -/
theorem isStretch_closed_succ_iff (hn : p n) :
    IsStretch p (n + 1) a b ∧ b < n + 1 ↔ IsStretch p n a b ∧ b < n := by
  constructor
  · rintro ⟨h, hb⟩
    have hbn : b ≠ n := by
      rintro rfl
      exact h.after hb hn
    exact ⟨(isStretch_of_lt (by omega)).mp h, by omega⟩
  · rintro ⟨h, hb⟩
    exact ⟨(isStretch_of_lt hb).mpr h, by omega⟩

/-! ### Existence -/

/-- A number with the predicate that is the last one ends a stretch. -/
theorem exists_isStretch_last (hn : p n) : ∃ a, IsStretch p (n + 1) a (n + 1) := by
  classical
  induction n with
  | zero => exact ⟨0, isStretch_begin (fun i hi => by omega) hn⟩
  | succ n ih =>
    by_cases hprev : p n
    · obtain ⟨a, h⟩ := ih hprev
      exact ⟨a, h.extend hn⟩
    · refine ⟨n + 1, isStretch_begin (fun i hi => ?_) hn⟩
      rwa [show i = n from by omega]

/-- **Every number with the predicate lies in a stretch.** -/
theorem exists_isStretch (hi : i < n) (hp : p i) : ∃ a b, IsStretch p n a b ∧ a ≤ i ∧ i < b := by
  classical
  induction n with
  | zero => omega
  | succ n ih =>
    by_cases hin : i = n
    · subst hin
      obtain ⟨a, h⟩ := exists_isStretch_last hp
      exact ⟨a, i + 1, h, by have := h.lt; omega, by omega⟩
    · obtain ⟨a, b, h, hai, hib⟩ := ih (by omega)
      by_cases hn : p n
      · rcases Nat.lt_or_ge b n with hlt | hge
        · exact ⟨a, b, (isStretch_of_lt hlt).mpr h, hai, hib⟩
        · have hb : b = n := Nat.le_antisymm h.le hge
          subst hb
          exact ⟨a, b + 1, h.extend hn, hai, by omega⟩
      · exact ⟨a, b, (isStretch_succ_of_not hn).mpr h, hai, hib⟩

end Stretch
