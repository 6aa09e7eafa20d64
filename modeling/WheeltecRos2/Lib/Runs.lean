/-
Runs of a deterministic machine driven by a list of actions.

`run` is the state a list of actions leads to and `Along P` says that every step
of a run satisfies `P`, a condition on the state before the step and its action.
`Along.invariant` carries what the steps along `P` preserve to the end of the run,
`run_invariant` what every step preserves, and `forall_prefix_iff_along` turns a
condition that is exact for one step into one that is exact for runs.
-/
import Mathlib.Data.List.Basic

namespace Runs

variable {σ α : Type*} (step : σ → α → σ)

/-- The state after the actions `as`. -/
def run (s : σ) (as : List α) : σ := as.foldl step s

@[simp] theorem run_nil (s : σ) : run step s [] = s := rfl

@[simp] theorem run_cons (s : σ) (a : α) (as : List α) :
    run step s (a :: as) = run step (step s a) as := rfl

theorem run_append (s : σ) (as bs : List α) :
    run step s (as ++ bs) = run step (run step s as) bs :=
  List.foldl_append

/-- Every step of the run satisfies `P`. -/
def Along (P : σ → α → Prop) : σ → List α → Prop
  | _, [] => True
  | s, a :: as => P s a ∧ Along P (step s a) as

variable {step} {P Q : σ → α → Prop} {I : σ → Prop} {s : σ}

@[simp] theorem along_nil : Along step P s [] := trivial

@[simp] theorem along_cons {a : α} {as : List α} :
    Along step P s (a :: as) ↔ P s a ∧ Along step P (step s a) as := Iff.rfl

/-- **The invariant rule.** -/
theorem Along.invariant {as : List α} (h : Along step P s as) (hs : I s)
    (hstep : ∀ s a, I s → P s a → I (step s a)) : I (run step s as) := by
  induction as generalizing s with
  | nil => exact hs
  | cons a as ih => exact ih h.2 (hstep s a hs h.1)

/-- A condition that follows from the invariant and `P`. -/
theorem Along.imp {as : List α} (h : Along step P s as) (hs : I s)
    (hstep : ∀ s a, I s → P s a → I (step s a)) (himp : ∀ s a, I s → P s a → Q s a) :
    Along step Q s as := by
  induction as generalizing s with
  | nil => trivial
  | cons a as ih => exact ⟨himp s a hs h.1, ih h.2 (hstep s a hs h.1)⟩

theorem Along.of_prefix {as before : List α} (h : Along step P s as) (hbefore : before <+: as) :
    Along step P s before := by
  induction before generalizing s as with
  | nil => trivial
  | cons a before ih =>
    obtain ⟨after, rfl⟩ := hbefore
    exact ⟨h.1, ih h.2 (List.prefix_append before after)⟩

theorem along_append {as bs : List α} :
    Along step P s (as ++ bs) ↔ Along step P s as ∧ Along step P (run step s as) bs := by
  induction as generalizing s with
  | nil => simp
  | cons a as ih => rw [List.cons_append, along_cons, along_cons, ih, run_cons, and_assoc]

/-- The condition at a step of the run. -/
theorem Along.getElem {as : List α} (h : Along step P s as) {i : ℕ} (hi : i < as.length) :
    P (run step s (as.take i)) as[i] := by
  have hsplit : as = as.take i ++ as[i] :: as.drop (i + 1) := by
    rw [← List.drop_eq_getElem_cons hi, List.take_append_drop]
  rw [hsplit, along_append] at h
  exact h.2.1

/-- The rule for an invariant of every step. -/
theorem run_invariant {as : List α} (hs : I s) (hstep : ∀ s a, I s → I (step s a)) :
    I (run step s as) := by
  induction as generalizing s with
  | nil => exact hs
  | cons a as ih => exact ih (hstep s a hs)

/-- Conditions that agree wherever the invariant holds. -/
theorem along_congr {as : List α} (hs : I s) (hstep : ∀ s a, I s → I (step s a))
    (h : ∀ s a, I s → (P s a ↔ Q s a)) : Along step P s as ↔ Along step Q s as := by
  induction as generalizing s with
  | nil => rfl
  | cons a as ih => rw [along_cons, along_cons, h s a hs, ih (hstep s a hs)]

/-- A condition on what `f` shows of the states, where `f` follows the steps. -/
theorem along_comap {τ : Type*} {step' : τ → α → τ} {R : τ → α → Prop} (f : σ → τ)
    (hf : ∀ s a, f (step s a) = step' (f s) a) {as : List α} :
    Along step (fun s a => R (f s) a) s as ↔ Along step' R (f s) as := by
  induction as generalizing s with
  | nil => rfl
  | cons a as ih => rw [along_cons, along_cons, ih, hf]

/-- **The exact condition of a run.**  `J` holds as long as all steps satisfy `P`,
and implies `Good`, which the first step without `P` breaks: `Good` holds in all
states of a run exactly if all its steps satisfy `P`. -/
theorem forall_prefix_iff_along {J Good : σ → Prop} {as : List α} (hs : J s)
    (hgood : ∀ s, J s → Good s) (hkeep : ∀ s a, J s → P s a → J (step s a))
    (hbreak : ∀ s a, J s → ¬ P s a → ¬ Good (step s a)) :
    (∀ before, before <+: as → Good (run step s before)) ↔ Along step P s as := by
  induction as generalizing s with
  | nil =>
    refine iff_of_true ?_ trivial
    intro before hbefore
    rw [List.prefix_nil.mp hbefore]
    exact hgood s hs
  | cons a as ih =>
    constructor
    · intro hall
      have hP : P s a := by
        by_contra hP
        exact hbreak s a hs hP (hall [a] (by simp))
      refine ⟨hP, (ih (hkeep s a hs hP)).mp ?_⟩
      intro before hbefore
      exact hall (a :: before) (List.cons_prefix_cons.mpr ⟨rfl, hbefore⟩)
    · intro halong before hbefore
      exact hgood _ ((halong.of_prefix hbefore).invariant hs hkeep)

theorem along_and {as : List α} (hP : Along step P s as) (hQ : Along step Q s as) :
    Along step (fun s a => P s a ∧ Q s a) s as := by
  induction as generalizing s with
  | nil => trivial
  | cons a as ih => exact ⟨⟨hP.1, hQ.1⟩, ih hP.2 hQ.2⟩

end Runs
