/-
Programs whose accesses are logged.

A program changes a state and logs which places it touches; `Within P x s` says that from `s`
it touches none outside `P`.  The rules follow the construction of the program:
`within_pure`, `within_bind`, `within_touch`, `within_ite`, and for a loop over a list
of indices `within_forM` and `within_foldlM`, where what an iteration touches depends on its index
alone.
-/
import Mathlib.Tactic.SplitIfs

namespace Access

structure Outcome (σ ι α : Type) where
  value : α
  state : σ
  log : List ι

/-- A program over the state `σ` that touches places of type `ι`. -/
def Prog (σ ι α : Type) := σ → Outcome σ ι α

variable {σ ι α β κ : Type} {P : ι → Prop} {s : σ}

def run (x : Prog σ ι α) (s : σ) : Outcome σ ι α := x s

instance : Monad (Prog σ ι) where
  pure a := fun s => { value := a, state := s, log := [] }
  bind x f := fun s =>
    { run (f (run x s).value) (run x s).state with
      log := (run x s).log ++ (run (f (run x s).value) (run x s).state).log }

/-- One access. -/
def touch (i : ι) (f : σ → α × σ) : Prog σ ι α :=
  fun s => { value := (f s).1, state := (f s).2, log := [i] }

/-- The program touches places in `P` only. -/
def Within (P : ι → Prop) (x : Prog σ ι α) (s : σ) : Prop := ∀ i ∈ (run x s).log, P i

section Run

variable {x : Prog σ ι α} {f : α → Prog σ ι β}

@[simp] theorem run_pure (a : α) :
    run (pure a : Prog σ ι α) s = { value := a, state := s, log := [] } := rfl

@[simp] theorem value_bind :
    (run (x >>= f) s).value = (run (f (run x s).value) (run x s).state).value := rfl

@[simp] theorem state_bind :
    (run (x >>= f) s).state = (run (f (run x s).value) (run x s).state).state := rfl

@[simp] theorem value_andM {x y : Prog σ ι Bool} :
    (run (x <&&> y) s).value = ((run x s).value && (run y (run x s).state).value) := by
  simp only [andM, value_bind, toBool]
  cases (run x s).value <;> rfl

@[simp] theorem state_andM {x y : Prog σ ι Bool} :
    (run (x <&&> y) s).state =
      if (run x s).value then (run y (run x s).state).state else (run x s).state := by
  simp only [andM, state_bind, toBool]
  cases (run x s).value <;> rfl

@[simp] theorem run_touch (i : ι) (g : σ → α × σ) :
    run (touch i g) s = { value := (g s).1, state := (g s).2, log := [i] } := rfl

end Run

/-! ### The rules -/

@[simp] theorem within_pure (a : α) : Within P (pure a : Prog σ ι α) s := List.forall_mem_nil P

/-- **Sequencing.** -/
@[simp] theorem within_bind {x : Prog σ ι α} {f : α → Prog σ ι β} :
    Within P (x >>= f) s ↔ Within P x s ∧ Within P (f (run x s).value) (run x s).state :=
  List.forall_mem_append

@[simp] theorem within_touch (i : ι) (f : σ → α × σ) : Within P (touch i f) s ↔ P i :=
  List.forall_mem_singleton

theorem within_ite {c : Prop} [Decidable c] {x y : Prog σ ι α} :
    Within P (if c then x else y) s ↔ (c → Within P x s) ∧ (¬c → Within P y s) := by
  split_ifs with h <;> simp [h]

/-- The second condition is tested only behind the first. -/
@[simp] theorem within_andM {x y : Prog σ ι Bool} :
    Within P (x <&&> y) s ↔
      Within P x s ∧ ((run x s).value = true → Within P y (run x s).state) := by
  simp only [andM, within_bind, toBool]
  cases (run x s).value <;> simp

/-- **Loops.**  Every iteration stays within `P` exactly if its index is in `Q`. -/
theorem within_forM {Q : κ → Prop} {indices : List κ} {body : κ → Prog σ ι PUnit}
    (hbody : ∀ i ∈ indices, ∀ s, Within P (body i) s ↔ Q i) (s : σ) :
    Within P (forM indices body) s ↔ ∀ i ∈ indices, Q i := by
  induction indices generalizing s with
  | nil => simp [Within]
  | cons i indices ih =>
    rw [List.forM_cons, within_bind, List.forall_mem_cons, hbody i List.mem_cons_self]
    exact and_congr_right fun _ => ih (fun j hj => hbody j (List.mem_cons_of_mem i hj)) _

/-- The same for a loop that collects a result. -/
theorem within_foldlM {Q : κ → Prop} {indices : List κ} {body : β → κ → Prog σ ι β}
    (hbody : ∀ i ∈ indices, ∀ b s, Within P (body b i) s ↔ Q i) (b : β) (s : σ) :
    Within P (indices.foldlM body b) s ↔ ∀ i ∈ indices, Q i := by
  induction indices generalizing b s with
  | nil => simp [Within]
  | cons i indices ih =>
    rw [List.foldlM_cons, within_bind, List.forall_mem_cons, hbody i List.mem_cons_self]
    exact and_congr_right fun _ => ih (fun j hj => hbody j (List.mem_cons_of_mem i hj)) _ _

end Access
