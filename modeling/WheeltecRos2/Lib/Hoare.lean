/-
Triples for programs with a state and exceptions.

A program of type `Prog σ ε α` changes a state and returns or raises; an exception
leaves the state as it is at that point.  `Triple P x Q E` says that from `P` the
program returns in `Q` or raises in `E`.  The rules follow the construction of the
program: `ret`, `raise`, `update`, `read`, `lift_ok`, `lift_error`, `seq`, `recover`,
`cond`, and `conseq` to weaken a triple.  `Triple.final` forgets whether the program
returned.
-/
import Mathlib.Tactic.SplitIfs

namespace Hoare

/-- A program over the state `σ` that may raise `ε`. -/
abbrev Prog (σ ε α : Type) := ExceptT ε (StateM σ) α

variable {σ τ ε α β : Type} {P P' : σ → Prop} {Q Q' : α → σ → Prop} {E E' : ε → σ → Prop}

/-- The result and the final state. -/
def exec (x : Prog σ ε α) (s : σ) : Except ε α × σ := x.run.run s

/-- A program that works on a part of the state. -/
def zoom (view : τ → σ) (put : σ → τ → τ) (x : Prog σ ε α) : Prog τ ε α :=
  ExceptT.mk fun s => ((exec x (view s)).1, put (exec x (view s)).2 s)

/-- From `P` the program returns in `Q` or raises in `E`. -/
structure Triple (P : σ → Prop) (x : Prog σ ε α) (Q : α → σ → Prop) (E : ε → σ → Prop) :
    Prop where
  run : ∀ s, P s → match exec x s with
    | (.ok a, s') => Q a s'
    | (.error e, s') => E e s'

section Exec

variable {x : Prog σ ε α} {f : α → Prog σ ε β} {s s' : σ} {a : α} {e : ε}

theorem exec_bind_of_ok (h : exec x s = (.ok a, s')) : exec (x >>= f) s = exec (f a) s' := by
  simp only [exec] at h ⊢
  rw [ExceptT.run_bind, StateT.run_bind, h]
  rfl

theorem exec_bind_of_error (h : exec x s = (.error e, s')) :
    exec (x >>= f) s = (.error e, s') := by
  simp only [exec] at h ⊢
  rw [ExceptT.run_bind, StateT.run_bind, h]
  rfl

theorem exec_tryCatch_of_ok {handler : ε → Prog σ ε α} (h : exec x s = (.ok a, s')) :
    exec (tryCatch x handler) s = (.ok a, s') := by
  simp only [exec] at h ⊢
  rw [ExceptT.run_tryCatch, StateT.run_bind, h]
  rfl

theorem exec_tryCatch_of_error {handler : ε → Prog σ ε α} (h : exec x s = (.error e, s')) :
    exec (tryCatch x handler) s = exec (handler e) s' := by
  simp only [exec] at h ⊢
  rw [ExceptT.run_tryCatch, StateT.run_bind, h]
  rfl

@[simp] theorem exec_modify_bind {g : σ → σ} {k : PUnit → Prog σ ε β} :
    exec (modify g >>= k) s = exec (k ⟨⟩) (g s) := rfl

@[simp] theorem exec_get_bind {k : σ → Prog σ ε β} : exec (get >>= k) s = exec (k s) s := rfl

theorem ofExcept_ok_bind {a : α} : (ofExcept (.ok a) >>= f : Prog σ ε β) = f a := rfl

/-- A program is what it does. -/
theorem prog_ext {y : Prog σ ε α} (h : ∀ s, exec x s = exec y s) : x = y := funext h

section Zoom

variable {view : τ → σ} {put : σ → τ → τ}

theorem exec_zoom (s : τ) :
    exec (zoom view put x) s = ((exec x (view s)).1, put (exec x (view s)).2 s) := rfl

/-- A program on a part of the state may be cut. -/
theorem zoom_bind (hview : ∀ s t, view (put s t) = s)
    (hput : ∀ s s' t, put s (put s' t) = put s t) :
    zoom view put (x >>= f) = zoom view put x >>= fun a => zoom view put (f a) := by
  refine prog_ext ?_
  intro s
  rw [exec_zoom]
  rcases hx : exec x (view s) with ⟨e | a, s'⟩
  · have hzoom : exec (zoom view put x) s = (.error e, put s' s) := by
      rw [exec_zoom, hx]
    rw [exec_bind_of_error hx, exec_bind_of_error hzoom]
  · have hzoom : exec (zoom view put x) s = (.ok a, put s' s) := by
      rw [exec_zoom, hx]
    rw [exec_bind_of_ok hx, exec_bind_of_ok hzoom, exec_zoom, hview, hput]

end Zoom

end Exec

namespace Triple

theorem of_ok {x : Prog σ ε α} (h : Triple P x Q E) {s s' : σ} {a : α} (hs : P s)
    (hexec : exec x s = (.ok a, s')) : Q a s' := by
  have hrun := h.run s hs
  rw [hexec] at hrun
  exact hrun

theorem of_error {x : Prog σ ε α} (h : Triple P x Q E) {s s' : σ} {e : ε} (hs : P s)
    (hexec : exec x s = (.error e, s')) : E e s' := by
  have hrun := h.run s hs
  rw [hexec] at hrun
  exact hrun

/-! ### The rules -/

theorem ret {a : α} (h : ∀ s, P s → Q a s) : Triple P (pure a : Prog σ ε α) Q E := ⟨h⟩

theorem raise {e : ε} (h : ∀ s, P s → E e s) : Triple P (throw e : Prog σ ε α) Q E := ⟨h⟩

theorem update {f : σ → σ} {R : PUnit → σ → Prop} (h : ∀ s, P s → R ⟨⟩ (f s)) :
    Triple P (modify f : Prog σ ε PUnit) R E := ⟨h⟩

/-- **Sequencing.**  An exception of the first part is one of the whole. -/
theorem seq {x : Prog σ ε α} {f : α → Prog σ ε β} {R : β → σ → Prop} (hx : Triple P x Q E)
    (hf : ∀ a, Triple (Q a) (f a) R E) : Triple P (x >>= f) R E := by
  refine ⟨?_⟩
  intro s hs
  rcases hresult : exec x s with ⟨e | a, s'⟩
  · rw [exec_bind_of_error hresult]
    exact hx.of_error hs hresult
  · rw [exec_bind_of_ok hresult]
    exact (hf a).run s' (hx.of_ok hs hresult)

/-- **Exception handlers.**  A handler starts where the exception left the state. -/
theorem recover {x : Prog σ ε α} {handler : ε → Prog σ ε α} (hx : Triple P x Q E')
    (hhandler : ∀ e, Triple (E' e) (handler e) Q E) : Triple P (tryCatch x handler) Q E := by
  refine ⟨?_⟩
  intro s hs
  rcases hresult : exec x s with ⟨e | a, s'⟩
  · rw [exec_tryCatch_of_error hresult]
    exact (hhandler e).run s' (hx.of_error hs hresult)
  · rw [exec_tryCatch_of_ok hresult]
    exact hx.of_ok hs hresult

/-- A conversion that succeeds. -/
theorem lift_ok {a : α} {f : α → Prog σ ε β} {R : β → σ → Prop} (hf : Triple P (f a) R E) :
    Triple P (ofExcept (.ok a) >>= f) R E := by
  rw [ofExcept_ok_bind]
  exact hf

/-- A conversion that fails. -/
theorem lift_error {e : ε} {f : α → Prog σ ε β} {R : β → σ → Prop} (h : ∀ s, P s → E e s) :
    Triple P (ofExcept (.error e) >>= f) R E :=
  ⟨h⟩

/-- A result that is already known. -/
theorem known (result : Except ε α) :
    Triple P (ofExcept result : Prog σ ε α) (fun _ => P) (fun _ => P) := by
  rcases result with e | a
  · exact raise fun _ h => h
  · exact ret fun _ h => h

/-- Code that is not reached. -/
theorem unreachable {x : Prog σ ε α} (h : ∀ s, ¬ P s) : Triple P x Q E :=
  ⟨fun s hs => absurd hs (h s)⟩

/-- Reading the state fixes what the rest may know of it. -/
theorem read {f : σ → Prog σ ε β} {R : β → σ → Prop}
    (hf : ∀ found, Triple (fun s => P s ∧ s = found) (f found) R E) :
    Triple P (get >>= f) R E := by
  exact ⟨fun s hs => (hf s).run s ⟨hs, rfl⟩⟩

theorem cond {c : Prop} [Decidable c] {x y : Prog σ ε α} (hx : c → Triple P x Q E)
    (hy : ¬ c → Triple P y Q E) : Triple P (if c then x else y) Q E := by
  split_ifs with h
  · exact hx h
  · exact hy h

theorem conseq {x : Prog σ ε α} (h : Triple P x Q E) (hP : ∀ s, P' s → P s)
    (hQ : ∀ a s, Q a s → Q' a s) (hE : ∀ e s, E e s → E' e s) : Triple P' x Q' E' := by
  refine ⟨?_⟩
  intro s hs
  rcases hresult : exec x s with ⟨e | a, s'⟩
  · exact hE e s' (h.of_error (hP s hs) hresult)
  · exact hQ a s' (h.of_ok (hP s hs) hresult)

/-- What holds however the program ends holds of its final state. -/
theorem final {x : Prog σ ε α} {I : σ → Prop} (h : Triple P x (fun _ => I) (fun _ => I)) {s : σ}
    (hs : P s) : I (exec x s).2 := by
  rcases hresult : exec x s with ⟨e | a, s'⟩
  · exact h.of_error hs hresult
  · exact h.of_ok hs hresult

end Triple

end Hoare
