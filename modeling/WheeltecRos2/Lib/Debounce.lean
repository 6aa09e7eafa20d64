/-
Counters that filter readings.

Such a counter goes up with every reading that counts and goes back to 0 with a contrary
one.  A reading that is neither leaves it alone, so `n` readings counted are not the last
`n` readings: they are exactly if nothing else is among these (`steady_iff`).
-/
import Mathlib.Data.List.DropRight

namespace Debounce

/-- What a reading is to a counter. -/
inductive Reading
  | counted
  | contrary
  | other
  deriving DecidableEq

/-- The counter after a reading. -/
def next (count : ℕ) : Reading → ℕ
  | .counted => count + 1
  | .contrary => 0
  | .other => count

/-- Since the last contrary reading at least `count` were counted. -/
def Backs (history : List Reading) (count : ℕ) : Prop :=
  ∃ recent, recent <:+ history ∧ .contrary ∉ recent ∧ count ≤ recent.count .counted

/-- The last `n` readings counted. -/
def Steady (n : ℕ) (history : List Reading) : Prop := List.replicate n .counted <:+ history

instance (n : ℕ) (history : List Reading) : Decidable (Steady n history) :=
  inferInstanceAs (Decidable (_ <:+ _))

variable {history : List Reading} {count n : ℕ} {reading : Reading}

theorem backs_zero (history : List Reading) : Backs history 0 :=
  ⟨[], List.nil_suffix, List.not_mem_nil, Nat.zero_le _⟩

theorem Backs.mono (h : Backs history count) (hle : n ≤ count) : Backs history n := by
  obtain ⟨recent, hsuffix, hnone, hcount⟩ := h
  exact ⟨recent, hsuffix, hnone, hle.trans hcount⟩

/-- **The counter is backed after every reading.** -/
theorem Backs.next (h : Backs history count) (reading : Reading) :
    Backs (history ++ [reading]) (next count reading) := by
  obtain ⟨recent, ⟨earlier, rfl⟩, hnone, hcount⟩ := h
  cases reading with
  | contrary => exact backs_zero _
  | counted =>
    refine ⟨recent ++ [.counted], ⟨earlier, (List.append_assoc _ _ _).symm⟩, ?_, ?_⟩
    · simpa using hnone
    · rw [List.count_append, List.count_singleton_self]
      exact Nat.succ_le_succ hcount
  | other =>
    refine ⟨recent ++ [.other], ⟨earlier, (List.append_assoc _ _ _).symm⟩, ?_, ?_⟩
    · simpa using hnone
    · rw [List.count_append]
      exact hcount.trans (Nat.le_add_right _ _)

theorem steady_append_counted : Steady (n + 1) (history ++ [.counted]) ↔ Steady n history := by
  rw [Steady, Steady, List.replicate_succ']
  exact List.suffix_append_self_iff

/-- **Which counts are steady.**  Among the last `n` readings there is none that the counter
ignores. -/
theorem Backs.steady_iff (h : Backs history count) (hn : n ≤ count) :
    Steady n history ↔ .other ∉ history.rtake n := by
  obtain ⟨recent, hrecent, hnone, hcount⟩ := h
  have hlength : n ≤ recent.length := (hn.trans hcount).trans List.count_le_length
  have hlast : history.rtake n <:+ recent := by
    refine List.suffix_of_suffix_length_le (List.drop_suffix _ _) hrecent ?_
    rw [List.rtake, List.length_drop]
    omega
  have hn' : (history.rtake n).length = n := by
    have hle := hrecent.length_le
    rw [List.rtake, List.length_drop]
    omega
  constructor
  · intro hsteady hother
    have hsuffix : history.rtake n <:+ List.replicate n .counted :=
      List.suffix_of_suffix_length_le (List.drop_suffix _ _) hsteady (by simp [hn'])
    cases List.eq_of_mem_replicate (hsuffix.subset hother)
  · intro hother
    have heq : history.rtake n = List.replicate n .counted := by
      refine List.eq_replicate_iff.mpr ⟨hn', ?_⟩
      intro reading hreading
      cases reading with
      | counted => rfl
      | contrary => exact absurd (hlast.subset hreading) hnone
      | other => exact absurd hreading hother
    rw [Steady, ← heq]
    exact List.drop_suffix _ _

end Debounce
