/-
Consecutive intervals on a line.

A list of segments `Abut`s from `t` if the first starts at `t` and each next
one where the one before stops.  Then their interiors are pairwise disjoint
(`Abut.pairwise_disjoint`) and together they fill the line from `t` to the last
stop (`Abut.covers`).  `Restarts` is what an accumulator produces that
sometimes forgets to move its start forward; it abuts if no forgotten stretch is
harmful (`Restarts.abut`), and none is if its interiors are disjoint
(`Restarts.harmless`).
-/
import Mathlib.Data.Set.Lattice
import Mathlib.Order.CompletePartialOrder
import Mathlib.Order.Interval.Set.Basic
import Mathlib.Tactic.Common

namespace Intervals

/-- A closed stretch of the line. -/
@[ext]
structure Segment (K : Type) where
  start : K
  stop : K

variable {K : Type} [LinearOrder K]

/-- Each segment starts where the one before stops, the first at `t`. -/
def Abut (t : K) : List (Segment K) → Prop
  | [] => True
  | g :: gs => g.start = t ∧ t ≤ g.stop ∧ Abut g.stop gs

/-- Where the last segment stops, or `t` without segments. -/
def lastStop (t : K) : List (Segment K) → K
  | [] => t
  | g :: gs => lastStop g.stop gs

/-- The interiors of two segments do not meet. -/
def Apart (a b : Segment K) : Prop := Disjoint (Set.Ioo a.start a.stop) (Set.Ioo b.start b.stop)

/-- The points of all segments. -/
def covered (gs : List (Segment K)) : Set K := {x | ∃ g ∈ gs, g.start ≤ x ∧ x ≤ g.stop}

theorem Abut.le_start {t : K} {gs : List (Segment K)} (h : Abut t gs) :
    ∀ g ∈ gs, t ≤ g.start := by
  induction gs generalizing t with
  | nil => simp
  | cons g gs ih =>
    obtain ⟨hstart, hle, hrest⟩ := h
    intro g' hg'
    rcases List.mem_cons.mp hg' with rfl | hg'
    · exact le_of_eq hstart.symm
    · exact le_trans hle (ih hrest g' hg')

theorem Abut.le_lastStop {t : K} {gs : List (Segment K)} (h : Abut t gs) : t ≤ lastStop t gs := by
  induction gs generalizing t with
  | nil => exact le_refl t
  | cons g gs ih => exact le_trans h.2.1 (ih h.2.2)

theorem Abut.pairwise_disjoint {t : K} {gs : List (Segment K)} (h : Abut t gs) :
    gs.Pairwise Apart := by
  induction gs generalizing t with
  | nil => exact .nil
  | cons g gs ih =>
    refine .cons ?_ (ih h.2.2)
    intro g' hg'
    have hle := h.2.2.le_start g' hg'
    rw [Apart, Set.disjoint_left]
    rintro x ⟨-, hx⟩ ⟨hx', -⟩
    exact absurd (lt_of_le_of_lt hle hx') (not_lt_of_gt hx)

theorem Abut.covers {t : K} {gs : List (Segment K)} (h : Abut t gs) (hne : gs ≠ []) :
    covered gs = Set.Icc t (lastStop t gs) := by
  induction gs generalizing t with
  | nil => exact absurd rfl hne
  | cons g gs ih =>
    obtain ⟨hstart, hle, hrest⟩ := h
    ext x
    simp only [covered, List.mem_cons, exists_eq_or_imp, Set.mem_ofPred_eq, Set.mem_Icc, lastStop]
    rw [hstart]
    by_cases hgs : gs = []
    · subst hgs
      simp [lastStop]
    · have hcov : (∃ g' ∈ gs, g'.start ≤ x ∧ x ≤ g'.stop) ↔
          g.stop ≤ x ∧ x ≤ lastStop g.stop gs := by
        have := ih hrest hgs
        exact Set.ext_iff.mp this x
      rw [hcov]
      have hlast := hrest.le_lastStop
      constructor
      · rintro (⟨h1, h2⟩ | ⟨h1, h2⟩)
        · exact ⟨h1, le_trans h2 hlast⟩
        · exact ⟨le_trans hle h1, h2⟩
      · rintro ⟨h1, h2⟩
        rcases le_total x g.stop with hx | hx
        · exact .inl ⟨h1, hx⟩
        · exact .inr ⟨hx, h2⟩

/-- A segment and whether its stop was kept as the next start. -/
structure Marked (K : Type) extends Segment K where
  kept : Bool

/-- The next segment starts at the stop of this one if it was kept, and at the
same start again if not; stops never go back. -/
def Restarts (t : K) : List (Marked K) → Prop
  | [] => True
  | g :: gs =>
    g.start = t ∧ t ≤ g.stop ∧ (∀ g' ∈ gs, g.stop ≤ g'.stop) ∧
      Restarts (if g.kept then g.stop else t) gs

/-- Every segment whose stop was not kept, the last one apart, is a point. -/
def Harmless (gs : List (Marked K)) : Prop :=
  ∀ g ∈ gs.dropLast, g.kept = false → g.start = g.stop

instance (gs : List (Marked K)) : Decidable (Harmless gs) :=
  inferInstanceAs (Decidable (∀ g ∈ gs.dropLast, g.kept = false → g.start = g.stop))

theorem Restarts.abut {t : K} {gs : List (Marked K)} (h : Restarts t gs) (hh : Harmless gs) :
    Abut t (gs.map Marked.toSegment) := by
  induction gs generalizing t with
  | nil => trivial
  | cons g gs ih =>
    obtain ⟨hstart, hle, hstops, hrest⟩ := h
    refine ⟨hstart, hle, ?_⟩
    cases gs with
    | nil => trivial
    | cons g' gs =>
      have hnext : (if g.kept then g.stop else t) = g.stop := by
        cases hk : g.kept with
        | true => simp
        | false =>
          have := hh g (by simp) hk
          simp [← hstart, this]
      rw [hnext] at hrest
      exact ih hrest fun g'' hg'' => hh g'' (by simp [hg''])

theorem Restarts.harmless [DenselyOrdered K] {t : K} {gs : List (Marked K)} (h : Restarts t gs)
    (hd : (gs.map Marked.toSegment).Pairwise Apart) : Harmless gs := by
  induction gs generalizing t with
  | nil => simp [Harmless]
  | cons g gs ih =>
    obtain ⟨hstart, hle, hstops, hrest⟩ := h
    obtain ⟨hhead, htail⟩ := List.pairwise_cons.mp hd
    cases gs with
    | nil => simp [Harmless]
    | cons g' gs =>
      intro g'' hg'' hk
      rcases List.mem_cons.mp (by simpa using hg'') with rfl | hg''
      · -- A second segment from the same start meets this one unless it is a point.
        by_contra hne
        have hlt : g''.start < g''.stop := lt_of_le_of_ne (hstart ▸ hle) hne
        obtain ⟨x, hx1, hx2⟩ := exists_between hlt
        have hsame : g'.start = g''.start := by
          rw [hrest.1, hk, hstart]
          simp
        have hstop := hstops g' (by simp)
        have hapart := hhead g'.toSegment (by simp)
        rw [Apart, Set.disjoint_left] at hapart
        refine hapart ⟨hx1, hx2⟩ ⟨?_, lt_of_lt_of_le hx2 hstop⟩
        rw [hsame]
        exact hx1
      · exact ih hrest htail g'' hg'' hk

end Intervals
