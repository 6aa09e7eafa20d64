/-
Connected components, labelled by a depth first search.

The graph is given by the neighbours of a vertex (`adj`), of which some may not be there
(`present`).  `visit` labels what is unlabelled around a vertex, with a bound on its depth, and
gives up if a neighbour has another label; `components` goes through a list of vertices and starts
a new label at each that has none.

* `visit_spec`: a visit labels the unlabelled vertices it can reach, and leaves no labelled vertex
  with an unlabelled neighbour.
* `components_spec`: two vertices have one label exactly if they are connected, and the labels are
  the numbers below their count.
-/
import Mathlib.Logic.Function.Basic
import Mathlib.Logic.Relation
import Mathlib.Data.List.Nodup

namespace Components

variable {V : Type*} [DecidableEq V] (present : V → Bool) (adj : V → List V)

/-- The label of a vertex, if it has one. -/
abbrev Labels (V : Type*) := V → Option ℕ

/-- The loop over the neighbours; `rec` is the visit of a neighbour that just got the label. -/
def explore (c : ℕ) (rec : V → Labels V → Option (Labels V)) :
    List V → Labels V → Option (Labels V)
  | [], L => some L
  | u :: us, L =>
    if present u then
      match L u with
      | some d => if d = c then explore c rec us L else none
      | none => (rec u (Function.update L u (some c))).bind (explore c rec us)
    else explore c rec us L

/-- The visit of a vertex with the label `c`. -/
def visit (c : ℕ) : ℕ → V → Labels V → Option (Labels V)
  | 0, _, _ => none
  | fuel + 1, v, L => explore present c (visit c fuel) (adj v) L

/-- Labels for the vertices of a list, from `count` on. -/
def components (fuel : ℕ) : List V → ℕ → Labels V → Option (Labels V × ℕ)
  | [], count, L => some (L, count)
  | v :: vs, count, L =>
    match L v with
    | some _ => components fuel vs count L
    | none => (visit present adj count fuel v (Function.update L v (some count))).bind
        (components fuel vs (count + 1))

/-- A step between neighbours that are there. -/
def Step (x y : V) : Prop := present x ∧ present y ∧ y ∈ adj x

/-- Vertices that are connected. -/
abbrev Reaches : V → V → Prop := Relation.ReflTransGen (Step present adj)

end Components

namespace Components

section Labels

variable {V : Type*} {present : V → Bool} {adj : V → List V} {c : ℕ} {L L' L'' : Labels V} {x : V}

/-- Labels are only added. -/
def Extends (L L' : Labels V) : Prop := ∀ x d, L x = some d → L' x = some d

theorem Extends.refl (L : Labels V) : Extends L L := fun _ _ h => h

theorem Extends.trans (h : Extends L L') (h' : Extends L' L'') : Extends L L'' :=
  fun x d hx => h' x d (h x d hx)

theorem Extends.ne_none (h : Extends L L') (hx : L x ≠ none) : L' x ≠ none := by
  obtain ⟨d, hd⟩ := Option.ne_none_iff_exists'.mp hx
  rw [h x d hd]
  simp

/-- How many vertices of a list have no label. -/
def unlabelled (nodes : List V) (L : Labels V) : ℕ := nodes.countP fun x => L x = none

theorem Extends.unlabelled_le {nodes : List V} (h : Extends L L') :
    unlabelled nodes L' ≤ unlabelled nodes L := by
  refine List.countP_mono_left fun x _ hx => ?_
  simp only [decide_eq_true_eq] at hx ⊢
  by_contra hne
  exact h.ne_none hne hx

/-- No vertex that has the label `c`, or may still get it, has a neighbour with another one. -/
def Apart (present : V → Bool) (adj : V → List V) (c : ℕ) (L : Labels V) : Prop :=
  ∀ x, present x → L x = none ∨ L x = some c → ∀ u ∈ adj x, ∀ d, L u = some d → d = c

/-- What the visit of a vertex does: it adds labels `c`, to vertices that can be reached from it,
and leaves none of these with an unlabelled neighbour. -/
structure Visited (present : V → Bool) (adj : V → List V) (c : ℕ) (v : V) (L L' : Labels V) :
    Prop where
  extend : Extends L L'
  new {x : V} {d : ℕ} : L x = none → L' x = some d → d = c ∧ Reaches present adj v x
  closed {x : V} : L x = none → L' x ≠ none → ∀ u ∈ adj x, present u → L' u ≠ none
  apart : Apart present adj c L'

theorem Visited.refl (h : Apart present adj c L) (v : V) : Visited present adj c v L L where
  extend := .refl L
  new hnone hsome := by
    rw [hnone] at hsome
    cases hsome
  closed hnone hne := absurd hnone hne
  apart := h

/-- Some whole components are labelled, with the numbers below `count`. -/
structure Begun (present : V → Bool) (adj : V → List V) (count : ℕ) (L : Labels V) : Prop where
  here {x : V} {d : ℕ} : L x = some d → present x
  closed {x u : V} {d : ℕ} : L x = some d → u ∈ adj x → present u → L u = some d
  lt {x : V} {d : ℕ} : L x = some d → d < count
  used {d : ℕ} : d < count → ∃ x, L x = some d
  joined {x y : V} {d : ℕ} : L x = some d → L y = some d → Reaches present adj x y

theorem Reaches.symm (hsymm : ∀ x y, y ∈ adj x → x ∈ adj y) {x y : V}
    (h : Reaches present adj x y) : Reaches present adj y x := by
  induction h with
  | refl => exact .refl
  | tail _ hstep ih => exact .head ⟨hstep.2.1, hstep.1, hsymm _ _ hstep.2.2⟩ ih

theorem Reaches.here {x y : V} (h : Reaches present adj x y) (hx : present x) : present y := by
  induction h with
  | refl => exact hx
  | tail _ hstep _ => exact hstep.2.1

end Labels

variable {V : Type*} [DecidableEq V] {present : V → Bool} {adj : V → List V} {c : ℕ}
  {L L' L'' : Labels V} {x u v : V} {nodes : List V}

theorem extends_update (hu : L u = none) (d : ℕ) : Extends L (Function.update L u (some d)) := by
  intro x d' hx
  have hxu : x ≠ u := by
    rintro rfl
    rw [hu] at hx
    cases hx
  rw [Function.update_of_ne hxu, hx]

theorem unlabelled_update (hu : u ∈ nodes) (hnone : L u = none) (d : ℕ) :
    unlabelled nodes (Function.update L u (some d)) < unlabelled nodes L := by
  obtain ⟨before, after, rfl⟩ := List.append_of_mem hu
  have hle : ∀ l : List V, unlabelled l (Function.update L u (some d)) ≤ unlabelled l L :=
    fun l => (extends_update hnone d).unlabelled_le
  have h₁ := hle before
  have h₂ := hle after
  simp only [unlabelled, List.countP_append, List.countP_cons, Function.update_self, hnone] at *
  simp
  omega

theorem Apart.update (h : Apart present adj c L) (hu : L u = none) :
    Apart present adj c (Function.update L u (some c)) := by
  intro x hpresent hx w hw d hd
  have hx' : L x = none ∨ L x = some c := by
    by_cases hxu : x = u
    · rw [hxu]
      exact .inl hu
    · rwa [Function.update_of_ne hxu] at hx
  by_cases hwu : w = u
  · rw [hwu, Function.update_self] at hd
    exact (Option.some.inj hd).symm
  · rw [Function.update_of_ne hwu] at hd
    exact h x hpresent hx' w hw d hd

/-- A neighbour is labelled and visited, and then come the others. -/
theorem Visited.trans (hu : L u = none) (hstep : Step present adj v u)
    (h : Visited present adj c u (Function.update L u (some c)) L')
    (hadj : ∀ w ∈ adj u, present w → L' w ≠ none) (h' : Visited present adj c v L' L'') :
    Visited present adj c v L L'' where
  extend := ((extends_update hu c).trans h.extend).trans h'.extend
  new := by
    intro x d hnone hsome
    by_cases hx : L' x = none
    · exact h'.new hx hsome
    obtain ⟨d', hd'⟩ := Option.ne_none_iff_exists'.mp hx
    obtain rfl : d' = d := Option.some.inj ((h'.extend x d' hd').symm.trans hsome)
    by_cases hxu : x = u
    · subst hxu
      have hc := h.extend x c (Function.update_self ..)
      exact ⟨Option.some.inj (hd'.symm.trans hc), .single hstep⟩
    · have hnone' : Function.update L u (some c) x = none := by
        rw [Function.update_of_ne hxu, hnone]
      obtain ⟨hc, hreach⟩ := h.new hnone' hd'
      exact ⟨hc, .head hstep hreach⟩
  closed := by
    intro x hnone hsome w hw hpresent
    by_cases hx : L' x = none
    · exact h'.closed hx hsome w hw hpresent
    refine h'.extend.ne_none ?_
    by_cases hxu : x = u
    · subst hxu
      exact hadj w hw hpresent
    · exact h.closed (by rw [Function.update_of_ne hxu, hnone]) hx w hw hpresent
  apart := h'.apart

/-- What is asked of the visits of neighbours, for the bound `fuel` on their depth. -/
def Visits (present : V → Bool) (adj : V → List V) (nodes : List V) (c fuel : ℕ)
    (rec : V → Labels V → Option (Labels V)) : Prop :=
  ∀ v L, unlabelled nodes L < fuel → present v → L v = some c → Apart present adj c L →
    ∃ L', rec v L = some L' ∧ Visited present adj c v L L' ∧
      ∀ u ∈ adj v, present u → L' u ≠ none

/-- The loop over the neighbours, given what the visit of each of them does. -/
theorem explore_spec (hnodes : ∀ x, present x → x ∈ nodes) {fuel : ℕ}
    {rec : V → Labels V → Option (Labels V)} (hrec : Visits present adj nodes c fuel rec)
    (hpresent : present v) {us : List V} (hus : us ⊆ adj v)
    (hfuel : unlabelled nodes L < fuel + 1) (hv : L v = some c) (hapart : Apart present adj c L) :
    ∃ L', explore present c rec us L = some L' ∧ Visited present adj c v L L' ∧
      ∀ u ∈ us, present u → L' u ≠ none := by
  induction us generalizing L with
  | nil => exact ⟨L, rfl, .refl hapart v, fun u hu => absurd hu List.not_mem_nil⟩
  | cons u us ih =>
    have huv : u ∈ adj v := hus (by simp)
    have hus' : us ⊆ adj v := fun w hw => hus (by simp [hw])
    rw [explore]
    by_cases hu : present u
    · rw [if_pos hu]
      cases hlabel : L u with
      | some d =>
        -- `v` has the label `c`, so a neighbour has no other one
        dsimp only
        rw [if_pos (hapart v hpresent (.inr hv) u huv d hlabel)]
        obtain ⟨L', hrun, hvisited, hall⟩ := ih hus' hfuel hv hapart
        refine ⟨L', hrun, hvisited, fun w hw hpw => ?_⟩
        rcases List.mem_cons.mp hw with rfl | hw
        · exact hvisited.extend.ne_none (by rw [hlabel]; simp)
        · exact hall w hw hpw
      | none =>
        -- the label of `u` makes room for the depth of its visit
        have hless := unlabelled_update (hnodes u hu) hlabel c
        obtain ⟨L₁, hrun₁, hvisited₁, hall₁⟩ := hrec u _ (by omega) hu
          (Function.update_self ..) (hapart.update hlabel)
        have hle : unlabelled nodes L₁ ≤ _ := hvisited₁.extend.unlabelled_le
        have hv₁ := hvisited₁.extend v c (extends_update hlabel c v c hv)
        obtain ⟨L₂, hrun₂, hvisited₂, hall₂⟩ := ih hus' (by omega) hv₁ hvisited₁.apart
        have hvisited : Visited present adj c v L L₂ :=
          Visited.trans hlabel ⟨hpresent, hu, huv⟩ hvisited₁ hall₁ hvisited₂
        refine ⟨L₂, by simp [hrun₁, hrun₂], hvisited, fun w hw hpw => ?_⟩
        rcases List.mem_cons.mp hw with rfl | hw
        · refine hvisited₂.extend.ne_none ?_
          rw [hvisited₁.extend w c (Function.update_self ..)]
          simp
        · exact hall₂ w hw hpw
    · rw [if_neg hu]
      obtain ⟨L', hrun, hvisited, hall⟩ := ih hus' hfuel hv hapart
      refine ⟨L', hrun, hvisited, fun w hw hpw => ?_⟩
      rcases List.mem_cons.mp hw with rfl | hw
      · exact absurd hpw hu
      · exact hall w hw hpw

/-- **A visit.**  It needs no more depth than there are vertices without a label. -/
theorem visit_spec (hnodes : ∀ x, present x → x ∈ nodes) (c fuel : ℕ) :
    Visits present adj nodes c fuel (visit present adj c fuel) := by
  induction fuel with
  | zero =>
    intro v L hfuel
    exact absurd hfuel (Nat.not_lt_zero _)
  | succ fuel ih =>
    intro v L hfuel hpresent hv hapart
    rw [visit]
    exact explore_spec hnodes ih hpresent (fun _ h => h) hfuel hv hapart

/-- A label after a visit is an old one, or the new one of a vertex that `v` reaches. -/
theorem Visited.old_or_new {d : ℕ} (hnone : L v = none)
    (h : Visited present adj c v (Function.update L v (some c)) L') (hd : L' x = some d) :
    L x = some d ∨ L x = none ∧ d = c ∧ Reaches present adj v x := by
  cases hx : L x with
  | some d' =>
    have hext := (extends_update hnone c).trans h.extend
    exact .inl (by rw [Option.some.inj ((hext x d' hx).symm.trans hd)])
  | none =>
    refine .inr ⟨rfl, ?_⟩
    by_cases hxv : x = v
    · subst hxv
      have hc := h.extend x c (Function.update_self ..)
      exact ⟨Option.some.inj (hd.symm.trans hc), .refl⟩
    · exact h.new (by rw [Function.update_of_ne hxv, hx]) hd

/-- A new component. -/
theorem Begun.visited (hsymm : ∀ x y, y ∈ adj x → x ∈ adj y) {count : ℕ}
    (h : Begun present adj count L) (hv : present v) (hnone : L v = none)
    (hvisited : Visited present adj count v (Function.update L v (some count)) L')
    (hadj : ∀ u ∈ adj v, present u → L' u ≠ none) : Begun present adj (count + 1) L' := by
  have hext : Extends L L' := (extends_update hnone count).trans hvisited.extend
  refine ⟨?_, ?_, ?_, ?_, ?_⟩
  · intro x d hd
    rcases hvisited.old_or_new hnone hd with hx | ⟨-, -, hreach⟩
    · exact h.here hx
    · exact hreach.here hv
  · intro x u d hd hu hpu
    rcases hvisited.old_or_new hnone hd with hx | ⟨hx, rfl, hreach⟩
    · exact hext u d (h.closed hx hu hpu)
    · have hlabel : L' u ≠ none := by
        by_cases hxv : x = v
        · subst hxv
          exact hadj u hu hpu
        · refine hvisited.closed ?_ (by rw [hd]; simp) u hu hpu
          rw [Function.update_of_ne hxv, hx]
      obtain ⟨d', hd'⟩ := Option.ne_none_iff_exists'.mp hlabel
      rcases hvisited.old_or_new hnone hd' with hLu | ⟨-, rfl, -⟩
      · -- the old component of `u` would have had `x` in it
        have hx' := h.closed hLu (hsymm x u hu) (hreach.here hv)
        rw [hx] at hx'
        cases hx'
      · exact hd'
  · intro x d hd
    rcases hvisited.old_or_new hnone hd with hx | ⟨-, rfl, -⟩
    · exact Nat.lt_succ_of_lt (h.lt hx)
    · exact Nat.lt_succ_self _
  · intro d hd
    rcases Nat.lt_succ_iff_lt_or_eq.mp hd with hd | rfl
    · obtain ⟨x, hx⟩ := h.used hd
      exact ⟨x, hext x d hx⟩
    · exact ⟨v, hvisited.extend v d (Function.update_self ..)⟩
  · intro x y d hx hy
    -- an old label is below the new one
    rcases hvisited.old_or_new hnone hx with hLx | ⟨-, rfl, hvx⟩
    · rcases hvisited.old_or_new hnone hy with hLy | ⟨-, rfl, -⟩
      · exact h.joined hLx hLy
      · exact absurd (h.lt hLx) (Nat.lt_irrefl _)
    · rcases hvisited.old_or_new hnone hy with hLy | ⟨-, -, hvy⟩
      · exact absurd (h.lt hLy) (Nat.lt_irrefl _)
      · exact (hvx.symm hsymm).trans hvy

theorem Begun.apart (hsymm : ∀ x y, y ∈ adj x → x ∈ adj y) {count : ℕ}
    (h : Begun present adj count L) (hnone : L v = none) :
    Apart present adj count (Function.update L v (some count)) := by
  intro x hpx hx u hu d hd
  have hx' : L x = none := by
    by_cases hxv : x = v
    · rw [hxv, hnone]
    · rw [Function.update_of_ne hxv] at hx
      exact hx.resolve_right fun hx => Nat.lt_irrefl _ (h.lt hx)
  by_cases huv : u = v
  · rw [huv, Function.update_self] at hd
    exact (Option.some.inj hd).symm
  · rw [Function.update_of_ne huv] at hd
    have hxd := h.closed hd (hsymm x u hu) hpx
    rw [hx'] at hxd
    cases hxd

theorem begun_run (hsymm : ∀ x y, y ∈ adj x → x ∈ adj y) (hnodes : ∀ x, present x → x ∈ nodes)
    {fuel count : ℕ} (hfuel : nodes.length ≤ fuel) {vs : List V} (hvs : ∀ v ∈ vs, present v)
    (h : Begun present adj count L) :
    ∃ L' n, components present adj fuel vs count L = some (L', n) ∧ Begun present adj n L' ∧
      Extends L L' ∧ ∀ v ∈ vs, L' v ≠ none := by
  induction vs generalizing count L with
  | nil => exact ⟨L, count, rfl, h, .refl L, fun v hv => absurd hv List.not_mem_nil⟩
  | cons v vs ih =>
    have hvs' : ∀ w ∈ vs, present w := fun w hw => hvs w (by simp [hw])
    have hv : present v := hvs v (by simp)
    rw [components]
    cases hnone : L v with
    | some d =>
      -- its component is there already
      obtain ⟨L', n, hrun, hbegun, hext, hall⟩ := ih hvs' h
      refine ⟨L', n, hrun, hbegun, hext, fun w hw => ?_⟩
      rcases List.mem_cons.mp hw with rfl | hw
      · rw [hext w d hnone]
        simp
      · exact hall w hw
    | none =>
      -- the visit labels the whole component of `v`, and none that were begun before
      have hless : unlabelled nodes (Function.update L v (some count)) < fuel :=
        Nat.lt_of_lt_of_le (unlabelled_update (hnodes v hv) hnone count)
          (Nat.le_trans List.countP_le_length hfuel)
      obtain ⟨L₁, hrun₁, hvisited, hadj⟩ := visit_spec hnodes count fuel v _ hless hv
        (Function.update_self ..) (h.apart hsymm hnone)
      have hbegun₁ := h.visited hsymm hv hnone hvisited hadj
      obtain ⟨L₂, n, hrun₂, hbegun₂, hext₂, hall⟩ := ih hvs' hbegun₁
      refine ⟨L₂, n, by simp [hrun₁, hrun₂], hbegun₂,
        ((extends_update hnone count).trans hvisited.extend).trans hext₂, fun w hw => ?_⟩
      rcases List.mem_cons.mp hw with rfl | hw
      · refine hext₂.ne_none ?_
        rw [hvisited.extend w count (Function.update_self ..)]
        simp
      · exact hall w hw

/-- **Components.**  From no labels, over a list of all vertices: every vertex gets a label, two get
the same exactly if they are connected, and the labels are the numbers below their count. -/
theorem components_spec (hsymm : ∀ x y, y ∈ adj x → x ∈ adj y) {fuel : ℕ}
    (hnodes : ∀ x, present x ↔ x ∈ nodes) (hfuel : nodes.length ≤ fuel) :
    ∃ L n, components present adj fuel nodes 0 (fun _ => none) = some (L, n) ∧
      (∀ x ∈ nodes, ∃ d < n, L x = some d) ∧ (∀ x d, L x = some d → x ∈ nodes) ∧
      (∀ x ∈ nodes, ∀ y ∈ nodes, L x = L y ↔ Reaches present adj x y) ∧
      ∀ d < n, ∃ x ∈ nodes, L x = some d := by
  have hstart : Begun present adj 0 (fun _ => none) := by
    constructor <;> simp
  obtain ⟨L, n, hrun, hbegun, -, hall⟩ := begun_run hsymm (fun x hx => (hnodes x).mp hx) hfuel
    (fun v hv => (hnodes v).mpr hv) hstart
  refine ⟨L, n, hrun, ?_, ?_, ?_, ?_⟩
  · intro x hx
    obtain ⟨d, hd⟩ := Option.ne_none_iff_exists'.mp (hall x hx)
    exact ⟨d, hbegun.lt hd, hd⟩
  · intro x d hd
    exact (hnodes x).mp (hbegun.here hd)
  · intro x hx y hy
    constructor
    · intro heq
      obtain ⟨d, hd⟩ := Option.ne_none_iff_exists'.mp (hall x hx)
      exact hbegun.joined hd (heq ▸ hd)
    · intro hreach
      obtain ⟨d, hd⟩ := Option.ne_none_iff_exists'.mp (hall x hx)
      have hy' : L y = some d := by
        clear hy
        induction hreach with
        | refl => exact hd
        | tail _ hstep ih => exact hbegun.closed ih hstep.2.2 hstep.2.1
      rw [hd, hy']
  · intro d hd
    obtain ⟨x, hx⟩ := hbegun.used hd
    exact ⟨x, (hnodes x).mp (hbegun.here hx), hx⟩

end Components
