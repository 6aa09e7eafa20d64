/-
How far a pass over the nodes gets, and what that means for a shutdown and after a crash.

A pass stops at the first node that does not take its transition (`changeStates_split`), and the
passes of one command do not wait for each other.  Servers are taken to do what they are asked for
(`Obedient`), whatever their state is.

* `shutdown_finalized_iff`: a shutdown always reports success.  It finalizes all servers exactly
  if the list in the order of the shutdown is cut into three parts, for its three passes.
* `recovery_iff`: after a crash the manager brings the system up again exactly if no server that
  survived is listed before one that crashed: the reset of the others stops at the first dead one.
-/
import WheeltecRos2.Lifecycle.Manager
import Mathlib.Data.List.Nodup

namespace Lifecycle

/-- A server in state `q` answers a request for `t` with the goal. -/
def Ready (t : Transition) (q : Option State) : Prop := q = some t.source ∨ q = some t.goal

instance (t : Transition) (q : Option State) : Decidable (Ready t q) :=
  inferInstanceAs (Decidable (_ ∨ _))

/-- A pass goes on after a server in state `q`. -/
def GoesOn (hard : Bool) (t : Transition) (q : Option State) : Prop :=
  Ready t q ∨ hard ∧ q.isSome

instance (hard : Bool) (t : Transition) (q : Option State) : Decidable (GoesOn hard t q) :=
  inferInstanceAs (Decidable (_ ∨ _))

theorem goesOn_soft {t : Transition} {q : Option State} : GoesOn false t q ↔ Ready t q := by
  simp [GoesOn]

theorem goesOn_hard {t : Transition} {q : Option State} : GoesOn true t q ↔ q.isSome := by
  constructor
  · rintro ((rfl | rfl) | ⟨-, h⟩)
    · rfl
    · rfl
    · exact h
  · exact fun h => .inr ⟨rfl, h⟩

/-- Servers that do what they are asked for, and connect. -/
structure Obedient {ν : Type*} (e : Env ν) : Prop where
  reply (n : ν) (t : Transition) : e.reply n t = .lands t.goal
  formed (n : ν) : e.formed n

theorem obedient_obedient (ν : Type*) : Obedient (Manager.obedient ν) :=
  ⟨fun _ _ => rfl, fun _ => rfl⟩

namespace Manager

variable {ν : Type*} [DecidableEq ν] {c : Config ν} {e : Env ν} {t : Transition}
  {m m' : Manager ν} {n : ν} {ns : List ν} {hard : Bool}

theorem createBondConnection_obedient (he : Obedient e) :
    ∃ m', createBondConnection c e m n = (.changed, m') ∧ m'.node = m.node := by
  rw [createBondConnection]
  by_cases hnew : m.bonded n = false ∧ c.bondTimeout
  · rw [if_pos hnew, if_pos (he.formed n)]
    exact ⟨_, rfl, rfl⟩
  · rw [if_neg hnew]
    exact ⟨_, rfl, rfl⟩

theorem confirm_goal (he : Obedient e) :
    ∃ m', confirm c e m n t t.goal = (.changed, m') ∧ m'.node = m.node := by
  rw [confirm, if_pos rfl]
  split_ifs
  · exact createBondConnection_obedient he
  · exact ⟨_, rfl, rfl⟩
  · exact ⟨_, rfl, rfl⟩

/-- A request to an obedient server. -/
theorem changeStateForNode_obedient (he : Obedient e) (hclients : m.clients) :
    ∃ answer m', changeStateForNode c e t m n = some (answer, m') ∧
      (answer = .changed ↔ Ready t (m.node n)) ∧ (answer = .thrown ↔ m.node n = none) ∧
      (∀ k, m'.node k = if k = n ∧ Ready t (m.node n) then some t.goal else m.node k) := by
  rw [changeStateForNode, if_pos hclients]
  cases hn : m.node n with
  | none => exact ⟨_, _, rfl, by simp [Ready], by simp, by simp [Ready]⟩
  | some q =>
    dsimp only
    by_cases hsource : q = t.source
    · obtain ⟨m', hconfirm, hnode⟩ := confirm_goal (c := c) (t := t) (n := n)
        (m := { m with node := Function.update m.node n (some t.goal) }) he
      rw [if_pos hsource, he.reply]
      refine ⟨.changed, m', congrArg some hconfirm, by simp [Ready, hsource], by simp, ?_⟩
      intro k
      rw [hnode]
      show Function.update m.node n (some t.goal) k = _
      by_cases hk : k = n
      · rw [hk, if_pos ⟨rfl, .inl (by rw [hsource])⟩, Function.update_self]
      · rw [if_neg (fun h => hk h.1), Function.update_of_ne hk]
    · rw [if_neg hsource]
      by_cases hgoal : q = t.goal
      · subst hgoal
        obtain ⟨m', hconfirm, hnode⟩ := confirm_goal (c := c) (m := m) (t := t) (n := n) he
        refine ⟨.changed, m', congrArg some hconfirm, by simp [Ready], by simp, ?_⟩
        intro k
        rw [hnode]
        split_ifs with hk
        · rw [hk.1, hn]
        · rfl
      · have hready : ¬ Ready t (some q) := by simp [Ready, hsource, hgoal]
        exact ⟨.failed, m, by rw [confirm, if_neg hgoal], by simp [hready], by simp,
          by simp [hready]⟩

/-- A server that was ready is so at the goal, too. -/
theorem ready_congr (hnode : ∀ k, m'.node k =
    if k = n ∧ Ready t (m.node n) then some t.goal else m.node k) (k : ν) :
    Ready t (m'.node k) ↔ Ready t (m.node k) := by
  rw [hnode]
  split_ifs with hk
  · obtain ⟨rfl, hready⟩ := hk
    exact iff_of_true (.inr rfl) hready
  · exact Iff.rfl

theorem goesOn_congr (hnode : ∀ k, m'.node k =
    if k = n ∧ Ready t (m.node n) then some t.goal else m.node k) (k : ν) :
    GoesOn hard t (m'.node k) ↔ GoesOn hard t (m.node k) := by
  rw [GoesOn, GoesOn, ready_congr hnode, hnode]
  split_ifs with hk
  · obtain ⟨rfl, hready⟩ := hk
    exact iff_of_true (.inl hready) (.inl hready)
  · exact Iff.rfl

/-- A pass asks the first server of the list, and goes on or stops. -/
theorem changeStates_cons (he : Obedient e) (hclients : m.clients) (hard : Bool) (n : ν)
    (ns : List ν) :
    ∃ m' : Manager ν, m'.clients ∧
      changeStates c e t hard (n :: ns) m =
        (if GoesOn hard t (m.node n) then changeStates c e t hard ns m' else some (false, m')) ∧
      ∀ k, m'.node k = if k = n ∧ Ready t (m.node n) then some t.goal else m.node k := by
  obtain ⟨answer, m', hreq, hchanged, hthrown, hnode⟩ :=
    changeStateForNode_obedient (c := c) (t := t) (n := n) he hclients
  have hclients' : m'.clients := by
    obtain ⟨_, _, hreq', hmoves, -⟩ :=
      changeStateForNode_spec (c := c) (e := e) (t := t) (n := n) hclients
    rw [hreq] at hreq'
    cases hreq'
    exact hmoves.clients.trans hclients
  refine ⟨m', hclients', ?_, hnode⟩
  rw [changeStates, hreq]
  cases answer with
  | changed =>
    rw [if_pos (.inl (hchanged.mp rfl))]
    rfl
  | failed =>
    have hnot : ¬ Ready t (m.node n) := fun hready => absurd (hchanged.mpr hready) (by simp)
    cases hard with
    | true =>
      have halive : (m.node n).isSome := by
        rw [Option.isSome_iff_ne_none, ne_eq, ← hthrown]
        simp
      rw [if_pos (goesOn_hard.mpr halive)]
      rfl
    | false =>
      rw [if_neg (goesOn_soft.not.mpr hnot)]
      rfl
  | thrown =>
    rw [if_neg (by rw [hthrown.mp rfl]; simp [GoesOn, Ready])]
    rfl

/-- A pass over servers that take every request gets through `xs` and stops in front of `ys`. -/
structure Passed (hard : Bool) (t : Transition) (ns xs ys : List ν) (m m' : Manager ν) : Prop where
  split : ns = xs ++ ys
  through {n : ν} : n ∈ xs → GoesOn hard t (m.node n)
  stop {n : ν} : n ∈ ys.head? → ¬ GoesOn hard t (m.node n)
  node (n : ν) : m'.node n = if n ∈ xs ∧ Ready t (m.node n) then some t.goal else m.node n

/-- **A pass.**  It gets through a first part of the list and stops at the first server that is
not ready, or, if it is hard, at the first that is dead. -/
theorem changeStates_split (he : Obedient e) (hclients : m.clients) (hard : Bool) (ns : List ν) :
    ∃ xs ys ok m', changeStates c e t hard ns m = some (ok, m') ∧ (ok = true ↔ ys = []) ∧
      Passed hard t ns xs ys m m' := by
  induction ns generalizing m with
  | nil =>
    exact ⟨[], [], true, m, rfl, by simp, rfl, fun h => absurd h List.not_mem_nil,
      fun h => by simp at h, by simp⟩
  | cons n ns ih =>
    obtain ⟨m₁, hclients₁, hrun, hnode⟩ :=
      changeStates_cons (c := c) (t := t) he hclients hard n ns
    rw [hrun]
    by_cases hn : GoesOn hard t (m.node n)
    · -- the rest of the list is as ready as before
      obtain ⟨xs, ys, ok, m', hpass, hok, h⟩ := ih hclients₁
      rw [if_pos hn]
      refine ⟨n :: xs, ys, ok, m', hpass, hok, by rw [h.split]; rfl, ?_, ?_, ?_⟩
      · intro k hk
        rcases List.mem_cons.mp hk with rfl | hk
        · exact hn
        · exact (goesOn_congr hnode k).mp (h.through hk)
      · intro k hk
        exact (goesOn_congr hnode k).not.mp (h.stop hk)
      · intro k
        rw [h.node]
        simp only [ready_congr hnode]
        rw [hnode]
        by_cases hkn : k = n
        · subst hkn
          by_cases hready : Ready t (m.node k)
          · simp [hready]
          · simp [hready]
        · simp [hkn]
    · rw [if_neg hn]
      refine ⟨[], n :: ns, false, m₁, rfl, by simp, rfl, fun h => absurd h List.not_mem_nil, ?_, ?_⟩
      · rintro k ⟨⟩
        exact hn
      · intro k
        rw [hnode, if_neg (fun h => hn (.inl h.2)), if_neg (fun h => by simp at h)]

/-- Behind the servers it gets through a pass changes nothing. -/
theorem Passed.behind {xs ys : List ν} (h : Passed hard t ns xs ys m m') (hnodup : ns.Nodup)
    (hn : n ∈ ys) : m'.node n = m.node n := by
  rw [h.node, if_neg]
  rintro ⟨hn', -⟩
  rw [h.split, List.nodup_append] at hnodup
  exact hnodup.2.2 n hn' n hn rfl

/-! ### Shutdown -/

/-- A list that begins with elements that pass gets at least through these. -/
theorem prefix_of_split {α : Type*} {P : α → Prop} {xs ys us vs : List α}
    (h : xs ++ ys = us ++ vs) (hus : ∀ n ∈ us, P n) (hys : ∀ n ∈ ys.head?, ¬ P n) :
    ∃ ws, xs = us ++ ws ∧ vs = ws ++ ys := by
  rcases List.append_eq_append_iff.mp h with ⟨ws, rfl, rfl⟩ | ⟨ws, rfl, rfl⟩
  · cases ws with
    | nil => exact ⟨[], by simp, rfl⟩
    | cons n ws => exact absurd (hus n (by simp)) (hys n (by simp))
  · exact ⟨ws, rfl, rfl⟩

/-- A pass down. -/
theorem pass_down_split (hard : Bool) (he : Obedient e) (hclients : m.clients)
    (ht : ¬ (t = .configure ∨ t = .activate)) :
    ∃ xs ys ok m', changeStateForAllNodes c e t hard m = some (ok, m') ∧ m'.clients ∧
      (ok = true ↔ ys = []) ∧ Passed hard t c.names.reverse xs ys m m' := by
  obtain ⟨xs, ys, ok, m', hpass, hok, h⟩ :=
    changeStates_split (c := c) (t := t) he hclients hard c.names.reverse
  obtain ⟨_, _, hpass', hmoves, -⟩ :=
    changeStates_spec (c := c) (e := e) (t := t) hclients hard c.names.reverse
  rw [hpass] at hpass'
  cases hpass'
  refine ⟨xs, ys, ok, m', ?_, hmoves.clients.trans hclients, hok, h⟩
  rw [changeStateForAllNodes, if_neg ht, hpass]

section Passes

variable {m₁ m₂ : Manager ν} {xs ys xs₁ ys₁ xs₂ ys₂ : List ν}

/-- A soft pass gets through the whole list exactly if it finds all servers ready. -/
theorem Passed.nil_iff (h : Passed false t ns xs ys m m') :
    ys = [] ↔ ∀ n ∈ ns, Ready t (m.node n) := by
  constructor
  · rintro rfl n hn
    rw [h.split, List.append_nil] at hn
    exact goesOn_soft.mp (h.through hn)
  · intro hall
    cases ys with
    | nil => rfl
    | cons k ys =>
      exact absurd (goesOn_soft.mpr (hall k (by simp [h.split]))) (h.stop rfl)

/-- Then it brings all of them to the goal. -/
theorem Passed.all_iff (h : Passed false t ns xs ys m m') :
    (∀ n ∈ ns, m'.node n = some t.goal) ↔ ∀ n ∈ ns, Ready t (m.node n) := by
  constructor
  · intro hall n hn
    have hn' := hall n hn
    rw [h.node] at hn'
    by_cases hready : Ready t (m.node n)
    · exact hready
    · rw [if_neg (fun h => hready h.2)] at hn'
      exact .inr hn'
  · intro hall n hn
    have hn' : n ∈ xs := by rwa [h.split, h.nil_iff.mpr hall, List.append_nil] at hn
    rw [h.node, if_pos ⟨hn', hall n hn⟩]

/-- The second pass down gets through what the first one did, and further. -/
theorem Passed.cut (h₁ : Passed false .deactivate ns xs₁ ys₁ m m₁)
    (h₂ : Passed false .cleanup ns xs₂ ys₂ m₁ m₂) (hnodup : ns.Nodup)
    (hall : ∀ n ∈ ns, Ready .unconfiguredShutdown (m₂.node n)) :
    ∃ xs ys zs, ns = xs ++ ys ++ zs ∧ (∀ n ∈ xs, Ready .deactivate (m.node n)) ∧
      (∀ n ∈ ys, Ready .cleanup (m.node n)) ∧
      ∀ n ∈ zs, Ready .unconfiguredShutdown (m.node n) := by
  obtain ⟨ws, hws, hys⟩ : ∃ ws, xs₂ = xs₁ ++ ws ∧ ys₁ = ws ++ ys₂ := by
    refine prefix_of_split (P := fun n => GoesOn false .cleanup (m₁.node n))
      (h₂.split.symm.trans h₁.split) ?_ fun _ => h₂.stop
    intro n hn
    rw [h₁.node, if_pos ⟨hn, goesOn_soft.mp (h₁.through hn)⟩]
    exact goesOn_soft.mpr (.inl rfl)
  have hbehind : ∀ n ∈ ys₁, m₁.node n = m.node n := fun n hn => h₁.behind hnodup hn
  refine ⟨xs₁, ws, ys₂, by rw [h₁.split, hys, List.append_assoc],
    fun n hn => goesOn_soft.mp (h₁.through hn), ?_, ?_⟩
  · intro n hn
    rw [← hbehind n (by simp [hys, hn])]
    exact goesOn_soft.mp (h₂.through (by simp [hws, hn]))
  · intro n hn
    rw [← hbehind n (by simp [hys, hn]), ← h₂.behind hnodup hn]
    exact hall n (by simp [h₂.split, hn])

/-- A list in three parts, for the three passes. -/
theorem Passed.ready_of_cut (h₁ : Passed false .deactivate ns xs₁ ys₁ m m₁)
    (h₂ : Passed false .cleanup ns xs₂ ys₂ m₁ m₂) {xs ys zs : List ν} (hns : ns = xs ++ ys ++ zs)
    (hxs : ∀ n ∈ xs, Ready .deactivate (m.node n)) (hys : ∀ n ∈ ys, Ready .cleanup (m.node n))
    (hzs : ∀ n ∈ zs, Ready .unconfiguredShutdown (m.node n)) :
    ∀ n ∈ ns, Ready .unconfiguredShutdown (m₂.node n) := by
  have hsplit : xs₁ ++ ys₁ = xs ++ (ys ++ zs) := by rw [← h₁.split, hns, List.append_assoc]
  obtain ⟨ws, hws, -⟩ := prefix_of_split (P := fun n => GoesOn false .deactivate (m.node n))
    hsplit (fun n hn => goesOn_soft.mpr (hxs n hn)) fun _ => h₁.stop
  -- the second pass gets through the first two parts
  have hfirst : ∀ n ∈ xs ++ ys, GoesOn false .cleanup (m₁.node n) := by
    intro n hn
    rw [goesOn_soft, h₁.node]
    split_ifs with hin
    · exact .inl rfl
    · rcases List.mem_append.mp hn with hn | hn
      · exact absurd ⟨by simp [hws, hn], hxs n hn⟩ hin
      · exact hys n hn
  obtain ⟨ws', -, hzs'⟩ := prefix_of_split (h₂.split.symm.trans hns) hfirst fun _ => h₂.stop
  intro n hn
  rw [h₂.node]
  split_ifs with hin
  · exact .inl rfl
  · have hn' : n ∈ zs := by
      rw [h₂.split] at hn
      rcases List.mem_append.mp hn with hn | hn
      · exact absurd ⟨hn, goesOn_soft.mp (h₂.through hn)⟩ hin
      · simp [hzs', hn]
    -- such a server is not ready for the first pass
    have hkeep : m₁.node n = m.node n := by
      rw [h₁.node, if_neg]
      rintro ⟨-, hready | hready⟩
      · rcases hzs n hn' with h | h
        · exact absurd (h.symm.trans hready) (by decide)
        · exact absurd (h.symm.trans hready) (by decide)
      · rcases hzs n hn' with h | h
        · exact absurd (h.symm.trans hready) (by decide)
        · exact absurd (h.symm.trans hready) (by decide)
    rw [hkeep]
    exact hzs n hn'

end Passes

/-- Servers that take every request are all finalized exactly if, in the order of the shutdown,
some that are active or inactive come first, then some that are inactive or unconfigured, and then
some that are unconfigured or finalized. -/
theorem shutdown_obedient (he : Obedient e) (hclients : m.clients) (hnames : c.names.Nodup) :
    ∃ m', shutdown c e m = some (true, m') ∧
      ((∀ n ∈ c.names, m'.node n = some .finalized) ↔
        ∃ xs ys zs, c.names.reverse = xs ++ ys ++ zs ∧
          (∀ n ∈ xs, m.node n = some .active ∨ m.node n = some .inactive) ∧
          (∀ n ∈ ys, m.node n = some .inactive ∨ m.node n = some .unconfigured) ∧
          ∀ n ∈ zs, m.node n = some .unconfigured ∨ m.node n = some .finalized) := by
  obtain ⟨xs₁, ys₁, _, m₁, hpass₁, hclients₁, -, h₁⟩ :=
    pass_down_split (c := c) (t := .deactivate) (m := m.suspend) false he hclients
      (by decide)
  obtain ⟨xs₂, ys₂, _, m₂, hpass₂, hclients₂, -, h₂⟩ :=
    pass_down_split (c := c) (t := .cleanup) false he hclients₁ (by decide)
  obtain ⟨xs₃, ys₃, _, m₃, hpass₃, -, -, h₃⟩ :=
    pass_down_split (c := c) (t := .unconfiguredShutdown) false he hclients₂ (by decide)
  refine ⟨{ m₃ with clients := false },
    by simp [shutdown, shutdownAllNodes, hpass₁, hpass₂, hpass₃], ?_⟩
  have hlast : (∀ n ∈ c.names, m₃.node n = some .finalized) ↔
      ∀ n ∈ c.names.reverse, Ready .unconfiguredShutdown (m₂.node n) := by
    rw [← h₃.all_iff]
    simp only [List.mem_reverse]
    exact Iff.rfl
  refine Iff.trans hlast ⟨h₁.cut h₂ (List.nodup_reverse.mpr hnames), ?_⟩
  rintro ⟨xs, ys, zs, hns, hxs, hys, hzs⟩
  exact h₁.ready_of_cut h₂ hns hxs hys hzs

/-- **Shutdown.**  It reports success whatever the servers answer.  When all of them take every
request, their order in the list decides whether they end up finalized. -/
theorem shutdown_finalized_iff (hclients : m.clients) (hnames : c.names.Nodup) :
    (∀ e : Env ν, ∃ m', shutdown c e m = some (true, m')) ∧
    ∀ e : Env ν, Obedient e → ∃ m', shutdown c e m = some (true, m') ∧
      ((∀ n ∈ c.names, m'.node n = some .finalized) ↔
        ∃ xs ys zs, c.names.reverse = xs ++ ys ++ zs ∧
          (∀ n ∈ xs, m.node n = some .active ∨ m.node n = some .inactive) ∧
          (∀ n ∈ ys, m.node n = some .inactive ∨ m.node n = some .unconfigured) ∧
          ∀ n ∈ zs, m.node n = some .unconfigured ∨ m.node n = some .finalized) := by
  refine ⟨fun e => ?_, fun e he => shutdown_obedient he hclients hnames⟩
  obtain ⟨m', hshutdown, -⟩ := shutdown_spec (c := c) (e := e) hclients
  exact ⟨m', hshutdown⟩

/-- A first server that is active, and a second that is not configured. -/
def halfUp (n : Bool) : Option State := if n then some .unconfigured else some .active

theorem shutdown_finalized_iff_halfUp :
    ∃ m', shutdown ⟨[false, true], true, true, 10⟩ (obedient Bool) (init halfUp) =
        some (true, m') ∧
      ((∀ n ∈ [false, true], m'.node n = some .finalized) ↔
        ∃ xs ys zs, [false, true].reverse = xs ++ ys ++ zs ∧
          (∀ n ∈ xs, halfUp n = some .active ∨ halfUp n = some .inactive) ∧
          (∀ n ∈ ys, halfUp n = some .inactive ∨ halfUp n = some .unconfigured) ∧
          ∀ n ∈ zs, halfUp n = some .unconfigured ∨ halfUp n = some .finalized) :=
  (shutdown_finalized_iff (c := ⟨[false, true], true, true, 10⟩) (m := init halfUp) rfl
    (by decide)).2 (obedient Bool) (obedient_obedient Bool)

/-! ### Recovery -/

/-- A bring-up of servers that take every request. -/
theorem startup_obedient (he : Obedient e) (hclients : m.clients) :
    ∃ ok m', startup c e m = some (ok, m') ∧
      (ok = true ↔ ∀ n ∈ c.names, Ready .configure (m.node n)) ∧
      m'.bondRespawnTimer = m.bondRespawnTimer ∧ m'.systemActive = (m.systemActive || ok) := by
  obtain ⟨xs₁, ys₁, ok₁, m₁, hpass₁, hok₁, h₁⟩ :=
    changeStates_split (c := c) (t := .configure) he hclients false c.names
  obtain ⟨_, _, h, hmoves₁, -⟩ :=
    changeStates_spec (c := c) (e := e) (t := .configure) hclients false c.names
  rw [hpass₁] at h
  cases h
  have hclients₁ := hmoves₁.clients.trans hclients
  obtain ⟨xs₂, ys₂, ok₂, m₂, hpass₂, hok₂, h₂⟩ :=
    changeStates_split (c := c) (t := .activate) he hclients₁ false c.names
  obtain ⟨_, _, h, hmoves₂, -⟩ :=
    changeStates_spec (c := c) (e := e) (t := .activate) hclients₁ false c.names
  rw [hpass₂] at h
  cases h
  rw [h₁.nil_iff] at hok₁
  rw [h₂.nil_iff] at hok₂
  have hfirst : changeStateForAllNodes c e .configure false m = some (ok₁, m₁) := hpass₁
  have hsecond : changeStateForAllNodes c e .activate false m₁ = some (ok₂, m₂) := hpass₂
  by_cases hall : ∀ n ∈ c.names, Ready .configure (m.node n)
  · -- all are inactive now, and become active
    have hready : ∀ n ∈ c.names, Ready .activate (m₁.node n) :=
      fun n hn => .inl (h₁.all_iff.mpr hall n hn)
    refine ⟨true, report c m₂, ?_, iff_of_true rfl hall, ?_, ?_⟩
    · simp [startup, hfirst, hok₁.mpr hall, hsecond, hok₂.mpr hready]
    · rw [report, createBondTimer]
      split_ifs
      · exact hmoves₂.bondRespawnTimer.trans hmoves₁.bondRespawnTimer
      · exact hmoves₂.bondRespawnTimer.trans hmoves₁.bondRespawnTimer
    · rw [report, createBondTimer, Bool.or_true]
      split_ifs
      · rfl
      · rfl
  · have hok : ok₁ = false := by
      rw [← Bool.not_eq_true, hok₁]
      exact hall
    refine ⟨false, m₁, ?_, iff_of_false (by simp) hall, hmoves₁.bondRespawnTimer, ?_⟩
    · simp [startup, hfirst, hok]
    · rw [hmoves₁.systemActive, Bool.or_false]

theorem run_crash (ns : List ν) : run c m (ns.map .crash) =
    some { m with node := fun n => if n ∈ ns then none else m.node n } := by
  induction ns generalizing m with
  | nil => simp [run]
  | cons n ns ih =>
    rw [List.map_cons, run_cons, step, Option.bind_some, ih]
    congr 2
    funext k
    by_cases hk : k = n
    · simp [hk]
    · simp [hk]

theorem run_respawn (ns : List ν) : run c m (ns.map .respawn) =
    some { m with node := fun n => if n ∈ ns then some .unconfigured else m.node n } := by
  induction ns generalizing m with
  | nil => simp [run]
  | cons n ns ih =>
    rw [List.map_cons, run_cons, step, Option.bind_some, ih]
    congr 2
    funext k
    by_cases hk : k = n
    · simp [hk]
    · simp [hk]

/-- The tick after the last server is back. -/
theorem step_respawnTick {now : ℕ} (htimer : m.bondRespawnTimer) (hclients : m.clients)
    (hidle : ¬ (m.systemActive ∨ c.names = [])) (halive : ∀ n ∈ c.names, (m.node n).isSome) :
    step c m (.respawnTick now e) = (startup c e m.endRespawn).map Prod.snd := by
  have hall : c.names.all fun n => (m.node n).isSome := List.all_eq_true.mpr halive
  rw [step, if_pos htimer]
  simp only [checkBondRespawnConnection]
  split_ifs
  · rfl
  · rfl

theorem findBroken_of_mem (hbonds : ∀ n ∈ ns, m.bonded n) (hbroken : ∃ n ∈ ns, e.broken n) :
    findBroken c e m ns = bringDown c e m := by
  induction ns with
  | nil => simp at hbroken
  | cons n ns ih =>
    rw [findBroken, if_pos (hbonds n (by simp))]
    split_ifs with hn
    · rfl
    · refine ih (fun k hk => hbonds k (by simp [hk])) ?_
      obtain ⟨k, hk, hbroken⟩ := hbroken
      rcases List.mem_cons.mp hk with rfl | hk
      · exact absurd hbroken hn
      · exact ⟨k, hk, hbroken⟩

/-- The tick that finds the bond of a server broken. -/
theorem step_bondTick (hactive : m.systemActive) (htimer : m.bondTimer)
    (hbonds : ∀ n ∈ c.names, m.bonded n) (hbroken : ∃ n ∈ c.names, e.broken n) :
    step c m (.bondTick e) = bringDown c e m := by
  have hfind := findBroken_of_mem (c := c) hbonds hbroken
  obtain ⟨n, hn, -⟩ := hbroken
  rw [step, if_pos htimer, checkBondConnections, if_neg, hfind]
  rw [not_or]
  refine ⟨by simp [hactive], ?_⟩
  simp only [List.all_eq_true, Bool.not_eq_true', not_forall]
  exact ⟨n, hn, by simp [hbonds n hn]⟩

/-- The hard reset is over at the last server that is dead. -/
theorem bringDown_dead (he : Obedient e) (hclients : m.clients)
    (hdead : ∃ n ∈ c.names, m.node n = none) :
    ∃ xs ys m', bringDown c e m = some m' ∧
      Passed true .deactivate c.names.reverse xs ys m m' ∧ m'.clients ∧ m'.systemActive = false ∧
      (m'.bondRespawnTimer ↔ m.bondRespawnTimer ∨ c.attemptRespawnReconnection) := by
  obtain ⟨xs, ys, ok, m₁, hpass, hclients₁, hok, h⟩ :=
    pass_down_split (c := c) (t := .deactivate) (m := m.suspend) true he hclients
      (by decide)
  obtain ⟨_, _, hpass', hmoves, -⟩ :=
    changeStateForAllNodes_spec (c := c) (e := e) (t := .deactivate) (m := m.suspend) hclients true
  rw [hpass] at hpass'
  cases hpass'
  -- the pass does not get through the dead server, so the reset fails
  have hok' : ok = false := by
    rw [← Bool.not_eq_true, hok]
    rintro rfl
    obtain ⟨n, hn, hnone⟩ := hdead
    have hmem : n ∈ xs := by
      rw [← List.append_nil xs, ← h.split]
      exact List.mem_reverse.mpr hn
    have hsome := goesOn_hard.mp (h.through hmem)
    rw [show m.suspend.node n = m.node n from rfl, hnone] at hsome
    exact absurd hsome (by simp)
  have hreset : reset c e true m = some (true, m₁) := by simp [reset, hpass, hok']
  have hrun : bringDown c e m = some { m₁ with
      bonded := fun _ => false
      bondRespawnTimer := m.bondRespawnTimer || c.attemptRespawnReconnection } := by
    rw [bringDown, hreset]
    by_cases hattempt : c.attemptRespawnReconnection
    · simp [hattempt]
    · simp [hattempt, show m₁.bondRespawnTimer = m.bondRespawnTimer from hmoves.bondRespawnTimer]
  exact ⟨xs, ys, _, hrun, ⟨h.split, h.through, h.stop, h.node⟩, hclients₁, hmoves.systemActive,
    by simp⟩

/-- A pass from behind that stops at the first crashed server gets through all the others exactly
if the crashed ones come first in the list. -/
theorem crashed_first_iff {α : Type*} {names xs ys crashed : List α} (hnames : names.Nodup)
    (hsplit : names.reverse = xs ++ ys) (hxs : ∀ n ∈ xs, n ∉ crashed)
    (hys : ∀ n ∈ ys.head?, n ∈ crashed) :
    (∀ n ∈ names, n ∈ crashed ∨ n ∈ xs) ↔
      ∃ us vs, names = us ++ vs ∧ (∀ n ∈ us, n ∈ crashed) ∧ ∀ n ∈ vs, n ∉ crashed := by
  have hnames' : names = ys.reverse ++ xs.reverse := by
    rw [← List.reverse_append, ← hsplit, List.reverse_reverse]
  constructor
  · intro hall
    refine ⟨ys.reverse, xs.reverse, hnames', ?_, fun n hn => hxs n (List.mem_reverse.mp hn)⟩
    intro n hn
    refine (hall n (by rw [hnames']; simp [List.mem_reverse.mp hn])).resolve_right ?_
    intro hx
    rw [hnames', List.nodup_append] at hnames
    exact hnames.2.2 n hn n (List.mem_reverse.mpr hx) rfl
  · rintro ⟨us, vs, rfl, hus, hvs⟩ n hn
    have hends : xs ++ ys = vs.reverse ++ us.reverse := by
      rw [← hsplit, List.reverse_append]
    obtain ⟨ws, hws, -⟩ := prefix_of_split (P := fun n => n ∉ crashed) hends
      (fun k hk => hvs k (List.mem_reverse.mp hk)) fun k hk => not_not.mpr (hys k hk)
    rcases List.mem_append.mp hn with hn | hn
    · exact .inl (hus n hn)
    · exact .inr (by rw [hws]; simp [hn])

/-- **Recovery from a crash.**  In a healthy system with bonds some servers crash, the manager
notices, they come back, and it notices that, too.  It then brings the system up again exactly if
the crashed servers are the first of its list; and otherwise it gives up. -/
theorem recovery_iff {e₁ e₂ : Env ν} {crashed : List ν} {now : ℕ} (he₁ : Obedient e₁)
    (he₂ : Obedient e₂) (hnames : c.names.Nodup) (hattempt : c.attemptRespawnReconnection)
    (hclients : m.clients) (hactive : m.systemActive) (htimer : m.bondTimer)
    (hnode : ∀ n ∈ c.names, m.node n = some .active) (hbonds : ∀ n ∈ c.names, m.bonded n)
    (hcrashed : crashed ≠ []) (hsub : ∀ n ∈ crashed, n ∈ c.names)
    (hbroken : ∀ n, e₁.broken n ↔ n ∈ crashed) :
    ∃ m', run c m (crashed.map .crash ++ .bondTick e₁ :: crashed.map .respawn ++
        [.respawnTick now e₂]) = some m' ∧ m'.bondRespawnTimer = false ∧
      (m'.systemActive ↔ ∃ xs ys, c.names = xs ++ ys ∧ (∀ n ∈ xs, n ∈ crashed) ∧
        ∀ n ∈ ys, n ∉ crashed) := by
  obtain ⟨d, hd⟩ := List.exists_mem_of_ne_nil crashed hcrashed
  set m₁ : Manager ν := { m with node := fun n => if n ∈ crashed then none else m.node n } with hm₁
  have hnode₁ : ∀ n ∈ c.names, m₁.node n = if n ∈ crashed then none else some .active := by
    intro n hn
    rw [← hnode n hn]
  obtain ⟨xs, ys, m₂, hdown, hpassed, hclients₂, hactive₂, hrespawn₂⟩ :=
    bringDown_dead (c := c) (m := m₁) he₁ hclients ⟨d, hsub d hd, by simp [hm₁, hd]⟩
  have htick : step c m₁ (.bondTick e₁) = some m₂ :=
    (step_bondTick (m := m₁) hactive htimer hbonds ⟨d, hsub d hd, (hbroken d).mpr hd⟩).trans hdown
  set m₃ : Manager ν :=
    { m₂ with node := fun n => if n ∈ crashed then some .unconfigured else m₂.node n } with hm₃
  -- the state of a server when all are back
  have hback : ∀ n ∈ c.names, m₃.node n = if n ∈ crashed then some .unconfigured
      else if n ∈ xs then some .inactive else some .active := by
    intro n hn
    show (if n ∈ crashed then some .unconfigured else m₂.node n) = _
    by_cases hc : n ∈ crashed
    · rw [if_pos hc, if_pos hc]
    · rw [if_neg hc, if_neg hc, hpassed.node, hnode₁ n hn, if_neg hc]
      by_cases hx : n ∈ xs
      · rw [if_pos hx, if_pos ⟨hx, .inl rfl⟩]
        rfl
      · rw [if_neg hx, if_neg (fun h => hx h.1)]
  obtain ⟨ok, m', hup, hok, htimer', hactive'⟩ :=
    startup_obedient (c := c) (m := m₃.endRespawn) he₂ hclients₂
  have hidle : ¬ (m₃.systemActive ∨ c.names = []) := by
    rintro (h | h)
    · exact absurd (hactive₂.symm.trans h) (by decide)
    · rw [h] at hsub
      exact absurd (hsub d hd) List.not_mem_nil
  have halive : ∀ n ∈ c.names, (m₃.node n).isSome := by
    intro n hn
    rw [hback n hn]
    split_ifs
    · rfl
    · rfl
    · rfl
  have htick' : step c m₃ (.respawnTick now e₂) = some m' := by
    rw [step_respawnTick (m := m₃) (hrespawn₂.mpr (.inr hattempt)) hclients₂ hidle halive, hup]
    rfl
  refine ⟨m', ?_, htimer', ?_⟩
  · rw [List.append_assoc, run_append, run_crash, Option.bind_some, List.cons_append, run_cons,
      htick, Option.bind_some, run_append, run_respawn, Option.bind_some, run_cons, htick']
    rfl
  · -- a server is ready for the bring-up if it is new, or was reset
    have hready : ok = true ↔ ∀ n ∈ c.names, n ∈ crashed ∨ n ∈ xs := by
      rw [hok]
      refine forall₂_congr fun n hn => ?_
      rw [show m₃.endRespawn.node n = m₃.node n from rfl, hback n hn]
      split_ifs with hc hx
      · exact iff_of_true (.inl rfl) (.inl hc)
      · exact iff_of_true (.inr rfl) (.inr hx)
      · exact iff_of_false (by simp [Ready, Transition.source, Transition.goal]) (by simp [hc, hx])
    have hmem : ∀ n, n ∈ xs ∨ n ∈ ys → n ∈ c.names := by
      intro n hn
      rw [← List.mem_reverse, hpassed.split]
      exact List.mem_append.mpr hn
    have hxs : ∀ n ∈ xs, n ∉ crashed := by
      intro n hn hc
      have hsome := goesOn_hard.mp (hpassed.through hn)
      rw [hnode₁ n (hmem n (.inl hn)), if_pos hc] at hsome
      exact absurd hsome (by simp)
    have hys : ∀ n ∈ ys.head?, n ∈ crashed := by
      intro n hn
      have hstop := goesOn_hard.not.mp (hpassed.stop hn)
      rw [hnode₁ n (hmem n (.inr (List.mem_of_mem_head? hn)))] at hstop
      by_contra hc
      exact hstop (by simp [hc])
    rw [hactive', show m₃.endRespawn.systemActive = false from hactive₂, Bool.false_or, hready]
    exact crashed_first_iff hnames hpassed.split hxs hys

/-- A healthy system of two servers. -/
def healthy : Manager Bool where
  node _ := some .active
  bonded _ := true
  systemActive := true
  bondTimer := true

/-- The second server has crashed. -/
def secondCrashed : Env Bool := { obedient Bool with broken := fun n => n }

theorem recovery_iff_second :
    ∃ m', run ⟨[false, true], true, true, 10⟩ healthy ([true].map .crash ++
        .bondTick secondCrashed :: [true].map .respawn ++ [.respawnTick 1 (obedient Bool)]) =
      some m' ∧ m'.bondRespawnTimer = false ∧
      (m'.systemActive ↔ ∃ xs ys, [false, true] = xs ++ ys ∧ (∀ n ∈ xs, n ∈ [true]) ∧
        ∀ n ∈ ys, n ∉ [true]) :=
  recovery_iff (c := ⟨[false, true], true, true, 10⟩) ⟨fun _ _ => rfl, fun _ => rfl⟩
    (obedient_obedient Bool) (by decide) rfl rfl rfl rfl (fun _ _ => rfl) (fun _ _ => rfl)
    (by decide) (by decide) (by decide)

end Manager

end Lifecycle
