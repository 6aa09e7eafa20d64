/-
The control nodes that the navigation adds to its behavior trees.

The children are anything that answers a tick (`Children`).  A run of a node is any sequence of
ticks and halts from outside, and `log` is what the children answered since the node was last
reset; an answer other than RUNNING is a completion (`done`).

* `RecoveryNode.recovery_answer`: the answer of the node, as a language over the completions.
* `RoundRobinNode.roundRobin_answer`: the children take turns, and the node fails exactly after as
  many failures in a row as it has children.
* `PipelineSequence.pipeline_answer`: a child is ticked only after all those before it have
  succeeded, and a running one is passed only below the furthest child that was running.
-/
import WheeltecRos2.Lib.Runs
import Mathlib.Data.List.Basic

namespace BehaviorTree

inductive NodeStatus
  | idle
  | running
  | success
  | failure
  deriving DecidableEq

/-- A child by its index, and what it answered. -/
abbrev Answer := ℕ × NodeStatus

/-- The children of a node, with the state they share with the world. -/
structure Children (σ : Type*) where
  executeTick : ℕ → σ → NodeStatus × σ
  haltChild : ℕ → σ → σ
  haltChildren : σ → σ

/-- No child answers IDLE, on which a node throws. -/
def Children.Answering {σ : Type*} (c : Children σ) : Prop :=
  ∀ i w, (c.executeTick i w).1 ≠ .idle

/-- Children that fail whenever they are ticked. -/
def failing : Children Unit where
  executeTick _ w := (.failure, w)
  haltChild _ w := w
  haltChildren w := w

theorem failing_answering : failing.Answering := by
  intro i w h
  cases h

/-- Children that answer by a script, tick by tick, and succeed after its end. -/
def scripted (script : List NodeStatus) : Children ℕ where
  executeTick _ ticks := (script.getD ticks .success, ticks + 1)
  haltChild _ ticks := ticks
  haltChildren ticks := ticks

theorem scripted_answering {script : List NodeStatus} (h : .idle ∉ script) :
    (scripted script).Answering := by
  intro i ticks hidle
  have hanswer : script.getD ticks .success = .idle := hidle
  rw [List.getD_eq_getElem?_getD] at hanswer
  cases hget : script[ticks]? with
  | none =>
    rw [hget] at hanswer
    cases hanswer
  | some q =>
    rw [hget] at hanswer
    obtain rfl : q = .idle := hanswer
    exact h (List.mem_of_getElem? hget)

/-- The completions among some answers. -/
def completions (log : List Answer) : List Answer := log.filter fun a => a.2 ≠ .running

@[simp] theorem completions_nil : completions [] = [] := rfl

@[simp] theorem completions_running (log : List Answer) (i : ℕ) :
    completions (log ++ [(i, .running)]) = completions log := by
  simp [completions]

theorem completions_concat (log : List Answer) {i : ℕ} {q : NodeStatus} (hq : q ≠ .running) :
    completions (log ++ [(i, q)]) = completions log ++ [(i, q)] := by
  simp [completions, hq]

/-- What a node meets. -/
inductive Event
  | tick
  | halt

/-! ### Recovery -/

/-- `RecoveryNode`, whose first child is the one to succeed and the second the one to recover. -/
structure RecoveryNode (σ : Type*) where
  currentChildIdx : ℕ := 0
  retryCount : ℕ := 0
  log : List Answer := []
  world : σ

namespace RecoveryNode

variable {σ : Type*} (c : Children σ) (retries : ℕ)

/-- `halt` -/
def reset (w : σ) : RecoveryNode σ := { world := c.haltChildren w }

/-- The loop of `tick`: the status, or an exception, and the answers since the last reset. -/
def loop (idx retry : ℕ) (log : List Answer) (w : σ) :
    Option NodeStatus × List Answer × RecoveryNode σ :=
  if idx < 2 ∧ retry ≤ retries then
    let (q, w) := c.executeTick idx w
    let log := log ++ [(idx, q)]
    if idx = 0 then
      match q with
      | .success => (some .success, log, reset c w)
      | .failure =>
        if retry < retries then loop (idx + 1) retry log (c.haltChild 0 w)
        else (some .failure, log, reset c w)
      | .running => (some .running, log, ⟨idx, retry, log, w⟩)
      | .idle => (none, log, ⟨idx, retry, log, w⟩)
    else
      match q with
      | .success => loop (idx - 1) (retry + 1) log (c.haltChild 1 w)
      | .failure => (some .failure, log, reset c w)
      | .running => (some .running, log, ⟨idx, retry, log, w⟩)
      | .idle => (none, log, ⟨idx, retry, log, w⟩)
  else (some .failure, log, reset c w)
termination_by 2 * (retries + 1 - retry) - idx
decreasing_by
  · omega
  · omega

def tick (s : RecoveryNode σ) : Option NodeStatus × List Answer × RecoveryNode σ :=
  loop c retries s.currentChildIdx s.retryCount s.log s.world

def step (s : RecoveryNode σ) : Event → RecoveryNode σ
  | .tick => (s.tick c retries).2.2
  | .halt => reset c s.world

/-- `k` failures of the first child, and as many recoveries. -/
def attempts (k : ℕ) : List Answer := (List.replicate k [(0, .failure), (1, .success)]).flatten

theorem attempts_succ (k : ℕ) :
    attempts (k + 1) = attempts k ++ [(0, .failure), (1, .success)] := by
  simp [attempts, List.replicate_succ']

theorem length_attempts (k : ℕ) : (attempts k).length = 2 * k := by
  induction k with
  | zero => rfl
  | succ k ih =>
    rw [attempts_succ, List.length_append, ih]
    simp
    omega

/-- The answer that some completions call for. -/
inductive Verdict : NodeStatus → List Answer → Prop
  | succeeded {k : ℕ} (hk : k ≤ retries) : Verdict .success (attempts k ++ [(0, .success)])
  | exhausted : Verdict .failure (attempts retries ++ [(0, .failure)])
  | unrecovered {k : ℕ} (hk : k < retries) :
      Verdict .failure (attempts k ++ [(0, .failure), (1, .failure)])
  | trying {k : ℕ} (hk : k ≤ retries) : Verdict .running (attempts k)
  | recovering {k : ℕ} (hk : k < retries) : Verdict .running (attempts k ++ [(0, .failure)])

/-- Where the node is after some completions. -/
def At (idx retry : ℕ) (log : List Answer) : Prop :=
  idx = 0 ∧ retry ≤ retries ∧ log = attempts retry ∨
    idx = 1 ∧ retry < retries ∧ log = attempts retry ++ [(0, .failure)]

variable {c retries}

theorem At.verdict {idx retry : ℕ} {log : List Answer} (h : At retries idx retry log) :
    Verdict retries .running log := by
  obtain ⟨-, hretry, rfl⟩ | ⟨-, hretry, rfl⟩ := h
  · exact .trying hretry
  · exact .recovering hretry

/-- What is left of a node by a tick. -/
def Left (c : Children σ) (retries : ℕ) (q : NodeStatus) (log : List Answer)
    (s : RecoveryNode σ) : Prop :=
  if q = .running then s.log = log ∧ At retries s.currentChildIdx s.retryCount (completions log)
  else ∃ w, s = reset c w

/-- **The loop.**  Each round keeps the place in the language. -/
theorem loop_spec (hc : c.Answering) {idx retry : ℕ} {log : List Answer} {w : σ}
    (h : At retries idx retry (completions log)) :
    ∃ q log' s', loop c retries idx retry log w = (some q, log', s') ∧
      Verdict retries q (completions log') ∧ Left c retries q log' s' := by
  have hat : ∀ {retry : ℕ} {log : List Answer}, At retries 0 retry log →
      retry ≤ retries ∧ log = attempts retry := by
    rintro retry log (⟨-, h⟩ | ⟨h, -⟩)
    · exact h
    · cases h
  have hat' : ∀ {idx retry : ℕ} {log : List Answer}, At retries idx retry log → idx ≠ 0 →
      idx = 1 ∧ retry < retries ∧ log = attempts retry ++ [(0, .failure)] := by
    rintro idx retry log (⟨h, -⟩ | h) hidx
    · exact absurd h hidx
    · exact h
  fun_induction loop c retries idx retry log w with
  | case1 retry log w w' _ _ log' =>
    -- the first child succeeds
    obtain ⟨hretry, hlog⟩ := hat h
    refine ⟨_, _, _, rfl, ?_, by rw [Left, if_neg (by decide)]; exact ⟨w', rfl⟩⟩
    rw [completions_concat _ (by decide), hlog]
    exact .succeeded hretry
  | case2 retry log w w' hmore _ log' _ ih =>
    -- it fails, and the second child is next
    obtain ⟨hretry, hlog⟩ := hat h
    refine ih (.inr ⟨rfl, hmore, ?_⟩)
    rw [completions_concat _ (by decide), hlog]
  | case3 retry log w w' hmore _ log' =>
    -- it fails after the last retry
    obtain ⟨hretry, hlog⟩ := hat h
    refine ⟨_, _, _, rfl, ?_, by rw [Left, if_neg (by decide)]; exact ⟨w', rfl⟩⟩
    rw [completions_concat _ (by decide), hlog, show retry = retries by omega]
    exact .exhausted
  | case4 retry log w w' _ _ log' =>
    have h' : At retries 0 retry (completions (log ++ [(0, .running)])) := by
      rwa [completions_running]
    exact ⟨_, _, _, rfl, h'.verdict, by rw [Left, if_pos rfl]; exact ⟨rfl, h'⟩⟩
  | case5 retry log w w' _ hidle => exact absurd (congrArg Prod.fst hidle) (hc 0 w)
  | case6 idx retry log w _ w' hidx _ log' ih =>
    -- the second child succeeds: one more attempt
    obtain ⟨rfl, hretry, hlog⟩ := hat' h hidx
    refine ih (.inl ⟨rfl, hretry, ?_⟩)
    rw [completions_concat _ (by decide), hlog, attempts_succ, List.append_assoc]
    rfl
  | case7 idx retry log w _ w' hidx _ log' =>
    obtain ⟨rfl, hretry, hlog⟩ := hat' h hidx
    refine ⟨_, _, _, rfl, ?_, by rw [Left, if_neg (by decide)]; exact ⟨w', rfl⟩⟩
    rw [completions_concat _ (by decide), hlog, List.append_assoc]
    exact .unrecovered hretry
  | case8 idx retry log w _ w' _ _ log' =>
    have h' : At retries idx retry (completions (log ++ [(idx, .running)])) := by
      rwa [completions_running]
    exact ⟨_, _, _, rfl, h'.verdict, by rw [Left, if_pos rfl]; exact ⟨rfl, h'⟩⟩
  | case9 idx retry log w _ w' _ hidle => exact absurd (congrArg Prod.fst hidle) (hc idx w)
  | case10 idx retry log w hover =>
    -- the loop test holds at both places
    obtain ⟨rfl, hretry, -⟩ | ⟨rfl, hretry, -⟩ := h
    · exact absurd ⟨by omega, hretry⟩ hover
    · exact absurd ⟨by omega, by omega⟩ hover

theorem getLast?_attempts (k : ℕ) :
    (attempts k).getLast? = none ∨ (attempts k).getLast? = some (1, .success) := by
  cases k with
  | zero => exact .inl rfl
  | succ k =>
    rw [attempts_succ]
    exact .inr (by simp)

/-- The answer can be read off the number of completions and the last one. -/
def verdict (retries : ℕ) (log : List Answer) : NodeStatus :=
  if log.getLast? = some (0, .success) then .success
  else if log.getLast? = some (1, .failure) ∨
    log.getLast? = some (0, .failure) ∧ log.length = 2 * retries + 1 then .failure
  else .running

theorem Verdict.eq {q : NodeStatus} {log : List Answer} (h : Verdict retries q log) :
    verdict retries log = q := by
  cases h with
  | succeeded => simp [verdict]
  | exhausted => simp [verdict, length_attempts]
  | unrecovered => simp [verdict]
  | trying =>
    rename_i k hk
    obtain h | h := getLast?_attempts k
    · simp [verdict, h]
    · simp [verdict, h]
  | recovering hk =>
    simp [verdict, length_attempts]
    omega

theorem Verdict.unique {q q' : NodeStatus} {log : List Answer} (h : Verdict retries q log)
    (h' : Verdict retries q' log) : q = q' :=
  h.eq.symm.trans h'.eq

/-- The state after some ticks and halts. -/
abbrev run (c : Children σ) (retries : ℕ) : RecoveryNode σ → List Event → RecoveryNode σ :=
  Runs.run (step c retries)

/-- The node is where its completions have led it. -/
def Placed (retries : ℕ) (s : RecoveryNode σ) : Prop :=
  At retries s.currentChildIdx s.retryCount (completions s.log)

theorem placed_reset (w : σ) : Placed retries (reset c w) := .inl ⟨rfl, Nat.zero_le _, rfl⟩

theorem placed_run (hc : c.Answering) (w : σ) (events : List Event) :
    Placed retries (run c retries { world := w } events) := by
  refine Runs.run_invariant (I := Placed retries) (.inl ⟨rfl, Nat.zero_le _, rfl⟩) ?_
  intro s event h
  cases event with
  | tick =>
    obtain ⟨q, log, s', hloop, -, hleft⟩ := loop_spec (w := s.world) hc h
    rw [step, tick, hloop]
    rw [Left] at hleft
    split_ifs at hleft with hq
    · obtain ⟨rfl, hat⟩ := hleft
      exact hat
    · obtain ⟨w', rfl⟩ := hleft
      exact placed_reset w'
  | halt => exact placed_reset s.world

/-- **The recovery node.**  A tick always ends, and in any run its answer is told by the
completions since the last reset: SUCCESS as soon as the first child succeeds; FAILURE when it
fails after the last retry, or the second child fails; and RUNNING before.  It is never IDLE. -/
theorem recovery_answer (hc : c.Answering) (w : σ) (events : List Event) :
    ∃ q log s', (run c retries { world := w } events).tick c retries = (some q, log, s') ∧
      (q = .success ↔ ∃ k ≤ retries, completions log = attempts k ++ [(0, .success)]) ∧
      (q = .failure ↔ completions log = attempts retries ++ [(0, .failure)] ∨
        ∃ k < retries, completions log = attempts k ++ [(0, .failure), (1, .failure)]) ∧
      (q = .running ↔ (∃ k ≤ retries, completions log = attempts k) ∨
        ∃ k < retries, completions log = attempts k ++ [(0, .failure)]) ∧
      q ≠ .idle := by
  obtain ⟨q, log, s', hloop, hverdict, -⟩ := loop_spec
    (w := (run c retries { world := w } events).world) hc (placed_run hc w events)
  refine ⟨q, log, s', hloop, ⟨?_, ?_⟩, ⟨?_, ?_⟩, ⟨?_, ?_⟩, ?_⟩
  · rintro rfl
    generalize completions log = done at hverdict
    cases hverdict with
    | succeeded hk => exact ⟨_, hk, rfl⟩
  · rintro ⟨k, hk, hlog⟩
    rw [hlog] at hverdict
    exact hverdict.unique (.succeeded hk)
  · rintro rfl
    generalize completions log = done at hverdict
    cases hverdict with
    | exhausted => exact .inl rfl
    | unrecovered hk => exact .inr ⟨_, hk, rfl⟩
  · rintro (hlog | ⟨k, hk, hlog⟩)
    · rw [hlog] at hverdict
      exact hverdict.unique .exhausted
    · rw [hlog] at hverdict
      exact hverdict.unique (.unrecovered hk)
  · rintro rfl
    generalize completions log = done at hverdict
    cases hverdict with
    | trying hk => exact .inl ⟨_, hk, rfl⟩
    | recovering hk => exact .inr ⟨_, hk, rfl⟩
  · rintro (⟨k, hk, hlog⟩ | ⟨k, hk, hlog⟩)
    · rw [hlog] at hverdict
      exact hverdict.unique (.trying hk)
    · rw [hlog] at hverdict
      exact hverdict.unique (.recovering hk)
  · rintro rfl
    cases hverdict

/-- The second child runs before it recovers, and the first one before it succeeds. -/
def recovered : Children ℕ := scripted [.failure, .running, .success, .running, .success]

theorem recovery_answer_recovered :
    ∃ q log s', (run recovered 1 { world := 0 } [.tick, .tick]).tick recovered 1 =
        (some q, log, s') ∧
      (q = .success ↔ ∃ k ≤ 1, completions log = attempts k ++ [(0, .success)]) ∧
      (q = .failure ↔ completions log = attempts 1 ++ [(0, .failure)] ∨
        ∃ k < 1, completions log = attempts k ++ [(0, .failure), (1, .failure)]) ∧
      (q = .running ↔ (∃ k ≤ 1, completions log = attempts k) ∨
        ∃ k < 1, completions log = attempts k ++ [(0, .failure)]) ∧
      q ≠ .idle :=
  recovery_answer (scripted_answering (by decide)) 0 [.tick, .tick]

end RecoveryNode

/-! ### Round robin -/

/-- `RoundRobinNode` -/
structure RoundRobinNode (σ : Type*) where
  currentChildIdx : ℕ := 0
  numFailedChildren : ℕ := 0
  log : List Answer := []
  world : σ

namespace RoundRobinNode

variable {σ : Type*} (c : Children σ) (n : ℕ)

/-- `halt` -/
def reset (w : σ) : RoundRobinNode σ := { world := c.haltChildren w }

/-- The wrap around of `current_child_idx_`. -/
def advance (idx : ℕ) : ℕ := if n ≤ idx + 1 then 0 else idx + 1

/-- The loop of `tick`: the status, or an exception, and the answers since the last reset. -/
def loop (idx failed : ℕ) (log : List Answer) (w : σ) :
    Option NodeStatus × List Answer × RoundRobinNode σ :=
  if failed < n then
    let (q, w) := c.executeTick idx w
    let log := log ++ [(idx, q)]
    match q with
    | .success => (some .success, log, ⟨advance n idx, 0, log, c.haltChildren w⟩)
    | .failure => loop (advance n idx) (failed + 1) log w
    | .running => (some .running, log, ⟨idx, failed, log, w⟩)
    | .idle => (none, log, ⟨idx, failed, log, w⟩)
  else (some .failure, log, reset c w)
termination_by n - failed

def tick (s : RoundRobinNode σ) : Option NodeStatus × List Answer × RoundRobinNode σ :=
  loop c n s.currentChildIdx s.numFailedChildren s.log s.world

def step (s : RoundRobinNode σ) : Event → RoundRobinNode σ
  | .tick => (s.tick c n).2.2
  | .halt => reset c s.world

/-- The state after some ticks and halts. -/
abbrev run : RoundRobinNode σ → List Event → RoundRobinNode σ := Runs.run (step c n)

/-- How many completions failed since the last success. -/
def failures (log : List Answer) : ℕ := (log.reverse.takeWhile fun a => a.2 = .failure).length

@[simp] theorem failures_failure (log : List Answer) (i : ℕ) :
    failures (log ++ [(i, .failure)]) = failures log + 1 := by
  simp [failures]

@[simp] theorem failures_success (log : List Answer) (i : ℕ) :
    failures (log ++ [(i, .success)]) = 0 := by
  simp [failures]

/-- The children take turns. -/
def Turns (log : List Answer) : Prop :=
  ∀ (i : ℕ) (h : i < log.length), (log[i]).1 = i % n

variable {c n}

theorem Turns.concat {log : List Answer} (h : Turns n log) (q : NodeStatus) :
    Turns n (log ++ [(log.length % n, q)]) := by
  intro i hi
  by_cases hlt : i < log.length
  · rw [List.getElem_append_left hlt]
    exact h i hlt
  · rw [List.length_append, List.length_singleton] at hi
    obtain rfl : i = log.length := by omega
    simp

theorem advance_mod (hn : 0 < n) (k : ℕ) : advance n (k % n) = (k + 1) % n := by
  have hlt := Nat.mod_lt k hn
  rw [advance, ← Nat.mod_add_mod k n 1]
  split_ifs with h
  · rw [show k % n + 1 = n by omega, Nat.mod_self]
  · exact (Nat.mod_eq_of_lt (by omega)).symm

/-- Where the node is after some completions. -/
structure At (n idx failed : ℕ) (done : List Answer) : Prop where
  turns : Turns n done
  place : idx = done.length % n
  count : failed = failures done
  le : failed ≤ n

/-- **The loop.** -/
theorem loop_spec (hc : c.Answering) (hn : 0 < n) {idx failed : ℕ} {log : List Answer} {w : σ}
    (h : At n idx failed (completions log))
    (hlast : failed = n → ∃ i, log.getLast? = some (i, .failure)) :
    ∃ q log' s', loop c n idx failed log w = (some q, log', s') ∧ q ≠ .idle ∧
      Turns n (completions log') ∧
      (q = .failure ↔ failures (completions log') = n) ∧
      (q ≠ .running → ∃ i, log'.getLast? = some (i, q)) ∧
      (q = .running → log'.getLast? = some ((completions log').length % n, .running)) ∧
      At n s'.currentChildIdx s'.numFailedChildren (completions s'.log) ∧
      s'.numFailedChildren < n := by
  fun_induction loop c n idx failed log w with
  | case1 idx failed log w hmore w' _ log' =>
    -- a success ends the row of failures
    have hdone : completions log' =
        completions log ++ [((completions log).length % n, .success)] := by
      rw [completions_concat _ (by decide), h.place]
    refine ⟨_, _, _, rfl, nofun, ?_, ?_, fun _ => ⟨idx, by simp [log']⟩, by simp,
      ⟨?_, ?_, ?_, ?_⟩, hn⟩
    · rw [hdone]
      exact h.turns.concat _
    · rw [hdone, failures_success]
      exact iff_of_false (by decide) (by omega)
    · rw [hdone]
      exact h.turns.concat _
    · rw [hdone, h.place, advance_mod hn, List.length_append]
      rfl
    · rw [hdone, failures_success]
    · exact Nat.zero_le _
  | case2 idx failed log w hmore w' _ log' ih =>
    have hdone : completions log' =
        completions log ++ [((completions log).length % n, .failure)] := by
      rw [completions_concat _ (by decide), h.place]
    refine ih ⟨?_, ?_, ?_, hmore⟩ fun _ => ⟨idx, by simp [log']⟩
    · rw [hdone]
      exact h.turns.concat _
    · rw [hdone, h.place, advance_mod hn, List.length_append]
      rfl
    · rw [hdone, failures_failure, h.count]
  | case3 idx failed log w hmore w' _ log' =>
    -- a running child keeps its turn
    have hdone : completions log' = completions log := completions_running _ _
    refine ⟨_, _, _, rfl, nofun, ?_, ?_, by simp, fun _ => ?_, ?_, hmore⟩
    · rw [hdone]
      exact h.turns
    · rw [hdone, ← h.count]
      exact iff_of_false (by decide) (by omega)
    · rw [hdone, ← h.place]
      simp [log']
    · rw [hdone]
      exact h
  | case4 idx failed log w hmore w' hidle => exact absurd (congrArg Prod.fst hidle) (hc idx w)
  | case5 idx failed log w hmore =>
    -- all have failed in a row, and the state is reset
    have hfailed : failed = n := Nat.le_antisymm h.le (by omega)
    refine ⟨_, _, _, rfl, nofun, h.turns, ?_, fun _ => hlast hfailed, by simp,
      ⟨?_, ?_, rfl, ?_⟩, hn⟩
    · exact iff_of_true rfl (h.count.symm.trans hfailed)
    · intro i hi
      exact absurd hi (Nat.not_lt_zero i)
    · exact (Nat.zero_mod n).symm
    · exact Nat.zero_le _

/-- The node is where its completions have led it. -/
def Placed (n : ℕ) (s : RoundRobinNode σ) : Prop :=
  At n s.currentChildIdx s.numFailedChildren (completions s.log) ∧ s.numFailedChildren < n

theorem placed_start (hn : 0 < n) (w : σ) : Placed n { world := w } := by
  refine ⟨⟨?_, (Nat.zero_mod n).symm, rfl, Nat.zero_le _⟩, hn⟩
  intro i hi
  exact absurd hi (Nat.not_lt_zero i)

theorem placed_run (hc : c.Answering) (hn : 0 < n) (w : σ) (events : List Event) :
    Placed n (run c n { world := w } events) := by
  refine Runs.run_invariant (I := Placed n) (placed_start hn w) ?_
  intro s event h
  cases event with
  | tick =>
    obtain ⟨q, log, s', hloop, -, -, -, -, -, hplaced⟩ := loop_spec (w := s.world) hc hn h.1
      fun hfailed => absurd h.2 (by omega)
    rw [step, tick, hloop]
    exact hplaced
  | halt => exact placed_start hn _

/-- **The round robin node.**  A tick always ends.  In any run the children take turns in their
order, and the answer is FAILURE exactly when as many completions in a row have failed as there
are children; any other answer is that of the child whose turn it is. -/
theorem roundRobin_answer (hc : c.Answering) (hn : 0 < n) (w : σ) (events : List Event) :
    ∃ q log s', (run c n { world := w } events).tick c n = (some q, log, s') ∧
      (∀ (i : ℕ) (h : i < (completions log).length), ((completions log)[i]).1 = i % n) ∧
      (q = .failure ↔ failures (completions log) = n) ∧
      (q = .success ↔ ∃ i, log.getLast? = some (i, .success)) ∧
      (q = .running ↔ log.getLast? = some ((completions log).length % n, .running)) ∧
      q ≠ .idle := by
  have h := placed_run hc hn w events
  obtain ⟨q, log, s', hloop, hidle, hturns, hfailure, hlast, hrunning, -⟩ := loop_spec
    (w := (run c n { world := w } events).world) hc hn h.1 fun hfailed => absurd h.2 (by omega)
  refine ⟨q, log, s', hloop, hturns, hfailure, ⟨?_, ?_⟩, ⟨hrunning, ?_⟩, hidle⟩
  · rintro rfl
    exact hlast (by decide)
  · rintro ⟨i, hi⟩
    by_cases hq : q = .running
    · rw [hrunning hq] at hi
      cases hi
    · obtain ⟨k, hk⟩ := hlast hq
      rw [hk] at hi
      cases hi
      rfl
  · intro hi
    by_contra hq
    obtain ⟨k, hk⟩ := hlast hq
    rw [hk] at hi
    cases hi
    exact hq rfl

theorem roundRobin_answer_three :
    ∃ q log s', (run failing 3 { world := () } [.tick]).tick failing 3 = (some q, log, s') ∧
      (∀ (i : ℕ) (h : i < (completions log).length), ((completions log)[i]).1 = i % 3) ∧
      (q = .failure ↔ failures (completions log) = 3) ∧
      (q = .success ↔ ∃ i, log.getLast? = some (i, .success)) ∧
      (q = .running ↔ log.getLast? = some ((completions log).length % 3, .running)) ∧
      q ≠ .idle :=
  roundRobin_answer failing_answering (by decide) () [.tick]

end RoundRobinNode

/-! ### Pipeline -/

/-- `PipelineSequence` -/
structure PipelineSequence (σ : Type*) where
  lastChildTicked : ℕ := 0
  log : List Answer := []
  world : σ

namespace PipelineSequence

variable {σ : Type*} (c : Children σ) (n last : ℕ)

/-- `halt` -/
def reset (w : σ) : PipelineSequence σ := { world := c.haltChildren w }

/-- The loop of `tick` from child `i` on: the status, or an exception, and the answers since the
last reset. -/
def loop (i : ℕ) (log : List Answer) (w : σ) :
    Option NodeStatus × List Answer × PipelineSequence σ :=
  if i < n then
    let (q, w) := c.executeTick i w
    let log := log ++ [(i, q)]
    match q with
    | .failure => (some .failure, log, reset c w)
    | .success => loop (i + 1) log w
    | .running => if last ≤ i then (some .running, log, ⟨i, log, w⟩) else loop (i + 1) log w
    | .idle => (none, log, ⟨last, log, w⟩)
  else (some .success, log, reset c w)
termination_by n - i

def tick (s : PipelineSequence σ) : Option NodeStatus × List Answer × PipelineSequence σ :=
  loop c n s.lastChildTicked 0 s.log s.world

def step (s : PipelineSequence σ) : Event → PipelineSequence σ
  | .tick => (s.tick c n).2.2
  | .halt => reset c s.world

/-- The state after some ticks and halts. -/
abbrev run : PipelineSequence σ → List Event → PipelineSequence σ := Runs.run (step c n)

/-- Every child that was ticked came after a success of each child before it. -/
def InOrder (log : List Answer) : Prop :=
  ∀ before a after, log = before ++ a :: after → ∀ k < a.1, (k, NodeStatus.success) ∈ before

variable {c n last}

theorem InOrder.concat {log : List Answer} (h : InOrder log) {i : ℕ} (q : NodeStatus)
    (hi : ∀ k < i, (k, NodeStatus.success) ∈ log) : InOrder (log ++ [(i, q)]) := by
  intro before a after heq
  rcases List.eq_nil_or_concat after with rfl | ⟨after, b, rfl⟩
  · obtain ⟨hbefore, ha⟩ := List.append_inj' heq rfl
    cases ha
    rw [← hbefore]
    exact hi
  · rw [List.concat_eq_append, ← List.cons_append, ← List.append_assoc] at heq
    exact h before a after (List.append_inj' heq rfl).1

/-- The furthest child that was running, or the first child. -/
def furthest (log : List Answer) : ℕ :=
  log.foldl (fun m a => if a.2 = .running then max m a.1 else m) 0

theorem furthest_concat (log : List Answer) (a : Answer) :
    furthest (log ++ [a]) = if a.2 = .running then max (furthest log) a.1 else furthest log := by
  rw [furthest, List.foldl_concat, furthest]

/-- A tick goes on after this answer. -/
def Passes (last : ℕ) (a : Answer) : Prop := a.2 = .success ∨ a.2 = .running ∧ a.1 < last

/-- The answers of a tick from child `i` on, and what they make of it. -/
structure Answers (n last i : ℕ) (q : NodeStatus) (answers : List Answer) : Prop where
  children : answers.map Prod.fst = List.range' i answers.length
  passed : ∀ a ∈ answers.dropLast, Passes last a
  failure : q = .failure ↔ ∃ k, answers.getLast? = some (k, .failure)
  running : q = .running ↔ ∃ k ≥ last, answers.getLast? = some (k, .running)
  success : q = .success ↔ answers.length = n - i ∧ ∀ a ∈ answers, Passes last a
  answered : q ≠ .idle

/-- A child that lets the tick go on. -/
theorem Answers.cons {i : ℕ} {q q' : NodeStatus} {answers : List Answer} (hi : i < n)
    (h : Answers n last (i + 1) q answers) (hq' : Passes last (i, q')) :
    Answers n last i q ((i, q') :: answers) := by
  have hgo : ¬ ∃ k, (i, q') = (k, .failure) := by
    rintro ⟨k, h⟩
    cases h
    simp [Passes] at hq'
  have hgo' : ¬ ∃ k ≥ last, (i, q') = (k, .running) := by
    rintro ⟨k, hk, h⟩
    cases h
    simp [Passes] at hq'
    omega
  refine ⟨?_, ?_, ?_, ?_, ?_, h.answered⟩
  · rw [List.map_cons, h.children, List.length_cons, List.range'_succ]
  · cases answers with
    | nil => simp
    | cons a answers =>
      rw [List.dropLast_cons_cons, List.forall_mem_cons]
      exact ⟨hq', h.passed⟩
  · rw [h.failure]
    cases answers with
    | nil => simpa using hgo
    | cons a answers => rw [List.getLast?_cons_cons]
  · rw [h.running]
    cases answers with
    | nil => simpa using hgo'
    | cons a answers => rw [List.getLast?_cons_cons]
  · rw [h.success, List.length_cons, List.forall_mem_cons]
    constructor
    · rintro ⟨hlength, hall⟩
      exact ⟨by omega, hq', hall⟩
    · rintro ⟨hlength, -, hall⟩
      exact ⟨by omega, hall⟩

/-- What is left of a node by a tick. -/
def Left (c : Children σ) (last : ℕ) (q : NodeStatus) (log : List Answer)
    (s : PipelineSequence σ) : Prop :=
  if q = .running then s.log = log ∧ last ≤ s.lastChildTicked ∧
    s.lastChildTicked = furthest log ∧ ∀ k < s.lastChildTicked, (k, NodeStatus.success) ∈ log
  else ∃ w, s = reset c w

/-- **The loop.** -/
theorem loop_spec (hc : c.Answering) {i : ℕ} {log : List Answer} {w : σ} (hlog : InOrder log)
    (hi : ∀ k < i, (k, NodeStatus.success) ∈ log)
    (hold : ∀ k < last, (k, NodeStatus.success) ∈ log) (hfurthest : furthest log = last) :
    ∃ q answers s', loop c n last i log w = (some q, log ++ answers, s') ∧
      InOrder (log ++ answers) ∧ Answers n last i q answers ∧
      (q = .success → ∀ k < n, (k, .success) ∈ log ++ answers) ∧
      Left c last q (log ++ answers) s' := by
  fun_induction loop c n last i log w with
  | case1 i log w _ w' =>
    refine ⟨.failure, [(i, .failure)], _, rfl, hlog.concat _ hi,
      ⟨rfl, by simp, ?_, ?_, ?_, by decide⟩, by simp, ?_⟩
    · simp
    · simp
    · simp [Passes]
    · rw [Left, if_neg (by decide)]
      exact ⟨w', rfl⟩
  | case2 i log w hmore w' _ log' ih =>
    -- a child that succeeds lets the tick go on
    have hi' : ∀ k < i + 1, (k, NodeStatus.success) ∈ log' := by
      intro k hk
      by_cases hki : k = i
      · simp [log', hki]
      · exact List.mem_append_left _ (hi k (by omega))
    have hfurthest' : furthest log' = last := by
      rw [furthest_concat, if_neg (by simp), hfurthest]
    obtain ⟨q, answers, s', hloop, horder, hanswers, hall, hleft⟩ :=
      ih (hlog.concat _ hi) hi' (fun k hk => List.mem_append_left _ (hold k hk)) hfurthest'
    have hlog' : log' ++ answers = log ++ (i, .success) :: answers := List.append_assoc ..
    rw [hlog'] at hloop horder hall hleft
    exact ⟨q, _, s', hloop, horder, hanswers.cons hmore (.inl rfl), hall, hleft⟩
  | case3 i log w _ w' hlast =>
    -- a running one ends it, and is the furthest now
    refine ⟨.running, [(i, .running)], _, rfl, hlog.concat _ hi,
      ⟨rfl, by simp, ?_, ?_, ?_, by decide⟩, by simp, ?_⟩
    · simp
    · simpa using hlast
    · simpa [Passes] using fun _ => hlast
    · rw [Left, if_pos rfl]
      refine ⟨rfl, hlast, ?_, fun k hk => List.mem_append_left _ (hi k hk)⟩
      rw [furthest_concat, if_pos rfl, hfurthest]
      exact (Nat.max_eq_right hlast).symm
  | case4 i log w hmore w' hlast _ log' ih =>
    -- below the furthest one, that has succeeded before and only runs again
    have hi' : ∀ k < i + 1, (k, NodeStatus.success) ∈ log' :=
      fun k hk => List.mem_append_left _ (hold k (by omega))
    have hfurthest' : furthest log' = last := by
      rw [furthest_concat, if_pos rfl, hfurthest]
      exact Nat.max_eq_left (by omega)
    obtain ⟨q, answers, s', hloop, horder, hanswers, hall, hleft⟩ :=
      ih (hlog.concat _ hi) hi' (fun k hk => List.mem_append_left _ (hold k hk)) hfurthest'
    have hlog' : log' ++ answers = log ++ (i, .running) :: answers := List.append_assoc ..
    rw [hlog'] at hloop horder hall hleft
    exact ⟨q, _, s', hloop, horder, hanswers.cons hmore (.inr ⟨rfl, by omega⟩), hall, hleft⟩
  | case5 i log w _ w' hidle => exact absurd (congrArg Prod.fst hidle) (hc i w)
  | case6 i log w hmore =>
    refine ⟨.success, [], reset c w, by rw [List.append_nil], by rwa [List.append_nil],
      ⟨rfl, by simp, by simp, by simp, ?_, by decide⟩, ?_, ?_⟩
    · simp
      omega
    · intro _ k hk
      rw [List.append_nil]
      exact hi k (by omega)
    · rw [Left, if_neg (by decide)]
      exact ⟨w, rfl⟩

/-- What holds of a node in every run. -/
structure Inv (s : PipelineSequence σ) : Prop where
  order : InOrder s.log
  last : ∀ k < s.lastChildTicked, (k, NodeStatus.success) ∈ s.log
  furthest : furthest s.log = s.lastChildTicked

theorem inv_start (w : σ) : Inv { world := w } where
  order before a after h := by simp at h
  last k hk := absurd hk (Nat.not_lt_zero k)
  furthest := rfl

theorem inv_run (hc : c.Answering) (w : σ) (events : List Event) :
    Inv (run c n { world := w } events) := by
  refine Runs.run_invariant (inv_start w) fun s event h => ?_
  cases event with
  | tick =>
    obtain ⟨q, answers, s', hloop, horder, -, -, hleft⟩ := loop_spec (n := n) (w := s.world) hc
      h.order (fun k hk => absurd hk (Nat.not_lt_zero k)) h.last h.furthest
    rw [step, tick, hloop]
    rw [Left] at hleft
    split_ifs at hleft
    · obtain ⟨hlog, -, hfurthest, hlast⟩ := hleft
      exact ⟨by rw [hlog]; exact horder, by rw [hlog]; exact hlast, by rw [hlog, hfurthest]⟩
    · obtain ⟨w', rfl⟩ := hleft
      exact inv_start _
  | halt => exact inv_start _

/-- **The pipeline.**  A tick always ends.  It goes through the children in their order, past those
that succeed, and past a running one only below the furthest child that was running.  Over a whole
run, a child is ticked only after every child before it has succeeded since the last reset; and at
SUCCESS every child has. -/
theorem pipeline_answer (hc : c.Answering) (w : σ) (events : List Event) :
    let s := run c n { world := w } events
    ∃ q answers s', s.tick c n = (some q, s.log ++ answers, s') ∧
      Answers n (furthest s.log) 0 q answers ∧ s.lastChildTicked = furthest s.log ∧
      (∀ before a after, s.log ++ answers = before ++ a :: after →
        ∀ k < a.1, (k, .success) ∈ before) ∧
      (q = .success → ∀ k < n, (k, .success) ∈ s.log ++ answers) ∧
      (q = .running → s'.log = s.log ++ answers ∧ s.lastChildTicked ≤ s'.lastChildTicked) ∧
      (q ≠ .running → s'.log = [] ∧ s'.lastChildTicked = 0) := by
  intro s
  have h : Inv s := inv_run hc w events
  obtain ⟨q, answers, s', hloop, horder, hanswers, hall, hleft⟩ := loop_spec (n := n)
    (w := s.world) hc h.order (fun k hk => absurd hk (Nat.not_lt_zero k)) h.last h.furthest
  rw [← h.furthest] at hanswers
  refine ⟨q, answers, s', hloop, hanswers, h.furthest.symm, horder, hall, ?_, ?_⟩
  · rintro rfl
    rw [Left, if_pos rfl] at hleft
    exact ⟨hleft.1, hleft.2.1⟩
  · intro hq
    rw [Left, if_neg hq] at hleft
    obtain ⟨w', rfl⟩ := hleft
    exact ⟨rfl, rfl⟩

/-- The second child runs at the first tick; at the next one the first child runs again, and the
second succeeds. -/
def refilled : Children ℕ := scripted [.success, .running, .running, .success]

theorem pipeline_answer_refilled :
    let s := run refilled 2 { world := 0 } [.tick]
    ∃ q answers s', s.tick refilled 2 = (some q, s.log ++ answers, s') ∧
      Answers 2 (furthest s.log) 0 q answers ∧ s.lastChildTicked = furthest s.log ∧
      (∀ before a after, s.log ++ answers = before ++ a :: after →
        ∀ k < a.1, (k, .success) ∈ before) ∧
      (q = .success → ∀ k < 2, (k, .success) ∈ s.log ++ answers) ∧
      (q = .running → s'.log = s.log ++ answers ∧ s.lastChildTicked ≤ s'.lastChildTicked) ∧
      (q ≠ .running → s'.log = [] ∧ s'.lastChildTicked = 0) :=
  pipeline_answer (scripted_answering (by decide)) 0 [.tick]

end PipelineSequence

end BehaviorTree
