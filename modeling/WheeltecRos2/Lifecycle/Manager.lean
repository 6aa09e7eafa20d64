/-
The manager that brings the navigation servers up and down, `LifecycleManager`.

It asks each server over services to change its state, watches them over bonds, and starts them
again after a crash.  A run is any sequence of commands, timer ticks, crashes and restarts
(`Event`), in which the servers answer a request as they like (`Env`).

* `Manager.step` is one event; `none` is an access through a null pointer.
* `active_nodes`: while the manager reports the system active, every server that has not crashed
  since is active, and has a bond.
* `null_iff`: the pointers are null only after the command to shut down, which destroys the
  clients of the services.

A request takes effect at once: a server that crashes during an operation does so at a request,
before or after it.
-/
import WheeltecRos2.Lib.Runs
import Mathlib.Logic.Function.Basic

namespace Lifecycle

/-- The primary states of a managed node. -/
inductive State
  | unconfigured
  | inactive
  | active
  | finalized
  deriving DecidableEq

/-- The transitions that the manager asks for. -/
inductive Transition
  | configure
  | cleanup
  | activate
  | deactivate
  | unconfiguredShutdown
  deriving DecidableEq

/-- `transition_state_map_` -/
def Transition.goal : Transition → State
  | .configure => .inactive
  | .cleanup => .unconfigured
  | .activate => .active
  | .deactivate => .inactive
  | .unconfiguredShutdown => .finalized

/-- The state in which a node takes the transition; in every other it refuses. -/
def Transition.source : Transition → State
  | .configure => .unconfigured
  | .cleanup => .inactive
  | .activate => .inactive
  | .deactivate => .active
  | .unconfiguredShutdown => .unconfigured

theorem Transition.goal_ne_source (t : Transition) : t.goal ≠ t.source := by
  cases t <;> decide

/-- How a node takes a transition: it ends in some state, or its process dies. -/
inductive Reply
  | lands (q : State)
  | gone

/-- What the outside decides during an event. -/
structure Env (ν : Type*) where
  reply : ν → Transition → Reply
  /-- `waitUntilFormed` -/
  formed : ν → Bool
  /-- `isBroken` -/
  broken : ν → Bool

/-- The parameters of the manager. -/
structure Config (ν : Type*) where
  /-- `node_names_`, in the order of bring-up. -/
  names : List ν
  /-- `bond_timeout_.count() > 0` -/
  bondTimeout : Bool
  attemptRespawnReconnection : Bool
  bondRespawnMaxDuration : ℕ

/-- The manager, and the nodes it manages. -/
structure Manager (ν : Type*) where
  /-- The state of a node, if its services are there. -/
  node : ν → Option State
  /-- The entries of `bond_map_`. -/
  bonded : ν → Bool := fun _ => false
  systemActive : Bool := false
  bondTimer : Bool := false
  bondRespawnTimer : Bool := false
  /-- Zero as long as it is not set. -/
  bondRespawnStartTime : ℕ := 0
  /-- `node_map_` holds clients and not null pointers. -/
  clients : Bool := true

/-- How `changeStateForNode` ends: it returns true or false, or throws. -/
inductive Answer
  | changed
  | failed
  | thrown
  deriving DecidableEq

inductive Command
  | startup
  | reset
  | shutdown
  | pause
  | resume
  deriving DecidableEq

/-- What a run consists of. -/
inductive Event (ν : Type*)
  | command (request : Command) (env : Env ν)
  | bondTick (env : Env ν)
  | respawnTick (now : ℕ) (env : Env ν)
  | crash (n : ν)
  | respawn (n : ν)

namespace Manager

variable {ν : Type*} [DecidableEq ν] (c : Config ν) (e : Env ν)

/-- `createBondConnection`: an entry of the map stays, also if the bond does not form. -/
def createBondConnection (m : Manager ν) (n : ν) : Answer × Manager ν :=
  if m.bonded n = false ∧ c.bondTimeout then
    (if e.formed n then .changed else .failed, { m with bonded := Function.update m.bonded n true })
  else (.changed, m)

/-- The end of `changeStateForNode`, with the answer of `get_state`.  The answer to the request
itself is not looked at, so a node that is where it should be has changed. -/
def confirm (m : Manager ν) (n : ν) (t : Transition) (q : State) : Answer × Manager ν :=
  if q = t.goal then
    if t = .activate then m.createBondConnection c e n
    else if t = .deactivate then
      (.changed, { m with bonded := Function.update m.bonded n false })
    else (.changed, m)
  else (.failed, m)

/-- `changeStateForNode` -/
def changeStateForNode (t : Transition) (m : Manager ν) (n : ν) : Option (Answer × Manager ν) :=
  if m.clients then
    match m.node n with
    | none => some (.thrown, m)
    | some q =>
      if q = t.source then
        match e.reply n t with
        | .lands q => some (confirm c e { m with node := Function.update m.node n (some q) } n t q)
        | .gone => some (.thrown, { m with node := Function.update m.node n none })
      else some (confirm c e m n t q)
  else none

/-- The loop of `changeStateForAllNodes`. -/
def changeStates (t : Transition) (hardChange : Bool) :
    List ν → Manager ν → Option (Bool × Manager ν)
  | [], m => some (true, m)
  | n :: ns, m => do
    let (answer, m) ← changeStateForNode c e t m n
    match answer with
    | .changed => changeStates t hardChange ns m
    | .failed => if hardChange then changeStates t hardChange ns m else some (false, m)
    | .thrown => some (false, m)

/-- `changeStateForAllNodes` -/
def changeStateForAllNodes (t : Transition) (hardChange : Bool) (m : Manager ν) :
    Option (Bool × Manager ν) :=
  changeStates c e t hardChange
    (if t = .configure ∨ t = .activate then c.names else c.names.reverse) m

def createBondTimer (m : Manager ν) : Manager ν :=
  if c.bondTimeout then { m with bondTimer := true } else m

def destroyBondTimer (m : Manager ν) : Manager ν := { m with bondTimer := false }

/-- The end of `startup` and of `resume`. -/
def report (m : Manager ν) : Manager ν := createBondTimer c { m with systemActive := true }

/-- The beginning of `shutdown`, `reset` and `pause`. -/
def suspend (m : Manager ν) : Manager ν := destroyBondTimer { m with systemActive := false }

def startup (m : Manager ν) : Option (Bool × Manager ν) := do
  let (configured, m) ← changeStateForAllNodes c e .configure false m
  if configured then
    let (activated, m) ← changeStateForAllNodes c e .activate false m
    if activated then some (true, report c m) else some (false, m)
  else some (false, m)

def shutdownAllNodes (m : Manager ν) : Option (Manager ν) := do
  let (_, m) ← changeStateForAllNodes c e .deactivate false m
  let (_, m) ← changeStateForAllNodes c e .cleanup false m
  let (_, m) ← changeStateForAllNodes c e .unconfiguredShutdown false m
  some m

def shutdown (m : Manager ν) : Option (Bool × Manager ν) := do
  let m ← shutdownAllNodes c e m.suspend
  some (true, { m with clients := false })

def reset (hardReset : Bool) (m : Manager ν) : Option (Bool × Manager ν) := do
  let (deactivated, m) ← changeStateForAllNodes c e .deactivate hardReset m.suspend
  if deactivated then
    let (cleaned, m) ← changeStateForAllNodes c e .cleanup hardReset m
    some (cleaned || hardReset, m)
  else some (hardReset, m)

def pause (m : Manager ν) : Option (Bool × Manager ν) :=
  changeStateForAllNodes c e .deactivate false m.suspend

def resume (m : Manager ν) : Option (Bool × Manager ν) := do
  let (activated, m) ← changeStateForAllNodes c e .activate false m
  if activated then some (true, report c m) else some (false, m)

/-- `managerCallback` -/
def managerCallback (m : Manager ν) : Command → Option (Bool × Manager ν)
  | .startup => startup c e m
  | .reset => reset c e false m
  | .shutdown => shutdown c e m
  | .pause => pause c e m
  | .resume => resume c e m

/-- The answer to a broken bond. -/
def bringDown (m : Manager ν) : Option (Manager ν) := do
  let (_, m) ← reset c e true m
  let m := { m with bonded := fun _ => false }
  some (if c.attemptRespawnReconnection then { m with bondRespawnTimer := true } else m)

/-- The loop of `checkBondConnections`, over `bond_map_[node_name]->isBroken()`. -/
def findBroken (m : Manager ν) : List ν → Option (Manager ν)
  | [] => some m
  | n :: ns =>
    if m.bonded n then if e.broken n then bringDown c e m else findBroken m ns
    else none

/-- `checkBondConnections` -/
def checkBondConnections (m : Manager ν) : Option (Manager ν) :=
  if m.systemActive = false ∨ c.names.all (fun n => !m.bonded n) then some m
  else findBroken c e m c.names

/-- `bond_respawn_timer_` off. -/
def endRespawn (m : Manager ν) : Manager ν :=
  { m with bondRespawnStartTime := 0, bondRespawnTimer := false }

/-- `checkBondRespawnConnection` -/
def checkBondRespawnConnection (now : ℕ) (m : Manager ν) : Option (Manager ν) :=
  let m := if m.bondRespawnStartTime = 0 then { m with bondRespawnStartTime := now } else m
  if m.systemActive ∨ c.names = [] then some m.endRespawn
  else if m.clients then
    if c.names.all (fun n => (m.node n).isSome) then (startup c e m.endRespawn).map Prod.snd
    else if c.bondRespawnMaxDuration ≤ now - m.bondRespawnStartTime then some m.endRespawn
    else some m
  else none

/-- One event.  A timer that is off does not tick. -/
def step (m : Manager ν) : Event ν → Option (Manager ν)
  | .command request env => (managerCallback c env m request).map Prod.snd
  | .bondTick env => if m.bondTimer then checkBondConnections c env m else some m
  | .respawnTick now env =>
    if m.bondRespawnTimer then checkBondRespawnConnection c env now m else some m
  | .crash n => some { m with node := Function.update m.node n none }
  | .respawn n => some { m with node := Function.update m.node n (some .unconfigured) }

/-- The state after a run. -/
def run (m : Manager ν) (events : List (Event ν)) : Option (Manager ν) := events.foldlM (step c) m

/-- Power on. -/
def init (node : ν → Option State) : Manager ν := { node }

end Manager

/-! ### What a loop over the nodes does -/

namespace Manager

section Moves

variable {ν : Type*} {c : Config ν} {t : Transition} {m m' m'' : Manager ν}

/-- What requests for `t` leave as it is. -/
structure Moves (t : Transition) (m m' : Manager ν) : Prop where
  systemActive : m'.systemActive = m.systemActive
  bondTimer : m'.bondTimer = m.bondTimer
  bondRespawnTimer : m'.bondRespawnTimer = m.bondRespawnTimer
  clients : m'.clients = m.clients
  node {n : ν} {q : State} : m.node n = some q → q ≠ t.source → m'.node n = some q
  bonded {n : ν} : t ≠ .deactivate → m.bonded n → m'.bonded n

theorem Moves.refl (t : Transition) (m : Manager ν) : Moves t m m :=
  ⟨rfl, rfl, rfl, rfl, fun h _ => h, fun _ h => h⟩

theorem Moves.trans (h : Moves t m m') (h' : Moves t m' m'') : Moves t m m'' where
  systemActive := h'.systemActive.trans h.systemActive
  bondTimer := h'.bondTimer.trans h.bondTimer
  bondRespawnTimer := h'.bondRespawnTimer.trans h.bondRespawnTimer
  clients := h'.clients.trans h.clients
  node hn hq := h'.node (h.node hn hq) hq
  bonded ht hn := h'.bonded ht (h.bonded ht hn)

/-- A node that has changed: it is where it should be, and active nodes are watched. -/
structure Changed (c : Config ν) (t : Transition) (m : Manager ν) (n : ν) : Prop where
  node : m.node n = some t.goal
  bonded : t = .activate → c.bondTimeout → m.bonded n

theorem Changed.moves {n : ν} (h : Changed c t m n) (hmoves : Moves t m m') : Changed c t m' n where
  node := hmoves.node h.node t.goal_ne_source
  bonded ht hc := hmoves.bonded (by rw [ht]; decide) (h.bonded ht hc)

/-- What holds in every state of a run. -/
structure Inv (c : Config ν) (m : Manager ν) : Prop where
  timer : m.bondTimer → c.bondTimeout
  bonds : m.systemActive → c.bondTimeout → ∀ n ∈ c.names, m.bonded n
  clients : m.clients = false → m.systemActive = false ∧ m.bondTimer = false

theorem inv_init (node : ν → Option State) : Inv c (init node) :=
  ⟨by simp [init], by simp [init], by simp [init]⟩

/-- What a command and a tick can do. -/
inductive Outcome (c : Config ν) (m m' : Manager ν) : Prop
  | up (all : ∀ n ∈ c.names, Changed c .activate m' n) (timer : m'.bondTimer → c.bondTimeout)
      (clients : m'.clients)
  | kept (systemActive : m'.systemActive = m.systemActive) (bondTimer : m'.bondTimer = m.bondTimer)
      (clients : m'.clients = m.clients)
      (node : ∀ n, m.node n = some .active → m'.node n = some .active)
      (bonded : ∀ n, m.bonded n → m'.bonded n)
  | down (systemActive : m'.systemActive = false) (bondTimer : m'.bondTimer = false)

theorem Outcome.refl (c : Config ν) (m : Manager ν) : Outcome c m m :=
  .kept rfl rfl rfl (fun _ h => h) (fun _ h => h)

theorem Outcome.of_timer {timer : Bool} {start : ℕ}
    (h : Outcome c { m with bondRespawnTimer := timer, bondRespawnStartTime := start } m') :
    Outcome c m m' := by
  cases h with
  | up all htimer hclients => exact .up all htimer hclients
  | kept hactive htimer hclients hnode hbonded =>
    exact .kept hactive htimer hclients hnode hbonded
  | down hactive htimer => exact .down hactive htimer

/-- Passes that only bring nodes up. -/
theorem Outcome.of_moves (h : Moves t m m') (ht : t = .configure ∨ t = .activate) :
    Outcome c m m' := by
  refine .kept h.systemActive h.bondTimer h.clients (fun n hn => h.node hn ?_)
    (fun n hn => h.bonded ?_ hn)
  · rcases ht with rfl | rfl <;> decide
  · rcases ht with rfl | rfl <;> decide

theorem Outcome.trans_moves {m'' : Manager ν} (h : Moves .configure m m')
    (h' : Moves .activate m' m'') : Outcome c m m'' :=
  .kept (h'.systemActive.trans h.systemActive) (h'.bondTimer.trans h.bondTimer)
    (h'.clients.trans h.clients) (fun _ hn => h'.node (h.node hn (by decide)) (by decide))
    (fun _ hn => h'.bonded (by decide) (h.bonded (by decide) hn))

@[simp] theorem report_clients : (report c m).clients = m.clients := by
  rw [report, createBondTimer]
  split_ifs
  · rfl
  · rfl

theorem report_outcome (hinv : Inv c m) (hclients : m'.clients)
    (htimer : m'.bondTimer = m.bondTimer) (hall : ∀ n ∈ c.names, Changed c .activate m' n) :
    Outcome c m (report c m') := by
  rw [report, createBondTimer]
  split_ifs with hbond
  · exact .up (fun n hn => ⟨(hall n hn).node, (hall n hn).bonded⟩) (fun _ => hbond) hclients
  · exact .up (fun n hn => ⟨(hall n hn).node, (hall n hn).bonded⟩)
      (fun h => hinv.timer (htimer ▸ h)) hclients

end Moves

variable {ν : Type*} [DecidableEq ν] {c : Config ν} {e : Env ν} {t : Transition}
  {m m' : Manager ν} {n : ν} {ns : List ν}

theorem createBondConnection_spec (hn : m.node n = some State.active) :
    Moves .activate m (createBondConnection c e m n).2 ∧
      Changed c .activate (createBondConnection c e m n).2 n := by
  rw [createBondConnection]
  by_cases hnew : m.bonded n = false ∧ c.bondTimeout
  · rw [if_pos hnew]
    refine ⟨⟨rfl, rfl, rfl, rfl, fun h _ => h, ?_⟩, hn, fun _ _ => by simp⟩
    intro k _ hk
    show Function.update m.bonded n true k = true
    by_cases hkn : k = n
    · rw [hkn, Function.update_self]
    · rw [Function.update_of_ne hkn, hk]
  · rw [if_neg hnew]
    refine ⟨Moves.refl _ _, hn, fun _ hbond => ?_⟩
    by_contra hnone
    exact hnew ⟨by simpa using hnone, hbond⟩

theorem confirm_spec {q : State} (hq : m.node n = some q) :
    Moves t m (confirm c e m n t q).2 ∧
      ((confirm c e m n t q).1 = .changed → Changed c t (confirm c e m n t q).2 n) := by
  rw [confirm]
  split_ifs with hgoal hactivate hdeactivate
  · subst hactivate
    obtain ⟨hmoves, hchanged⟩ :=
      createBondConnection_spec (c := c) (e := e) (hq.trans (hgoal ▸ rfl))
    exact ⟨hmoves, fun _ => hchanged⟩
  · subst hdeactivate
    refine ⟨⟨rfl, rfl, rfl, rfl, fun h _ => h, fun h => absurd rfl h⟩, fun _ => ?_⟩
    exact ⟨hgoal ▸ hq, fun h => by cases h⟩
  · exact ⟨Moves.refl _ _, fun _ => ⟨hgoal ▸ hq, fun h => absurd h hactivate⟩⟩
  · exact ⟨Moves.refl _ _, fun h => by cases h⟩

/-- One request: there is an access through a null pointer only without clients, and a node that
is said to have changed has. -/
theorem changeStateForNode_spec (hclients : m.clients) :
    ∃ answer m', changeStateForNode c e t m n = some (answer, m') ∧ Moves t m m' ∧
      (answer = .changed → Changed c t m' n) := by
  rw [changeStateForNode, if_pos hclients]
  cases hn : m.node n with
  | none => exact ⟨_, _, rfl, Moves.refl _ _, fun h => by cases h⟩
  | some q =>
    dsimp only
    split_ifs with hsource
    · -- only a node in the source state is touched
      have hmoves : ∀ next, Moves t m { m with node := Function.update m.node n next } := by
        refine fun next => ⟨rfl, rfl, rfl, rfl, ?_, fun _ h => h⟩
        intro k q' hk hq'
        by_cases hkn : k = n
        · rw [hkn, hn] at hk
          cases hk
          exact absurd hsource hq'
        · simpa [hkn] using hk
      cases e.reply n t with
      | lands q' =>
        obtain ⟨hmove, hchanged⟩ := confirm_spec (c := c) (e := e) (t := t)
          (m := { m with node := Function.update m.node n (some q') }) (n := n) (q := q') (by simp)
        exact ⟨_, _, rfl, (hmoves (some q')).trans hmove, hchanged⟩
      | gone => exact ⟨_, _, rfl, hmoves none, fun h => by cases h⟩
    · obtain ⟨hmove, hchanged⟩ := confirm_spec (c := c) (e := e) (t := t) hn
      exact ⟨_, _, rfl, hmove, hchanged⟩

/-- A pass over nodes.  If it is said to have succeeded, all of them have changed. -/
theorem changeStates_spec (hclients : m.clients) (hard : Bool) (ns : List ν) :
    ∃ ok m', changeStates c e t hard ns m = some (ok, m') ∧ Moves t m m' ∧
      (ok → hard = false → ∀ n ∈ ns, Changed c t m' n) := by
  induction ns generalizing m with
  | nil => exact ⟨true, m, rfl, Moves.refl _ _, fun _ _ n hn => absurd hn List.not_mem_nil⟩
  | cons n ns ih =>
    obtain ⟨answer, m₁, hnode, hmoves, hchanged⟩ :=
      changeStateForNode_spec (c := c) (e := e) (t := t) (n := n) hclients
    have hrest := ih (m := m₁) (hmoves.clients.trans hclients)
    obtain ⟨ok, m₂, hpass, hmoves', hall⟩ := hrest
    rw [changeStates, hnode]
    cases answer with
    | changed =>
      refine ⟨ok, m₂, hpass, hmoves.trans hmoves', fun hok hhard k hk => ?_⟩
      rcases List.mem_cons.mp hk with rfl | hk
      · exact (hchanged rfl).moves hmoves'
      · exact hall hok hhard k hk
    | failed =>
      cases hard with
      | true => exact ⟨ok, m₂, hpass, hmoves.trans hmoves', fun _ h => by cases h⟩
      | false => exact ⟨false, m₁, rfl, hmoves, fun h => by cases h⟩
    | thrown => exact ⟨false, m₁, rfl, hmoves, fun h => by cases h⟩

theorem changeStateForAllNodes_spec (hclients : m.clients) (hard : Bool) :
    ∃ ok m', changeStateForAllNodes c e t hard m = some (ok, m') ∧ Moves t m m' ∧
      (ok → hard = false → ∀ n ∈ c.names, Changed c t m' n) := by
  obtain ⟨ok, m', hpass, hmoves, hall⟩ :=
    changeStates_spec (c := c) (e := e) (t := t) hclients hard
      (if t = .configure ∨ t = .activate then c.names else c.names.reverse)
  refine ⟨ok, m', hpass, hmoves, fun hok hhard n hn => hall hok hhard n ?_⟩
  split_ifs
  · exact hn
  · exact List.mem_reverse.mpr hn

/-- Without clients every pass over nodes is an access through a null pointer. -/
theorem changeStateForAllNodes_null (hclients : m.clients = false) (hnames : c.names ≠ [])
    (hard : Bool) : changeStateForAllNodes c e t hard m = none := by
  have hnull : ∀ ns : List ν, ns ≠ [] → changeStates c e t hard ns m = none := by
    intro ns hns
    obtain ⟨n, ns, rfl⟩ := List.exists_cons_of_ne_nil hns
    rw [changeStates, changeStateForNode, hclients]
    rfl
  rw [changeStateForAllNodes]
  split_ifs
  · exact hnull _ hnames
  · exact hnull _ (by simpa using hnames)

/-! ### What an event does -/

theorem startup_spec (hinv : Inv c m) (hclients : m.clients) :
    ∃ ok m', startup c e m = some (ok, m') ∧ Outcome c m m' ∧ m'.clients := by
  obtain ⟨configured, m₁, hpass, hmoves, -⟩ :=
    changeStateForAllNodes_spec (c := c) (e := e) (t := .configure) hclients false
  have hclients₁ := hmoves.clients.trans hclients
  obtain ⟨activated, m₂, hpass', hmoves', hall⟩ :=
    changeStateForAllNodes_spec (c := c) (e := e) (t := .activate) hclients₁ false
  have hclients₂ := hmoves'.clients.trans hclients₁
  rw [startup, hpass]
  cases configured with
  | false => exact ⟨false, m₁, rfl, .of_moves hmoves (.inl rfl), hclients₁⟩
  | true =>
    show ∃ ok m', ((changeStateForAllNodes c e .activate false m₁).bind _) = some (ok, m') ∧ _
    rw [hpass']
    cases activated with
    | false => exact ⟨false, m₂, rfl, .trans_moves hmoves hmoves', hclients₂⟩
    | true =>
      refine ⟨true, report c m₂, rfl, ?_, ?_⟩
      · exact report_outcome hinv hclients₂ (hmoves'.bondTimer.trans hmoves.bondTimer)
          (hall rfl rfl)
      · exact report_clients.trans hclients₂

theorem resume_spec (hinv : Inv c m) (hclients : m.clients) :
    ∃ ok m', resume c e m = some (ok, m') ∧ Outcome c m m' ∧ m'.clients := by
  obtain ⟨activated, m₁, hpass, hmoves, hall⟩ :=
    changeStateForAllNodes_spec (c := c) (e := e) (t := .activate) hclients false
  have hclients₁ := hmoves.clients.trans hclients
  rw [resume, hpass]
  cases activated with
  | false => exact ⟨false, m₁, rfl, .of_moves hmoves (.inr rfl), hclients₁⟩
  | true =>
    exact ⟨true, report c m₁, rfl, report_outcome hinv hclients₁ hmoves.bondTimer (hall rfl rfl),
      report_clients.trans hclients₁⟩

/-- A pass down, after `suspend`. -/
theorem pass_down (hclients : m.clients) (hard : Bool) (hactive : m.systemActive = false)
    (htimer : m.bondTimer = false) :
    ∃ ok m', changeStateForAllNodes c e t hard m = some (ok, m') ∧ m'.systemActive = false ∧
      m'.bondTimer = false ∧ m'.clients ∧ m'.bondRespawnTimer = m.bondRespawnTimer := by
  obtain ⟨ok, m', hpass, hmoves, -⟩ :=
    changeStateForAllNodes_spec (c := c) (e := e) (t := t) hclients hard
  exact ⟨ok, m', hpass, hmoves.systemActive.trans hactive, hmoves.bondTimer.trans htimer,
    hmoves.clients.trans hclients, hmoves.bondRespawnTimer⟩

theorem shutdown_spec (hclients : m.clients) :
    ∃ m', shutdown c e m = some (true, m') ∧ m'.systemActive = false ∧ m'.bondTimer = false ∧
      m'.clients = false ∧ m'.bondRespawnTimer = m.bondRespawnTimer := by
  obtain ⟨_, m₁, hpass₁, hactive₁, htimer₁, hclients₁, hrespawn₁⟩ :=
    pass_down (c := c) (e := e) (t := .deactivate) (m := m.suspend) hclients false rfl rfl
  obtain ⟨_, m₂, hpass₂, hactive₂, htimer₂, hclients₂, hrespawn₂⟩ :=
    pass_down (c := c) (e := e) (t := .cleanup) hclients₁ false hactive₁ htimer₁
  obtain ⟨_, m₃, hpass₃, hactive₃, htimer₃, -, hrespawn₃⟩ :=
    pass_down (c := c) (e := e) (t := .unconfiguredShutdown) hclients₂ false hactive₂ htimer₂
  refine ⟨{ m₃ with clients := false }, ?_, hactive₃, htimer₃, rfl,
    hrespawn₃.trans (hrespawn₂.trans hrespawn₁)⟩
  simp [shutdown, shutdownAllNodes, hpass₁, hpass₂, hpass₃]

theorem reset_spec (hclients : m.clients) (hard : Bool) :
    ∃ ok m', reset c e hard m = some (ok, m') ∧ m'.systemActive = false ∧
      m'.bondTimer = false ∧ m'.clients := by
  obtain ⟨deactivated, m₁, hpass₁, hactive₁, htimer₁, hclients₁, -⟩ :=
    pass_down (c := c) (e := e) (t := .deactivate) (m := m.suspend) hclients hard rfl rfl
  obtain ⟨cleaned, m₂, hpass₂, hactive₂, htimer₂, hclients₂, -⟩ :=
    pass_down (c := c) (e := e) (t := .cleanup) hclients₁ hard hactive₁ htimer₁
  cases deactivated with
  | false => exact ⟨hard, m₁, by simp [reset, hpass₁], hactive₁, htimer₁, hclients₁⟩
  | true =>
    exact ⟨cleaned || hard, m₂, by simp [reset, hpass₁, hpass₂], hactive₂, htimer₂, hclients₂⟩

/-- A command, given the clients.  Only the one to shut down destroys them. -/
theorem managerCallback_spec (hinv : Inv c m) (hclients : m.clients) (request : Command) :
    ∃ ok m', managerCallback c e m request = some (ok, m') ∧ Outcome c m m' ∧
      (m'.clients = false ↔ request = .shutdown) := by
  cases request with
  | startup =>
    obtain ⟨ok, m', hrun, hout, hc⟩ := startup_spec (e := e) hinv hclients
    exact ⟨ok, m', hrun, hout, by simp [hc]⟩
  | reset =>
    obtain ⟨ok, m', hrun, hactive, htimer, hc⟩ := reset_spec (c := c) (e := e) hclients false
    exact ⟨ok, m', hrun, .down hactive htimer, by simp [hc]⟩
  | shutdown =>
    obtain ⟨m', hrun, hactive, htimer, hc, -⟩ := shutdown_spec (c := c) (e := e) hclients
    exact ⟨true, m', hrun, .down hactive htimer, by simp [hc]⟩
  | pause =>
    obtain ⟨ok, m', hrun, hactive, htimer, hc, -⟩ :=
      pass_down (c := c) (e := e) (t := .deactivate) (m := m.suspend) hclients false rfl rfl
    exact ⟨ok, m', hrun, .down hactive htimer, by simp [hc]⟩
  | resume =>
    obtain ⟨ok, m', hrun, hout, hc⟩ := resume_spec (e := e) hinv hclients
    exact ⟨ok, m', hrun, hout, by simp [hc]⟩

/-- Every command starts with a pass. -/
theorem managerCallback_null (hclients : m.clients = false) (hnames : c.names ≠ [])
    (request : Command) : managerCallback c e m request = none := by
  have hsuspend : m.suspend.clients = false := hclients
  cases request <;>
    simp [managerCallback, startup, reset, shutdown, shutdownAllNodes, pause, resume,
      changeStateForAllNodes_null, hclients, hsuspend, hnames]

theorem bringDown_spec (hclients : m.clients) :
    ∃ m', bringDown c e m = some m' ∧ Outcome c m m' ∧ m'.clients := by
  obtain ⟨_, m₁, hreset, hactive, htimer, hclients₁⟩ := reset_spec (c := c) (e := e) hclients true
  refine ⟨_, by rw [bringDown, hreset]; rfl, ?_, ?_⟩
  · split_ifs
    · exact .down hactive htimer
    · exact .down hactive htimer
  · split_ifs
    · exact hclients₁
    · exact hclients₁

theorem findBroken_spec (hclients : m.clients) (hbonds : ∀ n ∈ ns, m.bonded n) :
    ∃ m', findBroken c e m ns = some m' ∧ Outcome c m m' ∧ m'.clients := by
  induction ns with
  | nil => exact ⟨m, rfl, .refl c m, hclients⟩
  | cons n ns ih =>
    rw [findBroken, if_pos (hbonds n (by simp))]
    split_ifs
    · exact bringDown_spec hclients
    · exact ih fun k hk => hbonds k (by simp [hk])

theorem checkBondConnections_spec (hinv : Inv c m) (hclients : m.clients) (htimer : m.bondTimer) :
    ∃ m', checkBondConnections c e m = some m' ∧ Outcome c m m' ∧ m'.clients := by
  rw [checkBondConnections]
  split_ifs with hidle
  · exact ⟨m, rfl, .refl c m, hclients⟩
  · rw [not_or, Bool.not_eq_false] at hidle
    exact findBroken_spec hclients (hinv.bonds hidle.1 (hinv.timer htimer))

theorem checkBondRespawnConnection_spec (hinv : Inv c m) (hclients : m.clients) (now : ℕ) :
    ∃ m', checkBondRespawnConnection c e now m = some m' ∧ Outcome c m m' ∧ m'.clients := by
  obtain ⟨start, hstart⟩ : ∃ start,
      (if m.bondRespawnStartTime = 0 then { m with bondRespawnStartTime := now } else m) =
        { m with bondRespawnStartTime := start } := by
    split_ifs
    · exact ⟨now, rfl⟩
    · exact ⟨m.bondRespawnStartTime, rfl⟩
  have hend : Outcome c m m.endRespawn := (Outcome.refl c m.endRespawn).of_timer
  simp only [checkBondRespawnConnection]
  rw [hstart]
  dsimp only
  rw [if_pos hclients]
  split_ifs
  · exact ⟨m.endRespawn, rfl, hend, hclients⟩
  · obtain ⟨ok, m', hrun, hout, hc⟩ :=
      startup_spec (e := e) (m := m.endRespawn) ⟨hinv.timer, hinv.bonds, hinv.clients⟩ hclients
    refine ⟨m', ?_, hout.of_timer, hc⟩
    show (startup c e m.endRespawn).map Prod.snd = some m'
    rw [hrun, Option.map_some]
  · exact ⟨m.endRespawn, rfl, hend, hclients⟩
  · exact ⟨{ m with bondRespawnStartTime := start }, rfl, (Outcome.refl c _).of_timer, hclients⟩

/-- **The step lemma.**  With the clients there is no access through a null pointer, and only the
command to shut down destroys them. -/
theorem step_spec (hinv : Inv c m) (hclients : m.clients) (event : Event ν) :
    ∃ m', step c m event = some m' ∧
      (m'.clients = false ↔ ∃ env, event = .command .shutdown env) ∧
      (Outcome c m m' ∨ ∃ n next, m' = { m with node := Function.update m.node n next } ∧
        (event = .crash n ∨ event = .respawn n)) := by
  cases event with
  | command request env =>
    obtain ⟨ok, m', hrun, hout, hc⟩ := managerCallback_spec (e := env) hinv hclients request
    refine ⟨m', ?_, ?_, .inl hout⟩
    · rw [step, hrun, Option.map_some]
    · rw [hc]
      constructor
      · intro h
        exact ⟨env, by rw [h]⟩
      · rintro ⟨env', h⟩
        injection h
  | bondTick env =>
    by_cases htimer : m.bondTimer
    · obtain ⟨m', hrun, hout, hc⟩ := checkBondConnections_spec (e := env) hinv hclients htimer
      exact ⟨m', by rw [step, if_pos htimer, hrun], by simp [hc], .inl hout⟩
    · exact ⟨m, by rw [step, if_neg htimer], by simp [hclients], .inl (.refl c m)⟩
  | respawnTick now env =>
    by_cases htimer : m.bondRespawnTimer
    · obtain ⟨m', hrun, hout, hc⟩ :=
        checkBondRespawnConnection_spec (e := env) hinv hclients now
      exact ⟨m', by rw [step, if_pos htimer, hrun], by simp [hc], .inl hout⟩
    · exact ⟨m, by rw [step, if_neg htimer], by simp [hclients], .inl (.refl c m)⟩
  | crash n => exact ⟨_, rfl, by simp [hclients], .inr ⟨n, none, rfl, .inl rfl⟩⟩
  | respawn n => exact ⟨_, rfl, by simp [hclients], .inr ⟨n, _, rfl, .inr rfl⟩⟩

/-- After a shutdown the manager only stands still, or goes through a null pointer. -/
theorem step_null (hinv : Inv c m) (hclients : m.clients = false) (hnames : c.names ≠ [])
    (event : Event ν) :
    (step c m event = none ↔ (∃ request env, event = .command request env) ∨
      m.bondRespawnTimer ∧ ∃ now env, event = .respawnTick now env) ∧
    ∀ m', step c m event = some m' → m'.systemActive = false ∧ m'.bondTimer = false ∧
      m'.clients = false ∧ m'.bondRespawnTimer = m.bondRespawnTimer := by
  obtain ⟨hactive, htimer⟩ := hinv.clients hclients
  cases event with
  | command request env => simp [step, managerCallback_null hclients hnames]
  | bondTick env => simp [step, htimer, hactive, hclients]
  | respawnTick now env =>
    by_cases hrespawn : m.bondRespawnTimer
    · have hnull : checkBondRespawnConnection c env now m = none := by
        rw [checkBondRespawnConnection]
        split_ifs <;> simp_all
      simp [step, hrespawn, hnull]
    · simp [step, hrespawn, htimer, hactive, hclients]
  | crash n => simp [step, htimer, hactive, hclients]
  | respawn n => simp [step, htimer, hactive, hclients]

/-! ### Runs -/

theorem inv_step (hinv : Inv c m) {event : Event ν} (hstep : step c m event = some m')
    (hnames : c.names ≠ []) : Inv c m' := by
  by_cases hclients : m.clients
  · obtain ⟨m₁, hstep₁, -, hout⟩ := step_spec hinv hclients event
    have hm : m₁ = m' := Option.some.inj (hstep₁.symm.trans hstep)
    subst hm
    rcases hout with hout | ⟨n, next, rfl, -⟩
    · cases hout with
      | up all htimer hc => exact ⟨htimer, fun _ hb n hn => (all n hn).bonded rfl hb, by simp [hc]⟩
      | kept hactive htimer hc _ hbonded =>
        refine ⟨?_, ?_, ?_⟩
        · rw [htimer]
          exact hinv.timer
        · intro h hb n hn
          exact hbonded n (hinv.bonds (hactive ▸ h) hb n hn)
        · rw [hactive, htimer, hc]
          exact hinv.clients
      | down hactive htimer =>
        exact ⟨by simp [htimer], by simp [hactive], fun _ => ⟨hactive, htimer⟩⟩
    · exact ⟨hinv.timer, hinv.bonds, hinv.clients⟩
  · rw [Bool.not_eq_true] at hclients
    obtain ⟨hactive, htimer, -, -⟩ := (step_null hinv hclients hnames event).2 m' hstep
    exact ⟨by simp [htimer], by simp [hactive], fun _ => ⟨hactive, htimer⟩⟩

theorem run_cons (event : Event ν) (events : List (Event ν)) :
    run c m (event :: events) = (step c m event).bind fun m' => run c m' events := rfl

theorem run_append (pre post : List (Event ν)) :
    run c m (pre ++ post) = (run c m pre).bind fun m' => run c m' post :=
  List.foldlM_append

/-- **The run lemma.** -/
theorem run_induction {I : Manager ν → Prop} {P : Event ν → Prop}
    (hkeep : ∀ m m' event, I m → P event → step c m event = some m' → I m')
    {events : List (Event ν)} (hm : I m) (hevents : ∀ event ∈ events, P event)
    (hrun : run c m events = some m') : I m' := by
  induction events generalizing m with
  | nil =>
    cases hrun
    exact hm
  | cons event events ih =>
    rw [run_cons] at hrun
    obtain ⟨m₁, hstep, hrun⟩ := Option.bind_eq_some_iff.mp hrun
    refine ih (hkeep m m₁ event hm (hevents event (by simp)) hstep) ?_ hrun
    intro event' hevent'
    exact hevents event' (by simp [hevent'])

theorem inv_run (hnames : c.names ≠ []) {events : List (Event ν)} (hinv : Inv c m)
    (hrun : run c m events = some m') : Inv c m' :=
  run_induction (P := fun _ => True) (fun _ _ _ h _ hstep => inv_step h hstep hnames) hinv
    (fun _ _ => trivial) hrun

/-- **What the report is worth.**  Whenever the manager reports the system active, every server of
its list that has not crashed since the system was last reported inactive is active, and watched
over a bond if there are bonds. -/
theorem active_nodes {node : ν → Option State} {pre post : List (Event ν)} (hn : n ∈ c.names)
    (hpre : ∀ m, run c (init node) pre = some m → m.systemActive = false)
    (hpost : ∀ event ∈ post, event ≠ .crash n ∧ event ≠ .respawn n)
    (hrun : run c (init node) (pre ++ post) = some m') (hactive : m'.systemActive) :
    m'.node n = some .active ∧ (c.bondTimeout → m'.bonded n) := by
  have hnames : c.names ≠ [] := List.ne_nil_of_mem hn
  rw [run_append] at hrun
  obtain ⟨m, hrun₁, hrun₂⟩ := Option.bind_eq_some_iff.mp hrun
  -- the last pass up left the server active, and only a pass down would touch it
  have hkept : Inv c m' ∧ (m'.systemActive → m'.node n = some .active) := by
    refine run_induction
      (I := fun k => Inv c k ∧ (k.systemActive → k.node n = some .active)) ?_
      ⟨inv_run hnames (inv_init node) hrun₁, ?_⟩ hpost hrun₂
    · intro k k' event hk hevent hstep
      refine ⟨inv_step hk.1 hstep hnames, fun hk' => ?_⟩
      by_cases hclients : k.clients
      · obtain ⟨k₁, hstep₁, -, hout⟩ := step_spec hk.1 hclients event
        obtain rfl : k₁ = k' := Option.some.inj (hstep₁.symm.trans hstep)
        rcases hout with hout | ⟨i, next, rfl, hi⟩
        · cases hout with
          | up all => exact (all n hn).node
          | kept hactive _ _ hnode => exact hnode n (hk.2 (hactive ▸ hk'))
          | down hactive => exact absurd hk' (by simp [hactive])
        · have hin : n ≠ i := by
            rintro rfl
            rcases hi with hi | hi
            · exact hevent.1 hi
            · exact hevent.2 hi
          show Function.update k.node i next n = _
          rw [Function.update_of_ne hin]
          exact hk.2 hk'
      · rw [Bool.not_eq_true] at hclients
        have hidle := ((step_null hk.1 hclients hnames event).2 k' hstep).1
        exact absurd hk' (by simp [hidle])
    · intro h
      exact absurd h (by simp [hpre m hrun₁])
  exact ⟨hkept.2 hactive, fun hb => hkept.1.bonds hactive hb n hn⟩

/-- Servers that do what they are asked for. -/
def obedient (ν : Type*) : Env ν where
  reply _ t := .lands t.goal
  formed _ := true
  broken _ := false

theorem active_nodes_startup :
    ∃ m, run ⟨[false, true], true, true, 10⟩ (init fun _ => some .unconfigured)
        ([] ++ [.command .startup (obedient Bool), .bondTick (obedient Bool)]) = some m ∧
      m.systemActive ∧ m.node true = some .active := by
  have hn : true ∈ Config.names ⟨[false, true], true, true, 10⟩ := by simp
  have hpre : ∀ m, run ⟨[false, true], true, true, 10⟩ (init fun _ => some .unconfigured) [] =
      some m → m.systemActive = false := by
    rintro _ ⟨⟩
    rfl
  have hpost : ∀ event ∈ [Event.command .startup (obedient Bool), .bondTick (obedient Bool)],
      event ≠ .crash true ∧ event ≠ .respawn true := by simp
  exact ⟨_, rfl, rfl, (active_nodes hn hpre hpost rfl rfl).1⟩

/-- Without the command to shut down a run goes through no null pointer. -/
theorem run_isSome (hnames : c.names ≠ []) {events : List (Event ν)} (hinv : Inv c m)
    (hclients : m.clients) (hevents : ∀ event ∈ events, ∀ env, event ≠ .command .shutdown env) :
    ∃ m', run c m events = some m' ∧ Inv c m' ∧ m'.clients := by
  induction events generalizing m with
  | nil => exact ⟨m, rfl, hinv, hclients⟩
  | cons event events ih =>
    obtain ⟨m₁, hstep, hc, -⟩ := step_spec hinv hclients event
    have hclients₁ : m₁.clients := by
      by_contra h
      rw [Bool.not_eq_true, hc] at h
      obtain ⟨env, henv⟩ := h
      exact hevents event (by simp) env henv
    rw [run_cons, hstep]
    refine ih (inv_step hinv hstep hnames) hclients₁ fun event' hevent' => ?_
    exact hevents event' (by simp [hevent'])

theorem run_null (hnames : c.names ≠ []) {events : List (Event ν)} (hinv : Inv c m)
    (hclients : m.clients = false) :
    run c m events = none ↔ (∃ request env, .command request env ∈ events) ∨
      m.bondRespawnTimer ∧ ∃ now env, .respawnTick now env ∈ events := by
  induction events generalizing m with
  | nil =>
    refine iff_of_false (fun h => by cases h) ?_
    simp
  | cons event events ih =>
    obtain ⟨hnone, hsome⟩ := step_null hinv hclients hnames event
    rw [run_cons]
    cases hstep : step c m event with
    | none =>
      refine iff_of_true rfl ?_
      rcases hnone.mp hstep with ⟨request, env, rfl⟩ | ⟨htimer, now, env, rfl⟩
      · exact .inl ⟨request, env, by simp⟩
      · exact .inr ⟨htimer, now, env, by simp⟩
    | some m₁ =>
      obtain ⟨-, -, hclients₁, htimer₁⟩ := hsome m₁ hstep
      have hevent : ¬ _ := fun h => absurd (hnone.mpr h) (by simp [hstep])
      rw [not_or] at hevent
      show run c m₁ events = none ↔ _
      rw [ih (inv_step hinv hstep hnames) hclients₁, htimer₁]
      constructor
      · rintro (⟨request, env, h⟩ | ⟨htimer, now, env, h⟩)
        · exact .inl ⟨request, env, by simp [h]⟩
        · exact .inr ⟨htimer, now, env, by simp [h]⟩
      · rintro (⟨request, env, h⟩ | ⟨htimer, now, env, h⟩)
        · rcases List.mem_cons.mp h with rfl | h
          · exact absurd ⟨request, env, rfl⟩ hevent.1
          · exact .inl ⟨request, env, h⟩
        · rcases List.mem_cons.mp h with rfl | h
          · exact absurd ⟨htimer, now, env, rfl⟩ hevent.2
          · exact .inr ⟨htimer, now, env, h⟩

/-- **When the manager goes through a null pointer.**  Never before a shutdown; and after one
exactly if there is a further command, or if the timer that waits for crashed servers was running
and ticks. -/
theorem null_iff {node : ν → Option State} {pre post : List (Event ν)} {env : Env ν}
    (hnames : c.names ≠ []) (hpre : ∀ event ∈ pre, ∀ env, event ≠ .command .shutdown env) :
    ∃ m, run c (init node) pre = some m ∧
      (run c (init node) (pre ++ .command .shutdown env :: post) = none ↔
        (∃ request env, .command request env ∈ post) ∨
          m.bondRespawnTimer ∧ ∃ now env, .respawnTick now env ∈ post) := by
  obtain ⟨m, hrun, hinv, hclients⟩ := run_isSome hnames (inv_init node) rfl hpre
  obtain ⟨m', hshutdown, hactive, htimer, hclients', hrespawn⟩ :=
    shutdown_spec (c := c) (e := env) hclients
  have hstep : step c m (.command .shutdown env) = some m' := by
    rw [step, managerCallback, hshutdown, Option.map_some]
  refine ⟨m, hrun, ?_⟩
  rw [run_append, hrun, Option.bind_some, run_cons, hstep, Option.bind_some, ← hrespawn]
  exact run_null hnames (inv_step hinv hstep hnames) hclients'

theorem null_iff_startup_twice :
    ∃ m, run ⟨[false, true], true, true, 10⟩ (init fun _ => some .unconfigured)
        [.command .startup (obedient Bool)] = some m ∧
      (run ⟨[false, true], true, true, 10⟩ (init fun _ => some .unconfigured)
          ([.command .startup (obedient Bool)] ++ .command .shutdown (obedient Bool) ::
            [.command .startup (obedient Bool)]) = none ↔
        (∃ request env, .command request env ∈ [Event.command .startup (obedient Bool)]) ∨
          m.bondRespawnTimer ∧
            ∃ now env, .respawnTick now env ∈ [Event.command .startup (obedient Bool)]) :=
  null_iff (by decide) (by simp)

end Manager

end Lifecycle
