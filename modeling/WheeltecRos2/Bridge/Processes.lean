/-
The navigation stacks the bridge manages: `slam` and `nav2` as child processes.

`navigation_mode`, `slam_control` and `nav2_control` stop and start the children
recorded in `_managed_processes`.  What the operating system does is an input: which
children exit on their own before each call, how a stop ends, and whether a start
finds a pid.  `_stop_managed_process` drops its record in a `finally` clause, so a
child that outlives the wait after SIGKILL is forgotten, and the next start of the
other stack runs next to it (`survivor_forgotten`).  `managed_iff` says that this is
the only way: in every run all live children are recorded and the stacks exclude
each other exactly if no stop gives up on a live child.
-/
import WheeltecRos2.Lib.Hoare
import WheeltecRos2.Lib.Runs
import WheeltecRos2.Bridge.Python

namespace Bridge

open Hoare PyNum

/-- The names under which `cmd_loop` manages processes. -/
inductive ProcName
  | slam
  | nav2
  deriving DecidableEq

def ProcName.str : ProcName → String
  | .slam => "slam"
  | .nav2 => "nav2"

/-- A child started by `_start_managed_process`; `handle` is its `Popen` object. -/
structure Process where
  handle : ℕ
  pid : ℕ
  name : ProcName
  deriving DecidableEq

/-- The fields the process commands touch.  `running` holds the children that have
not exited, `started` counts the `Popen` objects. -/
structure Supervisor (F : Type) where
  managedProcesses : ProcName → Option Process
  running : List Process
  started : ℕ
  navigationMode : String
  currentMapPath : Json F

/-- The start commands and `_format_command` of the `map` argument. -/
structure Config (F : Type) where
  slamStartCmd : String
  nav2StartCmd : String
  formatCommand : String → Json F → String

/-- How a stop of a live child ends.  The group may be gone when it is signalled. -/
inductive StopOutcome
  | goneAtTerm
  | exitsAfterTerm
  | goneAtKill
  | exitsAfterKill
  | outlivesKill
  deriving DecidableEq

namespace StopOutcome

/-- The exception that leaves `_stop_managed_process`. -/
def raises : StopOutcome → Option Builtin
  | .exitsAfterTerm | .exitsAfterKill => none
  | .goneAtTerm | .goneAtKill => some .processLookupError
  | .outlivesKill => some .timeoutExpired

/-- The child is still running afterwards. -/
def survives : StopOutcome → Bool
  | .outlivesKill => true
  | _ => false

end StopOutcome

/-- The operating system during one stop: the children that exit before its poll,
and how the stop ends if it finds its child running. -/
structure StopCalls where
  exits : Process → Bool
  outcome : StopOutcome

/-- The operating system during one request.  Each stack is stopped at most once and
one is started at most once; `spawn` is the pid `Popen` gets, if it gets one. -/
structure Surroundings (F : Type) where
  stop : ProcName → StopCalls
  exitsBeforeStart : Process → Bool
  spawn : Option ℕ
  saveCurrentMap : Except PyError (Json F)
  savedMapPath : Option (Json F)

namespace Supervisor

variable {F : Type}

/-- The fields as `__init__` sets them. -/
def init : Supervisor F :=
  { managedProcesses := fun _ => none
    running := []
    started := 0
    navigationMode := "idle"
    currentMapPath := .null }

/-- Children exit on their own. -/
def exit (s : Supervisor F) (exits : Process → Bool) : Supervisor F :=
  { s with running := s.running.filter fun process => !exits process }

/-- The recorded child, if it has not exited. -/
def poll (s : Supervisor F) (name : ProcName) : Option Process :=
  (s.managedProcesses name).filter fun process => process ∈ s.running

/-- `self._managed_processes.pop(name, None)`. -/
def pop (s : Supervisor F) (name : ProcName) : Supervisor F :=
  { s with managedProcesses := Function.update s.managedProcesses name none }

/-- A stop of a live child, with its `finally` clause. -/
def stopped (s : Supervisor F) (process : Process) (name : ProcName) (outcome : StopOutcome) :
    Supervisor F :=
  let s := if outcome.survives then s else s.exit (· = process)
  s.pop name

/-- `subprocess.Popen` and the record of the child. -/
def spawned (s : Supervisor F) (name : ProcName) (pid : ℕ) : Supervisor F :=
  let process := { handle := s.started, pid, name }
  { s with
    managedProcesses := Function.update s.managedProcesses name (some process)
    running := process :: s.running
    started := s.started + 1 }

end Supervisor

section Model

variable {F : Type} [PyNum F]

/-- Programs of the command thread over the supervisor. -/
abbrev Handler (F α : Type) := Prog (Supervisor F) PyError α

/-- White space for `str.strip`. -/
def isPySpace (c : Char) : Bool :=
  c.val ∈ [9, 10, 11, 12, 13, 28, 29, 30, 31, 32, 0x85, 0xA0, 0x1680, 0x2028, 0x2029, 0x202F,
    0x205F, 0x3000] ∨ 0x2000 ≤ c.val ∧ c.val ≤ 0x200A

/-- `str(command or "").strip()`. -/
def strip (command : String) : String :=
  String.ofList ((command.toList.dropWhile isPySpace).reverse.dropWhile isPySpace).reverse

/-- `_start_managed_process`. -/
def startManagedProcess (os : Surroundings F) (name : ProcName) (command : String) :
    Handler F (Json F) := do
  let command := strip command
  let process := name.str
  if command = "" then
    return .dict [("status", .str "ok"), ("message", .str s!"{process} command not configured")]
  else
    modify (·.exit os.exitsBeforeStart)
    let s ← get
    match s.poll name with
    | some existing => return .dict [("status", .str "running"), ("pid", .int existing.pid)]
    | none =>
      match os.spawn with
      | none => throw (.builtin .osError)
      | some pid =>
        modify (·.spawned name pid)
        return .dict [("status", .str "started"), ("pid", .int pid)]

/-- `_stop_managed_process`. -/
def stopManagedProcess (os : Surroundings F) (name : ProcName) : Handler F (Json F) := do
  let process := name.str
  modify (·.exit (os.stop name).exits)
  let s ← get
  match s.poll name with
  | none =>
    modify (·.pop name)
    return .dict [("status", .str "stopped"), ("message", .str s!"{process} was not running")]
  | some existing =>
    -- the `finally` clause drops the record whatever the outcome
    modify (·.stopped existing name (os.stop name).outcome)
    match (os.stop name).outcome.raises with
    | some kind => throw (.builtin kind)
    | none => return .dict [("status", .str "stopped")]

/-- `_switch_navigation_mode`. -/
def switchNavigationMode (config : Config F) (os : Surroundings F) (mode : String)
    (mapPath : Json F) : Handler F (Json F) := do
  if mode = "slam" then
    let nav2Stop ← stopManagedProcess os .nav2
    let slamStart ← startManagedProcess os .slam config.slamStartCmd
    modify fun s => { s with navigationMode := "slam" }
    return .dict [("status", .str "ok"), ("mode", .str "slam"), ("nav2", nav2Stop),
      ("slam", slamStart)]
  else if mode = "nav2" then
    -- the other stack first, then a running stack of the same kind
    let slamStop ← stopManagedProcess os .slam
    let nav2Stop ← stopManagedProcess os .nav2
    modify fun s => { s with currentMapPath := mapPath.orElse s.currentMapPath }
    let s ← get
    let command := config.formatCommand config.nav2StartCmd (s.currentMapPath.orElse (.str ""))
    let nav2Start ← startManagedProcess os .nav2 command
    modify fun s => { s with navigationMode := "nav2" }
    return .dict [("status", .str "ok"), ("mode", .str "nav2"), ("map_path", s.currentMapPath),
      ("slam", slamStop), ("nav2_stop", nav2Stop), ("nav2", nav2Start)]
  else throw (.raised "mode must be slam or nav2")

/-- `str(payload.get(key, "")).lower()`.  It is compared with ASCII words only, and
no other character has one of their letters as its lower case. -/
def lowerField (payload : Json F) (key : String) : Except PyError String := do
  let value ← payload.get key (.str "")
  return (strOf value).toLower

/-- `payload.get("map_path") or payload.get("source")`. -/
def mapPathField (payload : Json F) : Except PyError (Json F) := do
  let mapPath ← payload.get "map_path" .null
  let source ← payload.get "source" .null
  return mapPath.orElse source

/-- `_control_nav2`. -/
def controlNav2 (config : Config F) (os : Surroundings F) (payload : Json F) :
    Handler F (Json F) := do
  let nav2Action ← ofExcept (lowerField payload "action")
  if nav2Action = "start" then
    let mapPath ← ofExcept (mapPathField payload)
    switchNavigationMode config os "nav2" mapPath
  else if nav2Action = "stop" then
    let result ← stopManagedProcess os .nav2
    modify fun s => { s with navigationMode := "idle" }
    return .dict [("status", .str "ok"), ("mode", .str "idle"), ("nav2", result)]
  else
    return .dict [("status", .str "error"), ("message", .str "Unknown nav2_control action")]

/-- The branch `navigation_mode`. -/
def navigationMode (config : Config F) (os : Surroundings F) (payload : Json F) :
    Handler F (Json F) := do
  let mode ← ofExcept (lowerField payload "mode")
  let mapPath ← ofExcept (mapPathField payload)
  switchNavigationMode config os mode mapPath

/-- The branch `slam_control`.  `save` starts and stops nothing that is managed. -/
def slamControl (config : Config F) (os : Surroundings F) (payload : Json F) :
    Handler F (Json F) := do
  let slamAction ← ofExcept (lowerField payload "action")
  if slamAction = "start" then
    switchNavigationMode config os "slam" .null
  else if slamAction = "stop" then
    let result ← stopManagedProcess os .slam
    modify fun s => { s with navigationMode := "idle" }
    return .dict [("status", .str "ok"), ("slam", result)]
  else if slamAction = "save" then
    modify fun s => { s with currentMapPath := os.savedMapPath.getD s.currentMapPath }
    ofExcept os.saveCurrentMap
  else if slamAction = "reset" then
    let _ ← stopManagedProcess os .slam
    switchNavigationMode config os "slam" .null
  else
    return .dict [("status", .str "error"), ("message", .str "Unknown slam_control action")]

/-- The requests that manage processes. -/
inductive ProcessRequest (F : Type)
  | navigationMode (payload : Json F)
  | slamControl (payload : Json F)
  | nav2Control (payload : Json F)

/-- The branch of a request. -/
def ProcessRequest.handle (config : Config F) (os : Surroundings F) :
    ProcessRequest F → Handler F (Json F)
  | .navigationMode payload => Bridge.navigationMode config os payload
  | .slamControl payload => Bridge.slamControl config os payload
  | .nav2Control payload => controlNav2 config os payload

/-- What happens to the supervisor: children exit between requests, or a request is
handled. -/
inductive ProcessEvent (F : Type)
  | exits (exits : Process → Bool)
  | request (request : ProcessRequest F) (os : Surroundings F)

/-- The supervisor after an event. -/
def Supervisor.step (config : Config F) (s : Supervisor F) : ProcessEvent F → Supervisor F
  | .exits exits => s.exit exits
  | .request request os => (exec (request.handle config os) s).2

/-! ### What the commands promise -/

/-- Every live child is recorded under its name, and the stacks are not both alive. -/
structure Managed (s : Supervisor F) : Prop where
  recorded : ∀ process ∈ s.running, s.managedProcesses process.name = some process
  exclusive : ∀ process ∈ s.running, ∀ other ∈ s.running,
    ¬ (process.name = .slam ∧ other.name = .nav2)

/-- The stop finds its child alive, and the child outlives SIGKILL and the wait. -/
def StopGivesUp (os : Surroundings F) (s : Supervisor F) (name : ProcName) : Prop :=
  ((s.exit (os.stop name).exits).poll name).isSome ∧ (os.stop name).outcome.survives

/-- The stop finds no child alive, or it raises nothing. -/
def StopReturns (os : Surroundings F) (s : Supervisor F) (name : ProcName) : Prop :=
  ((s.exit (os.stop name).exits).poll name).isSome → (os.stop name).outcome.raises = none

/-- One of the stops gives up, and those before it return. -/
def GivesUp (os : Surroundings F) : List ProcName → Supervisor F → Prop
  | [], _ => False
  | name :: rest, s => StopGivesUp os s name ∨
      StopReturns os s name ∧ GivesUp os rest (exec (stopManagedProcess os name) s).2

/-- The stops of `_switch_navigation_mode`. -/
def switchStops (mode : String) : List ProcName :=
  if mode = "slam" then [.nav2] else if mode = "nav2" then [.slam, .nav2] else []

/-- The stops a request makes, as long as they return. -/
def ProcessRequest.stops : ProcessRequest F → List ProcName
  | .navigationMode payload =>
    match lowerField payload "mode" with
    | .ok mode => switchStops mode
    | .error _ => []
  | .slamControl payload =>
    match lowerField payload "action" with
    | .ok action =>
      if action = "start" then switchStops "slam"
      else if action = "stop" then [.slam]
      else if action = "save" then []
      else if action = "reset" then .slam :: switchStops "slam"
      else []
    | .error _ => []
  | .nav2Control payload =>
    match lowerField payload "action" with
    | .ok action =>
      if action = "start" then switchStops "nav2" else if action = "stop" then [.nav2] else []
    | .error _ => []

/-- A stop of the event gives up on a live child. -/
def ProcessEvent.GivesUp (s : Supervisor F) : ProcessEvent F → Prop
  | .exits _ => False
  | .request r os => Bridge.GivesUp os r.stops s

/-! ### Commands -/

/-- What a request asks of the stacks; `nothing` for one that is refused. -/
inductive NavCommand (F : Type)
  | toSlam
  | toNav2 (mapPath : Json F)
  | stop (name : ProcName)
  | resetSlam
  | save
  | nothing

/-- The command of `_switch_navigation_mode`. -/
def NavCommand.switch (mode : String) (mapPath : Json F) : NavCommand F :=
  if mode = "slam" then .toSlam else if mode = "nav2" then .toNav2 mapPath else .nothing

/-- The command of a request. -/
def ProcessRequest.command : ProcessRequest F → NavCommand F
  | .navigationMode payload =>
    match lowerField payload "mode", mapPathField payload with
    | .ok mode, .ok mapPath => .switch mode mapPath
    | _, _ => .nothing
  | .slamControl payload =>
    match lowerField payload "action" with
    | .ok action =>
      if action = "start" then .toSlam
      else if action = "stop" then .stop .slam
      else if action = "save" then .save
      else if action = "reset" then .resetSlam
      else .nothing
    | .error _ => .nothing
  | .nav2Control payload =>
    match lowerField payload "action", mapPathField payload with
    | .ok action, .ok mapPath =>
      if action = "start" then .toNav2 mapPath else if action = "stop" then .stop .nav2 else .nothing
    | _, _ => .nothing

/-- The program of a command; `refusal` is how `nothing` ends. -/
def NavCommand.run (config : Config F) (os : Surroundings F) (refusal : Except PyError (Json F)) :
    NavCommand F → Handler F (Json F)
  | .toSlam => switchNavigationMode config os "slam" .null
  | .toNav2 mapPath => switchNavigationMode config os "nav2" mapPath
  | .stop .slam => do
    let result ← stopManagedProcess os .slam
    modify fun s => { s with navigationMode := "idle" }
    return .dict [("status", .str "ok"), ("slam", result)]
  | .stop .nav2 => do
    let result ← stopManagedProcess os .nav2
    modify fun s => { s with navigationMode := "idle" }
    return .dict [("status", .str "ok"), ("mode", .str "idle"), ("nav2", result)]
  | .resetSlam => do
    let _ ← stopManagedProcess os .slam
    switchNavigationMode config os "slam" .null
  | .save => do
    modify fun s => { s with currentMapPath := os.savedMapPath.getD s.currentMapPath }
    ofExcept os.saveCurrentMap
  | .nothing => ofExcept refusal

/-- The stops of a command. -/
def NavCommand.stops : NavCommand F → List ProcName
  | .toSlam => [.nav2]
  | .toNav2 _ => [.slam, .nav2]
  | .stop name => [name]
  | .resetSlam => [.slam, .nav2]
  | .save | .nothing => []

section Commands

variable {config : Config F} {os : Surroundings F} {payload : Json F}

/-- The payload of a request whose mode could be read has the other fields too. -/
theorem mapPathField_of_lowerField {key value : String} (h : lowerField payload key = .ok value) :
    ∃ path, mapPathField payload = .ok path := by
  simp only [lowerField, bind_eq_ok, get_eq_ok] at h
  obtain ⟨_, ⟨fields, rfl, -⟩, -⟩ := h
  exact ⟨_, rfl⟩

/-- A switch is the program of its command. -/
theorem switch_eq_run (mode : String) (mapPath : Json F) :
    switchNavigationMode config os mode mapPath =
      (NavCommand.switch mode mapPath).run config os (.error (.raised "mode must be slam or nav2")) := by
  rw [NavCommand.switch]
  by_cases hslam : mode = "slam"
  · rw [if_pos hslam, hslam, NavCommand.run, switchNavigationMode, if_pos rfl,
      switchNavigationMode, if_pos rfl]
  by_cases hnav2 : mode = "nav2"
  · rw [if_neg hslam, if_pos hnav2, hnav2, NavCommand.run]
  · rw [if_neg hslam, if_neg hnav2, switchNavigationMode, if_neg hslam, if_neg hnav2]
    rfl

/-- **A request is handled as its command says.** -/
theorem handle_eq_run (config : Config F) (os : Surroundings F) (r : ProcessRequest F) :
    ∃ refusal, r.handle config os = r.command.run config os refusal := by
  rcases r with payload | payload | payload
  · rw [ProcessRequest.handle, navigationMode, ProcessRequest.command]
    rcases hmode : lowerField payload "mode" with e | mode
    · exact ⟨.error e, rfl⟩
    · obtain ⟨path, hpath⟩ := mapPathField_of_lowerField hmode
      rw [hpath]
      exact ⟨_, switch_eq_run mode path⟩
  · rw [ProcessRequest.handle, slamControl, ProcessRequest.command]
    rcases lowerField payload "action" with e | action
    · exact ⟨.error e, rfl⟩
    · refine ⟨.ok (.dict [("status", .str "error"),
        ("message", .str "Unknown slam_control action")]), ?_⟩
      rw [ofExcept_ok_bind]
      show _ = NavCommand.run config os _ (if _ then _ else _)
      split_ifs <;> rfl
  · rw [ProcessRequest.handle, controlNav2, ProcessRequest.command]
    rcases haction : lowerField payload "action" with e | action
    · exact ⟨.error e, rfl⟩
    · obtain ⟨path, hpath⟩ := mapPathField_of_lowerField haction
      rw [hpath]
      refine ⟨.ok (.dict [("status", .str "error"),
        ("message", .str "Unknown nav2_control action")]), ?_⟩
      rw [ofExcept_ok_bind, ofExcept_ok_bind]
      show _ = NavCommand.run config os _ (if _ then _ else _)
      split_ifs <;> rfl

theorem stops_eq_command_stops (r : ProcessRequest F) : r.stops = r.command.stops := by
  rcases r with payload | payload | payload
  · rw [ProcessRequest.stops, ProcessRequest.command]
    rcases hmode : lowerField payload "mode" with e | mode
    · rfl
    · obtain ⟨path, hpath⟩ := mapPathField_of_lowerField hmode
      rw [hpath]
      show switchStops mode = (NavCommand.switch mode path).stops
      rw [switchStops, NavCommand.switch]
      split_ifs <;> rfl
  · rw [ProcessRequest.stops, ProcessRequest.command]
    rcases lowerField payload "action" with e | action
    · rfl
    · simp only
      split_ifs <;> rfl
  · rw [ProcessRequest.stops, ProcessRequest.command]
    rcases haction : lowerField payload "action" with e | action
    · rfl
    · obtain ⟨path, hpath⟩ := mapPathField_of_lowerField haction
      rw [hpath]
      simp only
      split_ifs <;> rfl

end Commands

end Model

section Results

variable {F : Type} {os : Surroundings F} {s : Supervisor F} {name : ProcName}

/-! ### One stop -/

/-- Records stand under the names of their children. -/
def Named (s : Supervisor F) : Prop :=
  ∀ name process, s.managedProcesses name = some process → process.name = name

/-- None of these stacks is alive. -/
def Absent (names : List ProcName) (s : Supervisor F) : Prop :=
  ∀ process ∈ s.running, process.name ∉ names

/-- A live child is not recorded. -/
def Lost (s : Supervisor F) : Prop :=
  ∃ process ∈ s.running, s.managedProcesses process.name = none

/-- What holds between requests. -/
structure Kept (s : Supervisor F) : Prop extends Managed s where
  named : Named s

theorem Lost.not_managed (h : Lost s) : ¬ Managed s := by
  obtain ⟨process, hrunning, hnone⟩ := h
  intro hmanaged
  rw [hmanaged.recorded process hrunning] at hnone
  cases hnone

theorem poll_eq_some_iff {process : Process} : s.poll name = some process ↔
    s.managedProcesses name = some process ∧ process ∈ s.running := by
  simp [Supervisor.poll, Option.filter_eq_some_iff]

theorem mem_running_exit {exits : Process → Bool} {process : Process}
    (h : process ∈ (s.exit exits).running) : process ∈ s.running :=
  List.mem_of_mem_filter h

/-- Fewer live children keep what held. -/
theorem Kept.exit (h : Kept s) (exits : Process → Bool) : Kept (s.exit exits) where
  recorded process hmem := h.recorded process (mem_running_exit hmem)
  exclusive process hmem other hother :=
    h.exclusive process (mem_running_exit hmem) other (mem_running_exit hother)
  named := h.named

theorem Absent.exit {names : List ProcName} (h : Absent names s) (exits : Process → Bool) :
    Absent names (s.exit exits) :=
  fun process hmem => h process (mem_running_exit hmem)

theorem Named.pop (h : Named s) : Named (s.pop name) := by
  intro other process hrecord
  by_cases hne : other = name
  · simp [Supervisor.pop, hne] at hrecord
  · simp only [Supervisor.pop, Function.update_of_ne hne] at hrecord
    exact h other process hrecord

/-- A record whose stack is not alive can go. -/
theorem Kept.pop (h : Kept s) (habsent : Absent [name] s) : Kept (s.pop name) where
  recorded process hmem := by
    have hne : process.name ≠ name := by simpa using habsent process hmem
    simp only [Supervisor.pop, Function.update_of_ne hne]
    exact h.recorded process hmem
  exclusive := h.exclusive
  named := h.named.pop

/-- A stop that finds no child drops the record. -/
theorem exec_stop_of_none (hpoll : (s.exit (os.stop name).exits).poll name = none) :
    ∃ answer, exec (stopManagedProcess os name) s =
      (.ok answer, (s.exit (os.stop name).exits).pop name) := by
  simp only [stopManagedProcess, exec_modify_bind, exec_get_bind, hpoll]
  exact ⟨_, rfl⟩

/-- A stop of a live child ends as the operating system decides. -/
theorem exec_stop_of_some {existing : Process}
    (hpoll : (s.exit (os.stop name).exits).poll name = some existing) :
    exec (stopManagedProcess os name) s =
      (match (os.stop name).outcome.raises with
        | some kind => .error (.builtin kind)
        | none => .ok (.dict [("status", .str "stopped")]),
      (s.exit (os.stop name).exits).stopped existing name (os.stop name).outcome) := by
  simp only [stopManagedProcess, exec_modify_bind, exec_get_bind, hpoll]
  cases (os.stop name).outcome <;> rfl

/-- A stack without a live child, in a state that records all, is absent. -/
theorem Kept.absent_of_poll (h : Kept s) (hpoll : s.poll name = none) : Absent [name] s := by
  intro process hmem hname
  obtain rfl : process.name = name := by simpa using hname
  have : s.poll process.name = some process :=
    poll_eq_some_iff.mpr ⟨h.recorded process hmem, hmem⟩
  rw [this] at hpoll
  cases hpoll

/-- A stopped child leaves its stack absent. -/
theorem Kept.absent_of_exit (h : Kept s) {existing : Process}
    (hpoll : s.poll name = some existing) : Absent [name] (s.exit (· = existing)) := by
  intro process hmem hname
  obtain rfl : process.name = name := by simpa using hname
  have hsame : process = existing := by
    have hrecord := h.recorded process (mem_running_exit hmem)
    rw [(poll_eq_some_iff.mp hpoll).1] at hrecord
    exact (Option.some.inj hrecord).symm
  simp [Supervisor.exit, hsame] at hmem

theorem absent_cons {names : List ProcName} (h : Absent names s) (hname : Absent [name] s) :
    Absent (name :: names) s := by
  intro process hmem hin
  rcases List.mem_cons.mp hin with heq | hin
  · exact hname process hmem (by simp [heq])
  · exact h process hmem hin

variable {rest gone : List ProcName}

/-- **A stop that does not give up.**  It keeps the property, and if it returns the
stack is not alive. -/
theorem stop_keeps : Triple (fun s => Kept s ∧ Absent gone s ∧ ¬ GivesUp os (name :: rest) s)
    (stopManagedProcess os name)
    (fun _ s => Kept s ∧ Absent (name :: gone) s ∧ ¬ GivesUp os rest s) (fun _ => Kept) := by
  refine ⟨?_⟩
  rintro s ⟨hkept, hgone, hgives⟩
  have hexit := hkept.exit (os.stop name).exits
  have hrest : StopReturns os s name → ¬ GivesUp os rest (exec (stopManagedProcess os name) s).2 :=
    fun hreturns hmore => hgives (Or.inr ⟨hreturns, hmore⟩)
  cases hpoll : (s.exit (os.stop name).exits).poll name with
  | none =>
    obtain ⟨answer, hexec⟩ := exec_stop_of_none hpoll
    have hreturns : StopReturns os s name := by simp [StopReturns, hpoll]
    have hmore := hrest hreturns
    rw [hexec] at hmore ⊢
    have habsent := hexit.absent_of_poll hpoll
    exact ⟨hexit.pop habsent, absent_cons (hgone.exit _) habsent, hmore⟩
  | some existing =>
    have hexec := exec_stop_of_some hpoll
    -- a child that outlives the kill would be given up
    have hdies : (os.stop name).outcome.survives = false := by
      by_contra hsurvives
      exact hgives (Or.inl ⟨by simp [hpoll], by simpa using hsurvives⟩)
    have habsent := hexit.absent_of_exit hpoll
    have hafter :
        Kept ((s.exit (os.stop name).exits).stopped existing name (os.stop name).outcome) := by
      rw [Supervisor.stopped, hdies]
      exact (hexit.exit _).pop habsent
    cases hraises : (os.stop name).outcome.raises with
    | some kind =>
      rw [hexec, hraises]
      exact hafter
    | none =>
      have hmore := hrest fun _ => hraises
      rw [hexec, hraises] at hmore ⊢
      refine ⟨hafter, ?_, hmore⟩
      rw [Supervisor.stopped, hdies]
      exact absent_cons ((hgone.exit _).exit _) habsent

/-- **A stop that gives up loses its child.** -/
theorem stop_loses : Triple (fun s => Named s ∧ GivesUp os (name :: rest) s)
    (stopManagedProcess os name) (fun _ s => Named s ∧ GivesUp os rest s) (fun _ => Lost) := by
  refine ⟨?_⟩
  rintro s ⟨hnamed, ⟨halive, hsurvives⟩ | ⟨hreturns, hmore⟩⟩
  · obtain ⟨existing, hpoll⟩ := Option.isSome_iff_exists.mp halive
    have hexec := exec_stop_of_some hpoll
    have houtcome : (os.stop name).outcome = .outlivesKill := by
      cases h : (os.stop name).outcome <;> simp [h, StopOutcome.survives] at hsurvives ⊢
    obtain ⟨hrecord, hrunning⟩ := poll_eq_some_iff.mp hpoll
    have hname : existing.name = name := hnamed name existing hrecord
    rw [hexec, houtcome]
    refine ⟨existing, hrunning, ?_⟩
    simp [Supervisor.stopped, Supervisor.pop, StopOutcome.survives, hname]
  · have hexit : Named (s.exit (os.stop name).exits) := hnamed
    cases hpoll : (s.exit (os.stop name).exits).poll name with
    | none =>
      obtain ⟨answer, hexec⟩ := exec_stop_of_none hpoll
      rw [hexec] at hmore ⊢
      exact ⟨hexit.pop, hmore⟩
    | some existing =>
      have hexec := exec_stop_of_some hpoll
      have hraises := hreturns (by simp [hpoll])
      rw [hexec, hraises] at hmore ⊢
      refine ⟨?_, hmore⟩
      rw [Supervisor.stopped]
      split_ifs
      · exact hexit.pop
      · exact Named.pop (s := (s.exit (os.stop name).exits).exit (· = existing)) hexit

/-! ### One start -/

/-- A start next to nothing keeps the property. -/
theorem Kept.spawned (h : Kept s) (habsent : ∀ other, Absent [other] s) (pid : ℕ) :
    Kept (s.spawned name pid) where
  recorded process hmem := by
    rcases List.mem_cons.mp hmem with rfl | hmem
    · simp [Supervisor.spawned]
    · exact absurd (by simp) (habsent process.name process hmem)
  exclusive process hmem other hother := by
    rintro ⟨hslam, hnav2⟩
    rcases List.mem_cons.mp hmem with rfl | hmem
    · rcases List.mem_cons.mp hother with rfl | hother
      · rw [hslam] at hnav2
        cases hnav2
      · exact absurd (by simp) (habsent other.name other hother)
    · exact absurd (by simp) (habsent process.name process hmem)
  named other process hrecord := by
    by_cases hne : other = name
    · subst hne
      simp only [Supervisor.spawned, Function.update_self, Option.some.injEq] at hrecord
      rw [← hrecord]
    · simp only [Supervisor.spawned, Function.update_of_ne hne] at hrecord
      exact h.named other process hrecord

/-- **A start after the other stack was stopped.** -/
theorem start_keeps (gone : List ProcName) {command : String}
    (hothers : ∀ other, other ≠ name → other ∈ gone) :
    Triple (fun s => Kept s ∧ Absent gone s) (startManagedProcess os name command)
      (fun _ => Kept) (fun _ => Kept) := by
  refine ⟨?_⟩
  rintro s ⟨hkept, hgone⟩
  have hexit := hkept.exit os.exitsBeforeStart
  rw [startManagedProcess]
  by_cases hcommand : strip command = ""
  · simp only [if_pos hcommand]
    exact hkept
  · simp only [if_neg hcommand, exec_modify_bind, exec_get_bind]
    cases hpoll : (s.exit os.exitsBeforeStart).poll name with
    | some existing => exact hexit
    | none =>
      cases os.spawn with
      | none => exact hexit
      | some pid =>
        refine hexit.spawned ?_ pid
        intro other
        by_cases hother : other = name
        · rw [hother]
          exact hexit.absent_of_poll hpoll
        · intro process hmem hname
          obtain rfl : process.name = other := by simpa using hname
          exact hgone.exit _ process hmem (hothers _ hother)

/-! ### Requests -/

theorem Kept.mode (h : Kept s) (mode : String) : Kept { s with navigationMode := mode } :=
  ⟨⟨h.recorded, h.exclusive⟩, h.named⟩

theorem Kept.mapPath (h : Kept s) (path : Json F) : Kept { s with currentMapPath := path } :=
  ⟨⟨h.recorded, h.exclusive⟩, h.named⟩

theorem absent_nil : Absent [] s := fun _ _ hin => by cases hin

variable [PyNum F] {config : Config F} {mapPath : Json F}

/-- A switch to SLAM whose stop does not give up. -/
theorem toSlam_keeps : Triple (fun s => Kept s ∧ Absent gone s ∧ ¬ GivesUp os [.nav2] s)
    (switchNavigationMode config os "slam" mapPath) (fun _ => Kept) (fun _ => Kept) := by
  rw [switchNavigationMode, if_pos rfl]
  refine stop_keeps.seq ?_
  intro nav2Stop
  refine (start_keeps (.nav2 :: gone) ?_).conseq (fun s h => ⟨h.1, h.2.1⟩)
    (fun _ _ h => h) (fun _ _ h => h) |>.seq fun slamStart => ?_
  · rintro (_ | _) hne
    · exact absurd rfl hne
    · simp
  · exact (Triple.update fun s h => h.mode _).seq fun _ => Triple.ret fun _ h => h

/-- A switch to Nav2 none of whose stops gives up. -/
theorem toNav2_keeps : Triple (fun s => Kept s ∧ Absent gone s ∧ ¬ GivesUp os [.slam, .nav2] s)
    (switchNavigationMode config os "nav2" mapPath) (fun _ => Kept) (fun _ => Kept) := by
  rw [switchNavigationMode, if_neg (by decide), if_pos rfl]
  refine stop_keeps.seq fun slamStop => stop_keeps.seq fun nav2Stop => ?_
  refine (Triple.update (R := fun _ s => Kept s ∧ Absent (.nav2 :: .slam :: gone) s) ?_).seq
    fun _ => Triple.read fun found => ?_
  · exact fun s h => ⟨h.1.mapPath _, h.2.1⟩
  · refine (start_keeps (.nav2 :: .slam :: gone) ?_).conseq (fun s h => h.1)
      (fun _ _ h => h) (fun _ _ h => h) |>.seq fun nav2Start => ?_
    · rintro (_ | _) hne
      · simp
      · exact absurd rfl hne
    · exact (Triple.update fun s h => h.mode _).seq fun _ => Triple.ret fun _ h => h

/-- A switch to SLAM whose stop gives up. -/
theorem toSlam_loses : Triple (fun s => Named s ∧ GivesUp os [.nav2] s)
    (switchNavigationMode config os "slam" mapPath) (fun _ _ => False) (fun _ => Lost) := by
  rw [switchNavigationMode, if_pos rfl]
  exact stop_loses.seq fun nav2Stop => Triple.unreachable fun s h => h.2

/-- A switch to Nav2 one of whose stops gives up. -/
theorem toNav2_loses : Triple (fun s => Named s ∧ GivesUp os [.slam, .nav2] s)
    (switchNavigationMode config os "nav2" mapPath) (fun _ _ => False) (fun _ => Lost) := by
  rw [switchNavigationMode, if_neg (by decide), if_pos rfl]
  exact stop_loses.seq fun slamStop => stop_loses.seq fun nav2Stop =>
    Triple.unreachable fun s h => h.2

/-- A request none of whose stops gives up. -/
theorem handle_keeps (r : ProcessRequest F) :
    Triple (fun s => Kept s ∧ ¬ GivesUp os r.stops s) (r.handle config os)
      (fun _ => Kept) (fun _ => Kept) := by
  have hstop : ∀ {name rest}, Triple (fun s => Kept s ∧ ¬ GivesUp os (name :: rest) s)
      (stopManagedProcess os name) (fun _ s => Kept s ∧ ¬ GivesUp os rest s) (fun _ => Kept) :=
    stop_keeps.conseq (fun s h => ⟨h.1, absent_nil, h.2⟩) (fun _ s h => ⟨h.1, h.2.2⟩)
      (fun _ _ h => h)
  have htoSlam : Triple (fun s => Kept s ∧ ¬ GivesUp os [.nav2] s)
      (switchNavigationMode config os "slam" .null) (fun _ => Kept) (fun _ => Kept) :=
    toSlam_keeps.conseq (fun s h => ⟨h.1, absent_nil, h.2⟩) (fun _ _ h => h) (fun _ _ h => h)
  obtain ⟨refusal, hrun⟩ := handle_eq_run config os r
  rw [hrun, stops_eq_command_stops]
  rcases r.command with - | mapPath | (- | -) | - | - | -
  · exact htoSlam
  · exact toNav2_keeps.conseq (fun s h => ⟨h.1, absent_nil, h.2⟩) (fun _ _ h => h) (fun _ _ h => h)
  · exact hstop.seq fun _ => (Triple.update fun s h => h.1.mode _).seq fun _ =>
      Triple.ret fun _ h => h
  · exact hstop.seq fun _ => (Triple.update fun s h => h.1.mode _).seq fun _ =>
      Triple.ret fun _ h => h
  · exact hstop.seq fun _ => htoSlam
  · exact (Triple.update fun s h => h.1.mapPath _).seq fun _ => Triple.known _
  · exact (Triple.known refusal).conseq (fun s h => h.1) (fun _ _ h => h) (fun _ _ h => h)

/-- A request one of whose stops gives up. -/
theorem handle_loses (r : ProcessRequest F) :
    Triple (fun s => Named s ∧ GivesUp os r.stops s) (r.handle config os)
      (fun _ _ => False) (fun _ => Lost) := by
  obtain ⟨refusal, hrun⟩ := handle_eq_run config os r
  rw [hrun, stops_eq_command_stops]
  rcases r.command with - | mapPath | (- | -) | - | - | -
  · exact toSlam_loses
  · exact toNav2_loses
  · exact stop_loses.seq fun _ => Triple.unreachable fun s h => h.2
  · exact stop_loses.seq fun _ => Triple.unreachable fun s h => h.2
  · exact stop_loses.seq fun _ => toSlam_loses
  · exact Triple.unreachable fun s h => h.2
  · exact Triple.unreachable fun s h => h.2

/-! ### Runs -/

theorem Kept.step {event : ProcessEvent F} (h : Kept s) (hkeeps : ¬ event.GivesUp s) :
    Kept (s.step config event) := by
  cases event with
  | exits exits => exact h.exit exits
  | request r os => exact (handle_keeps r).final ⟨h, hkeeps⟩

theorem lost_of_givesUp {event : ProcessEvent F} (h : Kept s) (hloses : event.GivesUp s) :
    Lost (s.step config event) := by
  cases event with
  | exits exits => exact hloses.elim
  | request r os =>
    exact ((handle_loses r).conseq (fun _ h => h) (fun _ _ h => h.elim) (fun _ _ h => h)).final
      ⟨h.named, hloses⟩

/-- The property holds along a run from a state that keeps it exactly if nothing in
the run gives up. -/
theorem managed_along_iff {events : List (ProcessEvent F)} (h : Kept s) :
    (∀ before, before <+: events → Managed (Runs.run (Supervisor.step config) s before)) ↔
      Runs.Along (Supervisor.step config) (fun s event => ¬ event.GivesUp s) s events := by
  refine Runs.forall_prefix_iff_along h (fun _ h => h.toManaged) (fun _ _ => Kept.step) ?_
  intro s event hkept hgives
  exact (lost_of_givesUp hkept (not_not.mp hgives)).not_managed

end Results

/-! ### A forgotten survivor -/

/-- Starts go through and stops end as given. -/
def calmOs (pid : ℕ) (outcome : StopOutcome) : Surroundings ℚ :=
  { stop := fun _ => { exits := fun _ => false, outcome }
    exitsBeforeStart := fun _ => false
    spawn := some pid
    saveCurrentMap := .ok .null
    savedMapPath := none }

/-- SLAM is started, survives the switch to Nav2, and Nav2 is asked for again. -/
def switchPastSurvivor : List (ProcessEvent ℚ) :=
  let nav2 := .navigationMode (.dict [("mode", .str "nav2")])
  [.request (.slamControl (.dict [("action", .str "start")])) (calmOs 100 .exitsAfterTerm),
    .request nav2 (calmOs 200 .outlivesKill), .request nav2 (calmOs 300 .exitsAfterTerm)]

/-- Both stacks are alive afterwards, and SLAM is not recorded. -/
theorem survivor_forgotten :
    ¬ Managed (Runs.run (Supervisor.step ⟨"slam", "nav2", fun command _ => command⟩)
      Supervisor.init switchPastSurvivor) := by
  intro hmanaged
  refine hmanaged.exclusive ⟨0, 100, .slam⟩ ?_ ⟨1, 300, .nav2⟩ ?_ ⟨rfl, rfl⟩ <;> decide +kernel

/-- **No process is lost.**  In a run of requests and exits, every live child is
recorded and the stacks exclude each other in all states between events exactly if
no stop gives up on a live child. -/
theorem managed_iff {F : Type} [PyNum F] (config : Config F) (events : List (ProcessEvent F)) :
    (∀ before, before <+: events →
        Managed (Runs.run (Supervisor.step config) Supervisor.init before)) ↔
      Runs.Along (Supervisor.step config) (fun s event => ¬ event.GivesUp s)
        Supervisor.init events := by
  refine managed_along_iff ⟨⟨?_, ?_⟩, ?_⟩
  · intro process hmem
    cases hmem
  · intro process hmem
    cases hmem
  · intro name process hrecord
    cases hrecord

end Bridge
