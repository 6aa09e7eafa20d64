/-
One reply for each request: the send sites of `cmd_loop`.

`CmdNode` holds the calls `cmd_loop` makes, as programs that may do anything to the node
and raise anything: what other threads do meanwhile is part of them.  The loop itself,
with its send sites and its `try` blocks, is written out over these calls.

Every branch sends as its last step, so after a reply has been sent nothing raises
(`branch_answersOnce`), and the `except` clause sends only where no reply was sent.
A failed receive leaves the socket idle, and a reply to it is illegal and dropped; a
reply that fails leaves the request open, so that the next receive is illegal, and the
error reply to that goes to the open request.  `oneReply` puts this together for runs.

The branches of `Bridge.Commands` are such calls; `Bridge.CmdLoop` says what a pass of the
loop then does.
-/
import WheeltecRos2.Lib.ReqRep
import WheeltecRos2.Bridge.Commands
import WheeltecRos2.Bridge.Processes

namespace Bridge

open Hoare ReqRep

section Model

/-- The payload of `generate_coverage`, converted. -/
structure CoverageOptions (F : Type) where
  robotWidth : F
  overlap : F
  pattern : String

/-- What `generate_coverage_waypoints` and `validate_waypoints` return. -/
structure CoveragePlan (F : Type) where
  waypoints : List (Json F)
  isValid : Bool
  errorMsg : String

/-- The calls of `cmd_loop`.  `illegal` is the error of a call the socket does not allow,
`exception` an exception of `msg.get`.  `patrolStop` stands for the branch up to its lock
block, `navigationIdle` for the write of `idle`. -/
structure CmdNode (σ ε R F : Type) where
  rosOk : σ → Bool
  arrive : Prog σ ε R
  loads : R → Prog σ ε (Json F)
  dumps : Json F → Prog σ ε Unit
  illegal : ε
  exception : PyError → ε
  str : ε → Prog σ ε String
  logError : ε → Prog σ ε Unit
  cmdVel : Json F → Prog σ ε Unit
  navGoal : Json F → Prog σ ε Unit
  startPatrol : Json F → Prog σ ε Unit
  patrolStop : Json F → Prog σ ε Unit
  patrolRunId : Prog σ ε (Json F)
  coverageOptions : Json F → Prog σ ε (CoverageOptions F)
  mapMissing : Prog σ ε Bool
  planCoverage : CoverageOptions F → Prog σ ε (CoveragePlan F)
  logCoverageError : ε → Prog σ ε Unit
  mapCb : Prog σ ε Unit
  listActiveNodes : Prog σ ε (Json F)
  collectLogEntries : Json F → Prog σ ε (Json F)
  lowerField : Json F → String → Prog σ ε String
  mapPathField : Json F → Prog σ ε (Json F)
  switchNavigationMode : String → Json F → Prog σ ε (Json F)
  stopManagedProcess : ProcName → Prog σ ε (Json F)
  navigationIdle : Prog σ ε Unit
  saveCurrentMap : Json F → Prog σ ε (Json F)
  sleep : Prog σ ε Unit
  controlNav2 : Json F → Prog σ ε (Json F)

/-- The values `action` is compared with. -/
inductive CmdAction
  | cmdVel
  | navGoal
  | patrolStart
  | patrolStop
  | generateCoverage
  | resendMap
  | listNodes
  | getLogs
  | navigationMode
  | slamControl
  | nav2Control
  | unknown

variable {σ ε R F : Type}

/-- The test of `action`. -/
def CmdAction.ofJson : Json F → CmdAction
  | .str "cmd_vel" => .cmdVel
  | .str "nav_goal" => .navGoal
  | .str "patrol_start" => .patrolStart
  | .str "patrol_stop" => .patrolStop
  | .str "generate_coverage" => .generateCoverage
  | .str "resend_map" => .resendMap
  | .str "list_nodes" => .listNodes
  | .str "get_logs" => .getLogs
  | .str "navigation_mode" => .navigationMode
  | .str "slam_control" => .slamControl
  | .str "nav2_control" => .nav2Control
  | _ => .unknown

/-- A reply with a status only. -/
def statusReply (status : String) : Json F := .dict [("status", .str status)]

/-- An error reply. -/
def errorReply (message : String) : Json F :=
  .dict [("status", .str "error"), ("message", .str message)]

/-- The command thread, with its socket. -/
abbrev CmdProg (σ ε R F α : Type) := ServerProg σ ε R (Json F) α

namespace CmdNode

/-- `cmd_rep.send_json(message)`. -/
def sendJson (node : CmdNode σ ε R F) (message : Json F) : CmdProg σ ε R F Unit :=
  send node.dumps node.illegal message

/-- A conversion that may raise. -/
def convert {α : Type} (node : CmdNode σ ε R F) : Except PyError α → Prog σ ε α
  | .ok a => pure a
  | .error e => throw (node.exception e)

/-- The branch `generate_coverage`. -/
def generateCoverage (node : CmdNode σ ε R F) (payload : Json F) : CmdProg σ ε R F Unit := do
  let options ← onState (node.coverageOptions payload)
  let missing ← onState node.mapMissing
  if missing then node.sendJson (errorReply "No map available")
  else
    try
      let plan ← onState (node.planCoverage options)
      if plan.isValid then
        node.sendJson (.dict [("status", .str "ok"), ("waypoints", .list plan.waypoints),
          ("count", .int plan.waypoints.length)])
      else node.sendJson (errorReply plan.errorMsg)
    catch e =>
      onState (node.logCoverageError e)
      let text ← onState (node.str e)
      node.sendJson (errorReply text)

/-- The branch `slam_control`. -/
def slamControl (node : CmdNode σ ε R F) (payload : Json F) : CmdProg σ ε R F Unit := do
  let slamAction ← onState (node.lowerField payload "action")
  if slamAction = "start" then
    let answer ← onState (node.switchNavigationMode "slam" .null)
    node.sendJson answer
  else if slamAction = "stop" then
    let result ← onState (node.stopManagedProcess .slam)
    onState node.navigationIdle
    node.sendJson (.dict [("status", .str "ok"), ("slam", result)])
  else if slamAction = "save" then
    let answer ← onState (node.saveCurrentMap payload)
    node.sendJson answer
  else if slamAction = "reset" then
    let _ ← onState (node.stopManagedProcess .slam)
    onState node.sleep
    let answer ← onState (node.switchNavigationMode "slam" .null)
    node.sendJson answer
  else node.sendJson (errorReply "Unknown slam_control action")

/-- The branches of `cmd_loop`. -/
def branch (node : CmdNode σ ε R F) (payload : Json F) : CmdAction → CmdProg σ ε R F Unit
  | .cmdVel => do
    onState (node.cmdVel payload)
    node.sendJson (statusReply "ok")
  | .navGoal => do
    onState (node.navGoal payload)
    node.sendJson (statusReply "goal_sent")
  | .patrolStart => do
    onState (node.startPatrol payload)
    let runId ← onState node.patrolRunId
    node.sendJson (.dict [("status", .str "started"), ("run_id", runId)])
  | .patrolStop => do
    onState (node.patrolStop payload)
    let runId ← onState node.patrolRunId
    node.sendJson (.dict [("status", .str "stopped"), ("run_id", runId)])
  | .generateCoverage => node.generateCoverage payload
  | .resendMap => do
    let missing ← onState node.mapMissing
    if missing then node.sendJson (statusReply "no_map_available")
    else
      onState node.mapCb
      node.sendJson (statusReply "map_resent")
  | .listNodes => do
    let answer ← onState node.listActiveNodes
    node.sendJson answer
  | .getLogs => do
    let answer ← onState (node.collectLogEntries payload)
    node.sendJson answer
  | .navigationMode => do
    let mode ← onState (node.lowerField payload "mode")
    let mapPath ← onState (node.mapPathField payload)
    let answer ← onState (node.switchNavigationMode mode mapPath)
    node.sendJson answer
  | .slamControl => node.slamControl payload
  | .nav2Control => do
    let answer ← onState (node.controlNav2 payload)
    node.sendJson answer
  | .unknown => node.sendJson (statusReply "unknown_action")

/-- The `try` block, from the request on. -/
def answer (node : CmdNode σ ε R F) (request : R) : CmdProg σ ε R F Unit := do
  let message ← onState (node.loads request)
  let parts ← onState (node.convert (decode message))
  node.branch parts.2 (.ofJson parts.1)

/-- The `try` block. -/
def serve (node : CmdNode σ ε R F) : CmdProg σ ε R F Unit :=
  receive node.arrive node.illegal >>= node.answer

/-- The reply of the `except` clause. -/
def sendError (node : CmdNode σ ε R F) (e : ε) : CmdProg σ ε R F Unit := do
  let text ← onState (node.str e)
  node.sendJson (errorReply text)

/-- The body of the `while` loop. -/
def cmdLoopBody (node : CmdNode σ ε R F) : CmdProg σ ε R F Unit :=
  guarded node.serve node.logError node.sendError

end CmdNode

/-- How the command thread stands: it died if its `except` clause raised. -/
inductive ThreadStatus
  | running
  | returned
  | died

/-- The command thread. -/
structure CmdThread (σ R F : Type) where
  server : Server σ R (Json F)
  status : ThreadStatus

namespace CmdThread

/-- The thread when it is started. -/
def start (s : σ) : CmdThread σ R F :=
  { server := { state := s, socket := .init }, status := .running }

/-- The successful receives and sends so far. -/
def trace (t : CmdThread σ R F) : List (SocketEvent R (Json F)) := t.server.socket.trace

/-- The test of the `while` loop and one pass of its body. -/
def step (node : CmdNode σ ε R F) (t : CmdThread σ R F) : CmdThread σ R F :=
  match t.status with
  | .running =>
    if node.rosOk t.server.state then
      match exec node.cmdLoopBody t.server with
      | (.ok _, server) => { server, status := .running }
      | (.error _, server) => { server, status := .died }
    else { t with status := .returned }
  | .returned | .died => t

/-- The thread after a number of passes. -/
def after (node : CmdNode σ ε R F) (s : σ) : ℕ → CmdThread σ R F
  | 0 => start s
  | n + 1 => step node (after node s n)

/-- If the next pass comes to send an error reply for an open request, it does not fail. -/
def ErrorReplySent (node : CmdNode σ ε R F) (t : CmdThread σ R F) : Prop :=
  ReportSent node.serve node.logError node.sendError t.server

/-- The log of the `except` clause does not raise. -/
def LogReturns (node : CmdNode σ ε R F) : Prop :=
  ∀ e s, ∃ s', exec (node.logError e) s = (.ok (), s')

/-- A pass adds nothing to the trace, or a request and its reply. -/
def OneExchange (t t' : CmdThread σ R F) : Prop :=
  t'.trace = t.trace ∨
    ∃ request message, t'.trace = t.trace ++ [.received request, .replied message]

end CmdThread

end Model

/-! ### One reply -/

section Results

variable {σ ε R F : Type} {node : CmdNode σ ε R F} {payload : Json F}

namespace CmdNode

theorem sendJson_answersOnce (message : Json F) : AnswersOnce (node.sendJson message) :=
  .send node.dumps node.illegal message

/-- The error replies inside the branch are sent only if nothing was sent before. -/
theorem generateCoverage_answersOnce : AnswersOnce (node.generateCoverage payload) := by
  refine .after _ fun options => .after _ fun missing => ?_
  refine .cond (sendJson_answersOnce _) ?_
  refine .recover ?_ ?_
  · refine .after _ ?_
    intro plan
    exact .cond (sendJson_answersOnce _) (sendJson_answersOnce _)
  · intro e
    exact .after _ fun _ => .after _ fun text => sendJson_answersOnce _

theorem slamControl_answersOnce : AnswersOnce (node.slamControl payload) := by
  refine .after _ ?_
  intro slamAction
  refine .cond ?start <| .cond ?stop <| .cond ?save <| .cond ?reset (sendJson_answersOnce _)
  case start => exact .after _ fun answer => sendJson_answersOnce _
  case stop => exact .after _ fun result => .after _ fun _ => sendJson_answersOnce _
  case save => exact .after _ fun answer => sendJson_answersOnce _
  case reset =>
    exact .after _ fun _ => .after _ fun _ => .after _ fun answer => sendJson_answersOnce _

/-- **The branches.**  Whatever its calls raise, a branch sends one reply and returns, or
raises and has sent nothing. -/
theorem branch_answersOnce (action : CmdAction) : AnswersOnce (node.branch payload action) := by
  cases action with
  | cmdVel => exact .after _ fun _ => sendJson_answersOnce _
  | navGoal => exact .after _ fun _ => sendJson_answersOnce _
  | patrolStart => exact .after _ fun _ => .after _ fun runId => sendJson_answersOnce _
  | patrolStop => exact .after _ fun _ => .after _ fun runId => sendJson_answersOnce _
  | generateCoverage => exact generateCoverage_answersOnce
  | resendMap =>
    refine .after _ fun missing => .cond (sendJson_answersOnce _) ?_
    exact .after _ fun _ => sendJson_answersOnce _
  | listNodes => exact .after _ fun answer => sendJson_answersOnce _
  | getLogs => exact .after _ fun answer => sendJson_answersOnce _
  | navigationMode =>
    exact .after _ fun mode => .after _ fun mapPath => .after _ fun answer => sendJson_answersOnce _
  | slamControl => exact slamControl_answersOnce
  | nav2Control => exact .after _ fun answer => sendJson_answersOnce _
  | unknown => exact sendJson_answersOnce _

theorem serve_servesOnce : ServesOnce node.serve := by
  refine AnswersOnce.serves node.arrive node.illegal ?_
  intro request
  exact .after _ fun message => .after _ fun parts => branch_answersOnce _

theorem sendError_answersOnce (e : ε) : AnswersOnce (node.sendError e) :=
  .after _ fun _ => sendJson_answersOnce _

/-- The error reply, where it can be written and sent. -/
theorem exec_sendError {e : ε} {text : String} {s : Server σ R (Json F)} {state state' : σ}
    (hstr : exec (node.str e) s.state = (.ok text, state))
    (hdumps : exec (node.dumps (errorReply text)) state = (.ok (), state'))
    (hasked : s.socket.phase = .asked) :
    exec (node.sendError e) s =
      (.ok (), { state := state', socket := s.socket.replied (errorReply text) }) := by
  have htext : exec (onState (node.str e)) s = (.ok text, { s with state }) := by
    rw [exec_onState, hstr]
  rw [sendError, exec_bind_of_ok htext]
  exact exec_send hdumps hasked

end CmdNode

namespace CmdThread

variable {t : CmdThread σ R F} {s : σ}

/-- If `str` and `dumps` do not raise, neither does an error reply that is due. -/
theorem errorReplySent_of_total (hstr : ∀ e s, ∃ text s', exec (node.str e) s = (.ok text, s'))
    (hdumps : ∀ message s, ∃ s', exec (node.dumps message) s = (.ok (), s'))
    (t : CmdThread σ R F) : ErrorReplySent node t := by
  intro e s₁ s₂ _ _ hasked
  obtain ⟨text, state, htext⟩ := hstr e s₂.state
  obtain ⟨state', hstate'⟩ := hdumps (errorReply text) state
  exact ⟨_, CmdNode.exec_sendError htext hstate' hasked⟩

/-- What a step does: nothing to the socket, or one pass. -/
theorem step_cases (node : CmdNode σ ε R F) (t : CmdThread σ R F) :
    ((step node t).server = t.server ∧ ((step node t).status = .died → t.status = .died)) ∨
    ∃ result, exec node.cmdLoopBody t.server = (result, (step node t).server) ∧
      ((step node t).status ≠ .died ↔ result = .ok ()) := by
  rcases hstatus : t.status with - | - | -
  · by_cases hok : node.rosOk t.server.state = true
    · refine .inr ?_
      rcases hexec : exec node.cmdLoopBody t.server with ⟨e | u, server⟩
      · simp [step, hstatus, hok, hexec]
      · simp [step, hstatus, hok, hexec]
    · simp [step, hstatus, hok]
  · simp [step, hstatus]
  · simp [step, hstatus]

theorem step_status_died (h : t.status = .died) : (step node t).status = .died := by
  rw [step, h]
  exact h

theorem step_consistent (h : t.server.socket.Consistent) :
    (step node t).server.socket.Consistent := by
  rcases step_cases node t with ⟨hsame, -⟩ | ⟨result, hexec, -⟩
  · rwa [hsame]
  · have hadvanced := guarded_advances CmdNode.serve_servesOnce CmdNode.sendError_answersOnce hexec
    exact hadvanced.consistent h

/-- A step from an idle socket that sends its error reply, if it has one to send. -/
theorem step_settles (hidle : t.server.socket.phase = .idle) (hsent : ErrorReplySent node t)
    (halive : (step node t).status ≠ .died) :
    (step node t).server.socket.phase = .idle ∧ OneExchange t (step node t) := by
  rcases step_cases node t with ⟨hsame, -⟩ | ⟨result, hexec, hresult⟩
  · rw [OneExchange, trace, hsame]
    exact ⟨hidle, .inl rfl⟩
  · rw [hresult.mp halive] at hexec
    obtain ⟨hphase, hends⟩ := guarded_settles CmdNode.serve_servesOnce
      CmdNode.sendError_answersOnce hsent hexec
    refine ⟨hphase, ?_⟩
    rcases hends hidle with hhas | ⟨-, request, message, hhas⟩
    · exact .inl (congrArg Socket.trace hhas)
    · refine .inr ⟨request, message, ?_⟩
      rw [trace, hhas, Socket.trace_exchange, trace]

theorem after_consistent (n : ℕ) : (after node s n).server.socket.Consistent := by
  induction n with
  | zero => exact Socket.consistent_init
  | succ n ih => exact step_consistent ih

theorem alive_of_succ {n : ℕ} (h : (after node s (n + 1)).status ≠ .died) :
    (after node s n).status ≠ .died :=
  fun hdied => h (step_status_died hdied)

/-- As long as error replies are sent, no request stays open. -/
theorem after_settles {n : ℕ} (hsent : ∀ i < n, ErrorReplySent node (after node s i))
    (halive : (after node s n).status ≠ .died) :
    (after node s n).server.socket.phase = .idle ∧
      ∀ i < n, OneExchange (after node s i) (after node s (i + 1)) := by
  induction n with
  | zero => exact ⟨rfl, fun i hi => absurd hi (Nat.not_lt_zero i)⟩
  | succ n ih =>
    obtain ⟨hidle, hbefore⟩ :=
      ih (fun i hi => hsent i (Nat.lt_succ_of_lt hi)) (alive_of_succ halive)
    obtain ⟨hphase, hlast⟩ := step_settles hidle (hsent n (Nat.lt_succ_self n)) halive
    refine ⟨hphase, ?_⟩
    intro i hi
    rcases Nat.lt_succ_iff_lt_or_eq.mp hi with hi | rfl
    · exact hbefore i hi
    · exact hlast

theorem alive_of_logReturns (hlog : LogReturns node) (n : ℕ) :
    (after node s n).status ≠ .died := by
  induction n with
  | zero => exact nofun
  | succ n ih =>
    intro hdied
    rcases step_cases node (after node s n) with ⟨-, hsame⟩ | ⟨result, hexec, hresult⟩
    · exact ih (hsame hdied)
    · exact hresult.mpr (guarded_returns hlog hexec) hdied

/-- **One reply for each request.**  Whatever the calls do and raise, receives and sends
alternate, so a reply goes to the request received last and no request gets two.  As long
as the error replies that are due can be sent, and the `except` clause itself does not
raise, every pass answers the request it has received, if any.  Only the log of the
`except` clause can end the thread. -/
theorem oneReply (node : CmdNode σ ε R F) (s : σ) (n : ℕ) :
    Alternates (after node s n).trace ∧
    ((∀ i < n, ErrorReplySent node (after node s i)) → (after node s n).status ≠ .died →
      AllAnswered (after node s n).trace ∧
        ∀ i < n, OneExchange (after node s i) (after node s (i + 1))) ∧
    (LogReturns node → (after node s n).status ≠ .died) := by
  refine ⟨(after_consistent n).alternates, ?_, fun hlog => alive_of_logReturns hlog n⟩
  intro hsent halive
  obtain ⟨hidle, hpasses⟩ := after_settles hsent halive
  have hconsistent : (after node s n).server.socket.Consistent := after_consistent n
  rw [Socket.Consistent, hidle] at hconsistent
  exact ⟨hconsistent, hpasses⟩

end CmdThread

end Results

/-! ### A short run -/

/-- A node that takes its requests from a list, without a map or a patrol. -/
def CmdNode.small : CmdNode (List (Json ℚ)) PyError (Json ℚ) ℚ where
  rosOk _ := true
  arrive := do
    match ← get with
    | [] => throw (.builtin .osError)
    | request :: rest =>
      set rest
      return request
  loads request := return request
  dumps _ := return
  illegal := .builtin .osError
  exception := id
  str e := return e.str ℚ
  logError _ := return
  cmdVel _ := return
  navGoal _ := return
  startPatrol _ := throw (.raised "Patrol home is required")
  patrolStop _ := return
  patrolRunId := return .null
  coverageOptions _ := throw (.builtin .valueError)
  mapMissing := return true
  planCoverage _ := throw (.builtin .valueError)
  logCoverageError _ := return
  mapCb := return
  listActiveNodes := return .dict []
  collectLogEntries _ := return .dict []
  lowerField _ _ := return ""
  mapPathField _ := return .null
  switchNavigationMode _ _ := throw (.raised "mode must be slam or nav2")
  stopManagedProcess _ := return .dict []
  navigationIdle := return
  saveCurrentMap _ := return .dict []
  sleep := return
  controlNav2 _ := return .dict []

/-- A request that is served, and one that is no object. -/
def smallRequests : List (Json ℚ) := [.dict [("action", .str "resend_map")], .null]

/-- Both are answered; the third pass receives nothing and changes nothing. -/
theorem CmdThread.oneReply_small :
    (after CmdNode.small smallRequests 3).trace =
      exchanges (smallRequests.zip [statusReply "no_map_available", errorReply ""]) ∧
    AllAnswered (after CmdNode.small smallRequests 3).trace := by
  refine ⟨rfl, ?_⟩
  have hsent : ∀ i < 3, ErrorReplySent CmdNode.small (after CmdNode.small smallRequests i) :=
    fun i _ => errorReplySent_of_total (fun e s => ⟨e.str ℚ, s, rfl⟩) (fun _ s => ⟨s, rfl⟩) _
  exact ((oneReply CmdNode.small smallRequests 3).2.1 hsent nofun).1

end Bridge
