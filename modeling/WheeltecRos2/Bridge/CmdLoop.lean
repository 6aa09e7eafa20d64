/-
A pass of `cmd_loop` over the modelled handlers.

`CmdNode.bridge` fills the calls of `cmd_loop` with the branches of `Bridge.Commands` and
`Bridge.Processes`.  Where a request is delivered and its reply can be sent, a pass of the
loop then changes the node and answers as these say: `cmdLoopBody_commands` for the
patrol and motion commands, `cmdLoopBody_processes` for the process commands.
-/
import WheeltecRos2.Bridge.Replies

namespace Bridge

open Hoare ReqRep

section Model

variable {F : Type} [PyNum F] {R : Type}

/-- The fields of the node that the commands touch. -/
structure BridgeState (F : Type) where
  node : Node F
  supervisor : Supervisor F

/-- A part that works on the patrol and the publishers. -/
def onNode {α : Type} (f : Node F → Node F × Except PyError α) :
    Prog (BridgeState F) PyError α :=
  ExceptT.mk fun s => ((f s.node).2, { s with node := (f s.node).1 })

/-- A part that works on the managed processes. -/
def onSupervisor {α : Type} (x : Handler F α) : Prog (BridgeState F) PyError α :=
  zoom BridgeState.supervisor (fun supervisor s => { s with supervisor }) x

/-- A branch up to its reply. -/
def Outcome.unsent (outcome : Outcome F) : Node F × Except PyError Unit :=
  (outcome.1, outcome.2.map fun _ => ())

/-- The modelled calls; the others are those of `base`. -/
def CmdNode.bridge (base : CmdNode (BridgeState F) PyError R F) (config : Config F)
    (os : Surroundings F) (now : F) : CmdNode (BridgeState F) PyError R F :=
  { base with
    exception := id
    cmdVel := fun payload => onNode fun n => (n.cmdVel payload).unsent
    navGoal := fun payload => onNode fun n => (n.navGoal payload).unsent
    startPatrol := fun payload => onNode fun n => n.startPatrol payload now
    patrolStop := fun payload => onNode fun n => (n.patrolStop payload).unsent
    patrolRunId := onNode fun n => (n, .ok n.patrol.runId)
    lowerField := fun payload key => onSupervisor (ofExcept (Bridge.lowerField payload key))
    mapPathField := fun payload => onSupervisor (ofExcept (Bridge.mapPathField payload))
    switchNavigationMode := fun mode mapPath =>
      onSupervisor (Bridge.switchNavigationMode config os mode mapPath)
    stopManagedProcess := fun name => onSupervisor (Bridge.stopManagedProcess os name)
    navigationIdle := onSupervisor (modify fun s => { s with navigationMode := "idle" })
    saveCurrentMap := fun _ => onSupervisor do
      modify fun s => { s with currentMapPath := os.savedMapPath.getD s.currentMapPath }
      ofExcept os.saveCurrentMap
    sleep := return
    controlNav2 := fun payload => onSupervisor (Bridge.controlNav2 config os payload) }

/-- The request is received and read, and replies can be sent. -/
structure Delivers {σ : Type} (node : CmdNode σ PyError R F) (request : R) (message : Json F) :
    Prop where
  arrive : ∀ s, exec node.arrive s = (.ok request, s)
  loads : ∀ s, exec (node.loads request) s = (.ok message, s)
  dumps : ∀ answer s, exec (node.dumps answer) s = (.ok (), s)
  logError : ∀ e s, exec (node.logError e) s = (.ok (), s)
  str : ∀ e s, exec (node.str e) s = (.ok (e.str F), s)

/-- The action of a command of `Bridge.Commands`. -/
def CommandAction.toCmdAction : CommandAction → CmdAction
  | .cmdVel => .cmdVel
  | .navGoal => .navGoal
  | .patrolStart => .patrolStart
  | .patrolStop => .patrolStop

/-- The request of `Bridge.Processes` with this action. -/
def CmdAction.processRequest (payload : Json F) : CmdAction → Option (ProcessRequest F)
  | .navigationMode => some (.navigationMode payload)
  | .slamControl => some (.slamControl payload)
  | .nav2Control => some (.nav2Control payload)
  | _ => none

end Model

section Results

variable {F R σ : Type} [PyNum F] {node : CmdNode σ PyError R F} {request : R}
  {message : Json F} {server : Server σ R (Json F)}

/-! ### Passes with a request -/

/-- The `try` block with the request received. -/
theorem exec_serve (h : Delivers node request message) (hidle : server.socket.phase = .idle) :
    exec node.serve server =
      exec (node.answer request) { server with socket := server.socket.received request } := by
  rw [CmdNode.serve, exec_bind_of_ok (exec_receive (h.arrive server.state) hidle)]

/-- **A pass of a branch that is one call and its reply.**  What the call returns is the
reply, what it raises is reported. -/
theorem exec_cmdLoopBody_of_call (h : Delivers node request message)
    (hidle : server.socket.phase = .idle) {x : Prog σ PyError (Json F)}
    (hanswer : ∀ s, exec (node.answer request) s = exec (onState x >>= node.sendJson) s) :
    exec node.cmdLoopBody server =
      (.ok (), { state := (exec x server.state).2
                 socket := (server.socket.received request).replied
                   (reply (exec x server.state).1) }) := by
  have hserve := exec_serve h hidle
  rw [hanswer] at hserve
  rcases hx : exec x server.state with ⟨e | answer, state⟩
  · have hcall : exec (onState x) { server with socket := server.socket.received request } =
        (.error e, { state, socket := server.socket.received request }) := by
      rw [exec_onState, hx]
    rw [exec_bind_of_error hcall] at hserve
    rw [CmdNode.cmdLoopBody, guarded, exec_tryCatch_of_error hserve]
    have hlog : exec (onState (R := R) (M := Json F) (node.logError e))
        { state, socket := server.socket.received request } =
        (.ok (), { state, socket := server.socket.received request }) := by
      rw [exec_onState, h.logError]
    rw [exec_bind_of_ok hlog]
    exact exec_tryCatch_of_ok (CmdNode.exec_sendError (h.str e state) (h.dumps _ state) rfl)
  · have hcall : exec (onState x) { server with socket := server.socket.received request } =
        (.ok answer, { state, socket := server.socket.received request }) := by
      rw [exec_onState, hx]
    rw [exec_bind_of_ok hcall, CmdNode.sendJson, exec_send (h.dumps answer state) rfl] at hserve
    exact exec_tryCatch_of_ok hserve

/-! ### The branches as calls -/

theorem exec_answer (h : Delivers node request message) :
    exec (node.answer request) server =
      exec (onState (node.convert (decode message)) >>= fun parts =>
        node.branch parts.2 (.ofJson parts.1)) server := by
  have hloads : exec (onState (R := R) (M := Json F) (node.loads request)) server =
      (.ok message, server) := by
    rw [exec_onState, h.loads]
  rw [CmdNode.answer, exec_bind_of_ok hloads]

theorem exec_answer_of_ok (h : Delivers node request message) {action payload : Json F}
    (hdecode : decode message = .ok (action, payload)) :
    exec (node.answer request) server = exec (node.branch payload (.ofJson action)) server := by
  rw [exec_answer h, hdecode]
  rfl

theorem exec_answer_of_error (h : Delivers node request message) {e : PyError}
    (hdecode : decode message = .error e) :
    exec (node.answer request) server = (.error (node.exception e), server) := by
  rw [exec_answer h, hdecode]
  rfl

variable {base : CmdNode (BridgeState F) PyError R F} {config : Config F} {os : Surroundings F}
  {now : F} {payload : Json F}

theorem Delivers.bridge (h : Delivers base request message) :
    Delivers (base.bridge config os now) request message :=
  ⟨h.arrive, h.loads, h.dumps, h.logError, h.str⟩

section Calls

variable {node : CmdNode (BridgeState F) PyError R F} {s : Server (BridgeState F) R (Json F)}
  {α : Type} {f : Node F → Node F × Except PyError α} {n : Node F}

omit [PyNum F] in
theorem exec_onNode_of_ok {k : α → CmdProg (BridgeState F) PyError R F Unit} {a : α}
    (h : f s.state.node = (n, .ok a)) :
    exec (onState (onNode f) >>= k) s = exec (k a) { s with state := { s.state with node := n } } := by
  refine exec_bind_of_ok ?_
  show ((f s.state.node).2, { s with state := { s.state with node := (f s.state.node).1 } }) = _
  rw [h]

omit [PyNum F] in
theorem exec_onNode_of_error {k : α → CmdProg (BridgeState F) PyError R F Unit} {e : PyError}
    (h : f s.state.node = (n, .error e)) :
    exec (onState (onNode f) >>= k) s =
      (.error e, { s with state := { s.state with node := n } }) := by
  refine exec_bind_of_error ?_
  show ((f s.state.node).2, { s with state := { s.state with node := (f s.state.node).1 } }) = _
  rw [h]

omit [PyNum F] in
/-- A branch whose reply depends on the node it leaves. -/
theorem call_of_unsent (branch : Node F → Outcome F) (message : Node F → Json F)
    {k : CmdProg (BridgeState F) PyError R F Unit}
    (hk : ∀ s, exec k s = exec (node.sendJson (message s.state.node)) s)
    (h : ∀ n answer, (branch n).2 = .ok answer → answer = message (branch n).1) :
    (onState (onNode fun n => (branch n).unsent) >>= fun _ => k) =
      onState (onNode branch) >>= node.sendJson := by
  refine prog_ext ?_
  intro s
  rcases hbranch : branch s.state.node with ⟨n, e | answer⟩
  · have hunsent : (branch s.state.node).unsent = (n, .error e) := by rw [hbranch]; rfl
    rw [exec_onNode_of_error hunsent, exec_onNode_of_error hbranch]
  · have hunsent : (branch s.state.node).unsent = (n, .ok ()) := by rw [hbranch]; rfl
    rw [exec_onNode_of_ok hunsent, exec_onNode_of_ok hbranch, hk,
      h s.state.node answer (by rw [hbranch]), hbranch]

omit [PyNum F] in
/-- The identifier of the patrol is read after the branch has changed it. -/
theorem call_of_unsent_runId (branch : Node F → Outcome F) {status : String}
    (h : ∀ n answer, (branch n).2 = .ok answer →
      answer = .dict [("status", .str status), ("run_id", (branch n).1.patrol.runId)]) :
    (onState (onNode fun n => (branch n).unsent) >>= fun _ =>
      onState (onNode fun n => (n, .ok n.patrol.runId)) >>= fun runId =>
        node.sendJson (.dict [("status", .str status), ("run_id", runId)])) =
      onState (onNode branch) >>= node.sendJson := by
  refine call_of_unsent branch
    (fun n => .dict [("status", .str status), ("run_id", n.patrol.runId)]) ?_ h
  intro s
  rw [exec_onNode_of_ok rfl]

end Calls

theorem unsent_patrolStart (n : Node F) :
    (n.patrolStart payload now).unsent = n.startPatrol payload now := by
  rw [Node.patrolStart]
  rcases n.startPatrol payload now with ⟨n', e | u⟩ <;> rfl

/-- A command of `Bridge.Commands`. -/
theorem branch_commands (action : CommandAction) :
    (base.bridge config os now).branch payload action.toCmdAction =
      onState (onNode fun n => n.branch now payload action) >>=
        (base.bridge config os now).sendJson := by
  cases action with
  | cmdVel =>
    refine call_of_unsent (fun n => n.cmdVel payload) (fun _ => statusReply "ok")
      (fun _ => rfl) ?_
    intro n answer h
    simp only [Node.cmdVel] at h
    rcases hparse : parseTwist payload with e | twist
    · simp [hparse] at h
    · simpa [hparse, statusReply] using h.symm
  | navGoal =>
    refine call_of_unsent (fun n => n.navGoal payload) (fun _ => statusReply "goal_sent")
      (fun _ => rfl) ?_
    intro n answer h
    simp only [Node.navGoal] at h
    rcases hparse : parseNavGoal payload with e | goal
    · simp [hparse] at h
    · simpa [hparse, statusReply] using h.symm
  | patrolStart =>
    have hcall : ∀ (n : Node F) answer, (n.patrolStart payload now).2 = .ok answer → answer =
        .dict [("status", .str "started"), ("run_id", (n.patrolStart payload now).1.patrol.runId)] := by
      intro n answer h
      simp only [Node.patrolStart] at h ⊢
      rcases hstart : n.startPatrol payload now with ⟨n', e | u⟩
      · simp [hstart] at h
      · simpa [hstart] using h.symm
    have hunsent : (fun n : Node F => (n.patrolStart payload now).unsent) =
        fun n => n.startPatrol payload now := funext unsent_patrolStart
    refine Eq.trans ?_ (call_of_unsent_runId (fun n => n.patrolStart payload now) hcall)
    rw [hunsent]
    rfl
  | patrolStop =>
    refine call_of_unsent_runId (fun n => n.patrolStop payload) ?_
    intro n answer h
    simp only [Node.patrolStop] at h ⊢
    rcases hreason : stopReason payload with e | reason
    · simp [hreason] at h
    · simpa [hreason] using h.symm

omit [PyNum F] in
theorem onSupervisor_bind {α β : Type} (x : Handler F α) (f : α → Handler F β) :
    onSupervisor (x >>= f) = onSupervisor x >>= fun a => onSupervisor (f a) :=
  zoom_bind (fun _ _ => rfl) fun _ _ _ => rfl

omit [PyNum F] in
/-- The first call of a handler. -/
theorem call_bind {α : Type} (x : Handler F α) (f : α → Handler F (Json F))
    (k : Json F → CmdProg (BridgeState F) PyError R F Unit) :
    onState (onSupervisor (x >>= f)) >>= k =
      onState (onSupervisor x) >>= fun a => onState (onSupervisor (f a)) >>= k := by
  rw [onSupervisor_bind, onState_bind, bind_assoc]

/-- A request of `Bridge.Processes`. -/
theorem branch_processes {action : CmdAction} {request : ProcessRequest F}
    (h : action.processRequest payload = some request) :
    (base.bridge config os now).branch payload action =
      onState (onSupervisor (request.handle config os)) >>=
        (base.bridge config os now).sendJson := by
  cases action with
  | navigationMode =>
    cases h
    refine Eq.trans ?_ (call_bind _ _ _).symm
    refine congrArg (onState _ >>= ·) (funext fun mode => ?_)
    exact (call_bind _ _ _).symm
  | slamControl =>
    cases h
    refine Eq.trans ?_ (call_bind _ _ _).symm
    refine congrArg (onState _ >>= ·) (funext fun slamAction => ?_)
    by_cases hstart : slamAction = "start"
    · rw [if_pos hstart, if_pos hstart]
      rfl
    by_cases hstop : slamAction = "stop"
    · rw [if_neg hstart, if_pos hstop, if_neg hstart, if_pos hstop, call_bind]
      refine congrArg (onState _ >>= ·) (funext fun result => ?_)
      rw [call_bind]
      rfl
    by_cases hsave : slamAction = "save"
    · rw [if_neg hstart, if_neg hstop, if_pos hsave, if_neg hstart, if_neg hstop, if_pos hsave]
      rfl
    by_cases hreset : slamAction = "reset"
    · rw [if_neg hstart, if_neg hstop, if_neg hsave, if_pos hreset, if_neg hstart, if_neg hstop,
        if_neg hsave, if_pos hreset, call_bind]
      rfl
    · rw [if_neg hstart, if_neg hstop, if_neg hsave, if_neg hreset, if_neg hstart, if_neg hstop,
        if_neg hsave, if_neg hreset]
      rfl
  | nav2Control =>
    cases h
    rfl
  | _ => cases h

/-! ### A pass -/

omit [PyNum F] in
theorem ofJson_eq_toCmdAction {action : Json F} {known : CommandAction}
    (h : CommandAction.ofJson action = some known) :
    CmdAction.ofJson action = known.toCmdAction := by
  rw [CommandAction.ofJson.eq_def] at h
  split at h <;> cases h <;> rfl

/-- **A pass with a command** of `Bridge.Commands`, or with a message that is no object:
node and reply are those of `Node.cmdLoop`. -/
theorem cmdLoopBody_commands (h : Delivers base request message)
    {server : Server (BridgeState F) R (Json F)} (hidle : server.socket.phase = .idle)
    {answer : Json F} (hanswer : (server.state.node.cmdLoop message now).2 = some answer) :
    exec (base.bridge config os now).cmdLoopBody server =
      (.ok (), { state := { server.state with node := (server.state.node.cmdLoop message now).1 }
                 socket := (server.socket.received request).replied answer }) := by
  have hdelivers : Delivers (base.bridge config os now) request message := h.bridge
  rw [Node.cmdLoop] at hanswer ⊢
  rcases hdecode : decode message with e | ⟨action, payload⟩
  · rw [hdecode] at hanswer
    cases hanswer
    refine exec_cmdLoopBody_of_call hdelivers hidle (x := throw e) ?_
    intro s
    rw [exec_answer_of_error hdelivers hdecode]
    rfl
  · rcases haction : CommandAction.ofJson action with _ | known
    · simp [hdecode, haction] at hanswer
    · simp only [hdecode, haction, Option.some.injEq] at hanswer ⊢
      subst hanswer
      refine exec_cmdLoopBody_of_call hdelivers hidle
        (x := onNode fun n => n.branch now payload known) ?_
      intro s
      rw [exec_answer_of_ok hdelivers hdecode, ofJson_eq_toCmdAction haction, branch_commands]

/-- **A pass with a process command**: supervisor and reply are those of its handler. -/
theorem cmdLoopBody_processes (h : Delivers base request message)
    {server : Server (BridgeState F) R (Json F)} (hidle : server.socket.phase = .idle)
    {action payload : Json F} (hdecode : decode message = .ok (action, payload))
    {processRequest : ProcessRequest F}
    (hrequest : (CmdAction.ofJson action).processRequest payload = some processRequest) :
    exec (base.bridge config os now).cmdLoopBody server =
      (.ok (), { state := { server.state with
                   supervisor := server.state.supervisor.step config (.request processRequest os) }
                 socket := (server.socket.received request).replied
                   (reply (exec (processRequest.handle config os) server.state.supervisor).1) }) := by
  have hdelivers : Delivers (base.bridge config os now) request message := h.bridge
  refine exec_cmdLoopBody_of_call hdelivers hidle
    (x := onSupervisor (processRequest.handle config os)) ?_
  intro s
  rw [exec_answer_of_ok hdelivers hdecode, branch_processes hrequest]

end Results

end Bridge
