/-
REP sockets, and programs that answer on them.

A REP socket is idle or has an open request: a receive is legal only while it is idle, a
send only while a request is open.  An illegal call raises and changes nothing, so the
trace of the calls that succeed alternates whatever the server does
(`Socket.Consistent`).  What the server owes is that no request stays open.

`AnswersOnce x` says of a part of the server that it sends one reply and returns, or
raises and has sent nothing.  The rules follow the construction of the part: `send`,
`after` for code that leaves the socket alone, `cond`, and `recover` for an exception
handler.  `ServesOnce x` says that it receives one request and answers it, or raises
without having sent; `guarded` is the usual loop body around such a part, which reports
an exception as the reply, and `guarded_settles` what it leaves behind.
-/
import Mathlib.Data.List.Basic
import WheeltecRos2.Lib.Hoare

namespace ReqRep

open Hoare

/-- The calls that succeed. -/
inductive SocketEvent (R M : Type)
  | received (request : R)
  | replied (message : M)

/-- The two states. -/
inductive Phase
  | idle
  | asked
  deriving DecidableEq

structure Socket (R M : Type) where
  phase : Phase
  trace : List (SocketEvent R M)

/-- A server: its own state and its socket. -/
structure Server (σ R M : Type) where
  state : σ
  socket : Socket R M

variable {σ ε R M α : Type}

namespace Socket

/-- A fresh socket. -/
def init : Socket R M := { phase := .idle, trace := [] }

def received (k : Socket R M) (request : R) : Socket R M :=
  { phase := .asked, trace := k.trace ++ [.received request] }

def replied (k : Socket R M) (message : M) : Socket R M :=
  { phase := .idle, trace := k.trace ++ [.replied message] }

end Socket

/-! ### The calls -/

/-- Programs of the server. -/
abbrev ServerProg (σ ε R M α : Type) := Prog (Server σ R M) ε α

/-- A part that does not touch the socket. -/
def onState (x : Prog σ ε α) : ServerProg σ ε R M α :=
  zoom Server.state (fun state s => { s with state }) x

/-- A receive; `arrive` waits for the request and may fail. -/
def receive (arrive : Prog σ ε R) (illegal : ε) : ServerProg σ ε R M R := do
  let s ← get
  match s.socket.phase with
  | .asked => throw illegal
  | .idle =>
    let request ← onState arrive
    modify fun s => { s with socket := s.socket.received request }
    return request

/-- A send; `encode` may fail before anything is sent. -/
def send (encode : M → Prog σ ε Unit) (illegal : ε) (message : M) : ServerProg σ ε R M Unit := do
  onState (encode message)
  let s ← get
  match s.socket.phase with
  | .idle => throw illegal
  | .asked => modify fun s => { s with socket := s.socket.replied message }

/-- A loop body that logs an exception of `x` and reports it, if it can. -/
def guarded (x : ServerProg σ ε R M Unit) (log : ε → Prog σ ε Unit)
    (report : ε → ServerProg σ ε R M Unit) : ServerProg σ ε R M Unit :=
  tryCatch x fun e => do
    onState (log e)
    tryCatch (report e) fun _ => pure ()

/-! ### Traces -/

/-- Requests, each followed by its reply. -/
def exchanges (l : List (R × M)) : List (SocketEvent R M) :=
  l.flatMap fun exchange => [.received exchange.1, .replied exchange.2]

/-- Every request has one reply, sent before the next request. -/
def AllAnswered (t : List (SocketEvent R M)) : Prop := ∃ l, t = exchanges l

/-- Receives and sends alternate: all requests are answered, or all but the last. -/
def Alternates (t : List (SocketEvent R M)) : Prop :=
  AllAnswered t ∨ ∃ before request, AllAnswered before ∧ t = before ++ [.received request]

/-- The phase tells whether the last request is open. -/
def Socket.Consistent (k : Socket R M) : Prop :=
  match k.phase with
  | .idle => AllAnswered k.trace
  | .asked => ∃ before request, AllAnswered before ∧ k.trace = before ++ [.received request]

theorem AllAnswered.exchange {t : List (SocketEvent R M)} (h : AllAnswered t) (request : R)
    (message : M) : AllAnswered (t ++ [.received request, .replied message]) := by
  obtain ⟨l, rfl⟩ := h
  refine ⟨l ++ [(request, message)], ?_⟩
  simp [exchanges]

namespace Socket

variable {k : Socket R M} {request : R} {message : M}

theorem consistent_init : (init : Socket R M).Consistent := ⟨[], rfl⟩

theorem Consistent.alternates (h : k.Consistent) : Alternates k.trace := by
  rcases hphase : k.phase with - | -
  · rw [Consistent, hphase] at h
    exact .inl h
  · rw [Consistent, hphase] at h
    exact .inr h

theorem Consistent.received (h : k.Consistent) (hidle : k.phase = .idle) (request : R) :
    (k.received request).Consistent := by
  rw [Consistent, hidle] at h
  exact ⟨k.trace, request, h, rfl⟩

theorem Consistent.replied (h : k.Consistent) (hasked : k.phase = .asked) (message : M) :
    (k.replied message).Consistent := by
  rw [Consistent, hasked] at h
  obtain ⟨before, request, hbefore, htrace⟩ := h
  show AllAnswered (k.trace ++ [.replied message])
  rw [htrace, List.append_assoc]
  exact hbefore.exchange request message

@[simp] theorem phase_received : (k.received request).phase = .asked := rfl

@[simp] theorem phase_replied : (k.replied message).phase = .idle := rfl

@[simp] theorem trace_exchange : ((k.received request).replied message).trace =
    k.trace ++ [.received request, .replied message] := by
  simp [received, replied]

end Socket

/-! ### Parts that answer -/

/-- The server has the socket `k`. -/
def Has (k : Socket R M) (s : Server σ R M) : Prop := s.socket = k

/-- A reply has been sent on `k`. -/
def Sent (k : Socket R M) (s : Server σ R M) : Prop :=
  k.phase = .asked ∧ ∃ message, s.socket = k.replied message

/-- A request has been received on `k`. -/
def Received (k : Socket R M) (s : Server σ R M) : Prop :=
  k.phase = .idle ∧ ∃ request, s.socket = k.received request

/-- A request has been received on `k` and answered. -/
def Exchanged (k : Socket R M) (s : Server σ R M) : Prop :=
  k.phase = .idle ∧ ∃ request message, s.socket = (k.received request).replied message

/-- It sends one reply and returns, or it raises and has sent nothing. -/
def AnswersOnce (x : ServerProg σ ε R M Unit) : Prop :=
  ∀ k, Triple (Has k) x (fun _ => Sent k) (fun _ => Has k)

/-- It receives a request and answers it, or it raises and has sent nothing. -/
def ServesOnce (x : ServerProg σ ε R M Unit) : Prop :=
  ∀ k, Triple (Has k) x (fun _ => Exchanged k) (fun _ s => Has k s ∨ Received k s)

theorem exec_onState (x : Prog σ ε α) (s : Server σ R M) :
    exec (onState x) s = ((exec x s.state).1, { s with state := (exec x s.state).2 }) := rfl

theorem onState_bind {β : Type} (x : Prog σ ε α) (f : α → Prog σ ε β) :
    (onState (x >>= f) : ServerProg σ ε R M β) = onState x >>= fun a => onState (f a) :=
  zoom_bind (fun _ _ => rfl) fun _ _ _ => rfl

theorem exec_receive {arrive : Prog σ ε R} {illegal : ε} {request : R} {s : Server σ R M}
    {state : σ} (harrive : exec arrive s.state = (.ok request, state))
    (hidle : s.socket.phase = .idle) :
    exec (receive arrive illegal) s =
      (.ok request, { state, socket := s.socket.received request }) := by
  have hstate : exec (onState arrive) s = (.ok request, { s with state }) := by
    rw [exec_onState, harrive]
  simp only [receive, exec_get_bind, hidle]
  rw [exec_bind_of_ok hstate]
  rfl

theorem exec_send {encode : M → Prog σ ε Unit} {illegal : ε} {message : M} {s : Server σ R M}
    {state : σ} (hencode : exec (encode message) s.state = (.ok (), state))
    (hasked : s.socket.phase = .asked) :
    exec (send encode illegal message) s =
      (.ok (), { state, socket := s.socket.replied message }) := by
  have hstate : exec (onState (encode message)) s = (.ok (), { s with state }) := by
    rw [exec_onState, hencode]
  rw [send, exec_bind_of_ok hstate]
  simp only [exec_get_bind, hasked]
  rfl

/-- The socket is not touched. -/
theorem triple_onState (x : Prog σ ε α) (k : Socket R M) :
    Triple (Has k) (onState x) (fun _ => Has k) (fun _ => Has k) := by
  refine ⟨?_⟩
  intro s hs
  rw [exec_onState]
  rcases (exec x s.state).1 with e | a
  · exact hs
  · exact hs

/-- A part that looks at the phase first. -/
theorem triple_phase {f : Server σ R M → ServerProg σ ε R M α} {k : Socket R M}
    {Q : α → Server σ R M → Prop} {E : ε → Server σ R M → Prop}
    (h : ∀ found, found.socket.phase = k.phase → Triple (Has k) (f found) Q E) :
    Triple (Has k) (get >>= f) Q E := by
  refine Triple.read ?_
  intro found
  by_cases hk : found.socket = k
  · exact (h found (congrArg Socket.phase hk)).conseq (fun s hs => hs.1) (fun _ _ hq => hq)
      fun _ _ he => he
  · refine Triple.unreachable ?_
    rintro s ⟨hs, rfl⟩
    exact hk hs

/-- A receive changes the socket only if it returns. -/
theorem triple_receive (arrive : Prog σ ε R) (illegal : ε) (k : Socket R M) :
    Triple (Has k) (receive arrive illegal) (fun _ => Received k) (fun _ => Has k) := by
  refine triple_phase ?_
  intro found hfound
  rcases hphase : found.socket.phase with - | -
  · refine Triple.seq (triple_onState arrive k) ?_
    intro request
    refine Triple.seq (Q := fun _ => Received k) (Triple.update ?_) ?_
    · intro s hs
      exact ⟨hfound.symm.trans hphase, request, congrArg (·.received request) hs⟩
    · intro u
      exact Triple.ret fun s hs => hs
  · exact Triple.raise fun s hs => hs

namespace AnswersOnce

variable {x y : ServerProg σ ε R M Unit}

theorem send (encode : M → Prog σ ε Unit) (illegal : ε) (message : M) :
    AnswersOnce (R := R) (send encode illegal message) := by
  intro k
  refine Triple.seq (triple_onState (encode message) k) ?_
  intro u
  refine triple_phase ?_
  intro found hfound
  rcases hphase : found.socket.phase with - | -
  · exact Triple.raise fun s hs => hs
  · refine Triple.update ?_
    intro s hs
    exact ⟨hfound.symm.trans hphase, message, congrArg (·.replied message) hs⟩

/-- Code that leaves the socket alone may come before. -/
theorem after {f : α → ServerProg σ ε R M Unit} (y : Prog σ ε α)
    (h : ∀ a, AnswersOnce (f a)) : AnswersOnce (onState y >>= f) := by
  intro k
  exact Triple.seq (triple_onState y k) fun a => h a k

theorem cond {c : Prop} [Decidable c] (hx : AnswersOnce x) (hy : AnswersOnce y) :
    AnswersOnce (if c then x else y) := by
  intro k
  exact Triple.cond (fun _ => hx k) fun _ => hy k

/-- An exception handler runs only if nothing has been sent. -/
theorem recover {handler : ε → ServerProg σ ε R M Unit} (hx : AnswersOnce x)
    (h : ∀ e, AnswersOnce (handler e)) : AnswersOnce (tryCatch x handler) := by
  intro k
  exact Triple.recover (hx k) fun e => h e k

/-- After a receive, and what decodes the request. -/
theorem serves {f : R → ServerProg σ ε R M Unit} (arrive : Prog σ ε R) (illegal : ε)
    (h : ∀ request, AnswersOnce (f request)) : ServesOnce (receive arrive illegal >>= f) := by
  intro k
  refine Triple.seq (Q := fun _ => Received k)
    ((triple_receive arrive illegal k).conseq (fun _ hs => hs) (fun _ _ h => h) fun _ _ => .inl) ?_
  intro request
  refine ⟨?_⟩
  rintro s ⟨hidle, got, hs⟩
  rcases hresult : exec (f request) s with ⟨e | u, s'⟩
  · exact .inr ⟨hidle, got, (h request (k.received got)).of_error hs hresult⟩
  · obtain ⟨-, message, hsent⟩ := (h request (k.received got)).of_ok hs hresult
    exact ⟨hidle, got, message, hsent⟩

end AnswersOnce

/-! ### The loop body -/

/-- What a pass of the loop may leave of the socket `k`. -/
def Advanced (k : Socket R M) (s : Server σ R M) : Prop :=
  Has k s ∨ Received k s ∨ Exchanged k s ∨ Sent k s

theorem Advanced.consistent {k : Socket R M} {s : Server σ R M} (h : Advanced k s)
    (hk : k.Consistent) : s.socket.Consistent := by
  rcases h with h | ⟨hidle, request, h⟩ | ⟨hidle, request, message, h⟩ | ⟨hasked, message, h⟩
  · rwa [h]
  · rw [h]
    exact hk.received hidle request
  · rw [h]
    exact (hk.received hidle request).replied rfl message
  · rw [h]
    exact hk.replied hasked message

/-- If `x` raises, a request is open and the log returns, the report is sent. -/
def ReportSent (x : ServerProg σ ε R M Unit) (log : ε → Prog σ ε Unit)
    (report : ε → ServerProg σ ε R M Unit) (s : Server σ R M) : Prop :=
  ∀ e s₁ s₂, exec x s = (.error e, s₁) → exec (onState (log e)) s₁ = (.ok (), s₂) →
    s₂.socket.phase = .asked → ∃ s₃, exec (report e) s₂ = (.ok (), s₃)

section Guarded

variable {x : ServerProg σ ε R M Unit} {log : ε → Prog σ ε Unit}
  {report : ε → ServerProg σ ε R M Unit}

/-- The ways a pass ends: `x` returns, the log raises, or the report is sent or not. -/
theorem exec_guarded_cases {s s' : Server σ R M} {result : Except ε Unit}
    (h : exec (guarded x log report) s = (result, s')) :
    (exec x s = (.ok (), s') ∧ result = .ok ()) ∨
    ∃ e s₁, exec x s = (.error e, s₁) ∧
      ((∃ e', exec (onState (log e)) s₁ = (.error e', s') ∧ result = .error e') ∨
      ∃ s₂, exec (onState (log e)) s₁ = (.ok (), s₂) ∧ (exec (report e) s₂).2 = s' ∧
        result = .ok ()) := by
  rcases hx : exec x s with ⟨e | u, s₁⟩
  · refine .inr ⟨e, s₁, rfl, ?_⟩
    rw [guarded, exec_tryCatch_of_error hx] at h
    rcases hlog : exec (onState (log e)) s₁ with ⟨e' | u, s₂⟩
    · rw [exec_bind_of_error hlog] at h
      obtain ⟨rfl, rfl⟩ := Prod.mk.inj h
      exact .inl ⟨e', rfl, rfl⟩
    · rw [exec_bind_of_ok hlog] at h
      refine .inr ⟨s₂, rfl, ?_⟩
      rcases hreport : exec (report e) s₂ with ⟨e'' | u', s₃⟩
      · rw [exec_tryCatch_of_error hreport] at h
        obtain ⟨rfl, rfl⟩ := Prod.mk.inj h
        exact ⟨rfl, rfl⟩
      · rw [exec_tryCatch_of_ok hreport] at h
        obtain ⟨rfl, rfl⟩ := Prod.mk.inj h
        exact ⟨rfl, rfl⟩
  · rw [guarded, exec_tryCatch_of_ok hx] at h
    obtain ⟨rfl, rfl⟩ := Prod.mk.inj h
    exact .inl ⟨rfl, rfl⟩

theorem socket_of_log {e : ε} {s₁ s₂ : Server σ R M} {result : Except ε Unit}
    (h : exec (onState (log e)) s₁ = (result, s₂)) : s₂.socket = s₁.socket := by
  rw [exec_onState] at h
  rw [← (Prod.mk.inj h).2]

/-- Only the log raises. -/
theorem guarded_returns (hlog : ∀ e s, ∃ s', exec (log e) s = (.ok (), s'))
    {s s' : Server σ R M} {result : Except ε Unit}
    (h : exec (guarded x log report) s = (result, s')) : result = .ok () := by
  rcases exec_guarded_cases h with ⟨-, hok⟩ | ⟨e, s₁, -, ⟨e', hraised, -⟩ | ⟨s₂, -, -, hok⟩⟩
  · exact hok
  · obtain ⟨s₂, hs₂⟩ := hlog e s₁.state
    rw [exec_onState, hs₂] at hraised
    cases (Prod.mk.inj hraised).1
  · exact hok

/-- A report sends one reply or none. -/
theorem sent_or_has_of_report (hreport : ∀ e, AnswersOnce (report e)) (e : ε)
    (s₂ : Server σ R M) :
    Sent s₂.socket (exec (report e) s₂).2 ∨ Has s₂.socket (exec (report e) s₂).2 := by
  rcases hresult : exec (report e) s₂ with ⟨e' | u, s₃⟩
  · exact .inr ((hreport e s₂.socket).of_error rfl hresult)
  · exact .inl ((hreport e s₂.socket).of_ok rfl hresult)

/-- **A pass.**  Whatever raises, it leaves a request received, a reply sent, both, or
the socket as it was. -/
theorem guarded_advances (hx : ServesOnce x) (hreport : ∀ e, AnswersOnce (report e))
    {s s' : Server σ R M} {result : Except ε Unit}
    (h : exec (guarded x log report) s = (result, s')) : Advanced s.socket s' := by
  rcases exec_guarded_cases h with ⟨hok, -⟩ | ⟨e, s₁, herror, hrest⟩
  · exact .inr (.inr (.inl ((hx s.socket).of_ok rfl hok)))
  rcases hrest with ⟨e', hlog, -⟩ | ⟨s₂, hlog, rfl, -⟩
  · have hsame := socket_of_log hlog
    rcases (hx s.socket).of_error rfl herror with hhas | ⟨hidle, request, hhas⟩
    · exact .inl (hsame.trans hhas)
    · exact .inr (.inl ⟨hidle, request, hsame.trans hhas⟩)
  · have hsame := socket_of_log hlog
    have hended := sent_or_has_of_report hreport e s₂
    rcases (hx s.socket).of_error rfl herror with hhas | ⟨hidle, request, hhas⟩
    · rw [hsame.trans hhas] at hended
      rcases hended with hended | hended
      · exact .inr (.inr (.inr hended))
      · exact .inl hended
    · rw [hsame.trans hhas] at hended
      rcases hended with ⟨-, message, hended⟩ | hended
      · exact .inr (.inr (.inl ⟨hidle, request, message, hended⟩))
      · exact .inr (.inl ⟨hidle, request, hended⟩)

/-- **A pass whose report is sent.**  No request is open afterwards, and from an idle
socket it has answered the request it received, if any. -/
theorem guarded_settles (hx : ServesOnce x) (hreport : ∀ e, AnswersOnce (report e))
    {s s' : Server σ R M} (hsent : ReportSent x log report s)
    (h : exec (guarded x log report) s = (.ok (), s')) :
    s'.socket.phase = .idle ∧
      (s.socket.phase = .idle → Has s.socket s' ∨ Exchanged s.socket s') := by
  -- an open request is what the log and the report would have left
  have hidle : s'.socket.phase = .idle := by
    rcases exec_guarded_cases h with ⟨hok, -⟩ | ⟨e, s₁, herror, ⟨e', -, hraised⟩ | ⟨s₂, hlog, rfl, -⟩⟩
    · obtain ⟨-, request, message, hs'⟩ := (hx s.socket).of_ok rfl hok
      rw [hs', Socket.phase_replied]
    · exact absurd hraised (by simp)
    · rcases hphase : s₂.socket.phase with - | -
      · rcases sent_or_has_of_report hreport e s₂ with ⟨-, message, hs'⟩ | hs'
        · rw [hs', Socket.phase_replied]
        · rwa [hs']
      · obtain ⟨s₃, hs₃⟩ := hsent e s₁ s₂ herror hlog hphase
        obtain ⟨-, message, hs'⟩ := (hreport e s₂.socket).of_ok rfl hs₃
        rw [hs₃, hs', Socket.phase_replied]
  refine ⟨hidle, ?_⟩
  intro hbefore
  rcases guarded_advances hx hreport h with hs' | ⟨-, request, hs'⟩ | hs' | ⟨hasked, -⟩
  · exact .inl hs'
  · rw [hs', Socket.phase_received] at hidle
    cases hidle
  · exact .inr hs'
  · rw [hbefore] at hasked
    cases hasked

end Guarded

end ReqRep
