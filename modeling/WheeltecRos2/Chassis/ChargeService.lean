/-
What the charge service answers.

`Set_Charge_Callback` writes its command and answers at once, from the charging state the
controller has reported before: no charge frame is received in between, so `true` never
tells that the request has been carried out.  It even answers `true` if the write failed,
since its last test overwrites the `false` of the `catch` clause
(`failedWrite_answers_true`), and to an unknown request that completes an old mark.
`noFalseSuccess_iff` is the exact condition on a run.

The log of a run lists the requests, the commands that were written, the states that charge
frames reported and the answers, in this order.
-/
import WheeltecRos2.Chassis.SendData

namespace Chassis

/-- What a run shows of charging. -/
inductive ChargeEvent
  | requested (x : SpawnX)
  | commanded
  | reported (charging : Bool)
  | answered (name : String)

/-- A node and what has been shown so far. -/
structure ChargeRun where
  node : ChassisNode
  log : List ChargeEvent

section Model

variable {D : Type} (scaled : D → BitVec 16)

namespace ChassisNode

/-- What one event shows. -/
def shows (n : ChassisNode) : ChassisEvent D → List ChargeEvent
  | .read read =>
    let c := n.decoder.getSensorDataNew read
    if c.charged then [.reported c.state.charge.chargeSetState] else []
  | .setCharge x write =>
    .requested x :: (if write = .written then [.commanded] else []) ++
      ((n.setChargeCallback x write).2.name.map .answered).toList
  | .cmdVel _ | .redVel _ | .rechargeFlag _ => []

/-- The request is answered, and the charging state reported last agrees with the mark of
its frame. -/
def AnswersTrue (n : ChassisNode) : ChassisEvent D → Prop
  | .setCharge x write => write ≠ .otherException ∧
      (n.chargeMark x = 0 ↔ n.decoder.charge.chargeSetState = false)
  | _ => False

end ChassisNode

namespace ChargeRun

def start (memory : Vector UInt8 0x7C) : ChargeRun := { node := .start memory, log := [] }

def step (s : ChargeRun) (event : ChassisEvent D) : ChargeRun :=
  { node := s.node.step scaled event, log := s.log ++ s.node.shows event }

end ChargeRun

end Model

/-- The state a request asks for: 0 for off, 1 and 2 for on. -/
def SpawnX.Asks (x : SpawnX) (charging : Bool) : Prop :=
  x.round = some 0 ∧ charging = false ∨
    (x.round = some 1 ∨ x.round = some 2) ∧ charging = true

/-- The last request was written, and the state reported last since then is the one it
asks for. -/
def Confirmed (log : List ChargeEvent) : Prop :=
  ∃ x since, .requested x :: .commanded :: since <:+ log ∧ (∀ y, .requested y ∉ since) ∧
    ∃ charging rest, .reported charging :: rest <:+ since ∧ (∀ c, .reported c ∉ rest) ∧
      x.Asks charging

/-- Every `true` answers a confirmed request. -/
def NoFalseSuccess (log : List ChargeEvent) : Prop :=
  ∀ before after, log = before ++ .answered "true" :: after → Confirmed before

/-! ### The answer -/

section Results

variable {D : Type} {scaled : D → BitVec 16} {n : ChassisNode}

/-- The test after the write. -/
theorem answerCharge_name_iff :
    n.answerCharge.2 = "true" ↔ (n.mark = 0 ↔ n.decoder.charge.chargeSetState = false) := by
  rw [ChassisNode.answerCharge, ChassisNode.mark]
  by_cases hmark : n.tx[1] = 0
  · cases hstate : n.decoder.charge.chargeSetState <;> simp [hmark]
  · cases hstate : n.decoder.charge.chargeSetState <;> simp [hmark]

/-- **When the answer is `true`.** -/
theorem setCharge_name_iff {x : SpawnX} {write : WriteResult} :
    (n.setChargeCallback x write).2.name = some "true" ↔
      (n.AnswersTrue (.setCharge x write : ChassisEvent D)) := by
  have hanswer := answerCharge_name_iff (n := n.fillCharge x)
  have hdecoder : (n.fillCharge x).decoder = n.decoder := by rw [ChassisNode.fillCharge_eq]
  rw [ChassisNode.fillCharge_mark, hdecoder] at hanswer
  cases write with
  | otherException => exact iff_of_false nofun fun h => h.1 rfl
  | written | ioException =>
    rw [ChassisNode.setChargeCallback, ChassisNode.AnswersTrue, Option.some.injEq, hanswer,
      and_iff_right (by decide)]

/-- What is shown holds a `true` exactly if the event answers it. -/
theorem answered_mem_shows_iff {event : ChassisEvent D} :
    .answered "true" ∈ n.shows event ↔ n.AnswersTrue event := by
  cases event with
  | read read =>
    rw [ChassisNode.shows]
    refine iff_of_false ?_ id
    split_ifs <;> simp
  | setCharge x write =>
    rw [ChassisNode.shows, ← setCharge_name_iff]
    by_cases hwrite : write = .written <;> simp [hwrite]
  | cmdVel | redVel | rechargeFlag => exact iff_of_false List.not_mem_nil id

/-! ### The log -/

/-- A `true` further on is one of the events added. -/
theorem NoFalseSuccess.append {log events : List ChargeEvent} (h : NoFalseSuccess log)
    (hevents : .answered "true" ∉ events) : NoFalseSuccess (log ++ events) := by
  intro before after hsplit
  rcases List.append_eq_append_iff.mp hsplit with ⟨rest, -, hrest⟩ | ⟨rest, hlog, hrest⟩
  · refine absurd ?_ hevents
    rw [hrest]
    simp
  · rcases rest with - | ⟨event, rest⟩
    · refine absurd ?_ hevents
      rw [List.nil_append] at hrest
      rw [← hrest]
      exact List.mem_cons_self
    · rw [List.cons_append, List.cons.injEq] at hrest
      obtain ⟨rfl, -⟩ := hrest
      exact h before rest hlog

/-- Right after a request nothing is confirmed. -/
theorem not_confirmed_of_request (log : List ChargeEvent) (x : SpawnX) {command : List ChargeEvent}
    (hcommand : command = [] ∨ command = [.commanded]) :
    ¬ Confirmed (log ++ .requested x :: command) := by
  rintro ⟨y, since, hsince, hlast, charging, rest, hreport, -⟩
  have hmem : .reported charging ∈ since := hreport.subset List.mem_cons_self
  have hrequest : .requested x :: command <:+ log ++ .requested x :: command :=
    List.suffix_append log _
  -- the last request is `x`, and at most its command follows
  rcases List.suffix_or_suffix_of_suffix hrequest hsince with hshort | hlong
  · rcases List.suffix_cons_iff.mp hshort with heq | hshort
    · rw [List.cons.injEq] at heq
      have : since = [] := by
        rcases hcommand with hc | hc
        · simp [hc] at heq
        · simpa [hc] using heq.2.symm
      rw [this] at hmem
      cases hmem
    · have hin : .requested x ∈ .commanded :: since := hshort.subset List.mem_cons_self
      exact hlast x (by simpa using hin)
  · have hlength := hlong.length_le
    have hone : command.length ≤ 1 := by
      rcases hcommand with rfl | rfl <;> simp
    have hpos := List.length_pos_of_mem hmem
    simp only [List.length_cons] at hlength
    omega

/-- **A `true` is never confirmed.** -/
theorem not_noFalseSuccess_of_answersTrue {log : List ChargeEvent} {event : ChassisEvent D}
    (h : n.AnswersTrue event) : ¬ NoFalseSuccess (log ++ n.shows event) := by
  intro hnone
  cases event with
  | setCharge x write =>
    have hname := setCharge_name_iff.mpr h
    have hcommand : (if write = .written then [ChargeEvent.commanded] else []) = [] ∨
        (if write = .written then [ChargeEvent.commanded] else []) = [.commanded] := by
      split_ifs
      · exact Or.inr rfl
      · exact Or.inl rfl
    refine not_confirmed_of_request log x hcommand (hnone _ [] ?_)
    rw [ChassisNode.shows, hname]
    simp
  | read | cmdVel | redVel | rechargeFlag => exact h.elim

/-- **When the service reports no false success.**  In a run every `true` answers a request
that was written and that a charge frame received since then agrees with, exactly if no
request finds the state reported before in agreement with the mark it sends. -/
theorem noFalseSuccess_iff (scaled : D → BitVec 16) (memory : Vector UInt8 0x7C)
    (events : List (ChassisEvent D)) :
    (∀ before, before <+: events →
        NoFalseSuccess (Runs.run (ChargeRun.step scaled) (.start memory) before).log) ↔
      Runs.Along (ChargeRun.step scaled) (fun s event => ¬ s.node.AnswersTrue event)
        (.start memory) events := by
  refine Runs.forall_prefix_iff_along (J := fun s : ChargeRun => NoFalseSuccess s.log) ?_
    (fun _ h => h) ?_ ?_
  · intro before after hsplit
    simp [ChargeRun.start] at hsplit
  · intro s event h hquiet
    exact h.append fun hmem => hquiet (answered_mem_shows_iff.mp hmem)
  · intro s event _ htrue
    exact not_noFalseSuccess_of_answersTrue (not_not.mp htrue)

/-- A request to stop charging, whose write fails, is answered by `true`. -/
theorem failedWrite_answers_true :
    ¬ ∀ before, before <+: [(.setCharge (.number 0) .ioException : ChassisEvent ℚ)] →
      NoFalseSuccess (Runs.run (ChargeRun.step (transition (.exact _)))
        (.start (Vector.replicate 0x7C 0)) before).log := by
  intro hnone
  have htrue : (ChassisNode.start (Vector.replicate 0x7C 0)).AnswersTrue
      (.setCharge (.number 0) .ioException : ChassisEvent ℚ) := by
    refine ⟨by decide, iff_of_true ?_ rfl⟩
    decide +kernel
  exact not_noFalseSuccess_of_answersTrue htrue (hnone _ (List.prefix_refl _))

end Results

end Chassis
