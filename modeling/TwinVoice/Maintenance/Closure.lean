import TwinVoice.Maintenance.Changes

/-! # Closing and the machine's answer

`close_order` commits unless the command gateway or `_reset_damage` raises.
What the machine has answered decides: a rejection raises, an acceptance does
not, and neither does silence nor an acknowledgement without a status. -/

namespace TwinVoice.Maintenance

open TwinVoice.Lib TwinVoice.Twin

/-- What becomes of the reset of an order, if there is a channel and a machine to send it to. -/
def resetDelivery (env : Env) (actor : CurrentUser) (o : WorkOrder) : Option Delivery :=
  match env.commands, env.assets.find o.assetId with
  | some channel, some asset => some (channel (resetCommand env actor asset.code o) (seconds 5))
  | _, _ => none

/-- Silence says nothing about the reset, and an acknowledgement without a status neither. -/
def conclusive : Delivery → Bool
  | .notConnected | .publishFailed => true
  | .unanswered => false
  | .acked ack => (ackStatus ack).isSome

theorem inconclusive (env : Env) {d : Delivery} (h : conclusive d = false) :
    resetProblem env d = none ∧ d.accepted = false := by
  cases d with
  | notConnected => cases h
  | publishFailed => cases h
  | unanswered => exact ⟨rfl, rfl⟩
  | acked ack =>
    have hnone : ackStatus ack = none := by
      unfold conclusive at h
      exact Option.isSome_eq_false_iff.mp h |> Option.isNone_iff_eq_none.mp
    simp [resetProblem, Delivery.accepted, hnone]

theorem accepted_passes (env : Env) {d : Delivery} (h : d.accepted = true) :
    resetProblem env d = none ∧ sent d = true := by
  cases d with
  | notConnected => cases h
  | publishFailed => cases h
  | unanswered => cases h
  | acked ack =>
    have hstatus : ackStatus ack = some (.text "accepted") := by simpa [Delivery.accepted] using h
    exact ⟨by simp [resetProblem, hstatus], rfl⟩

theorem conclusive_cases (env : Env) {d : Delivery} (h : conclusive d = true) :
    d.accepted = true ∨ ∃ p, resetProblem env d = some p := by
  cases d with
  | notConnected => exact .inr ⟨_, rfl⟩
  | publishFailed => exact .inr ⟨_, rfl⟩
  | unanswered => cases h
  | acked ack =>
    obtain ⟨status, hstatus⟩ := Option.isSome_iff_exists.mp (show (ackStatus ack).isSome from h)
    by_cases haccepted : status = .text "accepted"
    · exact .inl (by simp [Delivery.accepted, hstatus, haccepted])
    · exact .inr (by simp [resetProblem, hstatus, haccepted])

theorem run_resetIfAsked (env : Env) (actor : CurrentUser) {data : WorkOrderClose}
    (hask : data.resetDamage = true) (o : WorkOrder) (s : Session Store Command) :
    match resetDelivery env actor o with
    | none => (resetIfAsked env actor data o).run s = (.ok (), s)
    | some d => ∃ channel asset, env.commands = some channel ∧ env.assets.find o.assetId = some asset ∧
        channel (resetCommand env actor asset.code o) (seconds 5) = d ∧
        (resetIfAsked env actor data o).run s =
          ((match resetProblem env d with | none => .ok () | some p => .error (.problem p)),
            { s with log := s.log ++ if sent d then [resetCommand env actor asset.code o] else [] }) := by
  unfold resetDelivery resetIfAsked
  rw [if_pos hask]
  cases hchannel : env.commands with
  | none => rfl
  | some channel =>
    cases hasset : env.assets.find o.assetId with
    | none => rfl
    | some asset => exact ⟨channel, asset, rfl, rfl, rfl, run_resetDamage env channel asset.code o actor s⟩

/-- An order that is not there, or done, or that the database refuses, is not closed. -/
theorem closeOrder_refused {env : Env} {actor : CurrentUser} {id : Uuid} {data : WorkOrderClose}
    {db : Store} (h : ∀ o, db.liveOrder id = some o → o.status ∉ terminalStatuses →
      env.refusal (db.putOrder env.txStart (data.closed env o)) ≠ none) :
    ∃ e, Tx.serve (closeOrder env actor id data) db = (.error e, db, []) := by
  have hdrafts := drafts_closeAndReset env actor id data
  suffices hrun : ∃ e t, (closeAndReset env actor id data).run ⟨db, db, []⟩ = (.error e, t) ∧ t.log = [] by
    obtain ⟨e, t, hrun, hlog⟩ := hrun
    exact ⟨e, by rw [closeOrder, Tx.serve_transaction_error hdrafts hrun, hlog]⟩
  unfold closeAndReset orderOr404 saveOrder flush
  simp only [Tx.run_bind, Tx.run_read, Tx.andThen_ok]
  cases hlive : db.liveOrder id with
  | none => exact ⟨_, _, rfl, rfl⟩
  | some o =>
    by_cases hclosed : o.status = .closed
    · simp only [Tx.run_orRaise_some, Tx.andThen_ok, Tx.run_bind, Tx.run_raiseIf_pos hclosed]
      exact ⟨_, _, rfl, rfl⟩
    by_cases hcancelled : o.status = .cancelled
    · simp only [Tx.run_orRaise_some, Tx.andThen_ok, Tx.run_bind, Tx.run_raiseIf_neg hclosed,
        Tx.run_raiseIf_pos hcancelled]
      exact ⟨_, _, rfl, rfl⟩
    have hrefused := h o hlive (by simp [terminalStatuses, hclosed, hcancelled])
    simp only [Tx.run_orRaise_some, Tx.andThen_ok, Tx.run_bind, Tx.run_raiseIf_neg hclosed,
      Tx.run_raiseIf_neg hcancelled, Tx.run_write, Tx.run_read]
    cases hr : env.refusal (db.putOrder env.txStart (data.closed env o)) with
    | none => exact absurd hr hrefused
    | some reason => exact ⟨_, _, rfl, rfl⟩

/-- From there on the reset decides. -/
theorem serve_closeOrder {env : Env} {actor : CurrentUser} {id : Uuid} {data : WorkOrderClose}
    {db : Store} {o : WorkOrder} (hlive : db.liveOrder id = some o)
    (hstatus : o.status ∉ terminalStatuses)
    (hflush : env.refusal (db.putOrder env.txStart (data.closed env o)) = none)
    {r : Except Failure Unit} {t : Session Store Command}
    (hreset : (resetIfAsked env actor data (data.closed env o)).run
      ⟨db, db.putOrder env.txStart (data.closed env o), []⟩ = (r, t)) :
    Tx.serve (closeOrder env actor id data) db =
      (match r with
        | .ok _ => (.ok (data.closed env o), t.work, t.log)
        | .error e => (.error e, db, t.log)) := by
  have hdrafts := drafts_closeAndReset env actor id data
  have hclosed : ¬ o.status = .closed := fun h => hstatus (by simp [terminalStatuses, h])
  have hcancelled : ¬ o.status = .cancelled := fun h => hstatus (by simp [terminalStatuses, h])
  have hrun : (closeAndReset env actor id data).run ⟨db, db, []⟩ =
      Tx.andThen (fun _ => pure (data.closed env o)) (r, t) := by
    rw [← hreset]
    unfold closeAndReset orderOr404 saveOrder flush
    simp only [Tx.run_bind, Tx.run_read, Tx.andThen_ok, hlive, Tx.run_orRaise_some,
      Tx.run_raiseIf_neg hclosed, Tx.run_raiseIf_neg hcancelled, Tx.run_write, hflush, Tx.run_pure]
  cases r with
  | ok u => exact Tx.serve_transaction_ok hrun
  | error e => exact Tx.serve_transaction_error hdrafts hrun

/-- The machine has accepted a command that was sent. -/
def AcceptedOne (env : Env) (log : List Command) : Prop :=
  ∃ channel, env.commands = some channel ∧ ∃ c ∈ log, (channel c (seconds 5)).accepted

/-- A close that is asked to reset the damage closes the order only if the
machine has accepted the reset, and otherwise fails without a trace, exactly
when an order that it would close meets a conclusive answer. -/
theorem close_atomic_iff {env : Env} {actor : CurrentUser} {id : Uuid} {data : WorkOrderClose}
    {db : Store} (hask : data.resetDamage = true) :
    let r := Tx.serve (closeOrder env actor id data) db
    (AcceptedOne env r.2.2 ∨
      (∃ e, r.1 = .error e) ∧ r.2.1.orders.find id = db.orders.find id) ↔
    ∀ o, db.liveOrder id = some o → o.status ∉ terminalStatuses →
      env.refusal (db.putOrder env.txStart (data.closed env o)) = none →
      (resetDelivery env actor o).any conclusive := by
  intro r
  constructor
  · intro h o hlive hstatus hflush
    by_contra hinconclusive
    -- the reset ends well, so the call succeeds, and nothing that it sent was accepted
    have hreset := run_resetIfAsked env actor hask (data.closed env o)
      ⟨db, db.putOrder env.txStart (data.closed env o), []⟩
    cases hdelivery : resetDelivery env actor (data.closed env o) with
    | none =>
      rw [hdelivery] at hreset
      have hr : r = (.ok _, _, []) := serve_closeOrder hlive hstatus hflush hreset
      rw [hr] at h
      rcases h with ⟨_, _, c, hc, _⟩ | ⟨⟨e, he⟩, _⟩
      · cases hc
      · cases he
    | some d =>
      rw [hdelivery] at hreset
      obtain ⟨channel, asset, hchannel, -, hd, hreset⟩ := hreset
      have hd' : conclusive d = false := by
        rw [show resetDelivery env actor o = some d from hdelivery] at hinconclusive
        simpa using hinconclusive
      obtain ⟨hproblem, hnot⟩ := inconclusive env hd'
      rw [hproblem] at hreset
      have hr : r = (.ok _, _, _) := serve_closeOrder hlive hstatus hflush hreset
      rw [hr] at h
      rcases h with ⟨channel', hchannel', c, hc, haccepted⟩ | ⟨⟨e, he⟩, _⟩
      · obtain rfl := Option.some.inj (hchannel.symm.trans hchannel')
        rw [List.nil_append] at hc
        split at hc
        · rw [List.mem_singleton.mp hc, hd, hnot] at haccepted
          cases haccepted
        · cases hc
      · cases he
  · intro h
    by_cases hreach : ∃ o, db.liveOrder id = some o ∧ o.status ∉ terminalStatuses ∧
        env.refusal (db.putOrder env.txStart (data.closed env o)) = none
    · obtain ⟨o, hlive, hstatus, hflush⟩ := hreach
      have hreset := run_resetIfAsked env actor hask (data.closed env o)
        ⟨db, db.putOrder env.txStart (data.closed env o), []⟩
      have hany := h o hlive hstatus hflush
      cases hdelivery : resetDelivery env actor (data.closed env o) with
      | none =>
        rw [show resetDelivery env actor o = none from hdelivery] at hany
        cases hany
      | some d =>
        rw [show resetDelivery env actor o = some d from hdelivery] at hany
        rw [hdelivery] at hreset
        obtain ⟨channel, asset, hchannel, -, hd, hreset⟩ := hreset
        rcases conclusive_cases env hany with haccepted | ⟨p, hp⟩
        · obtain ⟨hproblem, hsent⟩ := accepted_passes env haccepted
          rw [hproblem, if_pos hsent] at hreset
          have hr : r = (.ok _, _, [_]) := serve_closeOrder hlive hstatus hflush hreset
          rw [hr]
          exact .inl ⟨channel, hchannel, _, List.mem_singleton_self _, hd ▸ haccepted⟩
        · rw [hp] at hreset
          have hr : r = (.error _, db, _) := serve_closeOrder hlive hstatus hflush hreset
          rw [hr]
          exact .inr ⟨⟨_, rfl⟩, rfl⟩
    · have hrefused : ∃ e, r = (.error e, db, []) :=
        closeOrder_refused fun o hlive hstatus hflush => hreach ⟨o, hlive, hstatus, hflush⟩
      obtain ⟨e, he⟩ := hrefused
      rw [he]
      exact .inr ⟨⟨e, rfl⟩, rfl⟩

/-! An open order of a machine that does not answer. -/

def order7 : WorkOrder :=
  { id := 7, number := 1, assetId := 1, componentId := none, type := .corrective, priority := 3,
    title := "Replace bearing", description := none, failureModeId := none, predictionId := none,
    explanationId := none, status := .«open», plannedStart := none, plannedEnd := none,
    actualStart := none, actualEnd := none, technicianId := none, parts := [],
    estDurationMin := none, estCost := none, riskBeforeSlot := none, createdBy := none,
    createdVia := .ui, outcome := none, predictionWasCorrect := none, createdAt := 0,
    updatedAt := 0, deletedAt := none }

def oneOrder : Store := ⟨⟨[order7], by decide⟩, [], Table.empty, Table.empty⟩

def answering (delivery : Delivery) : Env :=
  { office 0 10 with commands := some fun _ _ => delivery }

def mechanic : CurrentUser := ⟨"mechanic", 3⟩

def replaced : WorkOrderClose := { outcome := "replaced" }

/-- A rejection keeps the order open. -/
theorem close_atomic_rejected :
    let env := answering (.acked [("status", .text "rejected")])
    let r := Tx.serve (closeOrder env mechanic 7 replaced) oneOrder
    AcceptedOne env r.2.2 ∨
      (∃ e, r.1 = .error e) ∧ r.2.1.orders.find 7 = oneOrder.orders.find 7 :=
  (close_atomic_iff rfl).mpr fun o hlive _ _ => by
    cases hlive
    decide

theorem silence_closes :
    let env := answering .unanswered
    let r := Tx.serve (closeOrder env mechanic 7 replaced) oneOrder
    ¬ (AcceptedOne env r.2.2 ∨
      (∃ e, r.1 = .error e) ∧ r.2.1.orders.find 7 = oneOrder.orders.find 7) := by
  rintro env r (⟨channel, hchannel, c, _, haccepted⟩ | ⟨⟨e, he⟩, _⟩)
  · cases hchannel
    cases haccepted
  · cases he

end TwinVoice.Maintenance
