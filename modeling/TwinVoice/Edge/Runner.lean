import TwinVoice.Lib.Sequence
import TwinVoice.Lib.Transition

/-! # The edge runner's publisher, drains and connection callbacks

Three kinds of threads share one outbox. The publisher looks whether the
outbox is empty, sends if it is and queues otherwise; a drain, started by the
connect callback and alone behind `_drain_lock`, replays the queue; the
callbacks of the MQTT client set `connected`. A step is one statement of one
thread that touches what they share: an SQL statement, a read of `connected`,
a call of the client. A crash ends every thread and leaves the database. -/

namespace TwinVoice.Edge

open TwinVoice.Lib TwinVoice.Lib.Transition

/-- A prediction as it goes to the broker (quality of service is always 1). Its number is
its place in the order in which `publish` was called. -/
structure Prediction where
  number : Nat
  topic : String
  payload : List UInt8
  deriving DecidableEq, Repr

/-! ## Store and forward -/

/-- `AUTOINCREMENT` ids grow, also past the rows that were deleted. -/
abbrev StoreAndForward := Sequence Prediction

namespace StoreAndForward

def enqueue (box : StoreAndForward) (p : Prediction) : StoreAndForward := box.insert p

def pending (box : StoreAndForward) : Nat := box.rows.length

/-- `SELECT … ORDER BY id LIMIT batch`: the rows stand in the order of their ids. -/
def oldest (box : StoreAndForward) (batch : Nat) : List (Row Prediction) := box.rows.take batch

end StoreAndForward

/-- The default `batch` of `StoreAndForward.drain`. -/
def batch : Nat := 100

/-! ## Threads -/

/-- What `publish` does next. -/
inductive Publisher where
  | idle
  | checking (p : Prediction)
  | gating (p : Prediction)
  | calling (p : Prediction)
  | enqueuing (p : Prediction)
  deriving DecidableEq, Repr

/-- What the drain that holds the lock does next: at the rows of the last `SELECT` that it has
not treated yet, or before the next one. -/
inductive Stage where
  | fetching
  | gating (row : Row Prediction) (rest : List (Row Prediction))
  | calling (row : Row Prediction) (rest : List (Row Prediction))
  | deleting (row : Row Prediction) (rest : List (Row Prediction))
  | returning
  deriving DecidableEq, Repr

structure Drain where
  stage : Stage
  sent : Nat
  deriving DecidableEq, Repr

/-- The runner and the database, and after them what has happened so far. -/
structure Runner where
  outbox : StoreAndForward
  client : Bool
  connected : Bool
  publisher : Publisher
  /-- connect callbacks that have set `connected` and not yet started their thread -/
  callbacks : Nat
  /-- drain threads in front of `_drain_lock` -/
  waiting : Nat
  drain : Option Drain
  /-- every prediction that `publish` was called with -/
  published : List Prediction
  /-- what it returned -/
  returned : List (Prediction × Bool)
  /-- every successful `client.publish` -/
  handed : List Prediction
  /-- rows handed over and still in the outbox when the process died -/
  repeated : List Prediction
  /-- predictions whose `publish` had not returned when the process died -/
  cut : List Prediction

def start : Runner :=
  { outbox := Sequence.empty, client := false, connected := false, publisher := .idle,
    callbacks := 0, waiting := 0, drain := none, published := [], returned := [], handed := [],
    repeated := [], cut := [] }

@[simp] def Publisher.current : Publisher → Option Prediction
  | .idle => none
  | .checking p | .gating p | .calling p | .enqueuing p => some p

/-- The rows of the last `SELECT` that the drain has still to delete. -/
@[simp] def Stage.batch : Stage → List (Row Prediction)
  | .fetching | .returning => []
  | .gating row rest | .calling row rest | .deleting row rest => row :: rest

/-- Where `for … in rows` goes with these rows left. -/
def Stage.loop : List (Row Prediction) → Stage
  | [] => .fetching
  | row :: rest => .gating row rest

theorem Stage.batch_loop (rows : List (Row Prediction)) : (Stage.loop rows).batch = rows := by
  cases rows <;> rfl

/-- The row that is handed over and not yet deleted. -/
@[simp] def Stage.inFlight : Stage → Option Prediction
  | .deleting row _ => some row.value
  | .fetching | .gating _ _ | .calling _ _ | .returning => none

namespace Runner

def queue (r : Runner) : List Prediction := r.outbox.values

def inFlight (r : Runner) : Option Prediction := r.drain.bind (·.stage.inFlight)

/-- Whether `_send` gets as far as the call of the client. -/
def online (r : Runner) : Bool := r.client && r.connected

def drainAt (r : Runner) (sent : Nat) (stage : Stage) : Runner :=
  { r with drain := some ⟨stage, sent⟩ }

end Runner

/-! ## Steps -/

inductive Event where
  | publish (topic : String) (payload : List UInt8)
  | checkPending
  | gate
  | call (ok : Bool)
  | enqueue
  | runForever
  | onConnect (failure : Bool)
  | onDisconnect
  | startThread
  | acquire
  | fetch
  | drainGate
  | drainCall (ok : Bool)
  | delete
  | release
  | crash
  deriving DecidableEq, Repr

namespace Runner

def beginPublish (r : Runner) (topic : String) (payload : List UInt8) : Runner :=
  let p : Prediction := ⟨r.published.length, topic, payload⟩
  { r with publisher := .checking p, published := r.published ++ [p] }

/-- `self.client.publish(topic, payload, qos)` with `MQTT_ERR_SUCCESS`, and `return True`. -/
def sendNow (r : Runner) (p : Prediction) : Runner :=
  { r with publisher := .idle, handed := r.handed ++ [p], returned := r.returned ++ [(p, true)] }

/-- `self.outbox.enqueue(topic, payload, 1)` and `return False`. -/
def queueUp (r : Runner) (p : Prediction) : Runner :=
  { r with
    outbox := StoreAndForward.enqueue r.outbox p
    publisher := .idle
    returned := r.returned ++ [(p, false)] }

/-- The row goes to the broker; its `DELETE` is the next statement. -/
def sendRow (r : Runner) (sent : Nat) (row : Row Prediction) (rest : List (Row Prediction)) :
    Runner :=
  { r with handed := r.handed ++ [row.value], drain := some ⟨.deleting row rest, sent⟩ }

def deleteRow (r : Runner) (sent : Nat) (row : Row Prediction) (rest : List (Row Prediction)) :
    Runner :=
  { r with
    outbox := r.outbox.delete row.id
    drain := some ⟨.loop rest, sent + 1⟩ }

/-- The power is cut: what is left is the file of the outbox. -/
def crash (r : Runner) : Runner :=
  { r with
    client := false, connected := false, publisher := .idle, callbacks := 0, waiting := 0
    drain := none
    repeated := r.repeated ++ r.inFlight.toList
    cut := r.cut ++ r.publisher.current.toList }

end Runner

/-- One statement of `publish` and of `_send` under it. -/
def publishStep (r : Runner) : Event → Option Runner
  | .publish topic payload =>
    match r.publisher with
    | .idle => some (r.beginPublish topic payload)
    | _ => none
  | .checkPending =>
    match r.publisher with
    | .checking p =>
      some { r with publisher := if StoreAndForward.pending r.outbox = 0 then .gating p else .enqueuing p }
    | _ => none
  | .gate =>
    match r.publisher with
    | .gating p => some { r with publisher := if r.online then .calling p else .enqueuing p }
    | _ => none
  | .call ok =>
    match r.publisher with
    | .calling p => some (if ok then r.sendNow p else { r with publisher := .enqueuing p })
    | _ => none
  | .enqueue =>
    match r.publisher with
    | .enqueuing p => some (r.queueUp p)
    | _ => none
  | _ => none

/-- The callbacks, which `run_forever` has registered, and the threads that they start. -/
def connectionStep (r : Runner) : Event → Option Runner
  | .runForever => some { r with client := true }
  | .onConnect failure =>
    if r.client then
      some (if failure then r else { r with connected := true, callbacks := r.callbacks + 1 })
    else none
  | .onDisconnect => some { r with connected := false }
  | .startThread =>
    if 0 < r.callbacks then
      some { r with callbacks := r.callbacks - 1, waiting := r.waiting + 1 }
    else none
  | _ => none

/-- One statement of `drain`, of `StoreAndForward.drain` and of `_send` under it. -/
def drainStep (r : Runner) : Event → Option Runner
  | .acquire =>
    if 0 < r.waiting ∧ r.drain = none then
      some { r with waiting := r.waiting - 1, drain := some ⟨.fetching, 0⟩ }
    else none
  | .fetch =>
    match r.drain with
    | some ⟨.fetching, sent⟩ =>
      match StoreAndForward.oldest r.outbox batch with
      | [] => some (r.drainAt sent .returning)
      | rows => some (r.drainAt sent (.loop rows))
    | _ => none
  | .drainGate =>
    match r.drain with
    | some ⟨.gating row rest, sent⟩ =>
      some (r.drainAt sent (if r.online then .calling row rest else .returning))
    | _ => none
  | .drainCall ok =>
    match r.drain with
    | some ⟨.calling row rest, sent⟩ =>
      some (if ok then r.sendRow sent row rest else r.drainAt sent .returning)
    | _ => none
  | .delete =>
    match r.drain with
    | some ⟨.deleting row rest, sent⟩ => some (r.deleteRow sent row rest)
    | _ => none
  | .release =>
    match r.drain with
    | some ⟨.returning, _⟩ => some { r with drain := none }
    | _ => none
  | _ => none

def step (r : Runner) : Event → Option Runner
  | e@(.publish ..) | e@.checkPending | e@.gate | e@(.call _) | e@.enqueue => publishStep r e
  | e@.runForever | e@(.onConnect _) | e@.onDisconnect | e@.startThread => connectionStep r e
  | e@.acquire | e@.fetch | e@.drainGate | e@(.drainCall _) | e@.delete | e@.release => drainStep r e
  | .crash => some r.crash

/-! ## What a step does -/

/-- The steps of the publisher. -/
inductive Publishes (r : Runner) : Event → Runner → Prop
  | publish (topic payload) : r.publisher = .idle →
      Publishes r (.publish topic payload) (r.beginPublish topic payload)
  | empty {p} : r.publisher = .checking p → r.outbox.rows = [] →
      Publishes r .checkPending { r with publisher := .gating p }
  | backlog {p} : r.publisher = .checking p → r.outbox.rows ≠ [] →
      Publishes r .checkPending { r with publisher := .enqueuing p }
  | online {p} : r.publisher = .gating p → r.online →
      Publishes r .gate { r with publisher := .calling p }
  | offline {p} : r.publisher = .gating p → ¬r.online →
      Publishes r .gate { r with publisher := .enqueuing p }
  | sent {p} : r.publisher = .calling p → Publishes r (.call true) (r.sendNow p)
  | refused {p} : r.publisher = .calling p →
      Publishes r (.call false) { r with publisher := .enqueuing p }
  | enqueue {p} : r.publisher = .enqueuing p → Publishes r .enqueue (r.queueUp p)

/-- The steps of the callbacks. -/
inductive Connects (r : Runner) : Event → Runner → Prop
  | runForever : Connects r .runForever { r with client := true }
  | connack : r.client → Connects r (.onConnect true) r
  | connected : r.client → Connects r (.onConnect false)
      { r with connected := true, callbacks := r.callbacks + 1 }
  | disconnected : Connects r .onDisconnect { r with connected := false }
  | startThread : 0 < r.callbacks →
      Connects r .startThread { r with callbacks := r.callbacks - 1, waiting := r.waiting + 1 }

/-- The steps of the drain. -/
inductive Drains (r : Runner) : Event → Runner → Prop
  | acquire : 0 < r.waiting → r.drain = none →
      Drains r .acquire { r with waiting := r.waiting - 1, drain := some ⟨.fetching, 0⟩ }
  | drained {sent} : r.drain = some ⟨.fetching, sent⟩ → r.outbox.rows = [] →
      Drains r .fetch (r.drainAt sent .returning)
  | fetched {sent rows} : r.drain = some ⟨.fetching, sent⟩ → rows ≠ [] → rows <+: r.outbox.rows →
      Drains r .fetch (r.drainAt sent (.loop rows))
  | online {sent row rest} : r.drain = some ⟨.gating row rest, sent⟩ → r.online →
      Drains r .drainGate (r.drainAt sent (.calling row rest))
  | offline {sent row rest} : r.drain = some ⟨.gating row rest, sent⟩ → ¬r.online →
      Drains r .drainGate (r.drainAt sent .returning)
  | sent {sent row rest} : r.drain = some ⟨.calling row rest, sent⟩ →
      Drains r (.drainCall true) (r.sendRow sent row rest)
  | refused {sent row rest} : r.drain = some ⟨.calling row rest, sent⟩ →
      Drains r (.drainCall false) (r.drainAt sent .returning)
  | delete {sent row rest} : r.drain = some ⟨.deleting row rest, sent⟩ →
      Drains r .delete (r.deleteRow sent row rest)
  | release {sent} : r.drain = some ⟨.returning, sent⟩ → Drains r .release { r with drain := none }

/-- Everything that one step can be. -/
inductive Steps (r : Runner) (e : Event) (s : Runner) : Prop
  | publisher (h : Publishes r e s)
  | connection (h : Connects r e s)
  | drain (h : Drains r e s)
  | crash (he : e = .crash) (hs : s = r.crash)

theorem publishes_of_step {r s : Runner} {e : Event} (h : publishStep r e = some s) :
    Publishes r e s := by
  cases e with
  | publish topic payload =>
    simp only [publishStep] at h
    split at h
    · rename_i hidle
      cases h
      exact .publish topic payload hidle
    · cases h
  | checkPending =>
    simp only [publishStep, StoreAndForward.pending, List.length_eq_zero_iff] at h
    split at h
    · rename_i p hchecking
      cases h
      split
      · rename_i hempty
        exact .empty hchecking hempty
      · rename_i hrows
        exact .backlog hchecking hrows
    · cases h
  | gate =>
    simp only [publishStep] at h
    split at h
    · rename_i p hgating
      cases h
      split
      · rename_i honline
        exact .online hgating honline
      · rename_i hoffline
        exact .offline hgating hoffline
    · cases h
  | call ok =>
    simp only [publishStep] at h
    split at h
    · rename_i p hcalling
      cases h
      cases ok with
      | true => exact .sent hcalling
      | false => exact .refused hcalling
    · cases h
  | enqueue =>
    simp only [publishStep] at h
    split at h
    · rename_i p henqueuing
      cases h
      exact .enqueue henqueuing
    · cases h
  | _ => cases h

theorem connects_of_step {r s : Runner} {e : Event} (h : connectionStep r e = some s) :
    Connects r e s := by
  cases e with
  | runForever =>
    cases h
    exact .runForever
  | onConnect failure =>
    simp only [connectionStep] at h
    split at h
    · rename_i hclient
      cases h
      cases failure with
      | true => exact .connack hclient
      | false => exact .connected hclient
    · cases h
  | onDisconnect =>
    cases h
    exact .disconnected
  | startThread =>
    simp only [connectionStep] at h
    split at h
    · rename_i hcallbacks
      cases h
      exact .startThread hcallbacks
    · cases h
  | _ => cases h

theorem drains_of_step {r s : Runner} {e : Event} (h : drainStep r e = some s) : Drains r e s := by
  cases e with
  | acquire =>
    simp only [drainStep] at h
    split at h
    · rename_i hfree
      cases h
      exact .acquire hfree.1 hfree.2
    · cases h
  | fetch =>
    simp only [drainStep] at h
    split at h
    · rename_i sent hfetching
      split at h
      · rename_i hnone
        cases h
        have hempty : r.outbox.rows = [] := by
          simpa [StoreAndForward.oldest, batch] using hnone
        exact .drained hfetching hempty
      · rename_i hsome
        cases h
        exact .fetched hfetching hsome (List.take_prefix batch r.outbox.rows)
    · cases h
  | drainGate =>
    simp only [drainStep] at h
    split at h
    · rename_i row rest sent hgating
      cases h
      split
      · rename_i honline
        exact .online hgating honline
      · rename_i hoffline
        exact .offline hgating hoffline
    · cases h
  | drainCall ok =>
    simp only [drainStep] at h
    split at h
    · rename_i row rest sent hcalling
      cases h
      cases ok with
      | true => exact .sent hcalling
      | false => exact .refused hcalling
    · cases h
  | delete =>
    simp only [drainStep] at h
    split at h
    · rename_i row rest sent hdeleting
      cases h
      exact .delete hdeleting
    · cases h
  | release =>
    simp only [drainStep] at h
    split at h
    · rename_i sent hreturning
      cases h
      exact .release hreturning
    · cases h
  | _ => cases h

theorem steps_of_step {r s : Runner} {e : Event} (h : Fires step r e s) : Steps r e s := by
  cases e with
  | publish | checkPending | gate | call | enqueue => exact .publisher (publishes_of_step h)
  | runForever | onConnect | onDisconnect | startThread => exact .connection (connects_of_step h)
  | acquire | fetch | drainGate | drainCall | delete | release => exact .drain (drains_of_step h)
  | crash =>
    cases h
    exact .crash rfl rfl

end TwinVoice.Edge
