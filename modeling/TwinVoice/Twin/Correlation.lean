import Mathlib.Logic.Function.Basic
import TwinVoice.Lib.Dict
import TwinVoice.Lib.Transition
import TwinVoice.Sim.Commands

/-! # Commands and their acknowledgements

`CommandGateway` with any number of calls of `execute` at once, each in its own
thread and known by the id of its command, and the callback that takes the
acknowledgements off the wire. Every access to the shared table, to the
`_Pending` of a call and to its event is a step of its own. -/

namespace TwinVoice.Twin

open TwinVoice.Lib TwinVoice.Lib.Transition TwinVoice.Sim

/-- A JSON object off the wire. -/
abbrev Acknowledgement := List (String × Json)

/-- An acknowledgement and which of the messages brought it. -/
structure Received where
  message : Nat
  ack : Acknowledgement

/-- How a call ends: with a `ServiceUnavailableError` or an answer, if there is one. -/
inductive Outcome
  | notConnected
  | publishFailed
  | answered (reply : Option Received)

/-- How far a call of `execute` is. -/
inductive Stage
  | idle
  | connected
  | registered
  | published
  | awake
  | leaving (outcome : Outcome)
  | returned (outcome : Outcome)

/-- How far `_on_message` is with a message; `call` is the call whose `_Pending` it has got. -/
inductive Handling
  | expected
  | found (call : String) (ack : Acknowledgement)
  | stored (call : String) (ack : Acknowledgement)
  | done (ack : Option Acknowledgement)

/-- `pending` maps a command id to the call whose `_Pending` it is. -/
structure Gateway where
  connected : Bool
  pending : Dict String String
  reply : String → Option Received
  event : String → Bool
  stage : String → Stage
  handling : Nat → Handling

namespace Gateway

def start : Gateway := ⟨false, [], fun _ => none, fun _ => false, fun _ => .idle, fun _ => .expected⟩

inductive Event
  | onConnect
  | onDisconnect
  | enter (id : String)
  | register (id : String)
  | publish (id : String) (success : Bool)
  | wake (id : String)
  | timeout (id : String)
  | read (id : String)
  | pop (id : String)
  | onMessage (message : Nat) (payload : ByteArray)
  | store (message : Nat)
  | signal (message : Nat)

def goes (g : Gateway) (id : String) (stage : Stage) : Gateway := { g with stage := Function.update g.stage id stage }

def handles (g : Gateway) (message : Nat) (handling : Handling) : Gateway :=
  { g with handling := Function.update g.handling message handling }

/-- `str(ack["command_id"])`. -/
def commandId (str : Json → String) (ack : Acknowledgement) : Option String := (ack.lookup "command_id").map str

/-- The payload as `_on_message` understands it; none is malformed. -/
def understood (loads : ByteArray → Option Json) (str : Json → String) (payload : ByteArray) :
    Option (Acknowledgement × String) :=
  match loads payload with
  | some (.object ack) => (commandId str ack).map fun id => (ack, id)
  | _ => none

/-- What happens next. An exception of `json.loads` other than a `ValueError` leaves the callback
before anything is changed, as a malformed payload does. -/
def step (loads : ByteArray → Option Json) (str : Json → String) (g : Gateway) : Event → Option Gateway
  | .onConnect => some { g with connected := true }
  | .onDisconnect => some { g with connected := false }
  | .enter id =>
    match g.stage id with
    | .idle => some (g.goes id (if g.connected then .connected else .returned .notConnected))
    | _ => none
  | .register id =>
    match g.stage id with
    | .connected => some ({ g with
        pending := g.pending.set id id
        reply := Function.update g.reply id none
        event := Function.update g.event id false }.goes id .registered)
    | _ => none
  | .publish id success =>
    match g.stage id with
    | .registered => some (g.goes id (if success then .published else .leaving .publishFailed))
    | _ => none
  | .wake id =>
    match g.stage id, g.event id with
    | .published, true => some (g.goes id .awake)
    | _, _ => none
  | .timeout id =>
    match g.stage id with
    | .published => some (g.goes id .awake)
    | _ => none
  | .read id =>
    match g.stage id with
    | .awake => some (g.goes id (.leaving (.answered (g.reply id))))
    | _ => none
  | .pop id =>
    match g.stage id with
    | .leaving outcome => some ({ g with pending := g.pending.pop id }.goes id (.returned outcome))
    | _ => none
  | .onMessage message payload =>
    match g.handling message with
    | .expected =>
      match understood loads str payload with
      | some (ack, id) =>
        match g.pending.get? id with
        | some call => some (g.handles message (.found call ack))
        | none => some (g.handles message (.done (some ack)))
      | none => some (g.handles message (.done none))
    | _ => none
  | .store message =>
    match g.handling message with
    | .found call ack => some ({ g with
        reply := Function.update g.reply call (some ⟨message, ack⟩) }.handles message (.stored call ack))
    | _ => none
  | .signal message =>
    match g.handling message with
    | .stored call ack => some ({ g with
        event := Function.update g.event call true }.handles message (.done (some ack)))
    | _ => none

end Gateway

/-- The call has put its `_Pending` into the table and has not returned. -/
def Stage.Registered : Stage → Prop
  | .registered | .published | .awake | .leaving _ => True
  | .idle | .connected | .returned _ => False

/-- What the call returns, once it knows. -/
def Stage.reply : Stage → Option Received
  | .leaving (.answered reply) | .returned (.answered reply) => reply
  | _ => none

def Handling.ack : Handling → Option Acknowledgement
  | .expected => none
  | .found _ ack | .stored _ ack => some ack
  | .done ack => ack

namespace Gateway

/-- The call has the acknowledgement in its `_Pending`, or returns it. -/
def Reached (g : Gateway) (id : String) (r : Received) : Prop := g.reply id = some r ∨ (g.stage id).reply = some r

/-- Every call gets its own acknowledgement or none, no message nor a copy of it reaches two calls,
and the table is that of the calls in between. -/
structure Correlated (str : Json → String) (g : Gateway) : Prop where
  own : ∀ id r, g.stage id = .returned (.answered (some r)) → commandId str r.ack = some id
  apart : ∀ id id' r r', g.Reached id r → g.Reached id' r' → r.message = r'.message ∨ r.ack = r'.ack → id = id'
  table : ∀ id, (g.pending.get? id).isSome = true ↔ (g.stage id).Registered

/-- The acknowledgement is the one that the message brought. -/
def Brought (g : Gateway) (r : Received) : Prop := (g.handling r.message).ack = some r.ack

structure Inv (str : Json → String) (g : Gateway) : Prop where
  table : ∀ id call, g.pending.get? id = some call ↔ call = id ∧ (g.stage id).Registered
  found : ∀ n call ack, g.handling n = .found call ack → commandId str ack = some call
  own : ∀ id r, g.Reached id r → commandId str r.ack = some id ∧ g.Brought r

section
variable {loads : ByteArray → Option Json} {str : Json → String} {g g' : Gateway}

theorem commandId_of_understood {payload : ByteArray} {ack : Acknowledgement} {id : String}
    (h : understood loads str payload = some (ack, id)) : commandId str ack = some id := by
  unfold understood at h
  split at h
  · obtain ⟨id', hid, hpair⟩ := Option.map_eq_some_iff.mp h
    cases hpair
    exact hid
  · cases h

theorem inv_start : Inv str start where
  table id call := by
    constructor
    · intro h
      cases h
    · intro h
      exact h.2.elim
  found n call ack h := by cases h
  own id r h := by obtain h | h := h <;> cases h

/-- A call goes on, and neither enters nor leaves the table, with the reply that is there if any. -/
theorem Inv.goes (h : Inv str g) {id : String} {old stage : Stage} (hstage : g.stage id = old)
    (hregistered : stage.Registered ↔ old.Registered) (hreply : ∀ r, stage.reply = some r → g.reply id = some r) :
    Inv str (g.goes id stage) := by
  refine ⟨?_, h.found, ?_⟩
  · intro id' call
    rw [show (g.goes id stage).pending = g.pending from rfl, h.table]
    by_cases hid : id' = id
    · subst hid
      simp [Gateway.goes, hstage, hregistered]
    · simp [Gateway.goes, hid]
  · intro id' r hr
    have hr : g.reply id' = some r ∨ (Function.update g.stage id stage id').reply = some r := hr
    refine h.own id' r ?_
    by_cases hid : id' = id
    · subst hid
      rw [Function.update_self] at hr
      rcases hr with hr | hr
      · exact .inl hr
      · exact .inl (hreply r hr)
    · rwa [Function.update_of_ne hid] at hr

/-- A message is handled further, and what it brought stays. -/
theorem Inv.handles (h : Inv str g) {n : Nat} {handling : Handling}
    (hack : ∀ ack, (g.handling n).ack = some ack → handling.ack = some ack)
    (hfound : ∀ call ack, handling = .found call ack → commandId str ack = some call) :
    Inv str (g.handles n handling) := by
  refine ⟨h.table, ?_, ?_⟩
  · intro n' call ack hn'
    by_cases hn : n' = n
    · subst hn
      rw [show (g.handles n' handling).handling n' = handling from Function.update_self _ _ _] at hn'
      exact hfound call ack hn'
    · rw [show (g.handles n handling).handling n' = g.handling n' from Function.update_of_ne hn _ _] at hn'
      exact h.found n' call ack hn'
  · intro id r hr
    obtain ⟨hid, hbrought⟩ := h.own id r hr
    refine ⟨hid, ?_⟩
    unfold Brought at hbrought ⊢
    by_cases hn : r.message = n
    · rw [hn] at hbrought ⊢
      rw [show (g.handles n handling).handling n = handling from Function.update_self _ _ _]
      exact hack r.ack hbrought
    · rwa [show (g.handles n handling).handling r.message = g.handling r.message from Function.update_of_ne hn _ _]

/-- A call puts its empty `_Pending` into the table. -/
theorem Inv.register (h : Inv str g) (id : String) : Inv str ({ g with
    pending := g.pending.set id id
    reply := Function.update g.reply id none
    event := Function.update g.event id false }.goes id .registered) := by
  refine ⟨?_, h.found, ?_⟩
  · intro id' call
    show (g.pending.set id id).get? id' = some call ↔ call = id' ∧ (Function.update g.stage id .registered id').Registered
    rw [Dict.get?_set]
    by_cases hid : id = id'
    · subst hid
      rw [if_pos rfl, Function.update_self]
      exact ⟨fun heq => ⟨(Option.some.inj heq).symm, trivial⟩, fun heq => congrArg some heq.1.symm⟩
    · rw [if_neg hid, Function.update_of_ne (Ne.symm hid)]
      exact h.table id' call
  · intro id' r hr
    have hr : Function.update g.reply id none id' = some r ∨ (Function.update g.stage id .registered id').reply = some r := hr
    refine h.own id' r ?_
    by_cases hid : id' = id
    · subst hid
      rw [Function.update_self, Function.update_self] at hr
      obtain hr | hr := hr <;> cases hr
    · rwa [Function.update_of_ne hid, Function.update_of_ne hid] at hr

/-- A call takes its `_Pending` out of the table and returns. -/
theorem Inv.pop (h : Inv str g) {id : String} {outcome : Outcome} (hstage : g.stage id = .leaving outcome) :
    Inv str ({ g with pending := g.pending.pop id }.goes id (.returned outcome)) := by
  refine ⟨?_, h.found, ?_⟩
  · intro id' call
    show (g.pending.pop id).get? id' = some call ↔ call = id' ∧ (Function.update g.stage id (.returned outcome) id').Registered
    rw [Dict.get?_pop]
    by_cases hid : id = id'
    · subst hid
      rw [if_pos rfl, Function.update_self]
      exact ⟨fun heq => absurd heq (by simp), fun heq => heq.2.elim⟩
    · rw [if_neg hid, Function.update_of_ne (Ne.symm hid)]
      exact h.table id' call
  · intro id' r hr
    have hr : g.reply id' = some r ∨ (Function.update g.stage id (.returned outcome) id').reply = some r := hr
    refine h.own id' r ?_
    by_cases hid : id' = id
    · subst hid
      rw [Function.update_self] at hr
      refine hr.imp_right ?_
      intro hreply
      rw [hstage]
      cases outcome with
      | answered reply => exact hreply
      | notConnected => cases hreply
      | publishFailed => cases hreply
    · rwa [Function.update_of_ne hid] at hr

/-- The acknowledgement goes into the `_Pending` that was found under its command id. -/
theorem Inv.store (h : Inv str g) {n : Nat} {call : String} {ack : Acknowledgement}
    (hfound : g.handling n = .found call ack) : Inv str ({ g with
      reply := Function.update g.reply call (some ⟨n, ack⟩) }.handles n (.stored call ack)) := by
  have hhandled : Inv str (g.handles n (.stored call ack)) := by
    refine h.handles ?_ fun _ _ heq => by cases heq
    intro ack' hack
    rw [hfound] at hack
    exact hack
  refine ⟨hhandled.table, hhandled.found, ?_⟩
  intro id r hr
  have hr : Function.update g.reply call (some ⟨n, ack⟩) id = some r ∨ (g.stage id).reply = some r := hr
  by_cases hid : id = call
  · subst hid
    rw [Function.update_self] at hr
    rcases hr with hr | hr
    · cases hr
      refine ⟨h.found n id ack hfound, ?_⟩
      show (Function.update g.handling n (.stored id ack) n).ack = some ack
      rw [Function.update_self]
      rfl
    · exact hhandled.own id r (.inr hr)
  · rw [Function.update_of_ne hid] at hr
    exact hhandled.own id r hr

/-- An event is set, which no part of the invariant looks at. -/
theorem Inv.event (h : Inv str g) (event : String → Bool) : Inv str { g with event := event } :=
  ⟨h.table, h.found, h.own⟩

theorem Inv.onMessage (h : Inv str g) {n : Nat} {payload : ByteArray} (hexpected : g.handling n = .expected)
    (hstep : step loads str g (.onMessage n payload) = some g') : Inv str g' := by
  have hnone : ∀ handling ack, (g.handling n).ack = some ack → Handling.ack handling = some ack := by
    intro _ ack hack
    rw [hexpected] at hack
    cases hack
  simp only [step, hexpected] at hstep
  split at hstep
  · rename_i ack id hunderstood
    have hid := commandId_of_understood hunderstood
    split at hstep
    · rename_i call hcall
      cases hstep
      refine h.handles (hnone _) ?_
      intro _ _ heq
      cases heq
      rw [((h.table id call).mp hcall).1]
      exact hid
    · cases hstep
      exact h.handles (hnone _) fun _ _ heq => by cases heq
  · cases hstep
    exact h.handles (hnone _) fun _ _ heq => by cases heq

/-- Every step keeps the invariant. -/
theorem Inv.step (h : Inv str g) {e : Event} (hstep : step loads str g e = some g') : Inv str g' := by
  cases e with
  | onConnect =>
    cases hstep
    exact ⟨h.table, h.found, h.own⟩
  | onDisconnect =>
    cases hstep
    exact ⟨h.table, h.found, h.own⟩
  | enter id =>
    simp only [Gateway.step] at hstep
    split at hstep
    · rename_i hstage
      cases hstep
      cases g.connected with
      | true => exact h.goes hstage Iff.rfl fun _ hr => by cases hr
      | false => exact h.goes hstage Iff.rfl fun _ hr => by cases hr
    · cases hstep
  | register id =>
    simp only [Gateway.step] at hstep
    split at hstep
    · cases hstep
      exact h.register id
    · cases hstep
  | publish id success =>
    simp only [Gateway.step] at hstep
    split at hstep
    · rename_i hstage
      cases hstep
      cases success with
      | true => exact h.goes hstage Iff.rfl fun _ hr => by cases hr
      | false => exact h.goes hstage Iff.rfl fun _ hr => by cases hr
    · cases hstep
  | wake id =>
    simp only [Gateway.step] at hstep
    split at hstep
    · rename_i hstage _
      cases hstep
      exact h.goes hstage Iff.rfl fun _ hr => by cases hr
    · cases hstep
  | timeout id =>
    simp only [Gateway.step] at hstep
    split at hstep
    · rename_i hstage
      cases hstep
      exact h.goes hstage Iff.rfl fun _ hr => by cases hr
    · cases hstep
  | read id =>
    simp only [Gateway.step] at hstep
    split at hstep
    · rename_i hstage
      cases hstep
      exact h.goes hstage Iff.rfl fun _ hr => hr
    · cases hstep
  | pop id =>
    simp only [Gateway.step] at hstep
    split at hstep
    · rename_i hstage
      cases hstep
      exact h.pop hstage
    · cases hstep
  | onMessage n payload =>
    cases hhandling : g.handling n with
    | expected => exact h.onMessage hhandling hstep
    | found call ack => simp [Gateway.step, hhandling] at hstep
    | stored call ack => simp [Gateway.step, hhandling] at hstep
    | done ack => simp [Gateway.step, hhandling] at hstep
  | store n =>
    simp only [Gateway.step] at hstep
    split at hstep
    · rename_i hfound
      cases hstep
      exact h.store hfound
    · cases hstep
  | signal n =>
    simp only [Gateway.step] at hstep
    split at hstep
    · rename_i call ack hstored
      cases hstep
      refine (h.handles ?_ fun _ _ heq => by cases heq).event _
      intro ack' hack
      rw [hstored] at hack
      exact hack
    · cases hstep

theorem Inv.correlated (h : Inv str g) : Correlated str g := by
  refine ⟨?_, ?_, ?_⟩
  · intro id r hr
    refine (h.own id r (.inr ?_)).1
    rw [hr]
    rfl
  · intro id id' r r' hr hr' hsame
    obtain ⟨hid, hbrought⟩ := h.own id r hr
    obtain ⟨hid', hbrought'⟩ := h.own id' r' hr'
    have hack : r.ack = r'.ack := by
      rcases hsame with hmessage | hack
      · unfold Brought at hbrought hbrought'
        rw [hmessage, hbrought'] at hbrought
        exact (Option.some.inj hbrought).symm
      · exact hack
    rw [hack, hid'] at hid
    exact (Option.some.inj hid).symm
  · intro id
    constructor
    · intro hsome
      obtain ⟨call, hcall⟩ := Option.isSome_iff_exists.mp hsome
      exact ((h.table id call).mp hcall).2
    · intro hregistered
      rw [(h.table id id).mpr ⟨rfl, hregistered⟩]
      rfl

end

/-- In every interleaving the calls and their acknowledgements are correlated. -/
theorem commands_correlated (loads : ByteArray → Option Json) (str : Json → String) {g : Gateway} {es : List Event}
    (h : Run (Fires (step loads str)) start es g) : Correlated str g := by
  have hinv : Inv str g := by
    refine h.invariant (fun _ => Inv str) inv_start ?_
    intro _ t e u ht hstep
    exact ht.step hstep
  exact hinv.correlated

/-- A text as it is, anything else not at all. -/
def textOf : Json → String
  | .text s => s
  | _ => ""

/-- A payload of one byte acknowledges the first command, a longer one the second. -/
def acknowledging (payload : ByteArray) : Option Json :=
  some (.object [("command_id", .text (if payload.size = 1 then "c1" else "c2"))])

/-- Two calls, one of which gives up before its acknowledgement comes; the other one's comes twice. -/
def twoCalls : List Event :=
  [.onConnect, .enter "c1", .enter "c2", .register "c1", .register "c2", .publish "c1" true, .publish "c2" true,
    .timeout "c1", .onMessage 0 ⟨#[50, 50]⟩, .store 0, .signal 0, .wake "c2", .read "c2", .read "c1", .pop "c1",
    .onMessage 1 ⟨#[49]⟩, .onMessage 2 ⟨#[50, 50]⟩, .pop "c2", .store 2]

theorem commands_correlated_two_calls : ∃ g, replay (step acknowledging textOf) start twoCalls = some g ∧
    Correlated textOf g := by
  have hsome : (replay (step acknowledging textOf) start twoCalls).isSome = true := by decide +kernel
  obtain ⟨g, hg⟩ := Option.isSome_iff_exists.mp hsome
  exact ⟨g, hg, commands_correlated acknowledging textOf (run_of_replay hg)⟩

end Gateway

end TwinVoice.Twin
