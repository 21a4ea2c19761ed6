import TwinVoice.Lib.Traversal
import TwinVoice.Sim.Commands
import TwinVoice.Sim.Runs

/-! # Commands to the fleet

`handle_command` on the whole machines, from the bytes of the payload. It
answers and, when it rejects, leaves every machine as it was, unless
`json.loads` or `float` raises what nobody catches. -/

namespace TwinVoice.Sim.Base

open TwinVoice.Lib

instance : Keyed Machine String := ⟨fun m => m.spec.code⟩

structure Engine where
  machines : Table Machine
  simTime : Instant
  log : List LogEntry

namespace Engine

def record (e : Engine) (level : Level) (message : String) (assetCode : Option String) : Engine :=
  let log := e.log ++ [⟨e.simTime, level, message, assetCode⟩]
  { e with log := log.drop (log.length - Sim.Engine.logSize) }

def machine (e : Engine) (code : String) : Except SimError Machine :=
  match e.machines.find code with
  | some m => .ok m
  | none => .error (.unknownAsset code)

def putMachine (e : Engine) (m : Machine) : Engine := { e with machines := e.machines.put m }

/-- `set_load`; `g` is the format `g` of a number. -/
def setLoad (g : Rat → String) (e : Engine) (asset : String) (loadPct : Double) : Except SimError Engine := do
  let m ← e.machine asset
  match loadPct.within 0 110 with
  | none => throw (.invalidRequest "load_pct must be within 0..110")
  | some pct =>
    return (e.putMachine (m.setLoadSetpoint pct)).record .info ("Load setpoint " ++ g pct ++ " %") (some asset)

def setSpeed (g : Rat → String) (e : Engine) (asset : String) (speedPct : Double) : Except SimError Engine := do
  let m ← e.machine asset
  match speedPct.within 50 120 with
  | none => throw (.invalidRequest "speed_pct must be within 50..120")
  | some pct =>
    return (e.putMachine { m with speedSetpointPct := pct }).record .info
      ("Speed setpoint " ++ g pct ++ " %") (some asset)

def reset (e : Engine) (asset : String) (componentCode : Option String) : Except SimError Engine := do
  let m ← e.machine asset
  match componentCode.filter fun code => m.components.find code = none, m.reset componentCode with
  | some code, _ => throw (.invalidRequest (asset ++ " has no component " ++ code))
  | none, none => throw (.crash "KeyError")
  | none, some (m', codes) =>
    return (e.putMachine m').record .info ("Maintenance reset: " ++ ", ".intercalate codes) (some asset)

end Engine

/-- What the handler does under the lock. -/
def obey (f : Formats) (engine : Engine) (assetCode command : String) (params : List (String × Json)) :
    Except SimError Engine := do
  let _ ← engine.machine assetCode
  match command with
  | "set_load" => engine.setLoad f.g assetCode (← number params "load_pct")
  | "set_speed" => engine.setSpeed f.g assetCode (← number params "speed_pct")
  | "maintenance_reset" => engine.reset assetCode (← componentCode params)
  | _ => throw (.invalidRequest ("unknown command " ++ command))

/-- The body of the `try`, after `json.loads`. -/
def carryOut (f : Formats) (engine : Engine) (assetCode command : String) (payload : Option Json) :
    Except SimError Engine := do
  let data ← parse payload
  checkCommandId data
  let params ← paramsOf data
  obey f engine assetCode command params

/-- How `json.loads` can fail: as `_parse` expects, or with another exception. It raises a
`ValueError` for an integer of too many digits and a `RecursionError` for too deep a nesting. -/
inductive LoadsError
  | unicodeDecode
  | jsonDecode
  | other (reason : String)

/-- The payload as `_parse` sees it; none is no valid JSON. -/
def loaded (loads : ByteArray → Except LoadsError Json) (payload : ByteArray) : Except String (Option Json) :=
  match loads payload with
  | .ok json => .ok (some json)
  | .error (.other reason) => .error reason
  | .error _ => .ok none

/-- The acknowledgement and the engine after the command, or the exception that escapes. -/
def answer (f : Formats) (now : Instant) (engine : Engine) (assetCode command : String) (payload : Option Json) :
    Except String (Ack × Engine) :=
  let known := (engine.machines.find assetCode).map fun _ => assetCode
  let who := "Command " ++ command ++ " from " ++ issuer f payload
  let rejected (message : String) : Ack × Engine :=
    (⟨field payload "command_id", command, "rejected", some message, f.iso now⟩,
      engine.record .warning (who ++ " rejected: " ++ message) known)
  match carryOut f engine assetCode command payload with
  | .ok engine' => .ok
      (⟨field payload "command_id", command, "accepted", none, f.iso now⟩,
        engine'.record .info (who ++ " accepted") known)
  | .error (.unknownAsset code) => .ok (rejected ("unknown asset " ++ code))
  | .error (.invalidRequest message) => .ok (rejected message)
  | .error (.crash reason) => .error reason

def handleCommand (loads : ByteArray → Except LoadsError Json) (f : Formats) (now : Instant) (engine : Engine)
    (assetCode command : String) (bytes : ByteArray) : Except String (Ack × Engine) := do
  let payload ← loaded loads bytes
  answer f now engine assetCode command payload

/-! ## What crashes -/

/-- An exception that the handler does not catch. -/
def Crashes {α : Type} (x : Except SimError α) : Prop := ∃ reason, x = .error (.crash reason)

section
variable {α β : Type}

theorem crashes_bind {x : Except SimError α} {g : α → Except SimError β} :
    Crashes (x >>= g) ↔ Crashes x ∨ ∃ a, x = .ok a ∧ Crashes (g a) := by
  cases x with
  | error e => simp [Crashes, bind, Except.bind]
  | ok a => simp [Crashes, bind, Except.bind]

@[simp] theorem not_crashes_ok (a : α) : ¬ Crashes (.ok a : Except SimError α) := fun ⟨_, h⟩ => nomatch h

@[simp] theorem not_crashes_unknownAsset (code : String) : ¬ Crashes (.error (.unknownAsset code) : Except SimError α) :=
  fun ⟨_, h⟩ => nomatch h

@[simp] theorem not_crashes_invalidRequest (message : String) :
    ¬ Crashes (.error (.invalidRequest message) : Except SimError α) :=
  fun ⟨_, h⟩ => nomatch h

end

/-- An integer that `float` cannot convert. -/
def Overflows (params : List (String × Json)) (key : String) : Prop :=
  ∃ n, params.lookup key = some (.int n) ∧ floatLimit ≤ n.natAbs

theorem crashes_number (params : List (String × Json)) (key : String) :
    Crashes (number params key) ↔ Overflows params key := by
  unfold number Overflows
  split
  · rename_i n hlookup
    rw [hlookup]
    split
    · rename_i hlt
      refine iff_of_false (not_crashes_ok _) ?_
      intro ⟨n', heq, hle⟩
      cases heq
      exact absurd hlt (not_lt.mpr hle)
    · rename_i hle
      exact iff_of_true ⟨_, rfl⟩ ⟨n, rfl, not_lt.mp hle⟩
  · rename_i x hlookup
    rw [hlookup]
    exact iff_of_false (not_crashes_ok _) fun ⟨_, heq, _⟩ => nomatch heq
  · rename_i hnot _
    exact iff_of_false (not_crashes_invalidRequest _) fun ⟨n, heq, _⟩ => hnot n heq

theorem not_crashes_parse (payload : Option Json) : ¬ Crashes (parse payload) := by
  unfold parse
  split <;> simp

theorem not_crashes_checkCommandId (data : List (String × Json)) : ¬ Crashes (checkCommandId data) := by
  unfold checkCommandId
  split
  · split <;> simp
  · simp

theorem not_crashes_paramsOf (data : List (String × Json)) : ¬ Crashes (paramsOf data) := by
  unfold paramsOf
  split <;> simp

theorem not_crashes_componentCode (params : List (String × Json)) : ¬ Crashes (componentCode params) := by
  unfold componentCode
  split <;> simp

section
variable {e e' : Engine} {asset : String}

theorem machine_eq_ok {m : Machine} : e.machine asset = .ok m ↔ e.machines.find asset = some m := by
  unfold Engine.machine
  cases e.machines.find asset <;> simp

theorem not_crashes_machine : ¬ Crashes (e.machine asset) := by
  unfold Engine.machine
  split <;> simp

theorem not_crashes_setLoad (g : Rat → String) (x : Double) : ¬ Crashes (e.setLoad g asset x) := by
  unfold Engine.setLoad
  rw [crashes_bind]
  intro h
  rcases h with h | ⟨m, -, h⟩
  · exact not_crashes_machine h
  · split at h
    · exact not_crashes_invalidRequest _ h
    · exact not_crashes_ok _ h

theorem not_crashes_setSpeed (g : Rat → String) (x : Double) : ¬ Crashes (e.setSpeed g asset x) := by
  unfold Engine.setSpeed
  rw [crashes_bind]
  intro h
  rcases h with h | ⟨m, -, h⟩
  · exact not_crashes_machine h
  · split at h
    · exact not_crashes_invalidRequest _ h
    · exact not_crashes_ok _ h

/-- A reset of components that have been looked up goes through. -/
theorem reset_of_known {m : Machine} {code : Option String}
    (h : (code.filter fun c => m.components.find c = none) = none) :
    m.reset code = some (m.renew code, m.codesOf code) := by
  unfold Machine.reset
  refine if_neg ?_
  intro ⟨c, hc, hnone⟩
  cases code with
  | none =>
    obtain ⟨x, hx, rfl⟩ := List.mem_map.mp hc
    exact Table.find_eq_none.mp hnone (List.mem_map_of_mem hx)
  | some c' =>
    obtain rfl := List.mem_singleton.mp hc
    rw [Option.filter_some, if_pos (decide_eq_true hnone)] at h
    cases h

theorem not_crashes_reset (code : Option String) : ¬ Crashes (e.reset asset code) := by
  unfold Engine.reset
  rw [crashes_bind]
  intro h
  rcases h with h | ⟨m, -, h⟩
  · exact not_crashes_machine h
  · split at h
    · exact not_crashes_invalidRequest _ h
    · rename_i hfilter hreset
      rw [reset_of_known hfilter] at hreset
      cases hreset
    · exact not_crashes_ok _ h

/-- A known machine is asked to take a number that no double holds. -/
def Oversized (e : Engine) (asset command : String) (params : List (String × Json)) : Prop :=
  (e.machines.find asset).isSome = true ∧
    (command = "set_load" ∧ Overflows params "load_pct" ∨ command = "set_speed" ∧ Overflows params "speed_pct")

theorem crashes_obey (f : Formats) (command : String) (params : List (String × Json)) :
    Crashes (obey f e asset command params) ↔ Oversized e asset command params := by
  have hmachine : (∃ m, e.machine asset = .ok m) ↔ (e.machines.find asset).isSome = true := by
    simp only [machine_eq_ok, Option.isSome_iff_exists]
  unfold obey Oversized
  rw [crashes_bind, or_iff_right not_crashes_machine, ← hmachine, ← exists_and_right]
  refine exists_congr fun m => and_congr_right fun _ => ?_
  split
  · rw [crashes_bind, crashes_number]
    simp [not_crashes_setLoad]
  · rw [crashes_bind, crashes_number]
    simp [not_crashes_setSpeed]
  · rw [crashes_bind]
    simp [not_crashes_componentCode, not_crashes_reset]
  · rename_i hload hspeed _
    refine iff_of_false (not_crashes_invalidRequest _) ?_
    intro h
    rcases h with ⟨h, -⟩ | ⟨h, -⟩
    · exact hload h
    · exact hspeed h

/-- The payload asks a known machine to take a number that no double holds. -/
def AsksTooMuch (e : Engine) (asset command : String) (payload : Option Json) : Prop :=
  ∃ data params, parse payload = .ok data ∧ checkCommandId data = .ok () ∧ paramsOf data = .ok params ∧
    Oversized e asset command params

theorem crashes_carryOut (f : Formats) (command : String) (payload : Option Json) :
    Crashes (carryOut f e asset command payload) ↔ AsksTooMuch e asset command payload := by
  unfold carryOut AsksTooMuch
  simp only [crashes_bind, not_crashes_parse, not_crashes_checkCommandId, not_crashes_paramsOf, false_or, crashes_obey]
  constructor
  · intro ⟨data, hdata, _, hid, params, hparams, h⟩
    exact ⟨data, params, hdata, hid, hparams, h⟩
  · intro ⟨data, params, hdata, hid, hparams, h⟩
    exact ⟨data, hdata, (), hid, params, hparams, h⟩

/-! ## Total and atomic -/

@[simp] theorem machines_record (e : Engine) (level : Level) (message : String) (assetCode : Option String) :
    (e.record level message assetCode).machines = e.machines := by
  unfold Engine.record
  dsimp only

/-- One acknowledgement, accepted or rejected, and after a rejection every machine as it was. -/
def Answered (e : Engine) (result : Except String (Ack × Engine)) : Prop :=
  ∃ ack e', result = .ok (ack, e') ∧ (ack.status = "accepted" ∨ ack.status = "rejected" ∧ e'.machines = e.machines)

theorem answered_iff (f : Formats) (now : Instant) (command : String) (payload : Option Json) :
    Answered e (answer f now e asset command payload) ↔ ¬ AsksTooMuch e asset command payload := by
  rw [← crashes_carryOut f]
  cases hdone : carryOut f e asset command payload with
  | ok e' =>
    refine iff_of_true ?_ (not_crashes_ok _)
    simp only [answer, hdone]
    exact ⟨_, _, rfl, .inl rfl⟩
  | error err =>
    cases err with
    | unknownAsset code =>
      refine iff_of_true ?_ (not_crashes_unknownAsset _)
      simp only [answer, hdone]
      exact ⟨_, _, rfl, .inr ⟨rfl, machines_record _ _ _ _⟩⟩
    | invalidRequest message =>
      refine iff_of_true ?_ (not_crashes_invalidRequest _)
      simp only [answer, hdone]
      exact ⟨_, _, rfl, .inr ⟨rfl, machines_record _ _ _ _⟩⟩
    | crash reason =>
      refine iff_of_false ?_ (not_not_intro ⟨reason, rfl⟩)
      simp only [answer, hdone]
      intro hanswered
      obtain ⟨_, _, h, _⟩ := hanswered
      cases h

/-- The handler answers, and leaves everything alone when it rejects, exactly if `json.loads` raises
nothing but what is expected of it and no machine is asked to take a number that no double holds. -/
theorem total_atomic_iff (loads : ByteArray → Except LoadsError Json) (f : Formats) (now : Instant) (e : Engine)
    (asset command : String) (bytes : ByteArray) :
    Answered e (handleCommand loads f now e asset command bytes) ↔
      match loads bytes with
      | .ok json => ¬ AsksTooMuch e asset command (some json)
      | .error (.other _) => False
      | .error _ => True := by
  unfold handleCommand loaded
  split
  · rename_i json hloads
    exact answered_iff f now command (some json)
  · rename_i reason hloads
    refine iff_of_false ?_ id
    intro ⟨_, _, h, _⟩
    cases h
  · rename_i error _ hloads
    refine (answered_iff f now command none).trans (iff_of_true ?_ ?_)
    · intro ⟨_, _, h, _⟩
      cases h
    · exact trivial

end

/-- A load of 1 followed by four hundred zeros is answered by an exception. -/
theorem huge_load_raises :
    let math : Math := ⟨fun _ => 1, fun x => x, fun x _ => x⟩
    let kind : Subclass := ⟨fun _ => 0, fun _ _ => ([], [])⟩
    let press := Machine.new math kind ⟨"press", 30, 15, 1 / 5, 9 / 10, 9 / 10, 1 / 100, 1800⟩ oneBearing
    let e : Engine := ⟨⟨[press], List.nodup_singleton _⟩, 0, []⟩
    let digits := "1" ++ String.ofList (List.replicate 400 '0')
    let bytes := ("\x7b\"command_id\": \"c1\", \"params\": \x7b\"load_pct\": " ++ digits ++ "\x7d\x7d").toUTF8
    let loads : ByteArray → Except LoadsError Json := fun _ =>
      .ok (.object [("command_id", .text "c1"), ("params", .object [("load_pct", .int (10 ^ 400))])])
    let f : Formats := ⟨fun _ => "", fun _ => "", fun _ => ""⟩
    (match handleCommand loads f 0 e "press" "set_load" bytes with
      | .ok _ => none
      | .error reason => some reason) = some "OverflowError: int too large to convert to float" ∧
      ¬ Answered e (handleCommand loads f 0 e "press" "set_load" bytes) := by
  intro math kind press e digits bytes loads f
  have hraised : (match handleCommand loads f 0 e "press" "set_load" bytes with
      | .ok _ => none
      | .error reason => some reason) = some "OverflowError: int too large to convert to float" := by
    decide +kernel
  refine ⟨hraised, ?_⟩
  intro ⟨_, _, h, _⟩
  rw [h] at hraised
  cases hraised

/-! ## What the model of the commands sees -/

theorem Machine.key_view (m : Machine) : Keyed.key m.view = Keyed.key m := rfl

def Engine.view (e : Engine) : Sim.Engine := ⟨e.machines.map Machine.view Machine.key_view, e.simTime, e.log⟩

theorem find_view (e : Engine) (asset : String) : e.view.machines.find asset = (e.machines.find asset).map Machine.view :=
  Table.find_map e.machines Machine.view Machine.key_view asset

section
variable {e : Engine} {asset : String}

theorem machine_view (e : Engine) (asset : String) : e.view.machine asset = (e.machine asset).map Machine.view := by
  unfold Sim.Engine.machine Engine.machine
  rw [find_view]
  cases e.machines.find asset <;> rfl

theorem view_putMachine (e : Engine) (m : Machine) : (e.putMachine m).view = e.view.putMachine m.view := by
  unfold Engine.view Engine.putMachine Sim.Engine.putMachine
  rw [Table.map_put]

theorem view_record (e : Engine) (level : Level) (message : String) (assetCode : Option String) :
    (e.record level message assetCode).view = e.view.record level message assetCode := by
  unfold Engine.view Engine.record Sim.Engine.record
  dsimp only

theorem setLoad_view (g : Rat → String) (x : Double) :
    e.view.setLoad g asset x = (e.setLoad g asset x).map Engine.view := by
  unfold Sim.Engine.setLoad Engine.setLoad
  rw [machine_view]
  cases e.machine asset with
  | error err => rfl
  | ok m =>
    cases x.within 0 110 with
    | none => rfl
    | some pct =>
      show Except.ok _ = Except.ok _
      rw [view_record, view_putMachine]
      rfl

theorem setSpeed_view (g : Rat → String) (x : Double) :
    e.view.setSpeed g asset x = (e.setSpeed g asset x).map Engine.view := by
  unfold Sim.Engine.setSpeed Engine.setSpeed
  rw [machine_view]
  cases e.machine asset with
  | error err => rfl
  | ok m =>
    cases x.within 50 120 with
    | none => rfl
    | some pct =>
      show Except.ok _ = Except.ok _
      rw [view_record, view_putMachine]
      rfl

theorem reset_view (code : Option String) : e.view.reset asset code = (e.reset asset code).map Engine.view := by
  have hcodes : ∀ m : Machine, (code.filter fun c => c ∉ m.view.codes) = code.filter fun c => m.components.find c = none := by
    intro m
    cases code with
    | none => rfl
    | some c =>
      have hiff : c ∉ m.view.codes ↔ m.components.find c = none := by
        rw [Table.find_eq_none]
        have hsame : m.view.codes = m.components.rows.map Keyed.key := by
          show (m.components.rows.map Component.view).map Sim.Component.code = _
          rw [List.map_map]
          rfl
        rw [hsame]
      simp only [Option.filter_some, decide_eq_decide.mpr hiff]
  unfold Sim.Engine.reset Engine.reset
  rw [machine_view]
  cases e.machine asset with
  | error err => rfl
  | ok m =>
    simp only [Except.map, bind, Except.bind, hcodes]
    cases hfilter : code.filter fun c => m.components.find c = none with
    | some c => rfl
    | none =>
      rw [reset_of_known hfilter]
      have hview := view_reset (reset_of_known hfilter)
      simp only [hview]
      show Except.ok _ = Except.ok _
      rw [view_record, view_putMachine]

end

theorem obey_view (f : Formats) (e : Engine) (asset command : String) (params : List (String × Json)) :
    Sim.obey f e.view asset command params = (obey f e asset command params).map Engine.view := by
  unfold Sim.obey obey
  rw [machine_view]
  cases e.machine asset with
  | error err => rfl
  | ok m =>
    by_cases hload : command = "set_load"
    · subst hload
      cases number params "load_pct" with
      | error err => rfl
      | ok x => exact setLoad_view f.g x
    · by_cases hspeed : command = "set_speed"
      · subst hspeed
        cases number params "speed_pct" with
        | error err => rfl
        | ok x => exact setSpeed_view f.g x
      · by_cases hreset : command = "maintenance_reset"
        · subst hreset
          cases componentCode params with
          | error err => rfl
          | ok code => exact reset_view code
        · simp only [Except.map, bind, Except.bind]
          rfl

/-- The handler does to the fleet what it does to the view of it. -/
theorem answer_view (f : Formats) (now : Instant) (e : Engine) (asset command : String) (payload : Option Json) :
    Sim.handleCommand f now e.view asset command payload =
      (answer f now e asset command payload).map fun r => (r.1, r.2.view) := by
  have hcarry : Sim.carryOut f e.view asset command payload = (carryOut f e asset command payload).map Engine.view := by
    unfold Sim.carryOut carryOut
    cases parse payload with
    | error err => rfl
    | ok data =>
      simp only [bind, Except.bind]
      cases checkCommandId data with
      | error err => rfl
      | ok u =>
        cases paramsOf data with
        | error err => rfl
        | ok params => exact obey_view f e asset command params
  have hknown : ((e.view.machines.find asset).map fun _ => asset) = (e.machines.find asset).map fun _ => asset := by
    rw [find_view, Option.map_map]
    rfl
  unfold Sim.handleCommand answer
  rw [hcarry, hknown]
  cases carryOut f e asset command payload with
  | ok e' => simp only [Except.map, view_record]
  | error err =>
    cases err with
    | unknownAsset code => simp only [Except.map, view_record]
    | invalidRequest message => simp only [Except.map, view_record]
    | crash reason => rfl

end TwinVoice.Sim.Base
