import TwinVoice.Voice.Model

/-! # The voice service

`service.py`: one utterance is routed, its slots are resolved, and by its tier
it runs at once or is read back; a control phrase, or a REST call, confirms or
cancels a stored action. `check` is every test that `confirm` makes before it
calls the tool, in the order in which it makes them. -/

namespace TwinVoice.Voice

open TwinVoice.Lib TwinVoice.Nlu

variable {W : Type}

def contextTtl : Duration := minutes 2

/-- `DATETIME_PARAMS`. -/
def datetimeParams : List String := ["when", "planned_start", "planned_end", "period_start", "period_end"]

/-- `LOW_TRANSCRIPT_CONFIDENCE`, the double nearest to 0.6. -/
def lowTranscriptConfidence : Rat := 5404319552844595 / 9007199254740992

namespace Codec

/-- `_jsonable` on a parameter record: instants become text. -/
def jsonable (c : Codec) (p : Params) : Params :=
  p.map fun e => (e.1, match e.2 with | .instant t => .text (c.isoformat t) | v => v)

/-- `revive_params`: text under a datetime key is read back, or dropped. -/
def reviveParams (c : Codec) (p : Params) : Params :=
  p.filterMap fun e =>
    match e.2 with
    | .text s => if e.1 ∈ datetimeParams then (c.fromisoformat s).map fun t => (e.1, .instant t) else some e
    | _ => some e

def text (c : Codec) : Value → String
  | .text s => s
  | v => c.str v

def uuid (c : Codec) (v : Value) : Except String Uuid :=
  match c.parseUuid (c.text v) with
  | some id => .ok id
  | none => .error "badly formed hexadecimal UUID string"

def instant (c : Codec) : Value → Except String Instant
  | .instant t => .ok t
  | v =>
    match c.fromisoformat (c.text v) with
    | some t => .ok t
    | none => .error "Invalid isoformat string"

end Codec

/-! ## Validation -/

/-- The machine is in the registry and not deleted. -/
def Registry.hasAsset (reg : Registry W) (id : Uuid) : Bool :=
  match reg.assets.find? fun a => a.id = id with
  | some a => a.deletedAt = none
  | none => false

/-- No row at all means that the roster is not maintained, not that nobody can work. -/
def Registry.technicianAvailable (reg : Registry W) (id : Uuid) (time : Instant) : Bool :=
  match reg.technicians.find? fun t => t.id = id with
  | none => false
  | some t =>
    if t.deletedAt ≠ none then false
    else
      let rows := reg.availability.filter fun a => a.technicianId = id
      rows.any (fun a => a.kind = "available" ∧ a.startsAt ≤ time ∧ time < a.endsAt) || rows.isEmpty

def Registry.alarmActive (reg : Registry W) (id : Uuid) : Bool :=
  match reg.alarms.find? fun a => a.id = id with
  | some a => a.status = "active"
  | none => false

def validateAsset (c : Codec) (reg : Registry W) (params : Params) :
    Except String (List (String × String)) :=
  match params.truthy? "asset_id" with
  | none => .ok []
  | some v => (c.uuid v).map fun id =>
      if reg.hasAsset id then [] else [("asset", "That machine is no longer in the registry.")]

def spokenTime (params : Params) : Option Value :=
  (params.truthy? "when").or (params.truthy? "planned_start")

def validateWhen (c : Codec) (params : Params) (now : Instant) :
    Except String (List (String × String)) :=
  match spokenTime params with
  | none => .ok []
  | some v => (c.instant v).map fun planned =>
      if planned ≤ now then [("when", "That time is in the past.")] else []

def validateTechnician (c : Codec) (reg : Registry W) (params : Params) :
    Except String (List (String × String)) :=
  match params.truthy? "technician_id", spokenTime params with
  | some technician, some v => do
      let planned ← c.instant v
      let id ← c.uuid technician
      return if reg.technicianAvailable id planned then []
        else [("technician", "That technician is not available then.")]
  | _, _ => .ok []

def validateAlarm (c : Codec) (reg : Registry W) (tool : String) (params : Params) :
    Except String (List (String × String)) :=
  match params.truthy? "alarm_id" with
  | some v =>
    if tool = "acknowledge_alarm" then (c.uuid v).map fun id =>
      if reg.alarmActive id then [] else [("alarm", "That alarm is no longer open.")]
    else .ok []
  | none => .ok []

/-- `_validate`: the parameters against the registry as it is now. -/
def validate (c : Codec) (reg : Registry W) (action : VoiceAction) (now : Instant) :
    Except String (List (String × String)) := do
  let params := c.reviveParams action.params
  let asset ← validateAsset c reg params
  let time ← validateWhen c params now
  let technician ← validateTechnician c reg params
  let alarm ← validateAlarm c reg action.tool params
  return asset ++ time ++ technician ++ alarm

/-! ## Confirmation -/

def secondFactorOk (env : Env W) (actor : CurrentUser) (pin : Option String) : Except Failure Bool :=
  match pin with
  | none => .ok false
  | some p => if p = "" then .ok false else env.verify actor.sub p

/-- The PIN is asked for by the tier only. -/
def secondFactor (env : Env W) (actor : CurrentUser) (tier : Tier) (pin : Option String) :
    Except Failure Bool :=
  if needsSecondFactor tier then secondFactorOk env actor pin else .ok true

/-- What `confirm` finds about an action before it calls the tool. -/
inductive Finding
  | notPending
  | windowClosed
  | t3Disabled
  | pinUnavailable (failure : Failure)
  | pinWrong
  | broken (reason : String)
  | invalid (errors : List (String × String))
  | clear
  deriving DecidableEq

def VoiceAction.windowClosed (action : VoiceAction) (now : Instant) : Bool :=
  match action.expiresAt with
  | some t => t ≤ now
  | none => false

def check (w : Wiring) (env : Env W) (actor : CurrentUser) (reg : Registry W) (action : VoiceAction)
    (pin : Option String) : Finding :=
  if action.status ≠ .pending then .notPending
  else if action.windowClosed env.later then .windowClosed
  else if needsSecondFactor action.tier && !env.allowT3 then .t3Disabled
  else match secondFactor env actor action.tier pin with
    | .error failure => .pinUnavailable failure
    | .ok false => .pinWrong
    | .ok true =>
      match validate w.codec reg action env.later with
      | .error reason => .broken reason
      | .ok [] => .clear
      | .ok errors => .invalid errors

/-- The row as the second-factor branch leaves it. -/
def VoiceAction.factorPassed (action : VoiceAction) : VoiceAction :=
  if needsSecondFactor action.tier then { action with secondFactorOk := some true } else action

def VoiceAction.confirm (action : VoiceAction) (now : Instant) : VoiceAction :=
  { action.factorPassed with status := .confirmed, confirmedAt := some now }

def VoiceAction.fail (action : VoiceAction) (error : String) : VoiceAction :=
  { action with status := .failed, error := some error }

def VoiceAction.finish (action : VoiceAction) (now : Instant) (result : Params) : VoiceAction :=
  { action with status := .executed, executedAt := some now, result := some result }

def saveAction (action : VoiceAction) : VoiceTx W Unit :=
  Tx.write fun db => { db with
    actions := db.actions.modify action.id (fun r => { action with id := r.id }) fun _ => rfl }

def setRegistry (registry : Registry W) : VoiceTx W Unit :=
  Tx.write fun db => { db with registry := registry }

/-- Keep what the tool committed on the way: its commit takes the whole session along. -/
def keep : Option (Registry W) → VoiceTx W Unit
  | none => pure ()
  | some registry => do
    setRegistry registry
    Tx.commit

/-- `tools.TOOLS[tool](context, **params)`, with the `ProblemError` caught. -/
def callTool (env : Env W) (action : Option Uuid) (tool : String) (context : ToolContext)
    (params : Params) : VoiceTx W (Except Problem Params) :=
  match env.tools tool with
  | none => Tx.raise (.crash "KeyError")
  | some run => do
    Tx.emit (.toolRun action tool params)
    let db ← Tx.read
    let r := run context params db.registry
    keep r.committed
    setRegistry r.registry
    match r.ending with
    | .done output => return .ok output
    | .refused problem => return .error problem
    | .died reason => Tx.raise (.crash reason)

def actionOr404 (id : Uuid) : VoiceTx W VoiceAction := do
  let db ← Tx.read
  Tx.orRaise (db.actions.find id) (.problem (.notFound "Voice action not found"))

def sessionIdOf (db : Database W) (action : VoiceAction) : Option Uuid :=
  (db.turns.find action.turnId).map VoiceTurn.sessionId

/-- The context of a confirmed call starts without the dialogue context. -/
def confirmContext (env : Env W) (actor : CurrentUser) (sessionId : Option Uuid) (lang : String) :
    ToolContext :=
  ⟨actor, env.later, lang, sessionId, DialogueContext.empty⟩

/-- The part of `confirm` after every test has passed. -/
def execute (w : Wiring) (env : Env W) (actor : CurrentUser) (action : VoiceAction) (lang : String) :
    VoiceTx W (VoiceAction × String) := do
  let confirmed := action.confirm env.later
  saveAction confirmed
  let db ← Tx.read
  let context := confirmContext env actor (sessionIdOf db action) lang
  match ← callTool env (some action.id) action.tool context (w.codec.reviveParams action.params) with
  | .error problem =>
    let failed := confirmed.fail problem.text
    saveAction failed
    Tx.commit
    return (failed, problem.text)
  | .ok output =>
    let executed := confirmed.finish env.later (w.codec.jsonable output)
    saveAction executed
    Tx.commit
    return (executed, w.compose action.tool output lang false)

def confirm (w : Wiring) (env : Env W) (actor : CurrentUser) (actionId : Uuid) (pin : Option String)
    (lang : String) : VoiceTx W (VoiceAction × String) := do
  let action ← actionOr404 actionId
  let db ← Tx.read
  match check w env actor db.registry action pin with
  | .notPending => Tx.raise (.problem (.conflict s!"That action is already {action.status.name}"))
  | .windowClosed =>
    saveAction { action with status := .expired }
    Tx.commit
    Tx.raise (.problem (.conflict "The confirmation window closed. Please say it again."))
  | .t3Disabled =>
    saveAction { action with status := .rejected }
    Tx.commit
    Tx.raise (.problem (.forbidden "Actuation is disabled on this installation"))
  | .pinUnavailable failure => Tx.raise failure
  | .pinWrong =>
    saveAction { action with status := .rejected, secondFactorOk := some false }
    Tx.commit
    Tx.raise (.problem (.forbidden "That PIN is not correct"))
  | .broken reason => Tx.raise (.crash reason)
  | .invalid errors =>
    let rejected := { action.factorPassed with status := .rejected, validationErrors := some errors }
    saveAction rejected
    Tx.commit
    return (rejected, String.intercalate "; " (errors.map Prod.snd))
  | .clear => execute w env actor action lang

def cancel (actionId : Uuid) : VoiceTx W (VoiceAction × String) := do
  let action ← actionOr404 actionId
  if action.status ≠ .pending then
    Tx.raise (.problem (.conflict s!"That action is already {action.status.name}"))
  else do
    let cancelled := { action with status := .cancelled }
    saveAction cancelled
    Tx.commit
    return (cancelled, "Cancelled.")

end TwinVoice.Voice
