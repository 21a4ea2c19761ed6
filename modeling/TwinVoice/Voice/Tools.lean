import Mathlib.Data.Rat.Floor
import TwinVoice.Voice.Service

/-! # The tools that write

The five tools of `tools.py` whose tier needs a confirmation, with the request
schemas they build and the checks of the services behind them. The rows those
services insert, and the simulator's answers, are the `Services`. -/

namespace TwinVoice.Voice

open TwinVoice.Lib TwinVoice.Nlu

variable {W : Type}

/-- The keyword-only parameters of each tool with their defaults, if they have one. -/
def signature : String → List (String × Option Value)
  | "get_machine_status" => [("asset_id", none)]
  | "explain_prediction" => [("asset_id", none)]
  | "get_counterfactual" => [("asset_id", none)]
  | "run_what_if" => [("asset_id", none), ("parameter", some (.text "load")), ("value", some .null)]
  | "list_alarms" => [("asset_id", some .null), ("severity", some .null)]
  | "acknowledge_alarm" => [("alarm_id", none)]
  | "create_work_order" => [("asset_id", none), ("task", none), ("when", some .null),
      ("technician_id", some .null), ("est_duration_min", some (.number 120))]
  | "get_kpi" => [("kpi", none), ("scope", some (.text "plant")), ("scope_id", some .null),
      ("period", some (.text "day")), ("period_start", some .null), ("period_end", some .null)]
  | "generate_report" => [("type", none), ("scope", some (.text "plant")), ("scope_id", some .null),
      ("period_start", some .null), ("period_end", some .null), ("format", some (.text "pdf"))]
  | "set_simulation_scenario" => [("scenario", none), ("asset_id", none), ("severity", some (.number (1 / 2)))]
  | "navigate_dashboard" => [("view", some .null), ("asset_id", some .null), ("period", some .null)]
  | "give_feedback" => [("verdict", some (.text "disagree")), ("reason", some .null),
      ("explanation_id", some .null)]
  | _ => []

/-- The parameters that a tool has no default for. -/
def requiredArguments (tool : String) : List String :=
  ((signature tool).filter fun e => e.2 = none).map Prod.fst

/-- What a tool gets for one of its parameters. -/
def argument (tool : String) (params : Params) (name : String) : Option Value :=
  (params.get? name).or ((signature tool).lookup name).join

/-! ## Requests -/

structure WorkOrderCreate where
  assetId : Uuid
  type : String
  title : String
  description : String
  plannedStart : Option Instant
  plannedEnd : Option Instant
  technicianId : Option Uuid
  estDurationMin : Int
  createdVia : String

/-- The two ends are in order, where both are given. -/
def ordered (start stop : Option Instant) : Bool :=
  match start, stop with
  | some s, some t => s < t
  | _, _ => true

def WorkOrderCreate.valid (d : WorkOrderCreate) : Bool :=
  1 ≤ d.title.length ∧ d.title.length ≤ 200 ∧ d.description.length ≤ 4000 ∧
    1 ≤ d.estDurationMin ∧ d.estDurationMin ≤ 10080 ∧ ordered d.plannedStart d.plannedEnd

structure ReportCreate where
  type : String
  scope : Option String
  scopeId : Option Uuid
  periodStart : Option Instant
  periodEnd : Option Instant
  format : String

def reportTypes : List String := ["machine_health", "weekly_maintenance", "energy", "benchmark", "incident"]

def reportFormats : List String := ["pdf", "docx", "md", "html"]

def reportScopes : List String := ["plant", "line", "asset"]

/-- The reports that are about one machine. -/
def assetReports : List String := ["machine_health", "incident"]

def ReportCreate.valid (d : ReportCreate) : Bool :=
  d.type ∈ reportTypes ∧ d.scope.all (· ∈ reportScopes) ∧ d.format ∈ reportFormats ∧
    ordered d.periodStart d.periodEnd ∧ ¬(d.type ∈ assetReports ∧ d.scopeId = none)

structure FaultInjection where
  asset : String
  failureMode : String
  mode : String
  severity : Rat

def FaultInjection.valid (d : FaultInjection) : Bool := 0 ≤ d.severity ∧ d.severity ≤ 1

structure FeedbackCreate where
  verdict : String
  reason : Option String
  channel : String

def verdicts : List String := ["agree", "disagree", "unsure"]

def FeedbackCreate.valid (d : FeedbackCreate) : Bool :=
  d.verdict ∈ verdicts ∧ d.reason.all fun r => r.length ≤ 1000

/-! ## The services behind the tools -/

/-- What `SimulatorClient.request` got from the simulator. -/
inductive SimulatorReply
  | unreachable
  | status (code : Nat) (detail : String)

def SimulatorReply.answer : SimulatorReply → Except Problem Unit
  | .unreachable => .error (.serviceUnavailable "Simulator unreachable")
  | .status code detail =>
    if code = 404 then .error (.notFound detail)
    else if code = 422 then .error (.unprocessable detail)
    else if 400 ≤ code then .error (.badGateway s!"Simulator error {code}: {detail}")
    else .ok ()

/-- The id of an inserted row and its creation time. -/
structure Inserted (W : Type) where
  rest : W
  id : Uuid
  createdAt : Instant

/-- What the services find and write outside the registry. `now` is what they read as the time. -/
structure Services (W : Type) where
  now : Instant
  acknowledge : CurrentUser → Uuid → String → W → W
  addOrder : CurrentUser → WorkOrderCreate → W → Inserted W × Int
  firstPlant : W → Option Uuid
  addReport : CurrentUser → String → String → Uuid → Instant → Instant → String → W → Inserted W
  hasExplanation : W → Uuid → Bool
  addFeedback : CurrentUser → Uuid → FeedbackCreate → W → Inserted W
  simulator : Option (FaultInjection → SimulatorReply)
  noteFault : CurrentUser → Uuid → FaultInjection → W → W

/-- A tool's work up to the service call: it may end there. -/
abbrev Prepared (α : Type) := Except Ending α

def validated {α : Type} (valid : α → Bool) (data : α) : Prepared α :=
  if valid data then .ok data else .error (.died "ValidationError")

namespace Codec

/-- `_uuid`. -/
def ident (c : Codec) (v : Value) : Prepared Uuid := (c.uuid v).mapError .died

/-- An optional id, where a falsy value is no id. -/
def optionalIdent (c : Codec) : Option Value → Prepared (Option Uuid)
  | none => .ok none
  | some v => if v.truthy then (c.ident v).map some else .ok none

end Codec

def textArgument : Option Value → Prepared String
  | some (.text s) => .ok s
  | _ => .error (.died "TypeError")

def optionalText : Option Value → Prepared (Option String)
  | none | some .null => .ok none
  | some (.text s) => .ok (some s)
  | some _ => .error (.died "ValidationError")

/-- Stored instants are revived before the call, so a text is no instant any more. -/
def optionalInstant : Option Value → Prepared (Option Instant)
  | none | some .null => .ok none
  | some (.instant t) => .ok (some t)
  | some _ => .error (.died "ValidationError")

def numberArgument : Option Value → Prepared Rat
  | some (.number q) => .ok q
  | _ => .error (.died "ValidationError")

/-- `_asset`. -/
def assetArgument (c : Codec) (reg : Registry W) (value : Option Value) : Prepared Asset := do
  let id ← c.ident (value.getD .null)
  match (reg.assets.find? fun a => a.id = id).filter fun a => a.deletedAt = none with
  | some asset => return asset
  | none => .error (.refused (.notFound "That machine is not in the registry"))

/-- The tool stops without having written anything. -/
def stopped (reg : Registry W) (ending : Ending) : ToolResult W := ⟨reg, none, ending⟩

/-- The tool has committed what it wrote. -/
def wrote (reg : Registry W) (output : Params) : ToolResult W := ⟨reg, some reg, .done output⟩

def committed (reg : Registry W) : Prepared (Registry W × Params) → ToolResult W
  | .error ending => stopped reg ending
  | .ok (written, output) => wrote written output

/-! ## The tools -/

def acknowledgeAlarmData (c : Codec) (params : Params) : Prepared Uuid :=
  c.ident ((argument "acknowledge_alarm" params "alarm_id").getD .null)

def acknowledgeAlarm (c : Codec) (svc : Services W) : Tool W := fun ctx params reg => committed reg do
  let id ← acknowledgeAlarmData c params
  match reg.alarms.find? fun a => a.id = id with
  | none => .error (.refused (.notFound s!"Alarm {c.uuidText id} not found"))
  | some alarm =>
    if alarm.status ≠ "active" then
      .error (.refused (.unprocessable "Can only acknowledge active alarms"))
    else
      let alarms := reg.alarms.map fun a => if a.id = id then { a with status := "acknowledged" } else a
      let asset := reg.assets.find? fun a => a.id = alarm.assetId
      return ({ reg with alarms := alarms, rest := svc.acknowledge ctx.actor id "Acknowledged by voice" reg.rest },
        [("asset", .text ((asset.map Asset.name).getD "the asset")),
          ("asset_code", (asset.map fun a => Value.text a.code).getD .null),
          ("alarm_id", .text (c.uuidText id)), ("status", .text "acknowledged"), ("at", .instant svc.now)])

/-- The description of an order that was spoken. -/
def raisedByVoice (task : String) : String := "Raised by voice: “" ++ task ++ "”"

def createWorkOrderData (c : Codec) (params : Params) (assetId : Uuid) : Prepared WorkOrderCreate := do
  let get := argument "create_work_order" params
  let task ← textArgument (get "task")
  let start ← optionalInstant (get "when")
  let technician ← c.optionalIdent (get "technician_id")
  let duration ← numberArgument (get "est_duration_min")
  validated WorkOrderCreate.valid ⟨assetId, "corrective", String.ofList (task.toList.take 200), raisedByVoice task,
    start, start.map fun t => t + minutes duration.floor, technician, duration.floor, "voice"⟩

def createWorkOrder (c : Codec) (svc : Services W) : Tool W := fun ctx params reg => committed reg do
  let asset ← assetArgument c reg (argument "create_work_order" params "asset_id")
  let data ← createWorkOrderData c params asset.id
  let (order, number) := svc.addOrder ctx.actor data reg.rest
  return ({ reg with rest := order.rest },
    [("asset", .text asset.name), ("asset_code", .text asset.code), ("number", .number number),
      ("work_order_id", .text (c.uuidText order.id)), ("status", .text "open"),
      ("planned_start", (data.plannedStart.map Value.instant).getD .null), ("at", .instant order.createdAt)])

def generateReportData (c : Codec) (params : Params) : Prepared ReportCreate := do
  let get := argument "generate_report" params
  let scopeId ← c.optionalIdent (get "scope_id")
  let type ← textArgument (get "type")
  let scope ← optionalText (get "scope")
  let start ← optionalInstant (get "period_start")
  let stop ← optionalInstant (get "period_end")
  let format ← textArgument (get "format")
  validated ReportCreate.valid ⟨type, scope, scopeId, start, stop, format⟩

/-- `DEFAULT_WINDOWS`. -/
def defaultWindow (type : String) : Duration :=
  if type = "benchmark" then 30 * dayLength else if type = "incident" then 2 * dayLength else 7 * dayLength
where dayLength : Duration := minutes (24 * 60)

/-- `resolve_scope`: an unscoped request means the one plant. -/
def resolveScope (svc : Services W) (rest : W) (scope : Option String) (scopeId : Option Uuid) :
    Prepared (String × Uuid) :=
  match scopeId with
  | some id => .ok (scope.getD "asset", id)
  | none =>
    match svc.firstPlant rest with
    | none => .error (.refused (.unprocessable "No plant is configured yet"))
    | some plant => .ok ("plant", plant)

def generateReport (c : Codec) (svc : Services W) : Tool W := fun ctx params reg => committed reg do
  let data ← generateReportData c params
  let (scope, scopeId) ← resolveScope svc reg.rest data.scope data.scopeId
  let stop := data.periodEnd.getD svc.now
  let start := data.periodStart.getD (stop - defaultWindow data.type)
  if stop ≤ start then .error (.refused (.unprocessable "period_end must be after period_start"))
  else
    let report := svc.addReport ctx.actor data.type scope scopeId start stop data.format reg.rest
    return ({ reg with rest := report.rest },
      [("type", .text data.type), ("report_id", .text (c.uuidText report.id)), ("status", .text "queued"),
        ("format", .text data.format), ("at", .instant report.createdAt)])

def giveFeedbackData (params : Params) : Prepared FeedbackCreate := do
  let get := argument "give_feedback" params
  let verdict ← textArgument (get "verdict")
  let reason ← optionalText (get "reason")
  validated FeedbackCreate.valid ⟨verdict, reason, "voice"⟩

def giveFeedback (c : Codec) (svc : Services W) : Tool W := fun ctx params reg => committed reg do
  match argument "give_feedback" params "explanation_id" with
  | none | some .null => .error (.refused (.unprocessable
      "Ask me about a machine first, then tell me what the explanation got wrong"))
  | some v => do
    let id ← c.ident v
    let data ← giveFeedbackData params
    if !svc.hasExplanation reg.rest id then
      .error (.refused (.notFound s!"Explanation {c.uuidText id} not found"))
    else
      let feedback := svc.addFeedback ctx.actor id data reg.rest
      return ({ reg with rest := feedback.rest },
        [("verdict", .text data.verdict), ("explanation_id", .text (c.uuidText id)),
          ("at", .instant feedback.createdAt)])

def setSimulationScenarioData (params : Params) (code : String) : Prepared FaultInjection := do
  let get := argument "set_simulation_scenario" params
  let scenario ← textArgument (get "scenario")
  let severity ← numberArgument (get "severity")
  validated FaultInjection.valid
    ⟨code, String.ofList (scenario.toList.map fun ch => if ch = ' ' then '_' else ch), "gradual", severity⟩

def setSimulationScenario (c : Codec) (svc : Services W) : Tool W := fun ctx params reg => committed reg do
  match svc.simulator with
  | none => .error (.refused (.unprocessable "The simulator is not reachable from here"))
  | some simulator => do
    let asset ← assetArgument c reg (argument "set_simulation_scenario" params "asset_id")
    let data ← setSimulationScenarioData params asset.code
    (simulator data).answer.mapError .refused
    return ({ reg with rest := svc.noteFault ctx.actor asset.id data reg.rest },
      [("scenario", (argument "set_simulation_scenario" params "scenario").getD .null),
        ("asset", .text asset.name), ("asset_code", .text asset.code), ("at", .instant ctx.now)])

/-- `TOOLS`: the tools that need a confirmation, over the others. -/
def toolTable (c : Codec) (svc : Services W) (others : String → Option (Tool W)) : String → Option (Tool W)
  | "acknowledge_alarm" => some (acknowledgeAlarm c svc)
  | "create_work_order" => some (createWorkOrder c svc)
  | "generate_report" => some (generateReport c svc)
  | "give_feedback" => some (giveFeedback c svc)
  | "set_simulation_scenario" => some (setSimulationScenario c svc)
  | name => others name

end TwinVoice.Voice
