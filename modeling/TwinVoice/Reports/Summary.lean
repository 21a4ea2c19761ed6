import TwinVoice.Reports.Schedules
import TwinVoice.Xai.Audit

/-! # The executive summary of a report

A text is audited against the data of the report: the numbers in it have to be
figures of the data, or counting words, and it has at most 150 words. The
template of the report's type is the summary unless a paraphrase passes. -/

namespace TwinVoice.Reports

open TwinVoice.Lib TwinVoice.Xai

/-- What the data of a report is made of. -/
inductive Data
  | null
  | bool (b : Bool)
  | int (n : Int)
  | float (y : Double)
  | text (s : String)
  | list (items : List Data)
  | dict (entries : List (String × Data))
  /-- An instant or an id. -/
  | object

/-- `WORD_LIMIT`. -/
def wordLimit : Nat := 150

/-- `TOLERANCE`. -/
def tolerance : Double := Floating.ofRat _ (1 / 200)

/-- `_ALLOWED_ALWAYS`, the small counting words of ordinary prose. -/
def allowedAlways : List Double := [0, 1, 2, 3, 4, 5, 6, 7, 10, 12, 24].map (Floating.ofRat _)

structure SummaryAudit where
  passed : Bool
  usedLlm : Bool
  wordCount : Nat
  unsupportedNumbers : List Double
  reason : Option String
  deriving DecidableEq

/-- `float(n)`. -/
def floatOf (n : Int) : Except Failure Double :=
  let y := Floating.ofInt binary64 n
  if y.isInfinite then .error (.crash "OverflowError") else .ok y

section
variable (x : Texts)

/-- `numbers_in`, which is the same function in both audits. -/
def numbersIn (text : String) : List Double := x.numbersIn text

mutual

/-- `supported_numbers`: every number anywhere in the data. -/
def supportedNumbers : Data → Except Failure (List Double)
  | .null => .ok []
  | .bool _ => .ok []
  | .int n => (floatOf n).map fun y => [y]
  | .float y => .ok [y]
  | .text s => .ok (numbersIn x s)
  | .list items => supportedItems items
  | .dict entries => supportedEntries entries
  | .object => .ok []

def supportedItems : List Data → Except Failure (List Double)
  | [] => .ok []
  | item :: items => do
    let found ← supportedNumbers item
    let more ← supportedItems items
    return found ++ more

def supportedEntries : List (String × Data) → Except Failure (List Double)
  | [] => .ok []
  | (key, value) :: entries => do
    let found ← supportedNumbers value
    let more ← supportedEntries entries
    return numbersIn x key ++ found ++ more

end

/-- `max(abs(ok), 1.0)`. -/
def atLeastOne (y : Double) : Double := if y.lt (Floating.ofRat _ 1) then Floating.ofRat _ 1 else y

/-- One figure of the data, which may be rounded. -/
def closeTo (value ok : Double) : Bool := (value.sub ok).abs.le (tolerance.mul (atLeastOne ok.abs))

/-- A figure from the data may be rounded; a prose counting word must match exactly. -/
def isSupported (value : Double) (supported : List Double) : Bool :=
  if allowedAlways.any value.eq then true else supported.any (closeTo value)

def audit (text : String) (data : Data) (usedLlm : Bool) : Except Failure SummaryAudit := do
  let supported ← supportedNumbers x data
  let unsupported := (numbersIn x text).filter fun value => !isSupported value supported
  let words := (fields text).length
  let reason :=
    if unsupported ≠ [] then some "numbers not present in the report data"
    else if wordLimit < words then
      some ("summary is " ++ toString words ++ " words, limit is " ++ toString wordLimit)
    else none
  return {
    passed := reason.isNone
    usedLlm := usedLlm
    wordCount := words
    unsupportedNumbers := unsupported.dedup.insertionSort fun a b => a.le b = true
    reason := reason }

end

/-! ## Template summaries -/

/-- `data.get(key, default)`, of a dict with string keys. -/
def Data.get (data : Data) (key : String) (absent : Data) : Except Failure Data :=
  match data with
  | .dict entries => .ok ((entries.lookup key).getD absent)
  | _ => .error (.crash "AttributeError")

/-- Python's truth value. -/
def Data.truthy : Data → Bool
  | .null => false
  | .bool b => b
  | .int n => n ≠ 0
  | .float y => !y.eq (Floating.ofRat _ 0)
  | .text s => s ≠ ""
  | .list items => !items.isEmpty
  | .dict entries => !entries.isEmpty
  | .object => true

/-- `f"{number:.1f}".rstrip("0").rstrip(".")`. -/
def tenths (y : Double) : String :=
  String.ofList ((y.number.tenthsText.toList.rdropWhile (· = '0')).rdropWhile (· = '.'))

/-- The strings that a list is made of, that a dict has for keys, or that the characters of a text are. -/
def Data.strings : Data → Except Failure (List String)
  | .list items => items.mapM fun item =>
    match item with
    | .text s => .ok s
    | _ => .error (.crash "TypeError")
  | .dict entries => .ok (entries.map Prod.fst)
  | .text s => .ok (s.toList.map String.singleton)
  | _ => .error (.crash "TypeError")

/-- `sep.join(items)`. -/
def join (sep : String) (items : Data) : Except Failure String := items.strings.map (String.intercalate sep)

section
variable (x : Texts) (repr : Data → String)

/-- `str(value)`, which is `repr` for what is no text and has no text of its own here. -/
def display : Data → String
  | .null => "None"
  | .bool true => "True"
  | .bool false => "False"
  | .int n => toString n
  | .text s => s
  | value => repr value

/-- `_fmt`. -/
def fmt : Data → Except Failure String
  | .null => .ok "an unknown"
  | .bool b => .ok (tenths (Floating.ofRat _ (if b then 1 else 0)))
  | .int n => (floatOf n).map tenths
  | .float y => .ok (tenths y)
  | .text s => .ok (((x.float? s).map tenths).getD s)
  | value => .ok (repr value)

/-- `_fmt(data.get(key))`. -/
def figure (data : Data) (key : String) : Except Failure String := do
  fmt x repr (← data.get key .null)

/-- `f"{data.get(key, default)}"`. -/
def shown (data : Data) (key : String) (absent : Data) : Except Failure String := do
  return display repr (← data.get key absent)

def machineHealthSummary (data : Data) : Except Failure String := do
  let asset ← data.get "asset" (.dict [])
  return (← shown repr asset "name" (.text "The machine")) ++ " (" ++ (← shown repr asset "code" (.text "")) ++
    ") is at " ++ (← figure x repr data "health_pct") ++ " percent health with " ++ (← figure x repr data "rul") ++
    " " ++ (← shown repr data "rul_unit" (.text "cycles")) ++ " of remaining life. OEE over the period was " ++
    (← figure x repr data "oee_pct") ++ " percent. " ++ (← shown repr data "alarm_count" (.int 0)) ++
    " alarms were raised and " ++ (← shown repr data "open_work_orders" (.int 0)) ++ " work orders are still open."

def weeklyMaintenanceSummary (data : Data) : Except Failure String := do
  let accuracy ← data.get "prediction_accuracy_pct" .null
  let accuracyText ←
    match accuracy with
    | .null => pure "No closed order was scored against its prediction this period."
    | accuracy =>
      pure ("Prediction accuracy on " ++ (← shown repr data "predictions_scored" (.int 0)) ++
        " scored orders was " ++ (← fmt x repr accuracy) ++ " percent.")
  return (← shown repr data "raised" (.int 0)) ++ " work orders were raised on " ++
    (← shown repr data "scope_name" (.text "the plant")) ++ " and " ++ (← shown repr data "closed" (.int 0)) ++
    " were closed. MTBF was " ++ (← figure x repr data "mtbf_h") ++ " hours and MTTR " ++
    (← figure x repr data "mttr_h") ++ " hours across " ++ (← shown repr data "breakdowns" (.int 0)) ++
    " breakdowns. " ++ accuracyText

def energySummary (data : Data) : Except Failure String := do
  return (← shown repr data "scope_name" (.text "The plant")) ++ " consumed " ++
    (← figure x repr data "energy_kwh") ++ " kWh, costing " ++ (← figure x repr data "cost") ++ " " ++
    (← shown repr data "currency" (.text "")) ++ " and emitting " ++ (← figure x repr data "co2_kg") ++
    " kg of CO2. Peak demand reached " ++ (← figure x repr data "peak_demand_kw") ++
    " kW and idle consumption was " ++ (← figure x repr data "idle_energy_share_pct") ++
    " percent of the total. " ++ (← shown repr data "anomaly_count" (.int 0)) ++
    " consumption anomalies were detected."

def benchmarkSummary (data : Data) : Except Failure String := do
  let run ← data.get "run" .null
  if run.truthy then
    return "The most recent benchmark ran on " ++ (← join ", " (← run.get "datasets" (.list []))) ++
      " with seed " ++ (← shown repr run "seed" .null) ++ ". " ++ (← shown repr data "model_count" (.int 0)) ++
      " models are in production."
  else return "No completed benchmark run is on record yet."

def incidentSummary (data : Data) : Except Failure String := do
  let asset ← data.get "asset" (.dict [])
  let recommended ← data.get "recommended_actions" .null
  let action ←
    if recommended.truthy then pure ("The recommended action was: " ++ (← join "; " recommended) ++ ".")
    else pure "No action had been recommended before the failure."
  return (← shown repr asset "name" (.text "The machine")) ++ " failed at " ++
    (← shown repr data "failure_at" (.text "")) ++ ". In the " ++ (← shown repr data "window_hours" (.int 48)) ++
    " hours either side there were " ++ (← shown repr data "prediction_count" (.int 0)) ++ " predictions, " ++
    (← shown repr data "alarm_count" (.int 0)) ++ " alarms and " ++
    (← shown repr data "work_order_count" (.int 0)) ++ " work orders. " ++ action

/-- `template_summary`, of a type that there is. -/
def templateSummary : ReportType → Data → Except Failure String
  | .machineHealth => machineHealthSummary x repr
  | .weeklyMaintenance => weeklyMaintenanceSummary x repr
  | .energy => energySummary x repr
  | .benchmark => benchmarkSummary repr
  | .incident => incidentSummary repr

/-- `compose`: the template is the floor; `candidate` is the paraphrase, if there is one. -/
def compose (type : ReportType) (data : Data) (candidate : Option String) :
    Except Failure (String × SummaryAudit) := do
  let template ← templateSummary x repr type data
  match candidate with
  | none => return (template, ← audit x template data false)
  | some candidate =>
    let result ← audit x candidate data true
    return (if result.passed then candidate else template, result)

end

end TwinVoice.Reports
