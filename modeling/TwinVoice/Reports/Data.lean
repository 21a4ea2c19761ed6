import TwinVoice.Maintenance.Model
import TwinVoice.Reports.Summary

/-! # The data of each type of report

The dict that each builder returns, as a record whose numbers are of any kind,
and as what the summary is audited against. -/

namespace TwinVoice.Reports

open TwinVoice.Lib TwinVoice.Maintenance TwinVoice.Xai

/-- The plate of a machine. -/
structure AssetFigures where
  code : String
  name : String
  type : String
  status : String

/-- What a report lists of an alarm. -/
structure AlarmRow where
  raisedAt : Instant
  severity : String
  title : String
  status : String

/-- `_order_row`. -/
structure OrderRow where
  number : Nat
  asset : String
  title : String
  type : WorkOrderType
  priority : Nat
  status : WorkOrderStatus
  plannedStart : Option Instant
  technician : Option String
  predictionWasCorrect : Option Bool

structure MachineHealth (K : Type) where
  asset : AssetFigures
  healthPct : Option K
  rul : Option K
  rulLow : Option K
  rulHigh : Option K
  rulUnit : String
  confidence : Option String
  oeePct : K
  availabilityPct : K
  performancePct : K
  qualityPct : K
  alarmCount : Nat
  openWorkOrders : Nat
  healthSeries : List (Instant × Option K)
  rulSeries : List (Instant × K)
  alarms : List AlarmRow
  workOrders : List OrderRow

structure WeeklyMaintenance (K : Type) where
  scopeName : String
  raised : Nat
  closed : Nat
  byStatus : Dict WorkOrderStatus Nat
  byType : Dict WorkOrderType Nat
  predictionsScored : Nat
  predictionsCorrect : Nat
  predictionAccuracyPct : Option K
  mtbfH : K
  mttrH : K
  breakdowns : Nat
  orders : List OrderRow

structure Consumer (K : Type) where
  assetCode : String
  assetName : String
  energyKwh : K

/-- An hour of the intensity trend. -/
structure IntensityPoint (K : Type) where
  time : Instant
  units : K
  energyKwh : K
  intensity : Option K
  expectedKwh : Option K

/-- An energy anomaly, as the service lists it. -/
structure AnomalyRow (K : Type) where
  time : Instant
  scopeId : Uuid
  energyKwh : K
  expectedKwh : K
  units : K
  sigma : K
  healthIndex : Option K

structure EnergyUse (K : Type) where
  scopeName : String
  energyKwh : K
  cost : K
  currency : String
  co2Kg : K
  peakDemandKw : K
  idleEnergyKwh : K
  idleEnergySharePct : K
  energyPerUnit : Option K
  topConsumers : List (Consumer K)
  intensityTrend : List (IntensityPoint K)
  anomalyCount : Nat
  anomalies : List (AnomalyRow K)

structure BenchmarkRunRow where
  startedAt : Instant
  gitSha : Option String
  seed : Int
  datasets : List String
  results : Data

structure ModelRow where
  name : String
  version : String
  task : String
  algorithm : String
  trainedAt : Instant

structure BenchmarkFigures where
  run : Option BenchmarkRunRow
  productionModels : List ModelRow

inductive TimelineRow
  | prediction (time : Instant) (detail : String) (topDriver recommended : Option String)
  | alarm (time : Instant) (detail : String)
  | workOrder (time : Instant) (detail : String) (outcome : Option String)

structure Incident where
  code : String
  name : String
  failureAt : Instant
  windowHours : Nat
  predictionCount : Nat
  alarmCount : Nat
  workOrderCount : Nat
  recommendedActions : List String
  actionsTaken : List String
  timeline : List TimelineRow

/-! ## As dicts -/

namespace Data

def nat (n : Nat) : Data := .int n

def orNull {α : Type} (f : α → Data) (a : Option α) : Data := (a.map f).getD .null

end Data

open Data

def typeName : WorkOrderType → String
  | .corrective => "corrective"
  | .preventive => "preventive"
  | .predictive => "predictive"

section
variable (iso : Instant → String)

def AlarmRow.data (a : AlarmRow) : Data :=
  .dict [("at", .text (iso a.raisedAt)), ("severity", .text a.severity), ("title", .text a.title),
    ("status", .text a.status)]

def OrderRow.data (o : OrderRow) : Data :=
  .dict [("number", nat o.number), ("asset", .text o.asset), ("title", .text o.title),
    ("type", .text (typeName o.type)), ("priority", nat o.priority), ("status", .text o.status.name),
    ("planned_start", orNull (fun t => .text (iso t)) o.plannedStart), ("technician", orNull .text o.technician),
    ("prediction_was_correct", orNull .bool o.predictionWasCorrect)]

def MachineHealth.data (d : MachineHealth Double) : Data :=
  .dict [
    ("asset", .dict [("code", .text d.asset.code), ("name", .text d.asset.name), ("type", .text d.asset.type),
      ("status", .text d.asset.status)]),
    ("health_pct", orNull .float d.healthPct), ("rul", orNull .float d.rul), ("rul_low", orNull .float d.rulLow),
    ("rul_high", orNull .float d.rulHigh), ("rul_unit", .text d.rulUnit), ("confidence", orNull .text d.confidence),
    ("oee_pct", .float d.oeePct), ("availability_pct", .float d.availabilityPct),
    ("performance_pct", .float d.performancePct), ("quality_pct", .float d.qualityPct),
    ("alarm_count", nat d.alarmCount), ("open_work_orders", nat d.openWorkOrders),
    ("health_series", .list (d.healthSeries.map fun p =>
      .dict [("t", .text (iso p.1)), ("health", orNull .float p.2)])),
    ("rul_series", .list (d.rulSeries.map fun p => .dict [("t", .text (iso p.1)), ("rul", .float p.2)])),
    ("alarms", .list (d.alarms.map (AlarmRow.data iso))), ("work_orders", .list (d.workOrders.map (OrderRow.data iso)))]

def WeeklyMaintenance.data (d : WeeklyMaintenance Double) : Data :=
  .dict [
    ("scope_name", .text d.scopeName), ("raised", nat d.raised), ("closed", nat d.closed),
    ("by_status", .dict (d.byStatus.map fun e => (e.1.name, nat e.2))),
    ("by_type", .dict (d.byType.map fun e => (typeName e.1, nat e.2))),
    ("predictions_scored", nat d.predictionsScored), ("predictions_correct", nat d.predictionsCorrect),
    ("prediction_accuracy_pct", orNull .float d.predictionAccuracyPct), ("mtbf_h", .float d.mtbfH),
    ("mttr_h", .float d.mttrH), ("breakdowns", nat d.breakdowns), ("orders", .list (d.orders.map (OrderRow.data iso)))]

/-- Instants and ids stand in this dict as they are, and the audit looks into neither. -/
def EnergyUse.data (d : EnergyUse Double) : Data :=
  .dict [
    ("scope_name", .text d.scopeName), ("energy_kwh", .float d.energyKwh), ("cost", .float d.cost),
    ("currency", .text d.currency), ("co2_kg", .float d.co2Kg), ("peak_demand_kw", .float d.peakDemandKw),
    ("idle_energy_kwh", .float d.idleEnergyKwh), ("idle_energy_share_pct", .float d.idleEnergySharePct),
    ("energy_per_unit", orNull .float d.energyPerUnit),
    ("top_consumers", .list (d.topConsumers.map fun c =>
      .dict [("asset_code", .text c.assetCode), ("asset_name", .text c.assetName),
        ("energy_kwh", .float c.energyKwh)])),
    ("intensity_trend", .list (d.intensityTrend.map fun p =>
      .dict [("time", .object), ("units", .float p.units), ("energy_kwh", .float p.energyKwh),
        ("intensity", orNull .float p.intensity), ("expected_kwh", orNull .float p.expectedKwh)])),
    ("anomaly_count", nat d.anomalyCount),
    ("anomalies", .list (d.anomalies.map fun a =>
      .dict [("time", .object), ("scope_id", .object), ("energy_kwh", .float a.energyKwh),
        ("expected_kwh", .float a.expectedKwh), ("units", .float a.units), ("sigma", .float a.sigma),
        ("health_index", orNull .float a.healthIndex)]))]

def BenchmarkRunRow.data (r : BenchmarkRunRow) : Data :=
  .dict [("started_at", .text (iso r.startedAt)), ("git_sha", orNull .text r.gitSha), ("seed", .int r.seed),
    ("datasets", .list (r.datasets.map .text)), ("results", r.results)]

def BenchmarkFigures.data (d : BenchmarkFigures) : Data :=
  .dict [
    ("run", orNull (BenchmarkRunRow.data iso) d.run),
    ("production_models", .list (d.productionModels.map fun m =>
      .dict [("name", .text m.name), ("version", .text m.version), ("task", .text m.task),
        ("algorithm", .text m.algorithm), ("trained_at", .text (iso m.trainedAt))])),
    ("model_count", nat d.productionModels.length)]

def TimelineRow.data : TimelineRow → Data
  | .prediction t detail topDriver recommended =>
    .dict [("at", .text (iso t)), ("kind", .text "prediction"), ("detail", .text detail),
      ("top_driver", orNull .text topDriver), ("recommended", orNull .text recommended)]
  | .alarm t detail => .dict [("at", .text (iso t)), ("kind", .text "alarm"), ("detail", .text detail)]
  | .workOrder t detail outcome =>
    .dict [("at", .text (iso t)), ("kind", .text "work_order"), ("detail", .text detail),
      ("outcome", orNull .text outcome)]

def Incident.data (d : Incident) : Data :=
  .dict [
    ("asset", .dict [("code", .text d.code), ("name", .text d.name)]), ("failure_at", .text (iso d.failureAt)),
    ("window_hours", nat d.windowHours), ("prediction_count", nat d.predictionCount), ("alarm_count", nat d.alarmCount),
    ("work_order_count", nat d.workOrderCount), ("recommended_actions", .list (d.recommendedActions.map .text)),
    ("actions_taken", .list (d.actionsTaken.map .text)), ("timeline", .list (d.timeline.map (TimelineRow.data iso)))]

end

/-- What a builder returns. -/
inductive Figures
  | machineHealth (d : MachineHealth Double)
  | weeklyMaintenance (d : WeeklyMaintenance Double)
  | energy (d : EnergyUse Double)
  | benchmark (d : BenchmarkFigures)
  | incident (d : Incident)

namespace Figures

def type : Figures → ReportType
  | machineHealth _ => .machineHealth
  | weeklyMaintenance _ => .weeklyMaintenance
  | energy _ => .energy
  | benchmark _ => .benchmark
  | incident _ => .incident

def data (iso : Instant → String) : Figures → Data
  | machineHealth d => d.data iso
  | weeklyMaintenance d => d.data iso
  | energy d => d.data
  | benchmark d => d.data iso
  | incident d => d.data iso

end Figures

end TwinVoice.Reports
