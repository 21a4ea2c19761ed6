import TwinVoice.Analytics.EnergyAnomalies
import TwinVoice.Analytics.Kpis
import TwinVoice.Lib.Additions
import TwinVoice.Reports.Data
import TwinVoice.Telemetry.Alarms

/-! # The builders of the reports on a period

The data of a machine's health, of a week's maintenance and of energy, from
the tables as they are when the report is built. Each query has bounds of its
own. Doubles are rationals, and the root that the spread of the residuals
takes is given. -/

namespace TwinVoice.Reports

open TwinVoice.Lib TwinVoice.Lib.Grouping TwinVoice.Maintenance TwinVoice.Telemetry TwinVoice.Analytics

/-! ## The tables -/

/-- A row of `plants`. -/
structure Plant where
  id : Uuid
  name : String
  gridEmissionFactorKgPerKwh : Rat
  currency : String
  deletedAt : Option Instant

/-- A row of `lines`. -/
structure Line where
  id : Uuid
  plantId : Uuid
  name : String
  deletedAt : Option Instant

/-- A row of `assets`. -/
structure Asset where
  id : Uuid
  lineId : Uuid
  code : String
  name : String
  assetType : String
  status : String
  idealCycleTimeS : Option Rat
  deletedAt : Option Instant

/-- A row of `technicians`. -/
structure Technician where
  id : Uuid
  name : String

/-- A row of `energy_baselines`. -/
structure BaselineRow where
  id : Uuid
  scope : Scope
  scopeId : Uuid
  createdAt : Instant
  line : EnergyBaseline Rat

/-- A row of `predictions`. -/
structure Prediction where
  id : Uuid
  time : Instant
  assetId : Uuid
  healthIndex : Option Rat
  rulPoint : Option Rat
  rulLow : Option Rat
  rulHigh : Option Rat
  rulUnit : Option String
  confidenceLabel : Option String

/-- A row of `production_counts`. -/
structure ProductionRow where
  time : Instant
  assetId : Uuid
  goodCount : Nat
  rejectCount : Nat

instance : Keyed Plant Uuid := ⟨Plant.id⟩
instance : Keyed Line Uuid := ⟨Line.id⟩
instance : Keyed Asset Uuid := ⟨Asset.id⟩
instance : Keyed Technician Uuid := ⟨Technician.id⟩
instance : Keyed BaselineRow Uuid := ⟨BaselineRow.id⟩
instance : Keyed Prediction (Instant × Uuid) := ⟨fun p => (p.time, p.id)⟩
instance : Keyed ProductionRow (Instant × Uuid) := ⟨fun p => (p.time, p.assetId)⟩
instance : Keyed EnergyReading (Instant × Uuid) := ⟨fun e => (e.time, e.assetId)⟩

structure Database where
  plants : Table Plant
  lines : Table Line
  assets : Table Asset
  technicians : Table Technician
  baselines : Table BaselineRow
  orders : Table WorkOrder
  /-- `work_orders_number_uq`. -/
  numbers : (orders.rows.map WorkOrder.number).Nodup
  alarms : Table Alarm
  predictions : Table Prediction
  events : Table StateEvent
  production : Table ProductionRow
  readings : Table EnergyReading

/-- The period of a report; `ReportService.request` has checked that it is one. -/
structure Period where
  start : Instant
  stop : Instant
  ordered : start < stop

/-! ## What the KPIs are computed from -/

/-- A row that `repairs` may sum: closed, not deleted, with its actual times. -/
def repair? (o : WorkOrder) : Option Repair :=
  match o.actualStart, o.actualEnd with
  | some start, some stop => if o.status = .closed ∧ o.deletedAt = none then some ⟨start, stop, o.updatedAt⟩ else none
  | _, _ => none

/-- The value of a result by its code. -/
def valueOf (results : List KpiResult) (code : String) : Rat :=
  ((results.find? fun k => k.code = code).map KpiResult.value).getD 0

/-- `int(results[code].inputs.get(key, 0))`. -/
def countIn (results : List KpiResult) (code key : String) : Nat :=
  match (results.find? fun k => k.code = code).bind fun k => k.inputs.get? key with
  | some (.number q) => ⌊q⌋.toNat
  | _ => 0

structure EnergySummary where
  energyKwh : Rat
  cost : Rat
  co2Kg : Rat
  peakDemandKw : Rat
  idleEnergyKwh : Rat
  energyPerUnit : Option Rat
  idleEnergyShare : Rat
  currency : String
  breakdown : List (Consumer Rat)

def summarise (energyKwh idleEnergyKwh peakDemandKw cost : Rat) (goodCount : Nat) (gridEmissionFactor : Rat)
    (currency : String) (breakdown : List (Consumer Rat)) : EnergySummary where
  energyKwh := roundTo 3 energyKwh
  cost := roundTo 2 cost
  co2Kg := roundTo 3 (energyKwh * gridEmissionFactor)
  peakDemandKw := roundTo 3 peakDemandKw
  idleEnergyKwh := roundTo 3 idleEnergyKwh
  energyPerUnit := if 0 < goodCount then some (roundTo 4 (energyKwh / goodCount)) else none
  idleEnergyShare := if 0 < energyKwh then roundTo 3 (100 * idleEnergyKwh / energyKwh) else 0
  currency := currency
  breakdown := breakdown

/-- `time_bucket('1 hour', time)`. -/
def hourOf (t : Instant) : Instant := t / 3600000000 * 3600000000

/-- `hourly_energy_and_output`. -/
def hourly (h : Analytics.History) (p : Period) : List (Observation Rat) :=
  ((groups (fun e => hourOf e.time) (h.metered p.start p.stop)).insertionSort fun g g' => g.1 ≤ g'.1).map fun g =>
    { time := g.1
      units := ((((h.produced p.start p.stop).filter fun c => hourOf c.time = g.1).map fun c =>
        c.good + c.reject).sum : Nat)
      energyKwh := (g.2.map EnergyReading.energyKwh).sum }

/-- `_count`, of the values of an attribute. -/
def count {κ : Type} [DecidableEq κ] (keys : List κ) : Dict κ Nat :=
  keys.foldl (fun d k => d.set k ((d.get? k).getD 0 + 1)) []

def alarmStatus : AlarmStatus → String
  | .active => "active"
  | .acknowledged => "acknowledged"
  | .shelved => "shelved"
  | .cleared => "cleared"

def Alarm.row (a : Alarm) : AlarmRow := ⟨a.raisedAt, a.severity, a.title, alarmStatus a.status⟩

/-- The statuses that count as open. -/
def openStatuses : List WorkOrderStatus := [.«open», .scheduled, .inProgress]

namespace Database
variable (db : Database)

/-- `scope_name`. -/
def scopeName (scope : Scope) (scopeId : Uuid) : String :=
  let name := match scope with
    | .line => (db.lines.find scopeId).map Line.name
    | _ => (db.assets.find scopeId).map Asset.name
  name.getD "the plant"

/-- `_asset_ids`. -/
def reportAssetIds (scope : Scope) (scopeId : Uuid) : List Uuid :=
  match scope with
  | .asset => [scopeId]
  | .line => (db.assets.select fun a => a.deletedAt = none ∧ a.lineId = scopeId).map Asset.id
  | .plant =>
    (db.assets.select fun a =>
      a.deletedAt = none ∧ (db.lines.find a.lineId).any fun l => l.plantId = scopeId).map Asset.id

/-- `AnalyticsQueryRepository.asset_ids`. -/
def assetIds (scope : Scope) (scopeId : Uuid) : List Uuid :=
  match scope with
  | .asset => [scopeId]
  | .line => (db.assets.select fun a => a.lineId = scopeId ∧ a.deletedAt = none).map Asset.id
  | .plant =>
    (db.assets.select fun a => a.deletedAt = none ∧ (db.lines.find a.lineId).any fun l =>
      l.plantId = scopeId ∧ l.deletedAt = none).map Asset.id

/-- `ideal_cycle_time`. -/
def idealCycleTime (ids : List Uuid) : Option Rat :=
  let times := (db.assets.select fun a => a.id ∈ ids).filterMap Asset.idealCycleTimeS
  if times = [] then none else some (times.sum / times.length)

/-- `plant_factors`. -/
def plantFactors (scope : Scope) (scopeId : Uuid) : Rat × String :=
  let plant := match scope with
    | .plant => db.plants.find scopeId
    | .line => (db.lines.find scopeId).bind fun l => db.plants.find l.plantId
    | .asset => (db.assets.find scopeId).bind fun a => (db.lines.find a.lineId).bind fun l => db.plants.find l.plantId
  (plant.map fun p => (p.gridEmissionFactorKgPerKwh, p.currency)).getD (179 / 250, "INR")

/-- What is on record of some assets. -/
def history (ids : List Uuid) : Analytics.History where
  events := (db.events.select fun e => e.assetId ∈ ids).insertionSort fun e e' => e.time ≤ e'.time
  ordered := List.pairwise_insertionSort _ _
  production := (db.production.select fun c => c.assetId ∈ ids).map fun c => ⟨c.time, c.goodCount, c.rejectCount⟩
  energy := db.readings.select fun e => e.assetId ∈ ids
  repairs := (db.orders.select fun o => o.assetId ∈ ids).filterMap repair?

/-- `_compute_production`. -/
def computeProduction (scope : Scope) (scopeId : Uuid) (p : Period) : List KpiResult :=
  let ids := db.assetIds scope scopeId
  let h := db.history ids
  computeAll (h.durations p.start p.stop) (h.goodCount p.start p.stop) (h.rejectCount p.start p.stop)
    (db.idealCycleTime ids) (h.breakdowns p.start p.stop).length (h.repairTimeS p.start p.stop)
    (h.repaired p.start p.stop).length

/-- `energy_by_asset`. -/
def energyByAsset (h : Analytics.History) (p : Period) : List (Consumer Rat) :=
  let joined := (h.metered p.start p.stop).filterMap fun e =>
    (db.assets.find e.assetId).map fun a => ((a.code, a.name), e.energyKwh)
  let consumers := (groups Prod.fst joined).map fun g => ⟨g.1.1, g.1.2, (g.2.map Prod.snd).sum⟩
  (consumers.insertionSort fun c c' => c'.energyKwh ≤ c.energyKwh).take 5

/-- `BaselineRepository.latest`. -/
def latestBaseline (scope : Scope) (scopeId : Uuid) : Option (EnergyBaseline Rat) :=
  (newest BaselineRow.createdAt (db.baselines.select fun b => b.scope = scope ∧ b.scopeId = scopeId)).map
    BaselineRow.line

/-- `_health_index`, of the latest prediction there is. -/
def healthIndex (scope : Scope) (scopeId : Uuid) : Option Rat :=
  if scope = .asset then
    (newest Prediction.time (db.predictions.select fun x => x.assetId = scopeId)).bind Prediction.healthIndex
  else none

/-- `_order_row`. -/
def orderRow (o : WorkOrder) : OrderRow where
  number := o.number
  asset := ((db.assets.find o.assetId).map Asset.name).getD ""
  title := o.title
  type := o.type
  priority := o.priority
  status := o.status
  plannedStart := o.plannedStart
  technician := (o.technicianId.bind db.technicians.find).map Technician.name
  predictionWasCorrect := o.predictionWasCorrect

/-! ## The builders -/

/-- The predictions for a machine in the period, in the order of their times. -/
def predictionsIn (assetId : Uuid) (p : Period) : List Prediction :=
  (db.predictions.select fun x => x.assetId = assetId ∧ p.start ≤ x.time ∧ x.time < p.stop).insertionSort fun x y =>
    x.time ≤ y.time

/-- The alarms of a machine in the period, the latest first. -/
def alarmsIn (assetId : Uuid) (p : Period) : List Alarm :=
  (db.alarms.select fun a => a.assetId = assetId ∧ p.start ≤ a.raisedAt ∧ a.raisedAt < p.stop).insertionSort
    fun a b => b.raisedAt ≤ a.raisedAt

/-- The orders of a machine that `machine_health` lists, the latest first. The query has no upper bound. -/
def ordersSince (assetId : Uuid) (p : Period) : List WorkOrder :=
  (db.orders.select fun o => o.assetId = assetId ∧ p.start ≤ o.createdAt ∧ o.deletedAt = none).insertionSort
    fun o o' => o'.createdAt ≤ o.createdAt

def machineHealth (scopeId : Uuid) (p : Period) : Except Failure (MachineHealth Rat) :=
  match db.assets.find scopeId with
  | none => .error (.problem (.unprocessable "That machine is not in the registry"))
  | some asset =>
    let predictions := db.predictionsIn asset.id p
    let latest := predictions.getLast?
    let alarms := db.alarmsIn asset.id p
    let orders := db.ordersSince asset.id p
    let results := db.computeProduction .asset asset.id p
    .ok
      { asset := ⟨asset.code, asset.name, asset.assetType, asset.status⟩
        healthPct := latest.bind Prediction.healthIndex
        rul := latest.bind Prediction.rulPoint
        rulLow := latest.bind Prediction.rulLow
        rulHigh := latest.bind Prediction.rulHigh
        rulUnit := ((latest.bind Prediction.rulUnit).filter (· ≠ "")).getD "cycles"
        confidence := latest.bind Prediction.confidenceLabel
        oeePct := valueOf results "oee"
        availabilityPct := valueOf results "availability"
        performancePct := valueOf results "performance"
        qualityPct := valueOf results "quality"
        alarmCount := alarms.length
        openWorkOrders := orders.countP fun o => o.status ∈ openStatuses
        healthSeries := predictions.map fun x => (x.time, x.healthIndex)
        rulSeries := predictions.filterMap fun x => x.rulPoint.map fun rul => (x.time, rul)
        alarms := (alarms.take 20).map Alarm.row
        workOrders := (orders.take 20).map db.orderRow }

/-- The orders of some assets that are raised in the period, in the order in which they are. -/
def raisedIn (ids : List Uuid) (p : Period) : List WorkOrder :=
  (db.orders.select fun o =>
    o.assetId ∈ ids ∧ p.start ≤ o.createdAt ∧ o.createdAt < p.stop ∧ o.deletedAt = none).insertionSort
      fun o o' => o.createdAt ≤ o'.createdAt

/-- The orders of some assets that end in the period. -/
def closedIn (ids : List Uuid) (p : Period) : List WorkOrder :=
  db.orders.select fun o =>
    o.assetId ∈ ids ∧ (o.actualEnd.any fun t => p.start ≤ t ∧ t < p.stop) ∧ o.deletedAt = none

def weeklyMaintenance (scope : Scope) (scopeId : Uuid) (p : Period) : WeeklyMaintenance Rat :=
  let ids := db.reportAssetIds scope scopeId
  let orders := db.raisedIn ids p
  let closed := db.closedIn ids p
  let scored := closed.filter fun o => o.predictionWasCorrect ≠ none
  let correct := scored.countP fun o => o.predictionWasCorrect = some true
  let results := db.computeProduction scope scopeId p
  { scopeName := db.scopeName scope scopeId
    raised := orders.length
    closed := closed.length
    byStatus := count (orders.map WorkOrder.status)
    byType := count (orders.map WorkOrder.type)
    predictionsScored := scored.length
    predictionsCorrect := correct
    predictionAccuracyPct := if scored = [] then none else some (roundTo 1 (100 * correct / scored.length))
    mtbfH := valueOf results "mtbf"
    mttrH := valueOf results "mttr"
    breakdowns := countIn results "mtbf" "breakdowns"
    orders := (orders.take 50).map db.orderRow }

/-- `summary_object`. -/
def summaryObject (scope : Scope) (scopeId : Uuid) (p : Period) : EnergySummary :=
  let h := db.history (db.assetIds scope scopeId)
  summarise (h.energyKwh p.start p.stop) (h.idleEnergyKwh p.start p.stop) (h.peakKw p.start p.stop)
    (h.cost p.start p.stop) (h.goodCount p.start p.stop) (db.plantFactors scope scopeId).1
    (db.plantFactors scope scopeId).2 (db.energyByAsset h p)

/-- `_intensity_trend`. -/
def intensityTrend (scope : Scope) (scopeId : Uuid) (p : Period) : List (IntensityPoint Rat) :=
  let baseline := db.latestBaseline scope scopeId
  (hourly (db.history (db.assetIds scope scopeId)) p).map fun o : Observation Rat =>
    { time := o.time
      units := o.units
      energyKwh := roundTo 3 o.energyKwh
      intensity := if 0 < o.units then some (roundTo 4 (o.energyKwh / o.units)) else none
      expectedKwh := baseline.map fun b => roundTo 3 (b.interceptKwh + b.slopeKwhPerUnit * o.units) }

variable (sqrt : Rat → Rat)

/-- The anomalies of the period, as the service lists them. -/
def anomaliesIn (scope : Scope) (scopeId : Uuid) (p : Period) : List (EnergyAnomaly Rat) :=
  anomalies sqrt (db.latestBaseline scope scopeId) (hourly (db.history (db.assetIds scope scopeId)) p) scopeId
    (db.healthIndex scope scopeId)

def energy (scope : Scope) (scopeId : Uuid) (p : Period) : EnergyUse Rat :=
  let summary := db.summaryObject scope scopeId p
  let anomalies := db.anomaliesIn sqrt scope scopeId p
  { scopeName := db.scopeName scope scopeId
    energyKwh := summary.energyKwh
    cost := summary.cost
    currency := summary.currency
    co2Kg := summary.co2Kg
    peakDemandKw := summary.peakDemandKw
    idleEnergyKwh := summary.idleEnergyKwh
    idleEnergySharePct := summary.idleEnergyShare
    energyPerUnit := summary.energyPerUnit
    topConsumers := summary.breakdown.take 5
    intensityTrend := db.intensityTrend scope scopeId p
    anomalyCount := anomalies.length
    anomalies := (anomalies.take 20).map fun a =>
      ⟨a.time, a.scopeId, a.energyKwh, a.expectedKwh, a.units, a.sigma, a.healthIndex⟩ }

end Database

end TwinVoice.Reports
