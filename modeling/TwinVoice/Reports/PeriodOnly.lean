import TwinVoice.Reports.Builders

/-! # What a report on a past period depends on

Rows are added that are dated at or after the end of the period. Every query
on states, counts, readings, alarms and predictions has the end for a bound,
and so have the orders of a weekly report. The orders of a machine's health
have none, nor has the prediction whose health index goes with the anomalies
of a machine. -/

namespace TwinVoice.Reports

open TwinVoice.Lib TwinVoice.Lib.Additions TwinVoice.Lib.Grouping TwinVoice.Maintenance TwinVoice.Telemetry
open TwinVoice.Analytics

/-- The database with work orders, alarms, predictions, state events and readings that are dated
at or after an instant. -/
structure Added (stop : Instant) (db db' : Database) : Prop where
  plants : db'.plants = db.plants
  lines : db'.lines = db.lines
  assets : db'.assets = db.assets
  technicians : db'.technicians = db.technicians
  baselines : db'.baselines = db.baselines
  orders : Later WorkOrder.createdAt stop db.orders.rows db'.orders.rows
  alarms : Later Alarm.raisedAt stop db.alarms.rows db'.alarms.rows
  predictions : Later Prediction.time stop db.predictions.rows db'.predictions.rows
  events : Later StateEvent.time stop db.events.rows db'.events.rows
  production : Later ProductionRow.time stop db.production.rows db'.production.rows
  readings : Later EnergyReading.time stop db.readings.rows db'.readings.rows

/-- The reports on a period. -/
inductive PeriodReport
  | machineHealth (assetId : Uuid)
  | weeklyMaintenance (scope : Scope) (scopeId : Uuid)
  | energy (scope : Scope) (scopeId : Uuid)

inductive PeriodData
  | machineHealth (d : MachineHealth Rat)
  | weeklyMaintenance (d : WeeklyMaintenance Rat)
  | energy (d : EnergyUse Rat)

/-- The builder of a report. -/
def Database.build (db : Database) (sqrt : Rat → Rat) (p : Period) : PeriodReport → Except Failure PeriodData
  | .machineHealth assetId => (db.machineHealth assetId p).map .machineHealth
  | .weeklyMaintenance scope scopeId => .ok (.weeklyMaintenance (db.weeklyMaintenance scope scopeId p))
  | .energy scope scopeId => .ok (.energy (db.energy sqrt scope scopeId p))

/-! ## What the queries find -/

section
variable {db db' : Database} {p : Period} (h : Added p.stop db db')
include h

theorem Added.assetIds_eq (scope : Scope) (scopeId : Uuid) :
    db'.assetIds scope scopeId = db.assetIds scope scopeId := by
  unfold Database.assetIds
  rw [h.assets, h.lines]

theorem Added.reportAssetIds_eq (scope : Scope) (scopeId : Uuid) :
    db'.reportAssetIds scope scopeId = db.reportAssetIds scope scopeId := by
  unfold Database.reportAssetIds
  rw [h.assets, h.lines]

theorem Added.scopeName_eq (scope : Scope) (scopeId : Uuid) :
    db'.scopeName scope scopeId = db.scopeName scope scopeId := by
  unfold Database.scopeName
  rw [h.assets, h.lines]

theorem Added.idealCycleTime_eq (ids : List Uuid) : db'.idealCycleTime ids = db.idealCycleTime ids := by
  unfold Database.idealCycleTime
  rw [h.assets]

theorem Added.orderRow_eq (o : WorkOrder) : db'.orderRow o = db.orderRow o := by
  unfold Database.orderRow
  rw [h.assets, h.technicians]

theorem Added.latestBaseline_eq (scope : Scope) (scopeId : Uuid) :
    db'.latestBaseline scope scopeId = db.latestBaseline scope scopeId := by
  unfold Database.latestBaseline
  rw [h.baselines]

/-- The state events up to the end are as they were. -/
theorem Added.events_eq (ids : List Uuid) {q : StateEvent → Bool} (hq : ∀ e, q e = true → e.time < p.stop) :
    (db'.history ids).events.filter q = (db.history ids).events.filter q := by
  have hsame : (db'.events.select fun e => e.assetId ∈ ids).filter q =
      (db.events.select fun e => e.assetId ∈ ids).filter q := by
    unfold Table.select
    rw [List.filter_filter, List.filter_filter]
    exact h.events.filter_eq fun e he => hq e (Bool.and_eq_true_iff.mp he).1
  unfold Database.history
  dsimp only
  rw [filter_insertionSort, filter_insertionSort, hsame]

theorem Added.stateEvents_eq (ids : List Uuid) :
    (db'.history ids).stateEvents p.start p.stop = (db.history ids).stateEvents p.start p.stop := by
  unfold Analytics.History.stateEvents
  rw [h.events_eq ids fun e he => (of_decide_eq_true he).trans p.ordered,
    h.events_eq ids fun e he => (of_decide_eq_true he).2]

theorem Added.breakdowns_eq (ids : List Uuid) :
    (db'.history ids).breakdowns p.start p.stop = (db.history ids).breakdowns p.start p.stop :=
  h.events_eq ids fun _ he => (of_decide_eq_true he).2.1

theorem Added.produced_eq (ids : List Uuid) :
    (db'.history ids).produced p.start p.stop = (db.history ids).produced p.start p.stop := by
  unfold Analytics.History.produced Database.history Table.select
  dsimp only
  rw [List.filter_map, List.filter_map, List.filter_filter, List.filter_filter]
  refine congrArg _ (h.production.filter_eq fun c hc => ?_)
  exact (of_decide_eq_true (Bool.and_eq_true_iff.mp hc).1).2

theorem Added.metered_eq (ids : List Uuid) :
    (db'.history ids).metered p.start p.stop = (db.history ids).metered p.start p.stop := by
  unfold Analytics.History.metered Database.history Table.select
  dsimp only
  rw [List.filter_filter, List.filter_filter]
  exact h.readings.filter_eq fun e he => (of_decide_eq_true (Bool.and_eq_true_iff.mp he).1).2

theorem Added.stateOf_eq (ids : List Uuid) {e : EnergyReading} (he : e.time < p.stop) :
    (db'.history ids).stateOf e = (db.history ids).stateOf e := by
  unfold Analytics.History.stateOf
  rw [h.events_eq ids fun x hx => lt_of_le_of_lt (of_decide_eq_true hx).2 he]

theorem Added.idleEnergyKwh_eq (ids : List Uuid) :
    (db'.history ids).idleEnergyKwh p.start p.stop = (db.history ids).idleEnergyKwh p.start p.stop := by
  unfold Analytics.History.idleEnergyKwh
  rw [h.metered_eq ids]
  congr 2
  refine List.filter_congr fun e he => ?_
  rw [h.stateOf_eq ids (of_decide_eq_true (List.mem_filter.mp he).2).2]

theorem Added.hourly_eq (ids : List Uuid) : hourly (db'.history ids) p = hourly (db.history ids) p := by
  unfold hourly
  rw [h.metered_eq, h.produced_eq]

theorem Added.predictionsIn_eq (assetId : Uuid) : db'.predictionsIn assetId p = db.predictionsIn assetId p :=
  congrArg (List.insertionSort _) (h.predictions.filter_eq fun _ hx => (of_decide_eq_true hx).2.2)

theorem Added.alarmsIn_eq (assetId : Uuid) : db'.alarmsIn assetId p = db.alarmsIn assetId p :=
  congrArg (List.insertionSort _) (h.alarms.filter_eq fun _ ha => (of_decide_eq_true ha).2.2)

theorem Added.raisedIn_eq (ids : List Uuid) : db'.raisedIn ids p = db.raisedIn ids p :=
  congrArg (List.insertionSort _) (h.orders.filter_eq fun _ ho => (of_decide_eq_true ho).2.2.1)

/-- The KPIs are the same where the repairs are. -/
theorem Added.computeProduction_eq {scope : Scope} {scopeId : Uuid}
    (hrepaired : (db'.history (db.assetIds scope scopeId)).repaired p.start p.stop =
      (db.history (db.assetIds scope scopeId)).repaired p.start p.stop) :
    db'.computeProduction scope scopeId p = db.computeProduction scope scopeId p := by
  unfold Database.computeProduction Analytics.History.durations Analytics.History.goodCount
    Analytics.History.rejectCount Analytics.History.repairTimeS
  rw [h.assetIds_eq]
  dsimp only
  rw [h.stateEvents_eq, h.produced_eq, h.idealCycleTime_eq, h.breakdowns_eq, hrepaired]

/-- The repairs count for the mean time to repair alone. -/
theorem Added.valueOf_eq (scope : Scope) (scopeId : Uuid) {code : String}
    (hcode : code ∈ ["oee", "availability", "performance", "quality"]) :
    valueOf (db'.computeProduction scope scopeId p) code = valueOf (db.computeProduction scope scopeId p) code := by
  have hfront : ∀ (durations : List StateDuration) (good reject : Nat) (ideal : Option Rat) (breakdowns : Nat)
      (time time' : Rat) (repairs repairs' : Nat),
      valueOf (computeAll durations good reject ideal breakdowns time repairs) code =
        valueOf (computeAll durations good reject ideal breakdowns time' repairs') code := by
    intro durations good reject ideal breakdowns time time' repairs repairs'
    simp only [List.mem_cons, List.not_mem_nil, or_false] at hcode
    rcases hcode with rfl | rfl | rfl | rfl <;>
      simp [valueOf, computeAll, availability, quality, oee]
  unfold Database.computeProduction Analytics.History.durations Analytics.History.goodCount
    Analytics.History.rejectCount
  rw [h.assetIds_eq]
  dsimp only
  rw [h.stateEvents_eq, h.produced_eq, h.idealCycleTime_eq, h.breakdowns_eq]
  exact hfront _ _ _ _ _ _ _ _ _

end

/-! ## A machine's health -/

/-- No added order of the machine is open or among its twenty latest. -/
def Unlisted (db db' : Database) (p : Period) (assetId : Uuid) : Prop :=
  ∀ o ∈ db'.ordersSince assetId p, o ∉ db.orders.rows →
    o.status ∉ openStatuses ∧ o ∉ (db'.ordersSince assetId p).take 20

section
variable {db db' : Database} {p : Period}

theorem orders_nodup (db : Database) : db.orders.rows.Nodup := List.Nodup.of_map _ db.orders.keys

theorem mem_ordersSince {assetId : Uuid} {o : WorkOrder} : o ∈ db.ordersSince assetId p ↔
    o ∈ db.orders.rows ∧ o.assetId = assetId ∧ p.start ≤ o.createdAt ∧ o.deletedAt = none := by
  unfold Database.ordersSince
  rw [List.mem_insertionSort, Table.mem_select, decide_eq_true_iff]

/-- Orders of one number are one order. -/
theorem eq_of_number (db : Database) {o o' : WorkOrder} (ho : o ∈ db.orders.rows) (ho' : o' ∈ db.orders.rows)
    (hnumber : o.number = o'.number) : o = o' :=
  List.inj_on_of_nodup_map db.numbers ho ho' hnumber

variable (h : Added p.stop db db')
include h

theorem Added.ordersSince_old (assetId : Uuid) :
    (db'.ordersSince assetId p).filter (fun o => o ∈ db.orders.rows) = db.ordersSince assetId p := by
  have hsorted : IsTrans WorkOrder fun o o' => o'.createdAt ≤ o.createdAt := ⟨fun _ _ _ hab hbc => hbc.trans hab⟩
  have htotal : Std.Total fun o o' : WorkOrder => o'.createdAt ≤ o.createdAt := ⟨fun _ _ => le_total _ _⟩
  unfold Database.ordersSince Table.select
  rw [filter_insertionSort, h.orders.filter_old (orders_nodup db')]

/-- An added order changes the number of open ones, or the rows of the latest ones, or is seen nowhere. -/
theorem Added.ordersSince_eq_iff (assetId : Uuid) :
    ((db'.ordersSince assetId p).countP (fun o => o.status ∈ openStatuses) =
        (db.ordersSince assetId p).countP (fun o => o.status ∈ openStatuses) ∧
      ((db'.ordersSince assetId p).take 20).map db.orderRow = ((db.ordersSince assetId p).take 20).map db.orderRow) ↔
      Unlisted db db' p assetId := by
  have hold := h.ordersSince_old assetId
  have hcount : (db'.ordersSince assetId p).countP (fun o => o.status ∈ openStatuses) =
      (db.ordersSince assetId p).countP (fun o => o.status ∈ openStatuses) ↔
        ∀ o ∈ db'.ordersSince assetId p, o ∉ db.orders.rows → o.status ∉ openStatuses := by
    rw [List.countP_eq_countP_filter_add (db'.ordersSince assetId p) _ (fun o => o ∈ db.orders.rows), hold,
      Nat.add_eq_left, List.countP_eq_zero]
    simp [List.mem_filter]
  rw [hcount]
  constructor
  · intro heq o ho hnew
    obtain ⟨hclosed, hrows⟩ := heq
    refine ⟨hclosed o ho hnew, fun hlisted => ?_⟩
    have hnumber : o.number ∈ (((db.ordersSince assetId p).take 20).map db.orderRow).map OrderRow.number := by
      rw [← hrows, List.map_map]
      exact List.mem_map_of_mem hlisted
    rw [List.map_map] at hnumber
    obtain ⟨o', ho', heq⟩ := List.mem_map.mp hnumber
    have hmem := (mem_ordersSince.mp (List.mem_of_mem_take ho')).1
    have hsame : o' = o := eq_of_number db' (h.orders.subset hmem) (mem_ordersSince.mp ho).1 heq
    exact hnew (hsame ▸ hmem)
  · intro hnone
    refine ⟨fun o ho hnew => (hnone o ho hnew).1, ?_⟩
    have hfirst : ∀ o ∈ (db'.ordersSince assetId p).take 20, decide (o ∈ db.orders.rows) = true := by
      intro o ho
      refine decide_eq_true (by_contra fun hnew => ?_)
      exact (hnone o (List.mem_of_mem_take ho) hnew).2 ho
    rw [← take_filter hfirst, hold]

/-- The health of a machine is as it was exactly if there is no such machine or no added order is seen. -/
theorem Added.machineHealth_eq_iff (assetId : Uuid) : db'.machineHealth assetId p = db.machineHealth assetId p ↔
    db.assets.find assetId = none ∨ Unlisted db db' p assetId := by
  unfold Database.machineHealth
  rw [h.assets]
  cases hasset : db.assets.find assetId with
  | none => exact iff_of_true rfl (Or.inl rfl)
  | some asset =>
    have hid : asset.id = assetId := Table.key_of_find hasset
    have horderRow : db'.orderRow = db.orderRow := funext h.orderRow_eq
    have hvalue := @Added.valueOf_eq _ _ _ h .asset asset.id
    dsimp only
    rw [h.predictionsIn_eq, h.alarmsIn_eq, horderRow, @hvalue "oee" (by simp),
      @hvalue "availability" (by simp), @hvalue "performance" (by simp), @hvalue "quality" (by simp), ← hid, ← h.ordersSince_eq_iff]
    simp

end

/-! ## A week's maintenance -/

/-- No added order of the scope ends in the period. -/
def Unfinished (db db' : Database) (p : Period) (scope : Scope) (scopeId : Uuid) : Prop :=
  ∀ o ∈ db'.closedIn (db.reportAssetIds scope scopeId) p, o ∈ db.orders.rows

section
variable {db db' : Database} {p : Period}

theorem assetIds_subset (db : Database) (scope : Scope) (scopeId : Uuid) :
    db.assetIds scope scopeId ⊆ db.reportAssetIds scope scopeId := by
  cases scope with
  | asset => exact List.Subset.refl _
  | line =>
    refine List.map_subset _ fun a ha => ?_
    obtain ⟨hmem, ha⟩ := Table.mem_select.mp ha
    obtain ⟨hline, hactive⟩ := of_decide_eq_true ha
    exact Table.mem_select.mpr ⟨hmem, decide_eq_true ⟨hactive, hline⟩⟩
  | plant =>
    refine List.map_subset _ fun a ha => ?_
    obtain ⟨hmem, ha⟩ := Table.mem_select.mp ha
    obtain ⟨hactive, hplant⟩ := of_decide_eq_true ha
    refine Table.mem_select.mpr ⟨hmem, decide_eq_true ⟨hactive, ?_⟩⟩
    obtain ⟨l, hl, hid⟩ := Option.any_eq_true _ _ |>.mp hplant
    exact Option.any_eq_true _ _ |>.mpr ⟨l, hl, decide_eq_true (of_decide_eq_true hid).1⟩

/-- A repair of the period is an order that ends in it. -/
theorem of_repair {o : WorkOrder} {r : Repair} (hr : repair? o = some r) :
    o.actualEnd = some r.actualEnd ∧ o.deletedAt = none := by
  unfold repair? at hr
  split at hr
  · split at hr
    · rename_i hclosed
      obtain rfl := Option.some.inj hr
      exact ⟨‹_›, hclosed.2⟩
    · cases hr
  · cases hr

variable (h : Added p.stop db db')
include h

theorem Added.closedIn_eq_iff (scope : Scope) (scopeId : Uuid) :
    (db'.closedIn (db.reportAssetIds scope scopeId) p).length =
      (db.closedIn (db.reportAssetIds scope scopeId) p).length ↔ Unfinished db db' p scope scopeId := by
  unfold Unfinished Database.closedIn
  refine (h.orders.length_filter_eq_iff (orders_nodup db') _).trans ⟨fun hnone o ho => ?_, fun hnone o ho hnew => ?_⟩
  · obtain ⟨hmem, hclosed⟩ := Table.mem_select.mp ho
    refine by_contra fun hnew => ?_
    rw [hnone o hmem hnew] at hclosed
    cases hclosed
  · exact Bool.eq_false_iff.mpr fun hclosed => hnew (hnone o (Table.mem_select.mpr ⟨ho, hclosed⟩))

theorem Added.repaired_eq {scope : Scope} {scopeId : Uuid} (hnone : Unfinished db db' p scope scopeId) :
    (db'.history (db.assetIds scope scopeId)).repaired p.start p.stop =
      (db.history (db.assetIds scope scopeId)).repaired p.start p.stop := by
  unfold Analytics.History.repaired Database.history Table.select
  dsimp only
  rw [List.filter_filterMap, List.filter_filterMap, List.filterMap_filter, List.filterMap_filter]
  refine h.orders.filterMap_eq_of (orders_nodup db') fun o ho hnew => ?_
  split
  · rename_i hscope
    rw [Option.filter_eq_none_iff]
    intro r hr hperiod
    obtain ⟨hend, hactive⟩ := of_repair hr
    refine hnew (hnone o (Table.mem_select.mpr ⟨ho, decide_eq_true ⟨?_, ?_, hactive⟩⟩))
    · exact assetIds_subset db scope scopeId (of_decide_eq_true hscope)
    · rw [hend]
      exact hperiod
  · rfl

/-- A week's maintenance is as it was exactly if no added order of the scope ends in the week. -/
theorem Added.weeklyMaintenance_eq_iff (scope : Scope) (scopeId : Uuid) :
    db'.weeklyMaintenance scope scopeId p = db.weeklyMaintenance scope scopeId p ↔
      Unfinished db db' p scope scopeId := by
  have horderRow : db'.orderRow = db.orderRow := funext h.orderRow_eq
  constructor
  · intro heq
    have hclosed := congrArg WeeklyMaintenance.closed heq
    unfold Database.weeklyMaintenance at hclosed
    rw [h.reportAssetIds_eq] at hclosed
    exact (h.closedIn_eq_iff scope scopeId).mp hclosed
  · intro hnone
    have hclosed : db'.closedIn (db.reportAssetIds scope scopeId) p =
        db.closedIn (db.reportAssetIds scope scopeId) p := by
      refine h.orders.filter_eq_of (orders_nodup db') _ fun o ho hnew => Bool.eq_false_iff.mpr fun hclosed => ?_
      exact hnew (hnone o (Table.mem_select.mpr ⟨ho, hclosed⟩))
    unfold Database.weeklyMaintenance
    rw [h.reportAssetIds_eq]
    dsimp only
    rw [h.raisedIn_eq, hclosed, h.computeProduction_eq (h.repaired_eq hnone), h.scopeName_eq, horderRow]

end

/-! ## Energy -/

section
variable {db db' : Database} {p : Period} (sqrt : Rat → Rat)

/-- There is a baseline, and an hour of the period is over three deviations above it. -/
def Anomalous (db : Database) (p : Period) (scope : Scope) (scopeId : Uuid) : Prop :=
  ∃ row, db.latestBaseline scope scopeId = some row ∧
    let hours := hourly (db.history (db.assetIds scope scopeId)) p
    ∃ o ∈ hours, (anomalySigma : Rat) < Baseline.residualSigma
      ⟨row.interceptKwh, row.slopeKwhPerUnit, row.r2, residualStd row sqrt hours, hours.length⟩ o.units o.energyKwh

/-- The health index goes with the anomalies of a machine. -/
def Unrelated (db db' : Database) (p : Period) (scope : Scope) (scopeId : Uuid) : Prop :=
  Anomalous sqrt db p scope scopeId → db'.healthIndex scope scopeId = db.healthIndex scope scopeId

/-- The hours that are flagged do not depend on the health index that goes with them. -/
theorem exists_flagged (db : Database) (scope : Scope) (scopeId : Uuid) (p : Period) :
    ∃ found : List (EnergyAnomaly Rat), (found = [] ↔ ¬ Anomalous sqrt db p scope scopeId) ∧
      ∀ health, anomalies sqrt (db.latestBaseline scope scopeId)
        (hourly (db.history (db.assetIds scope scopeId)) p) scopeId health =
          found.map fun a => { a with scopeId := scopeId, healthIndex := health } := by
  unfold Anomalous anomalies
  cases db.latestBaseline scope scopeId with
  | none => exact ⟨[], by simp, fun _ => rfl⟩
  | some row =>
    dsimp only
    by_cases hempty : hourly (db.history (db.assetIds scope scopeId)) p = []
    · rw [hempty]
      exact ⟨[], by simp, fun _ => rfl⟩
    · refine ⟨findAnomalies _ _ _ _, ?_, fun health => if_neg (mt List.isEmpty_iff.mp hempty)⟩
      unfold findAnomalies
      rw [List.filterMap_eq_nil_iff]
      simp

variable {sqrt} (h : Added p.stop db db')
include h

theorem Added.summaryObject_eq (scope : Scope) (scopeId : Uuid) :
    db'.summaryObject scope scopeId p = db.summaryObject scope scopeId p := by
  have hfactors : db'.plantFactors scope scopeId = db.plantFactors scope scopeId := by
    unfold Database.plantFactors
    rw [h.plants, h.lines, h.assets]
  have hconsumers : ∀ ids, db'.energyByAsset (db'.history ids) p = db.energyByAsset (db.history ids) p := by
    intro ids
    unfold Database.energyByAsset
    rw [h.metered_eq, h.assets]
  unfold Database.summaryObject Analytics.History.energyKwh Analytics.History.peakKw Analytics.History.cost Analytics.History.goodCount
  rw [h.assetIds_eq]
  dsimp only
  rw [h.metered_eq, h.idleEnergyKwh_eq, h.produced_eq, hfactors, hconsumers]

theorem Added.intensityTrend_eq (scope : Scope) (scopeId : Uuid) :
    db'.intensityTrend scope scopeId p = db.intensityTrend scope scopeId p := by
  unfold Database.intensityTrend
  rw [h.assetIds_eq, h.hourly_eq, h.latestBaseline_eq]

/-- The energy is as it was exactly if no anomaly of the machine has another health index beside it. -/
theorem Added.energy_eq_iff (scope : Scope) (scopeId : Uuid) :
    db'.energy sqrt scope scopeId p = db.energy sqrt scope scopeId p ↔ Unrelated sqrt db db' p scope scopeId := by
  obtain ⟨found, hfound, hanomalies⟩ := exists_flagged sqrt db scope scopeId p
  have hbefore : db.anomaliesIn sqrt scope scopeId p = _ := hanomalies (db.healthIndex scope scopeId)
  have hafter : db'.anomaliesIn sqrt scope scopeId p =
      found.map fun a => { a with scopeId := scopeId, healthIndex := db'.healthIndex scope scopeId } := by
    rw [← hanomalies, Database.anomaliesIn, h.assetIds_eq, h.hourly_eq, h.latestBaseline_eq]
  unfold Database.energy Unrelated
  dsimp only
  rw [hbefore, hafter, h.summaryObject_eq, h.intensityTrend_eq, h.scopeName_eq]
  cases found with
  | nil => exact iff_of_true rfl fun hanomalous => absurd hanomalous (hfound.mp rfl)
  | cons a found =>
    have hanomalous : Anomalous sqrt db p scope scopeId :=
      by_contra fun hnot => List.cons_ne_nil a found (hfound.mpr hnot)
    constructor
    · intro heq _
      have hfirst := congrArg (fun d => d.anomalies.head?.map AnomalyRow.healthIndex) heq
      simpa using hfirst
    · intro heq
      rw [heq hanomalous]

end

/-! ## A report and its period -/

section
variable {sqrt : Rat → Rat} {db db' : Database} {p : Period}

/-- What is added is of no account for the report. -/
def OfNoAccount (sqrt : Rat → Rat) (db db' : Database) (p : Period) : PeriodReport → Prop
  | .machineHealth assetId => db.assets.find assetId = none ∨ Unlisted db db' p assetId
  | .weeklyMaintenance scope scopeId => Unfinished db db' p scope scopeId
  | .energy scope scopeId => Unrelated sqrt db db' p scope scopeId

theorem map_eq_map_iff {α β : Type} {f : α → β} (hf : Function.Injective f) {x y : Except Failure α} :
    x.map f = y.map f ↔ x = y := by
  cases x <;> cases y <;> simp [Except.map, hf.eq_iff]

/-- A report is the same with what is added from the end of its period on, exactly if that is of no account for it. -/
theorem build_eq_iff (h : Added p.stop db db') (report : PeriodReport) :
    db'.build sqrt p report = db.build sqrt p report ↔ OfNoAccount sqrt db db' p report := by
  cases report with
  | machineHealth assetId =>
    exact (map_eq_map_iff fun _ _ => PeriodData.machineHealth.inj).trans (h.machineHealth_eq_iff assetId)
  | weeklyMaintenance scope scopeId =>
    refine Iff.trans ?_ (h.weeklyMaintenance_eq_iff scope scopeId)
    unfold Database.build
    rw [Except.ok.injEq, PeriodData.weeklyMaintenance.injEq]
  | energy scope scopeId =>
    refine Iff.trans ?_ (h.energy_eq_iff scope scopeId)
    unfold Database.build
    rw [Except.ok.injEq, PeriodData.energy.injEq]

end

/-! A machine without a history, and an order that is raised for it after the week. -/

def week : Period := ⟨0, 7 * 86400000000, by decide⟩

def registry : Database where
  plants := Table.empty
  lines := Table.empty
  assets := ⟨[⟨1, 1, "P-1", "Press", "press", "running", none, none⟩], by decide⟩
  technicians := Table.empty
  baselines := Table.empty
  orders := Table.empty
  numbers := List.nodup_nil
  alarms := Table.empty
  predictions := Table.empty
  events := Table.empty
  production := Table.empty
  readings := Table.empty

def nextOrder : WorkOrder where
  id := 7
  number := 7
  assetId := 1
  componentId := none
  type := .corrective
  priority := 3
  title := "Replace the bearing"
  description := none
  failureModeId := none
  predictionId := none
  explanationId := none
  status := .«open»
  plannedStart := none
  plannedEnd := none
  actualStart := none
  actualEnd := none
  technicianId := none
  parts := []
  estDurationMin := none
  estCost := none
  riskBeforeSlot := none
  createdBy := none
  createdVia := .ui
  outcome := none
  predictionWasCorrect := none
  createdAt := week.stop + 86400000000
  updatedAt := week.stop + 86400000000
  deletedAt := none

def nextWeek : Database :=
  { registry with
    orders := ⟨[nextOrder], List.nodup_singleton _⟩
    numbers := List.nodup_singleton _ }

theorem nextWeek_added : Added week.stop registry nextWeek where
  plants := rfl
  lines := rfl
  assets := rfl
  technicians := rfl
  baselines := rfl
  orders := ⟨[nextOrder], rfl, by decide⟩
  alarms := .refl _
  predictions := .refl _
  events := .refl _
  production := .refl _
  readings := .refl _

/-- An order of the next week is one more that is open in the report on this one. -/
theorem order_after_the_week_listed : Added week.stop registry nextWeek ∧
    (registry.machineHealth 1 week).map MachineHealth.openWorkOrders = .ok 0 ∧
      (nextWeek.machineHealth 1 week).map MachineHealth.openWorkOrders = .ok 1 :=
  ⟨nextWeek_added, rfl, rfl⟩

/-- The weekly report of the machine does not have it. -/
theorem weekly_report_stays :
    nextWeek.build id week (.weeklyMaintenance .asset 1) = registry.build id week (.weeklyMaintenance .asset 1) := by
  refine (build_eq_iff nextWeek_added _).mpr ?_
  have hnone : nextWeek.closedIn (registry.reportAssetIds .asset 1) week = [] := rfl
  intro o ho
  rw [hnone] at ho
  cases ho

end TwinVoice.Reports
