import TwinVoice.Ingest.Draining
import TwinVoice.Sparkplug.Publisher

/-! # From the machine to the table

The ingest reads the metrics of a payload one after another: those for which
the asset of the topic has a sensor become rows of `telemetry`, entries of the
asset's digital twin and values of a live message. Metric names are unique
within an asset only, so the asset is part of every lookup. -/

namespace TwinVoice.Ingest.Telemetry

open TwinVoice.Lib Transition Sparkplug Publisher AssetMetrics
open Sparkplug.EdgeNode (Message Event Node Session)

/-! ## The sensors -/

structure Asset where
  id : Uuid
  code : String
  deleted : Bool

structure Sensor where
  id : Uuid
  assetId : Uuid
  metricName : String
  unit : Option String
  deleted : Bool

/-- A row of the query that `_build_metric_map` makes. -/
structure SensorInfo where
  sensorId : Uuid
  assetId : Uuid
  assetCode : String
  metricName : String
  unit : Option String

/-- The query: the sensors that are not deleted, of assets that are not deleted. -/
def sensorRows (sensors : List Sensor) (assets : List Asset) : List SensorInfo :=
  (sensors.filter fun s => ¬ s.deleted).flatMap fun s =>
    (assets.filter fun a => a.id = s.assetId ∧ ¬ a.deleted).map fun a => ⟨s.id, s.assetId, a.code, s.metricName, s.unit⟩

/-- `_build_metric_map`. -/
def buildMetricMap (sensors : List Sensor) (assets : List Asset) : Dict (String × String) SensorInfo :=
  (sensorRows sensors assets).foldl (fun d r => d.set (r.assetCode, r.metricName) r) []

/-! ## The loop over the metrics -/

/-- The milliseconds at which the year 10000 begins, which no `datetime` reaches. -/
def maxMs : Int := 253402300800000

/-- What Python's `float` makes of a text or of bytes, what `str` makes of other values, and `datetime.fromtimestamp`
of milliseconds. -/
structure Conversions where
  floatOfStr : String → Option (Floating binary64)
  floatOfBytes : List UInt8 → Option (Floating binary64)
  str : Scalar → String
  fromTimestamp : Int → Option Instant
  dated : ∀ t, 0 < t → t < maxMs → (fromTimestamp t).isSome = true

namespace Conversions
variable (x : Conversions)

/-- `float(value)`, which may have no number to give; an integer that is too large raises. -/
def asFloat : Scalar → Option (Option (Floating binary64))
  | .bool b => (floatOfInt (if b then 1 else 0)).toOption.map some
  | .int n => (floatOfInt n).toOption.map some
  | .float y => some (some y)
  | .str s => some (x.floatOfStr s)
  | .bytes b => some (x.floatOfBytes b)
  | .message _ => some none

/-- `str(value)`. -/
def text : Scalar → String
  | .str s => s
  | v => x.str v

end Conversions

/-- A row of `telemetry`. -/
structure TelemetryRow where
  time : Instant
  sensorId : Uuid
  value : Floating binary64
  quality : Int

/-- The key `v` of an entry. -/
inductive Shown
  | text (s : String)
  | number (y : Floating binary64)

/-- A property of the feature `telemetry` of a digital twin. -/
structure TwinEntry where
  v : Shown
  u : Option String
  t : Instant

/-- A value of a live message. -/
structure LiveEntry where
  v : Shown
  u : Option String

/-- What a metric comes to: the state of the asset, or a row and the unit of its sensor. -/
inductive Outcome
  | nothing
  | state (text : String)
  | measured (unit : Option String) (row : TelemetryRow)

namespace Outcome

def row : Outcome → Option TelemetryRow
  | measured _ row => some row
  | _ => none

def twinEntry (now : Instant) : Outcome → Option TwinEntry
  | nothing => none
  | state text => some ⟨.text text, some "", now⟩
  | measured unit row => some ⟨.number row.value, unit, row.time⟩

def liveEntry : Outcome → Option LiveEntry
  | nothing => none
  | state text => some ⟨.text text, some ""⟩
  | measured unit row => some ⟨.number row.value, unit⟩

end Outcome

/-- What the loop collects, apart from the facts of the asset. -/
@[ext] structure Drained where
  telemetryRows : List TelemetryRow
  dittoPatch : Dict String TwinEntry
  liveMetrics : Dict String LiveEntry

namespace Drained

def nothing : Drained := ⟨[], [], []⟩

def add (d : Drained) (now : Instant) (metricName : String) (o : Outcome) : Drained where
  telemetryRows := d.telemetryRows ++ o.row.toList
  dittoPatch := (o.twinEntry now).elim d.dittoPatch (d.dittoPatch.set metricName)
  liveMetrics := o.liveEntry.elim d.liveMetrics (d.liveMetrics.set metricName)

end Drained

/-- What the loop reads besides; evaluating the alarm rules of a sensor may raise. -/
structure Consumer where
  conversions : Conversions
  metricMap : Dict (String × String) SensorInfo
  raises : SensorInfo → Floating binary64 → String → Instant → Bool

namespace Consumer
variable (c : Consumer)

/-- The lookup of a metric, by its name or prefixed with the code of the asset. -/
def info (assetCode metricName : String) : Option SensorInfo :=
  let fullName := if '.' ∈ metricName.toList then metricName else assetCode ++ "." ++ metricName
  (c.metricMap.get? (assetCode, metricName)).or (c.metricMap.get? (assetCode, fullName))

def quality (py : Builtins) (properties : Dict String (Option Scalar)) : Option Int :=
  match (properties.get? "Quality").join with
  | none => some 192
  | some raw =>
    match c.conversions.asFloat raw with
    | none => none
    | some none => some 192
    | some (some y) => (pyInt py (.float y)).toOption

/-- `metric.get("timestamp") or decoded.get("timestamp") or time.time_ns() // 1_000_000`. -/
def stamp (timestamp payload : Option Int) (nowMs : Int) : Int :=
  ((timestamp.filter (· ≠ 0)).or (payload.filter (· ≠ 0))).getD nowMs

/-- A metric that a sensor is found for; it has no value for `none`, and `none` is what raises. -/
def measure (py : Builtins) (payloadTime : Option Int) (nowMs : Int) (m : MetricDict) (value : Scalar)
    (info : SensorInfo) : Option Outcome := do
  match ← c.conversions.asFloat value with
  | none => return .nothing
  | some y =>
    let quality ← c.quality py (m.properties.getD [])
    let time ← c.conversions.fromTimestamp (stamp m.timestamp payloadTime nowMs)
    if c.raises info y m.name time then none else return .measured info.unit ⟨time, info.sensorId, y, quality⟩

/-- A round of the loop. -/
def outcome (py : Builtins) (assetCode : String) (payloadTime : Option Int) (nowMs : Int) (m : MetricDict) :
    Option Outcome :=
  match m.value with
  | none => some .nothing
  | some value =>
    if nodeControl m.name then some .nothing
    else if bare m.name = "state" then some (.state (c.conversions.text value))
    else
      match c.info assetCode m.name with
      | none => some .nothing
      | some info => c.measure py payloadTime nowMs m value info

/-- The loop, which an exception ends with all that was collected. -/
def drain (py : Builtins) (assetCode : String) (payloadTime : Option Int) (nowMs : Int) (now : Instant) (d : Drained)
    (metrics : List MetricDict) : Option Drained :=
  metrics.foldlM (fun d m => (c.outcome py assetCode payloadTime nowMs m).map (d.add now m.name)) d

/-- `_process_message` up to its effects, at the time `nowMs` or `now`. -/
def processMessage {Bytes : Type} (py : Builtins) (pb : Protobuf Bytes) (nowMs : Int) (now : Instant) (topic : String)
    (payload : Bytes) : Option Drained := do
  let parsed ← (parseTopic py topic).toOption
  if parsed.messageType ≠ .ddata ∧ parsed.messageType ≠ .dbirth then return .nothing
  else
    let decoded ← (decodePayload py pb payload).toOption
    match parsed.deviceId with
    | none => return .nothing
    | some assetCode => c.drain py assetCode decoded.timestamp nowMs now .nothing decoded.metrics

end Consumer

/-! ## What the loop collects -/

section
variable {c : Consumer} {py : Builtins} {assetCode : String} {payloadTime : Option Int} {nowMs : Int} {now : Instant}

/-- What each metric comes to, one after another. -/
def collect (f : MetricDict → Outcome) (now : Instant) (metrics : List MetricDict) (d : Drained) : Drained :=
  metrics.foldl (fun d m => d.add now m.name (f m)) d

/-- A dictionary's entries under the names of the metrics. -/
def named {V : Type} (f : MetricDict → Option V) (metrics : List MetricDict) : Dict String V :=
  metrics.filterMap fun m => (f m).map (m.name, ·)

theorem drain_of_outcomes {f : MetricDict → Outcome} {metrics : List MetricDict}
    (h : ∀ m ∈ metrics, c.outcome py assetCode payloadTime nowMs m = some (f m)) (d : Drained) :
    c.drain py assetCode payloadTime nowMs now d metrics = some (collect f now metrics d) := by
  unfold Consumer.drain collect
  induction metrics generalizing d with
  | nil => rfl
  | cons m metrics ih =>
    obtain ⟨hm, hrest⟩ := List.forall_mem_cons.mp h
    rw [List.foldlM_cons, hm, List.foldl_cons]
    exact ih hrest _

/-- If nothing raised. -/
theorem outcomes_of_drain {metrics : List MetricDict} {d d' : Drained}
    (h : c.drain py assetCode payloadTime nowMs now d metrics = some d') :
    ∀ m ∈ metrics, ∃ o, c.outcome py assetCode payloadTime nowMs m = some o := by
  unfold Consumer.drain at h
  induction metrics generalizing d with
  | nil => simp
  | cons m metrics ih =>
    rw [List.foldlM_cons] at h
    obtain ⟨next, hnext, h⟩ := Option.bind_eq_some_iff.mp h
    obtain ⟨o, ho, -⟩ := Option.map_eq_some_iff.mp hnext
    exact List.forall_mem_cons.mpr ⟨⟨o, ho⟩, ih h⟩

variable (f : MetricDict → Outcome) (metrics : List MetricDict) (d : Drained)

theorem telemetryRows_collect :
    (collect f now metrics d).telemetryRows = d.telemetryRows ++ metrics.filterMap fun m => (f m).row := by
  unfold collect
  induction metrics generalizing d with
  | nil => simp
  | cons m metrics ih =>
    rw [List.foldl_cons, ih, List.filterMap_cons]
    cases hrow : (f m).row with
    | none => simp [Drained.add, hrow]
    | some row => simp [Drained.add, hrow]

theorem dittoPatch_collect : (collect f now metrics d).dittoPatch =
    (named (fun m => (f m).twinEntry now) metrics).foldl (fun p e => p.set e.1 e.2) d.dittoPatch := by
  unfold collect named
  induction metrics generalizing d with
  | nil => rfl
  | cons m metrics ih =>
    rw [List.foldl_cons, ih, List.filterMap_cons]
    cases hentry : (f m).twinEntry now with
    | none => simp [Drained.add, hentry]
    | some e => simp [Drained.add, hentry]

theorem liveMetrics_collect : (collect f now metrics d).liveMetrics =
    (named (fun m => (f m).liveEntry) metrics).foldl (fun p e => p.set e.1 e.2) d.liveMetrics := by
  unfold collect named
  induction metrics generalizing d with
  | nil => rfl
  | cons m metrics ih =>
    rw [List.foldl_cons, ih, List.filterMap_cons]
    cases hentry : (f m).liveEntry with
    | none => simp [Drained.add, hentry]
    | some e => simp [Drained.add, hentry]

variable {metrics}

theorem keys_named {V : Type} (g : MetricDict → Option V) :
    (named g metrics).map Prod.fst = (metrics.filter fun m => (g m).isSome).map MetricDict.name := by
  unfold named
  induction metrics with
  | nil => rfl
  | cons m metrics ih =>
    rw [List.filterMap_cons, List.filter_cons]
    cases hg : g m with
    | none => simpa [hg] using ih
    | some v => simpa [hg] using ih

/-- Under names of their own all entries stand in the order of the metrics. -/
theorem foldl_named {V : Type} (hnames : (metrics.map MetricDict.name).Nodup) (g : MetricDict → Option V) :
    (named g metrics).foldl (fun (p : Dict String V) e => p.set e.1 e.2) [] = named g metrics := by
  have hkeys : ((named g metrics).map Prod.fst).Nodup := by
    rw [keys_named]
    exact hnames.sublist (List.filter_sublist.map _)
  exact Dict.foldl_set_eq_append ([] : Dict String V) (named g metrics) hkeys

/-- What a payload comes to whose metrics have names of their own. -/
def gathered (now : Instant) (f : MetricDict → Outcome) (metrics : List MetricDict) : Drained where
  telemetryRows := metrics.filterMap fun m => (f m).row
  dittoPatch := named (fun m => (f m).twinEntry now) metrics
  liveMetrics := named (fun m => (f m).liveEntry) metrics

theorem collect_eq_gathered (hnames : (metrics.map MetricDict.name).Nodup) :
    collect f now metrics .nothing = gathered now f metrics := by
  apply Drained.ext
  · exact telemetryRows_collect f metrics .nothing
  · exact (dittoPatch_collect f metrics .nothing).trans (foldl_named hnames _)
  · exact (liveMetrics_collect f metrics .nothing).trans (foldl_named hnames _)

end

/-! ## From a snapshot -/

section
variable {x : Conversions}

theorem asFloat_int {n : Int} (h : n.natAbs ≤ 2 ^ 63) :
    x.asFloat (.int n) = some (some (Floating.ofInt binary64 n)) := by
  have hfinite := Floating.isInfinite_ofInt (f := binary64) h (by decide) (by decide)
  simp [Conversions.asFloat, floatOfInt_ok hfinite, Except.toOption]

/-- What the wire makes of a value is the same number. -/
theorem asFloat_canonical {type : MetricType} {v : Scalar} (h : InRange type.dataType v) :
    ∃ y, x.asFloat v = some y ∧ x.asFloat (canonical type.dataType v) = some y := by
  cases type with
  | double =>
    cases v with
    | int n =>
      have hfinite : (Floating.ofInt binary64 n).isInfinite = false := h.representable
      exact ⟨_, by rw [Conversions.asFloat, floatOfInt_ok hfinite]; rfl, rfl⟩
    | float y => exact ⟨_, rfl, rfl⟩
    | _ => exact absurd h.typed id
  | int64 =>
    cases v with
    | int n =>
      have hbounded : -2 ^ 63 ≤ n ∧ n < 2 ^ 63 := h.bounded
      have hn := asFloat_int (x := x) (n := n) (by omega)
      exact ⟨_, hn, hn⟩
    | _ => exact absurd h.typed id
  | string =>
    cases v with
    | str s => exact ⟨_, rfl, rfl⟩
    | _ => exact absurd h.typed id

end

section
variable (c : Consumer)

/-- What the ingest makes of a metric of a device. -/
def expected (device : String) (snap : Snapshot) (ts : Int) (d : MetricDef) : Outcome :=
  match snap.value d.name with
  | none => .nothing
  | some value =>
    if nodeControl d.name then .nothing
    else if bare d.name = "state" then .state (c.conversions.text (canonical d.datatype.dataType value))
    else
      match c.info device d.name, (c.conversions.asFloat value).join,
        c.conversions.fromTimestamp (snap.timestamp ts d.name) with
      | some info, some y, some time => .measured info.unit ⟨time, info.sensorId, y, 192⟩
      | _, _, _ => .nothing

theorem quality_good (py : Builtins) : (c.conversions.asFloat (.int goodQuality)).bind
    (fun y => y.bind fun y => (pyInt py (.float y)).toOption) = some 192 := by
  have hnumber := Floating.number_ofInt (f := binary64) (n := 192) (by decide) (by decide) (by decide)
  rw [goodQuality, asFloat_int (by decide)]
  simp [pyInt, hnumber, Except.toOption]

/-- A metric with a value says that it is good, or nothing. -/
theorem get?_properties (d : MetricDef) (value : Scalar) (birth : Bool) :
    Dict.get? (properties d (some value) birth) "Quality" = if birth then some (some (.int goodQuality)) else none := by
  unfold properties
  cases birth with
  | false => simp
  | true =>
    by_cases hunit : d.unit = ""
    · simp [hunit, Dict.get?_cons]
    · simp [hunit, Dict.get?_cons]

theorem quality_properties (py : Builtins) (d : MetricDef) (value : Scalar) (birth : Bool) :
    c.quality py (properties d (some value) birth) = some 192 := by
  unfold Consumer.quality
  rw [get?_properties]
  cases birth with
  | false => rfl
  | true =>
    have hgood := quality_good c py
    simp only [if_true, Option.join_some]
    split
    · rename_i hraises
      simp [hraises] at hgood
    · rfl
    · rename_i y hy
      simpa [hy] using hgood

variable {c}

theorem outcome_received {py : Builtins} {device : String} {payloadTime : Option Int} {nowMs : Int} {snap : Snapshot}
    {ts : Int} {birth : Bool} {d : MetricDef} (hrange : ∀ v ∈ snap.value d.name, InRange d.datatype.dataType v)
    (hclock : 0 < snap.timestamp ts d.name ∧ snap.timestamp ts d.name < maxMs)
    (hrules : ∀ info y name t, c.raises info y name t = false) :
    c.outcome py device payloadTime nowMs (received snap ts birth d) = some (expected c device snap ts d) := by
  cases hvalue : snap.value d.name with
  | none => simp [Consumer.outcome, received, expected, hvalue]
  | some value =>
    obtain ⟨y, hy, hcanonical⟩ := asFloat_canonical (x := c.conversions) (hrange value hvalue)
    obtain ⟨time, htime⟩ := Option.isSome_iff_exists.mp (c.conversions.dated _ hclock.1 hclock.2)
    have hstamp : Consumer.stamp (some (snap.timestamp ts d.name)) payloadTime nowMs = snap.timestamp ts d.name := by
      rw [Consumer.stamp, Option.filter_some, if_pos (decide_eq_true hclock.1.ne')]
      rfl
    have hquality := quality_properties c py d value birth
    unfold Consumer.outcome expected
    simp only [received, hvalue, Option.map_some]
    split
    · rfl
    · split
      · rfl
      · cases hinfo : c.info device d.name with
        | none => rfl
        | some info =>
          simp only [Consumer.measure, hcanonical, hy, hstamp, htime, Option.getD_some, hquality]
          cases y with
          | none => rfl
          | some y => simp [hrules]

end

/-- What the ingest keeps of a message. -/
def arrival (c : Consumer) (x : Identity) (ts : Int) (now : Instant) : Message Snapshot → Drained
  | .nbirth _ => .nothing
  | .dbirth device snap _ | .ddata device snap _ =>
    let defs := (x.defs.get? device).getD []
    { telemetryRows := defs.filterMap fun d => (expected c device snap ts d).row
      dittoPatch := defs.filterMap fun d => ((expected c device snap ts d).twinEntry now).map (d.name, ·)
      liveMetrics := defs.filterMap fun d => (expected c device snap ts d).liveEntry.map (d.name, ·) }

/-- All metrics of a message have a time that is a date. -/
def InTime (x : Identity) (ts : Int) (m : Message Snapshot) : Prop :=
  ∀ e ∈ carried m, ∀ d ∈ (x.defs.get? e.1).getD [], 0 < e.2.timestamp ts d.name ∧ e.2.timestamp ts d.name < maxMs

section
variable {Bytes : Type} {py : Builtins} {pb : Protobuf Bytes} {c : Consumer} {x : Identity} {ts encodedMs nowMs : Int}
  {now : Instant} {topic : String} {payload : Bytes}

theorem processMessage_device {type : MessageType} (htype : type = .dbirth ∨ type = .ddata) {device : String}
    {snap : Snapshot} {seq : Nat}
    (hwire : deviceMessage py pb x type device snap seq ts encodedMs = some (topic, payload))
    (hclock : InTime x ts (.ddata device snap seq)) (hrules : ∀ info y name t, c.raises info y name t = false) :
    c.processMessage py pb nowMs now topic payload = some (arrival c x ts now (.ddata device snap seq)) := by
  obtain ⟨defs, t, s, hdefs, hrange, hparse, hdecode⟩ := deviceMessage_spec hwire
  have hget : (x.defs.get? device).getD [] = defs := by rw [hdefs]; rfl
  have hkind : ¬ (type ≠ .ddata ∧ type ≠ .dbirth) := by rcases htype with rfl | rfl <;> simp
  have houtcomes : ∀ d ∈ defs, c.outcome py device t nowMs (received snap ts (type = .dbirth) d) =
      some (expected c device snap ts d) := fun d hd =>
    outcome_received (hrange d hd) (hclock (device, snap) rfl d (hget.symm ▸ hd)) hrules
  have hnames : ((defs.map (received snap ts (type = .dbirth))).map MetricDict.name).Nodup := by
    rw [List.map_map]
    exact x.distinct (device, defs) (Dict.mem_of_get? hdefs)
  have hdrain : c.drain py device t nowMs now .nothing (defs.map (received snap ts (type = .dbirth))) =
      some (collect (fun m => (c.outcome py device t nowMs m).getD .nothing) now
        (defs.map (received snap ts (type = .dbirth))) .nothing) := by
    refine drain_of_outcomes (fun m hm => ?_) .nothing
    obtain ⟨d, hd, rfl⟩ := List.mem_map.mp hm
    rw [houtcomes d hd]
    rfl
  have hprocess : c.processMessage py pb nowMs now topic payload =
      c.drain py device t nowMs now .nothing (defs.map (received snap ts (type = .dbirth))) := by
    unfold Consumer.processMessage
    rw [hparse, hdecode]
    simp only [Except.toOption, Option.bind_eq_bind, Option.bind_some, if_neg hkind]
  rw [hprocess, hdrain, collect_eq_gathered _ hnames]
  refine congrArg some (Drained.ext ?_ ?_ ?_)
  · show List.filterMap _ (defs.map _) = _
    rw [List.filterMap_map, arrival, hget]
    exact List.filterMap_congr fun d hd => by simp [houtcomes d hd]
  · show named _ (defs.map _) = _
    rw [named, List.filterMap_map, arrival, hget]
    exact List.filterMap_congr fun d hd => by simp [houtcomes d hd]
  · show named _ (defs.map _) = _
    rw [named, List.filterMap_map, arrival, hget]
    exact List.filterMap_congr fun d hd => by simp [houtcomes d hd]

end

/-- A press with a counter, a state and strokes, and a sensor for those. -/
def pressDefs : List MetricDef := [⟨"good_count", .int64, "count"⟩, ⟨"state", .string, ""⟩, ⟨"strokes", .int64, ""⟩]

theorem distinct_pressDefs : ∀ e ∈ [("press-01", pressDefs)], (e.2.map MetricDef.name).Nodup := by decide

def pressLine : Identity := ⟨"pune", "line-01", [("press-01", pressDefs)], distinct_pressDefs⟩

def pressSnapshot : Snapshot :=
  ⟨[("good_count", some (.int 12)), ("state", some (.str "RUNNING")), ("strokes", some (.int 90))], [("strokes", 3)]⟩

def pressEvents : List (Event Snapshot) :=
  [.connect, .connack, .onConnect, .finish, .store "press-01" pressSnapshot, .check, .publish,
    .store "press-01" pressSnapshot, .check, .publish]

theorem dated_millis : ∀ t : Int, 0 < t → t < maxMs → (some (1000 * t) : Option Instant).isSome = true := by simp

def plainConversions : Conversions :=
  ⟨fun _ => none, fun _ => none, fun _ => "", fun t => some (1000 * t), dated_millis⟩

def pressSensors : List Sensor := [⟨5, 2, "strokes", none, false⟩, ⟨6, 3, "strokes", none, false⟩]

def pressAssets : List Asset := [⟨2, "press-01", false⟩, ⟨3, "press-02", false⟩]

def pressConsumer : Consumer := ⟨plainConversions, buildMetricMap pressSensors pressAssets, fun _ _ _ _ => false⟩

def pressData : Message Snapshot := .ddata "press-01" pressSnapshot 2

theorem pressData_inTime : InTime pressLine 1758000000123 pressData := by
  unfold InTime pressData carried
  decide

/-- The strokes alone, three milliseconds late. -/
example : (arrival pressConsumer pressLine 1758000000123 0 pressData).telemetryRows.map
    (fun row => (row.sensorId, row.time, row.quality)) = [(5, 1758000000126000, 192)] := by decide +kernel

/-! ## The sensors of the asset -/

/-- A sensor of an asset, neither of them deleted. -/
def SensorOf (sensors : List Sensor) (assets : List Asset) (assetCode metricName : String) (id : Uuid) : Prop :=
  ∃ s ∈ sensors, s.id = id ∧ s.metricName = metricName ∧ s.deleted = false ∧
    ∃ a ∈ assets, a.id = s.assetId ∧ a.code = assetCode ∧ a.deleted = false

section
variable {sensors : List Sensor} {assets : List Asset} {assetCode metricName : String}

theorem mem_sensorRows {i : SensorInfo} (h : i ∈ sensorRows sensors assets) :
    SensorOf sensors assets i.assetCode i.metricName i.sensorId := by
  obtain ⟨s, hs, hi⟩ := List.mem_flatMap.mp h
  obtain ⟨a, ha, rfl⟩ := List.mem_map.mp hi
  have hs := List.mem_filter.mp hs
  have ha := List.mem_filter.mp ha
  simp only [decide_not, Bool.decide_eq_true, Bool.not_eq_eq_eq_not, Bool.not_true, decide_eq_true_eq] at hs ha
  exact ⟨s, hs.1, rfl, rfl, hs.2, a, ha.1, by simpa using ha.2.1, rfl, by simpa using ha.2.2⟩

theorem exists_sensorRow {id : Uuid} (h : SensorOf sensors assets assetCode metricName id) :
    ∃ i ∈ sensorRows sensors assets, i.assetCode = assetCode ∧ i.metricName = metricName := by
  obtain ⟨s, hs, -, rfl, hlive, a, ha, hid, rfl, hkept⟩ := h
  refine ⟨⟨s.id, s.assetId, a.code, s.metricName, s.unit⟩, List.mem_flatMap.mpr ⟨s, ?_, ?_⟩, rfl, rfl⟩
  · exact List.mem_filter.mpr ⟨hs, by simp [hlive]⟩
  · exact List.mem_map.mpr ⟨a, List.mem_filter.mpr ⟨ha, by simp [hid, hkept]⟩, rfl⟩

theorem sensorOf_of_get? {i : SensorInfo} (h : (buildMetricMap sensors assets).get? (assetCode, metricName) = some i) :
    SensorOf sensors assets assetCode metricName i.sensorId := by
  rcases Dict.mem_of_get?_foldl_set h with ⟨hmem, hkey⟩ | hnone
  · obtain ⟨rfl, rfl⟩ := Prod.mk.inj hkey
    exact mem_sensorRows hmem
  · cases hnone

theorem exists_get?_metricMap {id : Uuid} (h : SensorOf sensors assets assetCode metricName id) :
    ∃ i, (buildMetricMap sensors assets).get? (assetCode, metricName) = some i := by
  obtain ⟨i, hi, rfl, rfl⟩ := exists_sensorRow h
  refine Option.ne_none_iff_exists'.mp (Dict.mem_keys_iff.mp (Dict.mem_keys_foldl_set.mpr (.inl ?_)))
  exact List.mem_map_of_mem (f := fun r : SensorInfo => (r.assetCode, r.metricName)) hi

variable {c : Consumer} (hmap : c.metricMap = buildMetricMap sensors assets)
include hmap

theorem sensorOf_of_info {i : SensorInfo} (h : c.info assetCode metricName = some i) :
    SensorOf sensors assets assetCode metricName i.sensorId ∨
      SensorOf sensors assets assetCode (assetCode ++ "." ++ metricName) i.sensorId := by
  unfold Consumer.info at h
  rw [hmap] at h
  rcases Option.or_eq_some_iff.mp h with hown | ⟨-, hfull⟩
  · exact .inl (sensorOf_of_get? hown)
  · split at hfull
    · exact .inl (sensorOf_of_get? hfull)
    · exact .inr (sensorOf_of_get? hfull)

theorem info_of_sensorOf {id : Uuid} (h : SensorOf sensors assets assetCode metricName id) :
    ∃ i, c.info assetCode metricName = some i ∧ SensorOf sensors assets assetCode metricName i.sensorId := by
  obtain ⟨i, hi⟩ := exists_get?_metricMap h
  refine ⟨i, ?_, sensorOf_of_get? hi⟩
  rw [Consumer.info, hmap, hi, Option.some_or]

end

section
variable {c : Consumer} {py : Builtins} {assetCode : String} {payloadTime : Option Int} {nowMs : Int} {m : MetricDict}

/-- What becomes a row. -/
theorem outcome_row {o : Outcome} {row : TelemetryRow} (h : c.outcome py assetCode payloadTime nowMs m = some o)
    (hrow : o.row = some row) : ∃ v info, m.value = some v ∧ c.info assetCode m.name = some info ∧
      row.sensorId = info.sensorId ∧ c.conversions.asFloat v = some (some row.value) := by
  unfold Consumer.outcome at h
  split at h
  · cases h
    cases hrow
  · rename_i v hv
    split at h
    · cases h
      cases hrow
    · split at h
      · cases h
        cases hrow
      · split at h
        · cases h
          cases hrow
        · rename_i info hinfo
          unfold Consumer.measure at h
          obtain ⟨y, hy, h⟩ := Option.bind_eq_some_iff.mp h
          cases y with
          | none =>
            cases h
            cases hrow
          | some y =>
            obtain ⟨quality, -, h⟩ := Option.bind_eq_some_iff.mp h
            obtain ⟨time, -, h⟩ := Option.bind_eq_some_iff.mp h
            split at h
            · cases h
            · cases h
              cases hrow
              exact ⟨v, info, hv, hinfo, rfl, hy⟩

/-- A number that a sensor is found for becomes a row, unless its handling raises. -/
theorem row_of_outcome {o : Outcome} {v : Scalar} {y : Floating binary64} {info : SensorInfo}
    (h : c.outcome py assetCode payloadTime nowMs m = some o) (hv : m.value = some v)
    (hy : c.conversions.asFloat v = some (some y)) (hcontrol : nodeControl m.name = false)
    (hstate : bare m.name ≠ "state") (hinfo : c.info assetCode m.name = some info) :
    ∃ row, o.row = some row ∧ row.value = y ∧ row.sensorId = info.sensorId := by
  unfold Consumer.outcome at h
  simp only [hv, hcontrol, Bool.false_eq_true, if_false, if_neg hstate, hinfo] at h
  unfold Consumer.measure at h
  simp only [hy, Option.bind_eq_bind, Option.bind_some] at h
  obtain ⟨quality, -, h⟩ := Option.bind_eq_some_iff.mp h
  obtain ⟨time, -, h⟩ := Option.bind_eq_some_iff.mp h
  split at h
  · cases h
  · cases h
    exact ⟨_, rfl, rfl, rfl⟩

end

section
variable {Bytes : Type} {py : Builtins} {pb : Protobuf Bytes} {c : Consumer} {nowMs : Int} {now : Instant}
  {topic : String} {payload : Bytes} {d : Drained}

/-- A message of a device, of which nothing raised. -/
structure Read (py : Builtins) (pb : Protobuf Bytes) (topic : String) (payload : Bytes) (assetCode : String)
    (decoded : PayloadDict) : Prop where
  topic : ∃ parsed, parseTopic py topic = .ok parsed ∧ (parsed.messageType = .ddata ∨ parsed.messageType = .dbirth) ∧
    parsed.deviceId = some assetCode
  payload : decodePayload py pb payload = .ok decoded

theorem processMessage_cases (h : c.processMessage py pb nowMs now topic payload = some d) :
    d = .nothing ∧ (∀ assetCode decoded, ¬ Read py pb topic payload assetCode decoded) ∨
      ∃ assetCode decoded, Read py pb topic payload assetCode decoded ∧
        c.drain py assetCode decoded.timestamp nowMs now .nothing decoded.metrics = some d := by
  obtain ⟨parsed, hparse, h⟩ := Option.bind_eq_some_iff.mp h
  have hparse := toOption_eq_some.mp hparse
  split at h
  · rename_i htype
    refine .inl ⟨(Option.some.inj h).symm, fun assetCode decoded hread => ?_⟩
    obtain ⟨parsed', hparse', htype', -⟩ := hread.topic
    obtain rfl := Except.ok.inj (hparse.symm.trans hparse')
    rcases htype' with hdata | hbirth
    · exact htype.1 hdata
    · exact htype.2 hbirth
  · rename_i htype
    have htype : parsed.messageType = .ddata ∨ parsed.messageType = .dbirth := by
      by_contra hother
      exact htype (not_or.mp hother)
    obtain ⟨decoded, hdecode, h⟩ := Option.bind_eq_some_iff.mp h
    have hdecode := toOption_eq_some.mp hdecode
    cases hdevice : parsed.deviceId with
    | none =>
      simp only [hdevice] at h
      refine .inl ⟨(Option.some.inj h).symm, fun assetCode decoded hread => ?_⟩
      obtain ⟨parsed', hparse', -, hdevice'⟩ := hread.topic
      obtain rfl := Except.ok.inj (hparse.symm.trans hparse')
      rw [hdevice] at hdevice'
      cases hdevice'
    | some assetCode =>
      simp only [hdevice] at h
      exact .inr ⟨assetCode, decoded, ⟨⟨parsed, hparse, htype, hdevice⟩, hdecode⟩, h⟩

theorem Read.unique {assetCode assetCode' : String} {decoded decoded' : PayloadDict}
    (h : Read py pb topic payload assetCode decoded) (h' : Read py pb topic payload assetCode' decoded') :
    assetCode = assetCode' ∧ decoded = decoded' := by
  obtain ⟨parsed, hparse, -, hdevice⟩ := h.topic
  obtain ⟨parsed', hparse', -, hdevice'⟩ := h'.topic
  obtain rfl := Except.ok.inj (hparse.symm.trans hparse')
  exact ⟨Option.some.inj (hdevice.symm.trans hdevice'), Except.ok.inj (h.payload.symm.trans h'.payload)⟩

end

end TwinVoice.Ingest.Telemetry
