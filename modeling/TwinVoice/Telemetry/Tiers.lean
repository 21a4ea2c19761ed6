import Mathlib.Algebra.Order.Field.Rat
import Mathlib.Data.List.Sort
import TwinVoice.Basic
import TwinVoice.Lib.Grouping

/-! # The tiers of the telemetry

Readings of the last hours are served as they are, older ones from the
aggregates by minute and by hour. The aggregate by minute is made of the
readings, that by hour of the aggregate by minute. -/

namespace TwinVoice.Telemetry

open TwinVoice.Lib.Grouping

/-- A row of `telemetry`. -/
structure Reading where
  time : Instant
  sensorId : Uuid
  value : Rat
  quality : Int
  deriving DecidableEq

/-- A row of `telemetry_1m` or `telemetry_1h`. -/
structure Aggregate where
  bucket : Instant
  sensorId : Uuid
  avg : Option Rat
  min : Option Rat
  max : Option Rat
  std : Option Rat
  n : Nat
  deriving DecidableEq

/-- `time_bucket(width, t)`. -/
def timeBucket (width : Duration) (t : Instant) : Instant := t / width * width

/-- `avg(column)`: no value where all are null. -/
def avg (column : List (Option Rat)) : Option Rat :=
  let values := column.filterMap id
  if values = [] then none else some (mean values)

def minute : Duration := minutes 1

def hour : Duration := minutes 60

section
variable (stddev : List Rat → Option Rat)

/-- The row of `telemetry_1m` for the readings of a sensor in a minute. -/
def minuteRow (g : (Instant × Uuid) × List Reading) : Aggregate :=
  let values := g.2.map Reading.value
  ⟨g.1.1, g.1.2, avg (values.map some), values.min?, values.max?, stddev values, values.length⟩

/-- The row of `telemetry_1h` for the minutes of a sensor in an hour. -/
def hourRow (g : (Instant × Uuid) × List Aggregate) : Aggregate :=
  ⟨g.1.1, g.1.2, avg (g.2.map Aggregate.avg), (g.2.filterMap Aggregate.min).min?, (g.2.filterMap Aggregate.max).max?,
    avg (g.2.map Aggregate.std), (g.2.map Aggregate.n).sum⟩

def telemetry1m (telemetry : List Reading) : List Aggregate :=
  (groups (fun r => (timeBucket minute r.time, r.sensorId)) telemetry).map (minuteRow stddev)

def telemetry1h (telemetry : List Reading) : List Aggregate :=
  (groups (fun r => (timeBucket hour r.bucket, r.sensorId)) (telemetry1m stddev telemetry)).map hourRow

/-! ## Queries -/

inductive AggLevel
  | raw | oneMin | oneHour
  deriving DecidableEq

structure Sensor where
  id : Uuid
  assetId : Uuid
  code : String
  metricName : String
  unit : String
  deletedAt : Option Instant

structure Database where
  sensors : List Sensor
  telemetry : List Reading

structure TelemetryPoint where
  time : Instant
  value : Rat
  quality : Int

structure TelemetryAggPoint where
  bucket : Instant
  avg : Option Rat
  min : Option Rat
  max : Option Rat
  std : Option Rat
  n : Nat
  deriving DecidableEq

inductive Points
  | raw (points : List TelemetryPoint)
  | agg (points : List TelemetryAggPoint)

structure TelemetrySeries where
  sensorId : Uuid
  metricName : String
  unit : String
  points : Points

/-- `_resolve_sensors`. -/
def resolveSensors (db : Database) (assetId : Uuid) (sensorCodes : Option (List String)) : List Sensor :=
  (db.sensors.filter fun s => s.assetId = assetId ∧ s.deletedAt = none).filter fun s =>
    match sensorCodes with
    | none | some [] => true
    | some codes => codes.contains s.code

def chooseAgg (start stop : Instant) (agg : Option AggLevel) : AggLevel :=
  agg.getD (if stop - start ≤ minutes (6 * 60) then .raw else if stop - start ≤ minutes (7 * 24 * 60) then .oneMin else .oneHour)

def queryRaw (db : Database) (sensorIds : List Uuid) (start stop : Instant) : List Reading :=
  (db.telemetry.filter fun r => r.sensorId ∈ sensorIds ∧ start ≤ r.time ∧ r.time < stop).insertionSort
    fun r r' => r.time ≤ r'.time

/-- `query_1m` and `query_1h`, which differ in the aggregate they read. -/
def queryAggregate (rows : List Aggregate) (sensorIds : List Uuid) (start stop : Instant) : List Aggregate :=
  (rows.filter fun r => r.sensorId ∈ sensorIds ∧ start ≤ r.bucket ∧ r.bucket < stop).insertionSort
    fun r r' => r.bucket ≤ r'.bucket

def query1m (db : Database) : List Uuid → Instant → Instant → List Aggregate :=
  queryAggregate (telemetry1m stddev db.telemetry)

def query1h (db : Database) : List Uuid → Instant → Instant → List Aggregate :=
  queryAggregate (telemetry1h stddev db.telemetry)

def Reading.point (r : Reading) : TelemetryPoint := ⟨r.time, r.value, r.quality⟩

def Aggregate.point (r : Aggregate) : TelemetryAggPoint := ⟨r.bucket, r.avg, r.min, r.max, r.std, r.n⟩

/-- The points of one sensor among the rows of a query. -/
def pointsOf (db : Database) (sensorIds : List Uuid) (start stop : Instant) (agg : AggLevel) (sid : Uuid) : Points :=
  match agg with
  | .raw => .raw (((queryRaw db sensorIds start stop).filter fun r => r.sensorId = sid).map Reading.point)
  | .oneMin => .agg (((query1m stddev db sensorIds start stop).filter fun r => r.sensorId = sid).map Aggregate.point)
  | .oneHour => .agg (((query1h stddev db sensorIds start stop).filter fun r => r.sensorId = sid).map Aggregate.point)

def query (db : Database) (assetId : Uuid) (sensorCodes : Option (List String)) (start stop : Instant)
    (agg : Option AggLevel) : List TelemetrySeries :=
  let sensors := resolveSensors db assetId sensorCodes
  sensors.map fun s =>
    ⟨s.id, s.metricName, s.unit, pointsOf stddev db (sensors.map Sensor.id) start stop (chooseAgg start stop agg) s.id⟩

end

/-! ## What the tiers report -/

structure Summary where
  avg : Option Rat
  min : Option Rat
  max : Option Rat
  n : Nat
  deriving DecidableEq

def summary (values : List Rat) : Summary := ⟨avg (values.map some), values.min?, values.max?, values.length⟩

/-- One summary of the values, or none where there is no value. -/
def report (values : List Rat) : List Summary := if values = [] then [] else [summary values]

def Aggregate.summary (r : Aggregate) : Summary := ⟨r.avg, r.min, r.max, r.n⟩

def TelemetryAggPoint.summary (p : TelemetryAggPoint) : Summary := ⟨p.avg, p.min, p.max, p.n⟩

/-- The values of a sensor from `start` to `stop`. -/
def valuesIn (telemetry : List Reading) (sensorId : Uuid) (start stop : Instant) : List Rat :=
  (telemetry.filter fun r => r.sensorId = sensorId ∧ start ≤ r.time ∧ r.time < stop).map Reading.value

/-- The readings of a sensor in the hour of a bucket, minute by minute. -/
def minutesIn (telemetry : List Reading) (sensorId : Uuid) (bucket : Instant) : List (List Rat) :=
  (groups (fun r => (timeBucket minute r.time, r.sensorId))
    (telemetry.filter fun r => r.sensorId = sensorId ∧ bucket ≤ r.time ∧ r.time < bucket + hour)).map fun g =>
      g.2.map Reading.value

/-- The fill of the minutes of an hour and their averages do not vary together. -/
def Uncorrelated (telemetry : List Reading) (sensorId : Uuid) (bucket : Instant) : Prop :=
  covariance (minutesIn telemetry sensorId bucket) = 0

instance (telemetry : List Reading) (sensorId : Uuid) (bucket : Instant) : Decidable (Uncorrelated telemetry sensorId bucket) :=
  inferInstanceAs (Decidable (_ = _))

theorem timeBucket_eq_iff {width : Duration} (hwidth : 0 < width) {bucket t : Instant} (h : width ∣ bucket) :
    timeBucket width t = bucket ↔ bucket ≤ t ∧ t < bucket + width := by
  obtain ⟨q, rfl⟩ := h
  rw [timeBucket, Int.mul_comm width q, ← Int.ediv_eq_iff_of_pos hwidth]
  exact Int.mul_eq_mul_right_iff hwidth.ne'

theorem avg_map_some (values : List Rat) : avg (values.map some) = if values = [] then none else some (mean values) := by
  have hvalues : (values.map some).filterMap id = values := by simp
  unfold avg
  rw [hvalues]

theorem bucket_eq_iff {width : Duration} (hwidth : 0 < width) {bucket : Instant} (h : width ∣ bucket) (sensorId : Uuid)
    (r : Reading) :
    (timeBucket width r.time, r.sensorId) = (bucket, sensorId) ↔
      r.sensorId = sensorId ∧ bucket ≤ r.time ∧ r.time < bucket + width := by
  rw [Prod.mk.injEq, timeBucket_eq_iff hwidth h, and_comm]

theorem hour_of_minute (t : Instant) : timeBucket hour (timeBucket minute t) = timeBucket hour t := by
  have hnested : ∀ x : Int, x / 60000000 * 60000000 / 3600000000 * 3600000000 = x / 3600000000 * 3600000000 := by
    intro x
    omega
  exact hnested t

theorem mean_perm {xs ys : List Rat} (h : xs.Perm ys) : mean xs = mean ys := by
  rw [mean, mean, h.sum_eq, h.length_eq]

/-- A minute of the view tells what its readings do. -/
theorem telemetry1m_at (stddev : List Rat → Option Rat) (telemetry : List Reading) (sensorId : Uuid) {bucket : Instant}
    (h : minute ∣ bucket) :
    ((telemetry1m stddev telemetry).filter fun r => (r.bucket, r.sensorId) = (bucket, sensorId)).map Aggregate.summary =
      report (valuesIn telemetry sensorId bucket (bucket + minute)) := by
  have hrows : (telemetry.filter fun r => (timeBucket minute r.time, r.sensorId) = (bucket, sensorId)) =
      telemetry.filter fun r => r.sensorId = sensorId ∧ bucket ≤ r.time ∧ r.time < bucket + minute :=
    List.filter_congr fun r _ => decide_eq_decide.mpr (bucket_eq_iff (by decide) h sensorId r)
  have hkey : (telemetry1m stddev telemetry).filter (fun r => (r.bucket, r.sensorId) = (bucket, sensorId)) =
      ((groups (fun r => (timeBucket minute r.time, r.sensorId)) telemetry).filter fun g => g.1 = (bucket, sensorId)).map
        (minuteRow stddev) := List.filter_map
  rw [hkey, filter_groups_key, hrows, report, valuesIn]
  split
  · rename_i hnone
    rw [hnone]
    rfl
  · rename_i hsome
    rw [if_neg (mt List.map_eq_nil_iff.mp hsome)]
    rfl

/-- The rows of the minutes that make an hour. -/
theorem minutes_of_hour (stddev : List Rat → Option Rat) (telemetry : List Reading) (sensorId : Uuid) {bucket : Instant}
    (h : hour ∣ bucket) :
    ((telemetry1m stddev telemetry).filter fun r => (timeBucket hour r.bucket, r.sensorId) = (bucket, sensorId)) =
      (groups (fun r => (timeBucket minute r.time, r.sensorId))
        (telemetry.filter fun r => r.sensorId = sensorId ∧ bucket ≤ r.time ∧ r.time < bucket + hour)).map (minuteRow stddev) := by
  have hkey : (telemetry1m stddev telemetry).filter (fun r => (timeBucket hour r.bucket, r.sensorId) = (bucket, sensorId)) =
      ((groups (fun r => (timeBucket minute r.time, r.sensorId)) telemetry).filter fun g =>
        decide ((timeBucket hour g.1.1, g.1.2) = (bucket, sensorId))).map (minuteRow stddev) := List.filter_map
  rw [hkey, filter_groups fun k : Instant × Uuid => decide ((timeBucket hour k.1, k.2) = (bucket, sensorId))]
  refine congrArg _ (congrArg _ (List.filter_congr fun r _ => decide_eq_decide.mpr ?_))
  rw [hour_of_minute]
  exact bucket_eq_iff (by decide) h sensorId r

theorem minutesIn_ne_nil {telemetry : List Reading} {sensorId : Uuid} {bucket : Instant} {g : List Rat}
    (h : g ∈ minutesIn telemetry sensorId bucket) : g ≠ [] := by
  obtain ⟨rows, hrows, rfl⟩ := List.mem_map.mp h
  exact mt List.map_eq_nil_iff.mp (ne_nil_of_mem_groups hrows)

theorem flatten_minutesIn (telemetry : List Reading) (sensorId : Uuid) (bucket : Instant) :
    (minutesIn telemetry sensorId bucket).flatten.Perm (valuesIn telemetry sensorId bucket (bucket + hour)) := by
  have hflat : (minutesIn telemetry sensorId bucket).flatten =
      (((groups (fun r => (timeBucket minute r.time, r.sensorId))
        (telemetry.filter fun r => r.sensorId = sensorId ∧ bucket ≤ r.time ∧ r.time < bucket + hour)).map Prod.snd).flatten).map
          Reading.value := by
    rw [List.map_flatten, List.map_map]
    rfl
  rw [hflat]
  exact (flatten_groups_perm _ _).map _

/-- Of the row of an hour, all but the average is of the readings. -/
theorem hourRow_summary (stddev : List Rat → Option Rat) (k : Instant × Uuid) (gs : List ((Instant × Uuid) × List Reading))
    (h : ∀ g ∈ gs, g.2 ≠ []) (hne : gs ≠ []) :
    (hourRow (k, gs.map (minuteRow stddev))).summary =
      { summary (gs.map fun g => g.2.map Reading.value).flatten with
        avg := some (mean ((gs.map fun g => g.2.map Reading.value).map mean)) } := by
  have havg : (gs.map (minuteRow stddev)).map Aggregate.avg = (((gs.map fun g => g.2.map Reading.value).map mean).map some) := by
    rw [List.map_map, List.map_map, List.map_map]
    refine List.map_congr_left fun g hg => ?_
    show avg ((g.2.map Reading.value).map some) = some (mean (g.2.map Reading.value))
    rw [avg_map_some, if_neg (mt List.map_eq_nil_iff.mp (h g hg))]
  have hmin : (gs.map (minuteRow stddev)).filterMap Aggregate.min = (gs.map fun g => g.2.map Reading.value).filterMap List.min? := by
    rw [List.filterMap_map, List.filterMap_map]
    rfl
  have hmax : (gs.map (minuteRow stddev)).filterMap Aggregate.max = (gs.map fun g => g.2.map Reading.value).filterMap List.max? := by
    rw [List.filterMap_map, List.filterMap_map]
    rfl
  have hn : ((gs.map (minuteRow stddev)).map Aggregate.n).sum = (gs.map fun g => g.2.map Reading.value).flatten.length := by
    rw [List.length_flatten, List.map_map, List.map_map]
    rfl
  unfold hourRow Aggregate.summary summary
  dsimp only
  rw [havg, hmin, hmax, hn, min?_min?, max?_max?, avg_map_some, if_neg (by simpa using hne)]

theorem report_perm {values values' : List Rat} (h : values.Perm values') : report values = report values' := by
  have hnil : values = [] ↔ values' = [] := by
    rw [← List.length_eq_zero_iff, h.length_eq, List.length_eq_zero_iff]
  unfold report summary
  rw [avg_map_some, avg_map_some, mean_perm h, min?_congr fun x => h.mem_iff, max?_congr fun x => h.mem_iff, h.length_eq]
  simp only [hnil]

/-- An hour of the view tells what its readings do exactly if the fill of its minutes and their averages do
not vary together. -/
theorem telemetry1h_at (stddev : List Rat → Option Rat) (telemetry : List Reading) (sensorId : Uuid) {bucket : Instant}
    (h : hour ∣ bucket) :
    ((telemetry1h stddev telemetry).filter fun r => (r.bucket, r.sensorId) = (bucket, sensorId)).map Aggregate.summary =
        report (valuesIn telemetry sensorId bucket (bucket + hour)) ↔
      Uncorrelated telemetry sensorId bucket := by
  have hkey : (telemetry1h stddev telemetry).filter (fun r => (r.bucket, r.sensorId) = (bucket, sensorId)) =
      ((groups (fun r => (timeBucket hour r.bucket, r.sensorId)) (telemetry1m stddev telemetry)).filter
        fun g => g.1 = (bucket, sensorId)).map hourRow := List.filter_map
  rw [hkey, filter_groups_key, minutes_of_hour stddev telemetry sensorId h, Uncorrelated,
    ← mean_mean_eq_iff fun g hg => minutesIn_ne_nil hg, ← report_perm (flatten_minutesIn telemetry sensorId bucket), minutesIn]
  have hgroups := fun g => @ne_nil_of_mem_groups _ _ _ (fun r : Reading => (timeBucket minute r.time, r.sensorId))
    (telemetry.filter fun r => r.sensorId = sensorId ∧ bucket ≤ r.time ∧ r.time < bucket + hour) g
  generalize groups (fun r : Reading => (timeBucket minute r.time, r.sensorId)) _ = gs at hgroups ⊢
  by_cases hgs : gs = []
  · subst hgs
    simp [report]
  · have hvalues : (gs.map fun g => g.2.map Reading.value).flatten ≠ [] := by
      intro hnil
      obtain ⟨g, hg⟩ := List.exists_mem_of_ne_nil gs hgs
      exact hgroups g hg (List.map_eq_nil_iff.mp (List.flatten_eq_nil_iff.mp hnil _ (List.mem_map_of_mem hg)))
    rw [if_neg (by simpa using hgs), report, if_neg hvalues, List.map_singleton, List.map_singleton,
      hourRow_summary stddev _ gs hgroups hgs, List.singleton_inj]
    have havg := avg_map_some (gs.map fun g => g.2.map Reading.value).flatten
    rw [if_neg hvalues] at havg
    constructor
    · intro heq
      exact Option.some.inj ((congrArg Summary.avg heq).trans havg)
    · intro heq
      rw [heq, ← havg]
      rfl

/-! ## What a query reports -/

/-- The length of the buckets of a tier. -/
def AggLevel.width : AggLevel → Duration
  | .oneMin => minute
  | _ => hour

/-- The points of a series tell what the readings of the sensor do: all of its readings from `start` to
`stop`, or one summary for every bucket that begins there and holds readings. -/
def Faithful (db : Database) (start stop : Instant) (agg : AggLevel) (s : TelemetrySeries) : Prop :=
  match s.points with
  | .raw points => (points.map TelemetryPoint.value).Perm (valuesIn db.telemetry s.sensorId start stop)
  | .agg points => ∀ bucket, agg.width ∣ bucket → start ≤ bucket → bucket < stop →
      (points.filter fun p => p.bucket = bucket).map TelemetryAggPoint.summary =
        report (valuesIn db.telemetry s.sensorId bucket (bucket + agg.width))

theorem eq_of_perm_of_length_le {α : Type*} {xs ys : List α} (h : xs.Perm ys) (hlength : ys.length ≤ 1) : xs = ys := by
  match ys with
  | [] => exact List.perm_nil.mp h
  | [y] => exact List.perm_singleton.mp h
  | y :: y' :: ys => simp at hlength

/-- Of a bucket in range a series has what the aggregate has, as long as that is one row. -/
theorem points_at {rows : List Aggregate} {sensorIds : List Uuid} {sid : Uuid} (hsid : sid ∈ sensorIds)
    {start stop bucket : Instant} (hstart : start ≤ bucket) (hstop : bucket < stop)
    (hone : (rows.filter fun r => (r.bucket, r.sensorId) = (bucket, sid)).length ≤ 1) :
    ((((queryAggregate rows sensorIds start stop).filter fun r => r.sensorId = sid).map Aggregate.point).filter
        fun p => p.bucket = bucket).map TelemetryAggPoint.summary =
      (rows.filter fun r => (r.bucket, r.sensorId) = (bucket, sid)).map Aggregate.summary := by
  have hperm := List.perm_insertionSort (fun r r' : Aggregate => r.bucket ≤ r'.bucket)
    (rows.filter fun r => r.sensorId ∈ sensorIds ∧ start ≤ r.bucket ∧ r.bucket < stop)
  have hsame : (((rows.filter fun r => r.sensorId ∈ sensorIds ∧ start ≤ r.bucket ∧ r.bucket < stop).filter
      fun r => r.sensorId = sid).filter fun r => r.bucket = bucket) =
        rows.filter fun r => (r.bucket, r.sensorId) = (bucket, sid) := by
    rw [List.filter_filter, List.filter_filter]
    refine List.filter_congr fun r _ => ?_
    by_cases hr : r.bucket = bucket ∧ r.sensorId = sid
    · simp [hr.1, hr.2, hsid, hstart, hstop]
    · have hkey : ¬ (r.bucket, r.sensorId) = (bucket, sid) := fun h => hr (Prod.mk.inj h)
      rw [decide_eq_false hkey]
      simp only [Bool.and_eq_false_iff, decide_eq_false_iff_not]
      grind
  have hrows := ((hperm.filter fun r => decide (r.sensorId = sid)).filter fun r => decide (r.bucket = bucket))
  rw [hsame] at hrows
  have heq := eq_of_perm_of_length_le hrows hone
  rw [List.filter_map, List.map_map]
  exact congrArg (List.map Aggregate.summary) heq

theorem telemetry1m_one (stddev : List Rat → Option Rat) (telemetry : List Reading) (bucket : Instant) (sid : Uuid) :
    ((telemetry1m stddev telemetry).filter fun r => (r.bucket, r.sensorId) = (bucket, sid)).length ≤ 1 := by
  rw [telemetry1m, List.filter_map, List.length_map]
  exact length_filter_groups_key_le (bucket, sid) _ _

theorem telemetry1h_one (stddev : List Rat → Option Rat) (telemetry : List Reading) (bucket : Instant) (sid : Uuid) :
    ((telemetry1h stddev telemetry).filter fun r => (r.bucket, r.sensorId) = (bucket, sid)).length ≤ 1 := by
  rw [telemetry1h, List.filter_map, List.length_map]
  exact length_filter_groups_key_le (bucket, sid) _ _

/-- A query tells what the readings do, except where it reads an hour of unevenly filled minutes whose
averages vary with the fill. -/
theorem query_faithful_iff (stddev : List Rat → Option Rat) (db : Database) (assetId : Uuid)
    (sensorCodes : Option (List String)) (start stop : Instant) (agg : Option AggLevel) :
    (∀ s ∈ query stddev db assetId sensorCodes start stop agg, Faithful db start stop (chooseAgg start stop agg) s) ↔
      (chooseAgg start stop agg = .oneHour → ∀ sensor ∈ resolveSensors db assetId sensorCodes,
        ∀ bucket, hour ∣ bucket → start ≤ bucket → bucket < stop → Uncorrelated db.telemetry sensor.id bucket) := by
  unfold query
  generalize resolveSensors db assetId sensorCodes = sensors
  have hids : ∀ s ∈ sensors, s.id ∈ sensors.map Sensor.id := fun s hs => List.mem_map_of_mem hs
  rw [List.forall_mem_map]
  cases chooseAgg start stop agg with
  | raw =>
    refine iff_of_true (fun s hs => ?_) (fun h => by cases h)
    show (List.map TelemetryPoint.value (List.map Reading.point _)).Perm _
    rw [List.map_map]
    refine List.Perm.map _ (((List.perm_insertionSort _ _).filter _).trans (.of_eq ?_))
    rw [List.filter_filter]
    refine List.filter_congr fun r _ => ?_
    by_cases hr : r.sensorId = s.id
    · simp [hr, hids s hs]
    · simp [hr]
  | oneMin =>
    refine iff_of_true (fun s hs bucket hbucket hstart hstop => ?_) (fun h => by cases h)
    exact (points_at (hids s hs) hstart hstop (telemetry1m_one stddev db.telemetry bucket s.id)).trans
      (telemetry1m_at stddev db.telemetry s.id hbucket)
  | oneHour =>
    have hpoints := fun s hs bucket hstart hstop =>
      @points_at (telemetry1h stddev db.telemetry) _ s.id (hids s hs) start stop bucket hstart hstop
        (telemetry1h_one stddev db.telemetry bucket s.id)
    constructor
    · intro h _ s hs bucket hbucket hstart hstop
      exact (telemetry1h_at stddev db.telemetry s.id hbucket).mp
        ((hpoints s hs bucket hstart hstop).symm.trans (h s hs bucket hbucket hstart hstop))
    · intro h s hs bucket hbucket hstart hstop
      exact (hpoints s hs bucket hstart hstop).trans
        ((telemetry1h_at stddev db.telemetry s.id hbucket).mpr (h rfl s hs bucket hbucket hstart hstop))

/-- Two readings of zero in one minute and one of three in the next. -/
def unevenHour : List Reading := [⟨0, 1, 0, 192⟩, ⟨30000000, 1, 0, 192⟩, ⟨60000000, 1, 3, 192⟩]

/-- The hour averages one and is reported with one and a half. -/
theorem uneven_hour_average_differs :
    ((telemetry1h (fun _ => none) unevenHour).filter fun r => (r.bucket, r.sensorId) = (0, 1)).map Aggregate.summary ≠
      report (valuesIn unevenHour 1 0 hour) := by
  decide +kernel

/-- Evenly filled minutes are no cause for a difference. -/
theorem uncorrelated_of_even {telemetry : List Reading} {sensorId : Uuid} {bucket : Instant} {n : Nat}
    (h : ∀ g ∈ minutesIn telemetry sensorId bucket, g.length = n) : Uncorrelated telemetry sensorId bucket :=
  covariance_of_even h

end TwinVoice.Telemetry
