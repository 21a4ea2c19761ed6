import TwinVoice.Basic
import TwinVoice.Lib.Dict
import TwinVoice.Lib.Filling
import TwinVoice.Pdm.Features

/-! # Features from stored telemetry

The server reads the telemetry of an asset in buckets of 10 seconds, fills the
gaps and computes the features of the window. A sensor without a reading in
the window gives way to the training medians of its features. -/

namespace TwinVoice.Pdm

open TwinVoice.Lib Filling
open TwinVoice.Sim (Double)

/-- A row of `telemetry`, with the metric name of its sensor. -/
structure Reading where
  time : Instant
  metric : String
  value : Double

/-- `SAMPLE_PERIOD_S`. -/
def samplePeriod : Duration := seconds 10

/-- `MIN_WINDOW_FILL`. -/
def minWindowFill : Rat := 1 / 2

/-- `time_bucket(:period, time)`. -/
def timeBucket (time : Instant) : Instant := time / samplePeriod * samplePeriod

structure ScoringWindow where
  start : Instant
  «end» : Instant
  frame : List FrameRow
  missing : List String
  fill : Rat

/-- The `avg` of a group, where there is one. What is not a number is a gap to pandas. -/
def average (values : List Double) : Option Double :=
  if values = [] then none
  else
    let value := (Double.sum values).div (.finite values.length)
    if value = .nan then none else some value

section
variable (telemetry : List Reading) (spec : FeatureSpec) («end» : Instant)

def windowStart : Instant := «end» - spec.windowSize * samplePeriod

/-- The value of a sensor in a bucket of the window. -/
def bucketValue (bucket : Instant) (name : String) : Option Double :=
  average ((telemetry.filter fun r => r.metric = name ∧ windowStart spec «end» ≤ r.time ∧ r.time < «end» ∧
    timeBucket r.time = bucket).map Reading.value)

/-- The column of a sensor. -/
def wide (name : String) : List (Option Double) :=
  (List.range spec.windowSize).map fun i : Nat =>
    bucketValue telemetry spec «end» (windowStart spec «end» + i * samplePeriod) name

/-- `wide.ffill().bfill().fillna(0.0)`. -/
def filled (name : String) : List Double :=
  (bfill (ffill none (wide telemetry spec «end» name))).map (·.getD (.finite 0))

/-- The number of buckets with a reading. -/
def populated : Nat :=
  (List.range spec.windowSize).countP fun i =>
    spec.sensorCols.any fun name => ((wide telemetry spec «end» name)[i]?.join).isSome

/-- The `window_size` buckets ending at `end`, none if too sparse. -/
def telemetryWindow : Option ScoringWindow :=
  let fill : Rat := populated telemetry spec «end» / spec.windowSize
  if 0 < spec.windowSize ∧ fill < minWindowFill then none
  else some {
    start := windowStart spec «end»
    «end» := «end»
    frame := (List.range spec.windowSize).map fun i name => (filled telemetry spec «end» name).getD i (.finite 0)
    missing := spec.sensorCols.filter fun name => (wide telemetry spec «end» name).all Option.isNone
    fill := fill }

end

structure LoadedModel where
  spec : FeatureSpec
  featureNames : List String
  median : Nat → Double

/-- `name.rsplit("_", 1)[0]`. -/
def sensorOf (name : String) : String :=
  match name.toList.reverse.dropWhile (· ≠ '_') with
  | [] => name
  | _ :: rest => String.ofList rest.reverse

/-- A feature, or nothing where it has to be imputed. -/
def measured (missing : List String) (row : List (String × Double)) (name : String) : Option Double :=
  match row.lookup name with
  | none => none
  | some value => if sensorOf name ∈ missing ∨ value.isFinite = false then none else some value

/-- The features in the order of the model, and the names of those imputed. -/
def featureVector (root : Rat → Rat) (loaded : LoadedModel) (window : ScoringWindow) :
    Option (List Double × List String) := do
  let spec := { loaded.spec with windowSize := window.frame.length, stride := window.frame.length }
  let features ← buildFeatures root window.frame spec
  let row := features.getLast?.getD []
  return (loaded.featureNames.zipIdx.map fun e => (measured window.missing row e.1).getD (loaded.median e.2),
    loaded.featureNames.filter fun name => (measured window.missing row name).isNone)

/-! ## Names of features -/

theorem sensorOf_featureName (sensor : String) (stat : Stat) : sensorOf (featureName sensor stat) = sensor := by
  have hreverse : (featureName sensor stat).toList.reverse = stat.name.toList.reverse ++ '_' :: sensor.toList.reverse := by
    simp [featureName]
  have hdrop : (featureName sensor stat).toList.reverse.dropWhile (· ≠ '_') = '_' :: sensor.toList.reverse := by
    rw [hreverse, List.dropWhile_append_of_pos]
    · rfl
    · intro c hc
      refine decide_eq_true ?_
      rintro rfl
      exact stat.underscore_not_mem_name (List.mem_reverse.mp hc)
  unfold sensorOf
  rw [hdrop]
  simp

theorem featureName_inj {sensor sensor' : String} {stat stat' : Stat}
    (h : featureName sensor stat = featureName sensor' stat') : sensor = sensor' ∧ stat = stat' := by
  have hsensor : sensor = sensor' := by
    rw [← sensorOf_featureName sensor stat, h, sensorOf_featureName]
  subst hsensor
  have hlist := congrArg String.toList h
  simp only [featureName, String.toList_append] at hlist
  have hname : stat.name = stat'.name := String.toList_inj.mp (List.append_cancel_left hlist)
  refine ⟨rfl, Option.some.inj ?_⟩
  rw [← Stat.ofName?_name stat, hname, Stat.ofName?_name]

/-- A named feature is the statistic of its sensor. -/
theorem lookup_features (root : Rat → Rat) {spec : FeatureSpec} (window : List FrameRow) {sensor : String} {stat : Stat}
    (hsensor : sensor ∈ spec.sensorCols) (hstat : stat ∈ spec.stats) :
    (features root spec window).lookup (featureName sensor stat) = some (windowStat root stat (window.map (· sensor))) := by
  refine Dict.get?_eq_some (List.mem_flatMap.mpr ⟨sensor, hsensor, List.mem_map.mpr ⟨stat, hstat, rfl⟩⟩) ?_
  intro w hw
  obtain ⟨sensor', -, hw⟩ := List.mem_flatMap.mp hw
  obtain ⟨stat', -, hw⟩ := List.mem_map.mp hw
  obtain ⟨hname, hvalue⟩ := Prod.mk.inj hw
  obtain ⟨rfl, rfl⟩ := featureName_inj hname
  exact hvalue.symm

theorem rollingWindows_whole {α : Type} (rows : List α) : rollingWindows rows rows.length rows.length = [rows] := by
  unfold rollingWindows
  rw [if_neg (Nat.lt_irrefl _), Nat.sub_self]
  simp

/-! ## Windows that are scored -/

theorem fill_lt_iff {count size : Nat} (h : 0 < size) : (count : Rat) / size < minWindowFill ↔ 2 * count < size := by
  have hsize : (0 : Rat) < size := Nat.cast_pos.mpr h
  rw [minWindowFill, div_lt_div_iff₀ hsize two_pos, one_mul, mul_comm]
  exact_mod_cast Iff.rfl

theorem telemetryWindow_isSome {telemetry : List Reading} {spec : FeatureSpec} {«end» : Instant}
    (h : spec.windowSize ≤ 2 * populated telemetry spec «end») : ∃ window, telemetryWindow telemetry spec «end» = some window := by
  refine ⟨_, if_neg ?_⟩
  intro hsparse
  have hlt := (fill_lt_iff hsparse.1).mp hsparse.2
  omega

theorem telemetryWindow_eq_some {telemetry : List Reading} {spec : FeatureSpec} {«end» : Instant} {window : ScoringWindow}
    (hpos : 0 < spec.windowSize) (h : telemetryWindow telemetry spec «end» = some window) :
    spec.windowSize ≤ 2 * populated telemetry spec «end» ∧
      window.frame = ((List.range spec.windowSize).map fun i name => (filled telemetry spec «end» name).getD i (.finite 0)) ∧
      window.missing = spec.sensorCols.filter fun name => (wide telemetry spec «end» name).all Option.isNone := by
  unfold telemetryWindow at h
  dsimp only at h
  split at h
  · cases h
  · rename_i hfilled
    cases h
    refine ⟨?_, rfl, rfl⟩
    by_contra hsparse
    exact hfilled ⟨hpos, (fill_lt_iff hpos).mpr (Nat.lt_of_not_le hsparse)⟩

theorem frame_ne_nil {telemetry : List Reading} {spec : FeatureSpec} {«end» : Instant} {window : ScoringWindow}
    (hpos : 0 < spec.windowSize) (h : telemetryWindow telemetry spec «end» = some window) : window.frame ≠ [] := by
  obtain ⟨-, hframe, -⟩ := telemetryWindow_eq_some hpos h
  intro hnil
  have hlength := congrArg List.length hframe
  rw [hnil, List.length_map, List.length_range] at hlength
  exact hpos.ne hlength

theorem map_getD_range {α : Type} (l : List α) (d : α) : ((List.range l.length).map fun i => l.getD i d) = l := by
  refine List.ext_getElem (by simp) ?_
  intro i _ hi
  simp [hi]

theorem length_filled (telemetry : List Reading) (spec : FeatureSpec) («end» : Instant) (name : String) :
    (filled telemetry spec «end» name).length = spec.windowSize := by
  rw [filled, List.length_map, bfill, List.length_reverse, length_ffill, List.length_reverse, length_ffill, wide,
    List.length_map, List.length_range]

/-- The column of a sensor in the frame. -/
theorem column_frame {telemetry : List Reading} {spec : FeatureSpec} {«end» : Instant} (name : String) :
    ((List.range spec.windowSize).map fun i name => (filled telemetry spec «end» name).getD i (.finite 0)).map
      (fun row : FrameRow => row name) = filled telemetry spec «end» name := by
  rw [List.map_map, ← length_filled telemetry spec «end» name]
  exact map_getD_range _ _

/-- The whole frame is one window. -/
theorem buildFeatures_whole (root : Rat → Rat) (spec : FeatureSpec) {frame : List FrameRow} (h : frame ≠ []) :
    buildFeatures root frame { spec with windowSize := frame.length, stride := frame.length } =
      some [features root spec frame] := by
  have hlength : frame.length ≠ 0 := fun hzero => h (List.length_eq_zero_iff.mp hzero)
  unfold buildFeatures
  rw [if_neg hlength, rollingWindows_whole]
  rfl

theorem features_congr (root : Rat → Rat) {spec : FeatureSpec} {frame frame' : List FrameRow}
    (h : ∀ name ∈ spec.sensorCols, (frame.map fun row => row name) = frame'.map fun row => row name) :
    features root spec frame = features root spec frame' := by
  unfold features
  refine List.flatMap_congr ?_
  intro sensor hsensor
  rw [h sensor hsensor]

theorem featureVector_eq (root : Rat → Rat) (model : LoadedModel) {window : ScoringWindow} (h : window.frame ≠ []) :
    ∃ imputed, featureVector root model window = some (model.featureNames.zipIdx.map fun e =>
      (measured window.missing (features root model.spec window.frame) e.1).getD (model.median e.2), imputed) := by
  unfold featureVector
  dsimp only
  rw [buildFeatures_whole root model.spec h]
  exact ⟨_, rfl⟩

/-- A gap at the beginning takes the first reading. -/
theorem filled_gap {telemetry : List Reading} {spec : FeatureSpec} {«end» : Instant} {name : String} {k : Nat} {v : Double}
    {rest : List (Option Double)} (h : wide telemetry spec «end» name = List.replicate k none ++ some v :: rest) :
    filled telemetry spec «end» name =
      List.replicate k v ++ v :: (ffill (some v) rest).map (·.getD (.finite 0)) := by
  rw [filled, h, ffill_gap, bfill_gap isSome_of_mem_ffill, List.map_append, List.map_replicate]
  rfl

theorem countP_range {α : Type} (l : List α) (q : Option α → Bool) :
    ((List.range l.length).countP fun i => q l[i]?) = l.countP fun x => q (some x) := by
  have hmap : ((List.range l.length).map fun i => l[i]?) = l.map some := by
    refine List.ext_getElem (by simp) ?_
    intro i _ hi
    simp at hi
    simp [hi]
  have hcount := congrArg (List.countP q) hmap
  rwa [List.countP_map, List.countP_map] at hcount

end TwinVoice.Pdm
