import TwinVoice.Edge.Features
import TwinVoice.Pdm.Scoring

/-! # Edge and server features

The edge and the server fill the gaps of a window by themselves. The edge
carries in what a sensor read before the window, the server takes its first
reading in it; the edge counts a sensor that it has never seen as zero, the
server imputes what it has no reading for. -/

namespace TwinVoice.Pdm

open TwinVoice.Lib Filling TwinVoice.Edge
open TwinVoice.Sim (Double)

/-- One sample for each bucket from the bucket `first` on. -/
def OnePerBucket (first : Int) (samples : List Sample) : Prop :=
  ∀ (i : Nat) x, samples[i]? = some x → x.time / samplePeriod = first + i

/-- What the platform stores of a sample, given the metrics that it has a sensor for. -/
def storedOf (sensors : List String) (x : Sample) : List Reading :=
  sensors.dedup.filterMap fun name => (x.metrics name).map fun value => ⟨x.time, name, value⟩

def stored (sensors : List String) (samples : List Sample) : List Reading := samples.flatMap (storedOf sensors)

/-- The end of the bucket of the last sample. -/
def endOf (first : Int) (samples : List Sample) : Instant := (first + samples.length) * samplePeriod

/-- The samples of the window. -/
def windowOf (spec : FeatureSpec) (samples : List Sample) : List Sample :=
  samples.drop (samples.length - spec.windowSize)

def before (spec : FeatureSpec) (samples : List Sample) : List Sample :=
  samples.take (samples.length - spec.windowSize)

/-- The server rebuilds what the edge computes. -/
def Agree (root : Rat → Rat) (model : LoadedModel) (telemetry : List Reading) («end» : Instant) (w : RollingWindow) : Prop :=
  ∀ x, w.vector root model.spec model.featureNames = some x →
    ∃ window imputed, telemetryWindow telemetry model.spec «end» = some window ∧
      featureVector root model window = some (x, imputed)

/-- What the edge carries into the window, 0 for a sensor never seen. -/
def carriedIn (spec : FeatureSpec) (samples : List Sample) (name : String) : Double :=
  (carried none (readings (before spec samples) name)).getD (.finite 0)

/-- The two ways to fill the gaps of the window come to the same. -/
structure Alike (sensors : List String) (spec : FeatureSpec) (samples : List Sample) : Prop where
  sensors : ∀ name ∈ spec.sensorCols, name ∈ sensors
  finite : ∀ name ∈ spec.sensorCols, ∀ v, some v ∈ readings (windowOf spec samples) name → v.Finite
  first : ∀ name ∈ spec.sensorCols, ∃ v, first? (readings (windowOf spec samples) name) = some v ∧
    ((readings (windowOf spec samples) name).head? = some none → carriedIn spec samples name = v)
  fill : spec.windowSize ≤ 2 * (windowOf spec samples).countP fun x =>
    spec.sensorCols.any fun name => (x.metrics name).isSome

/-! ## What the server reads -/

theorem average_singleton (v : Double) : average [v] = (some v).filter (· ≠ .nan) := by
  have hone : ¬ (1 : Rat) < 0 := by decide
  cases v <;> simp [average, Double.sum, Double.add, Double.div, Option.filter, hone]

theorem flatMap_of_only {α β : Type} {l : List α} {f : α → List β} {k : Nat} {x : α} (hk : l[k]? = some x)
    (h : ∀ j y, l[j]? = some y → j ≠ k → f y = []) : l.flatMap f = f x := by
  induction l generalizing k with
  | nil => cases hk
  | cons a l ih =>
    rw [List.flatMap_cons]
    cases k with
    | zero =>
      cases hk
      have hrest : l.flatMap f = [] := by
        rw [List.flatMap_eq_nil_iff]
        intro y hy
        obtain ⟨j, hj⟩ := List.mem_iff_getElem?.mp hy
        exact h (j + 1) y hj (Nat.succ_ne_zero j)
      rw [hrest, List.append_nil]
    | succ k =>
      rw [h 0 a rfl (Nat.succ_ne_zero k).symm, List.nil_append]
      refine ih hk ?_
      intro j y hj hne
      exact h (j + 1) y hj fun heq => hne (Nat.succ_inj.mp heq)

/-- The values of one sensor among the readings of a sample. -/
theorem values_of_sample {names : List String} (hnodup : names.Nodup) (x : Sample) (name : String) :
    (((names.filterMap fun n => (x.metrics n).map fun value => (⟨x.time, n, value⟩ : Reading)).filter
      fun r => r.metric = name).map Reading.value) = if name ∈ names then (x.metrics name).toList else [] := by
  induction names with
  | nil => rfl
  | cons n names ih =>
    obtain ⟨hn, hrest⟩ := List.nodup_cons.mp hnodup
    by_cases hname : n = name
    · subst hname
      have hnone := ih hrest
      rw [if_neg hn] at hnone
      cases hvalue : x.metrics n with
      | none => simp [hvalue, hnone]
      | some v => simp [hvalue, hnone]
    · have hsame := ih hrest
      cases hvalue : x.metrics n with
      | none => simp [hvalue, hsame, Ne.symm hname]
      | some v => simp [hvalue, hsame, hname, Ne.symm hname]

theorem time_of_storedOf {sensors : List String} {x : Sample} {r : Reading} (h : r ∈ storedOf sensors x) : r.time = x.time := by
  obtain ⟨name, -, hr⟩ := List.mem_filterMap.mp h
  obtain ⟨v, -, rfl⟩ := Option.map_eq_some_iff.mp hr
  rfl

theorem time_in_window {t first k count size : Int} (h : t / samplePeriod = first + k) (hk : count - size ≤ k)
    (hcount : k < count) : (first + count) * samplePeriod - size * samplePeriod ≤ t ∧ t < (first + count) * samplePeriod ∧
      t / samplePeriod * samplePeriod = (first + k) * samplePeriod := by
  have hperiod : (samplePeriod : Int) = 10000000 := rfl
  rw [hperiod] at h ⊢
  omega

theorem same_bucket {t first j k : Int} (h : t / samplePeriod = first + j)
    (hbucket : t / samplePeriod * samplePeriod = (first + k) * samplePeriod) : j = k := by
  have hperiod : (samplePeriod : Int) = 10000000 := rfl
  rw [hperiod] at h hbucket
  omega

/-- A bucket of the window holds the readings of its sample. -/
theorem bucketValue_stored {sensors : List String} {spec : FeatureSpec} {samples : List Sample} {first : Int}
    (h : OnePerBucket first samples) {k : Nat} {x : Sample} (hx : samples[k]? = some x)
    (hk : samples.length - spec.windowSize ≤ k) (name : String) :
    bucketValue (stored sensors samples) spec (endOf first samples) ((first + k) * samplePeriod) name =
      if name ∈ sensors then (x.metrics name).filter (· ≠ .nan) else none := by
  have hklt : k < samples.length := (List.getElem?_eq_some_iff.mp hx).1
  have hgroup : (stored sensors samples).filter (fun r => r.metric = name ∧
      windowStart spec (endOf first samples) ≤ r.time ∧ r.time < endOf first samples ∧
      timeBucket r.time = (first + k) * samplePeriod) = (storedOf sensors x).filter fun r => r.metric = name := by
    show ((samples.flatMap (storedOf sensors)).filter _) = _
    rw [List.filter_flatMap, flatMap_of_only hx]
    · refine List.filter_congr ?_
      intro r hr
      rw [time_of_storedOf hr]
      refine decide_eq_decide.mpr (and_iff_left ?_)
      exact time_in_window (h k x hx) (by omega) (by omega)
    · intro j y hy hne
      refine List.filter_eq_nil_iff.mpr ?_
      intro r hr hcond
      have htime := (of_decide_eq_true hcond).2.2.2
      rw [time_of_storedOf hr] at htime
      exact hne (Int.ofNat_inj.mp (same_bucket (h j y hy) htime))
  rw [bucketValue, hgroup, storedOf, values_of_sample (List.nodup_dedup sensors)]
  by_cases hname : name ∈ sensors
  · rw [if_pos (List.mem_dedup.mpr hname), if_pos hname]
    cases x.metrics name with
    | none => rfl
    | some v => exact average_singleton v
  · rw [if_neg fun hmem => hname (List.mem_dedup.mp hmem), if_neg hname]
    rfl

theorem wide_stored {sensors : List String} {spec : FeatureSpec} {samples : List Sample} {first : Int}
    (h : OnePerBucket first samples) (hsize : spec.windowSize ≤ samples.length) (name : String) :
    wide (stored sensors samples) spec (endOf first samples) name =
      (windowOf spec samples).map fun x => if name ∈ sensors then (x.metrics name).filter (· ≠ .nan) else none := by
  refine List.ext_getElem? ?_
  intro i
  rw [wide, List.getElem?_map, List.getElem?_map, windowOf, List.getElem?_drop]
  by_cases hi : i < spec.windowSize
  · have hk : samples.length - spec.windowSize + i < samples.length := by omega
    have hx := List.getElem?_eq_getElem hk
    have hbucket : windowStart spec (endOf first samples) + i * samplePeriod =
        (first + ((samples.length - spec.windowSize + i : Nat) : Int)) * samplePeriod := by
      show ((first + samples.length) * 10000000 - spec.windowSize * 10000000 : Int) + i * 10000000 =
        (first + ((samples.length - spec.windowSize + i : Nat) : Int)) * 10000000
      omega
    rw [List.getElem?_range hi, hx, Option.map_some, Option.map_some, hbucket,
      bucketValue_stored h hx (Nat.le_add_right _ _)]
  · have hnone : samples[samples.length - spec.windowSize + i]? = none := List.getElem?_eq_none (by omega)
    rw [hnone, List.getElem?_eq_none (by rw [List.length_range]; omega)]
    rfl

/-! ## What the edge reads -/

theorem readings_split (spec : FeatureSpec) (samples : List Sample) (name : String) :
    readings samples name = readings (before spec samples) name ++ readings (windowOf spec samples) name := by
  rw [readings, readings, readings, ← List.map_append, before, windowOf, List.take_append_drop]

/-- A window that is due holds the samples of its buckets, filled from what came before them. -/
theorem edge_column {spec : FeatureSpec} {samples : List Sample} (hdue : (RollingWindow.run spec samples).2 = true)
    {name : String} (hname : name ∈ spec.sensorCols) :
    ((RollingWindow.run spec samples).1.rows.map Prod.snd).map (fun row => row name) =
      (ffill (carried none (readings (before spec samples) name)) (readings (windowOf spec samples) name)).map
        (·.getD (.finite 0)) := by
  have htracks := RollingWindow.tracks_run spec samples
  have hlength : (ffill none (readings (before spec samples) name)).length = samples.length - spec.windowSize := by
    rw [length_ffill, readings, List.length_map, before, List.length_take]
    exact Nat.min_eq_left (Nat.sub_le _ _)
  rw [List.map_map]
  show (RollingWindow.run spec samples).1.rows.map (fun row => row.2 name) = _
  rw [htracks.column name hname, RollingWindow.length_of_due hdue, readings_split spec samples name, ffill_append,
    ← hlength, List.drop_left]

theorem windowSize_le {spec : FeatureSpec} {samples : List Sample} (hdue : (RollingWindow.run spec samples).2 = true) :
    spec.windowSize ≤ samples.length := by
  rw [← RollingWindow.length_of_due hdue]
  exact (RollingWindow.tracks_run spec samples).length

/-- The vector of a due window. -/
theorem vector_eq (root : Rat → Rat) {spec : FeatureSpec} {samples : List Sample} (hpos : 0 < spec.windowSize)
    (hdue : (RollingWindow.run spec samples).2 = true) (featureNames : List String) :
    (RollingWindow.run spec samples).1.vector root spec featureNames =
      some (featureNames.map fun name => ((features root spec
        ((RollingWindow.run spec samples).1.rows.map Prod.snd)).lookup name).getD (.finite 0)) := by
  have hlength : ((RollingWindow.run spec samples).1.rows.map Prod.snd).length = spec.windowSize := by
    rw [List.length_map]
    exact RollingWindow.length_of_due hdue
  have hne : (RollingWindow.run spec samples).1.rows.map Prod.snd ≠ [] := by
    intro hnil
    rw [hnil] at hlength
    exact hpos.ne hlength
  have hbuilt := buildFeatures_whole root spec hne
  unfold RollingWindow.vector
  rw [hlength] at hbuilt
  rw [hbuilt]
  rfl

/-- A gap at the beginning takes what is carried in. -/
theorem edge_gap {spec : FeatureSpec} {samples : List Sample} (hdue : (RollingWindow.run spec samples).2 = true)
    {name : String} (hname : name ∈ spec.sensorCols) {k : Nat} {v : Double} {rest : List (Option Double)}
    (h : readings (windowOf spec samples) name = List.replicate k none ++ some v :: rest) :
    ((RollingWindow.run spec samples).1.rows.map Prod.snd).map (fun row => row name) =
      List.replicate k (carriedIn spec samples name) ++ v :: (ffill (some v) rest).map (·.getD (.finite 0)) := by
  rw [edge_column hdue hname, h, ffill_gap, List.map_append, List.map_replicate]
  rfl

/-! ## Agreement -/

section
variable {sensors : List String} {spec : FeatureSpec} {samples : List Sample} {first : Int}

theorem wide_eq_readings (hpaced : OnePerBucket first samples) (hsize : spec.windowSize ≤ samples.length) {name : String}
    (hsensor : name ∈ sensors) (hfinite : ∀ v, some v ∈ readings (windowOf spec samples) name → v.Finite) :
    wide (stored sensors samples) spec (endOf first samples) name = readings (windowOf spec samples) name := by
  rw [wide_stored hpaced hsize]
  refine List.map_congr_left ?_
  intro x hx
  rw [if_pos hsensor]
  cases hvalue : x.metrics name with
  | none => rfl
  | some v =>
    obtain ⟨q, rfl⟩ := hfinite v (hvalue ▸ List.mem_map_of_mem hx)
    rfl

theorem populated_eq (hpaced : OnePerBucket first samples) (hsize : spec.windowSize ≤ samples.length)
    (hsensors : ∀ name ∈ spec.sensorCols, name ∈ sensors)
    (hfinite : ∀ name ∈ spec.sensorCols, ∀ v, some v ∈ readings (windowOf spec samples) name → v.Finite) :
    populated (stored sensors samples) spec (endOf first samples) =
      (windowOf spec samples).countP fun x => spec.sensorCols.any fun name => (x.metrics name).isSome := by
  have hlength : (windowOf spec samples).length = spec.windowSize := by
    rw [windowOf, List.length_drop]
    omega
  have hcount := countP_range (windowOf spec samples) fun x =>
    spec.sensorCols.any fun name => (x.map fun x => x.metrics name).join.isSome
  rw [hlength] at hcount
  refine Eq.trans ?_ hcount
  refine List.countP_congr ?_
  intro i _
  rw [List.any_eq_true, List.any_eq_true]
  refine exists_congr fun name => and_congr_right fun hname => ?_
  rw [wide_eq_readings hpaced hsize (hsensors name hname) (hfinite name hname), readings, List.getElem?_map]

/-- The frames of the edge and of the server have the same columns. -/
theorem column_eq (h : Alike sensors spec samples) (hpaced : OnePerBucket first samples)
    (hdue : (RollingWindow.run spec samples).2 = true) {name : String} (hname : name ∈ spec.sensorCols) :
    ((RollingWindow.run spec samples).1.rows.map Prod.snd).map (fun row => row name) =
      filled (stored sensors samples) spec (endOf first samples) name := by
  have hwide := wide_eq_readings hpaced (windowSize_le hdue) (h.sensors name hname) (h.finite name hname)
  obtain ⟨v, hfirst, hcarried⟩ := h.first name hname
  rcases eq_gap (readings (windowOf spec samples) name) with hnone | ⟨k, w, rest, hgap⟩
  · rw [hnone, first?_replicate_none] at hfirst
    cases hfirst
  · rw [hgap, first?_gap] at hfirst
    cases hfirst
    rw [edge_gap hdue hname hgap, filled_gap (hwide.trans hgap)]
    cases k with
    | zero => rfl
    | succ k => rw [hcarried (by rw [hgap]; rfl)]

theorem finite_filled (h : Alike sensors spec samples) (hpaced : OnePerBucket first samples)
    (hsize : spec.windowSize ≤ samples.length) {name : String} (hname : name ∈ spec.sensorCols) :
    ∀ x ∈ filled (stored sensors samples) spec (endOf first samples) name, x.Finite := by
  have hfinite := h.finite name hname
  have hwide := wide_eq_readings hpaced hsize (h.sensors name hname) hfinite
  rcases eq_gap (readings (windowOf spec samples) name) with hnone | ⟨k, v, rest, hgap⟩
  · obtain ⟨v, hfirst, -⟩ := h.first name hname
    rw [hnone, first?_replicate_none] at hfirst
    cases hfirst
  · rw [hgap] at hfinite
    have hv : v.Finite := hfinite v (by simp)
    have hrest : ∀ w, some w ∈ ffill (some v) rest → w.Finite := by
      refine forall_mem_ffill ?_ fun w hw => hfinite w (by simp [hw])
      intro w hw
      cases hw
      exact hv
    rw [filled_gap (hwide.trans hgap)]
    intro x hx
    rcases List.mem_append.mp hx with hx | hx
    · rw [List.eq_of_mem_replicate hx]
      exact hv
    · rcases List.mem_cons.mp hx with rfl | hx
      · exact hv
      · obtain ⟨y, hy, rfl⟩ := List.mem_map.mp hx
        obtain ⟨w, rfl⟩ := Option.isSome_iff_exists.mp (isSome_of_mem_ffill y hy)
        exact hrest w hy

/-- A feature of the spec is measured, with the value that the edge has for it. -/
theorem measured_eq (root : Rat → Rat) (h : Alike sensors spec samples) (hpaced : OnePerBucket first samples)
    (hpos : 0 < spec.windowSize) (hdue : (RollingWindow.run spec samples).2 = true) {window : ScoringWindow}
    (hwindow : telemetryWindow (stored sensors samples) spec (endOf first samples) = some window) {name : String}
    (hname : name ∈ featureNames spec) :
    ∃ value, measured window.missing (features root spec window.frame) name = some value ∧
      (features root spec ((RollingWindow.run spec samples).1.rows.map Prod.snd)).lookup name = some value := by
  obtain ⟨-, hframe, hmissing⟩ := telemetryWindow_eq_some hpos hwindow
  obtain ⟨sensor, hsensor, hname⟩ := List.mem_flatMap.mp hname
  obtain ⟨stat, hstat, rfl⟩ := List.mem_map.mp hname
  have hsame : features root spec ((RollingWindow.run spec samples).1.rows.map Prod.snd) =
      features root spec window.frame := by
    refine features_congr root fun name hname => ?_
    rw [hframe, column_frame, column_eq h hpaced hdue hname]
  have hcolumn : window.frame.map (fun row => row sensor) =
      filled (stored sensors samples) spec (endOf first samples) sensor := by
    rw [hframe, column_frame]
  have hne : filled (stored sensors samples) spec (endOf first samples) sensor ≠ [] := by
    intro hnil
    have hlength := length_filled (stored sensors samples) spec (endOf first samples) sensor
    rw [hnil] at hlength
    exact hpos.ne hlength
  have hpresent : sensor ∉ window.missing := by
    rw [hmissing]
    intro hmem
    have hall := (List.mem_filter.mp hmem).2
    rw [wide_eq_readings hpaced (windowSize_le hdue) (h.sensors sensor hsensor) (h.finite sensor hsensor)] at hall
    obtain ⟨v, hfirst, -⟩ := h.first sensor hsensor
    exact absurd (List.all_eq_true.mp hall _ (mem_of_first? hfirst)) (by simp)
  have hfinite := finite_windowStat root (finite_filled h hpaced (windowSize_le hdue) hsensor) hne stat
  have hlookup := lookup_features root window.frame hsensor hstat
  rw [hcolumn] at hlookup
  refine ⟨_, ?_, hsame ▸ hlookup⟩
  unfold measured
  rw [hlookup]
  dsimp only
  rw [if_neg]
  rw [sensorOf_featureName, Double.isFinite_iff.mpr hfinite]
  simp [hpresent]

theorem agree_of_alike (root : Rat → Rat) (h : Alike sensors spec samples) (hpaced : OnePerBucket first samples)
    (hpos : 0 < spec.windowSize) (hdue : (RollingWindow.run spec samples).2 = true) {names : List String}
    (hnames : ∀ name ∈ names, name ∈ featureNames spec) (median : Nat → Double) :
    Agree root ⟨spec, names, median⟩ (stored sensors samples) (endOf first samples) (RollingWindow.run spec samples).1 := by
  intro x hx
  have hfill : spec.windowSize ≤ 2 * populated (stored sensors samples) spec (endOf first samples) := by
    rw [populated_eq hpaced (windowSize_le hdue) h.sensors h.finite]
    exact h.fill
  obtain ⟨window, hwindow⟩ := telemetryWindow_isSome hfill
  have hne := frame_ne_nil hpos hwindow
  obtain ⟨imputed, hvector⟩ := featureVector_eq root ⟨spec, names, median⟩ hne
  refine ⟨window, imputed, hwindow, ?_⟩
  rw [hvector]
  rw [show (⟨spec, names, median⟩ : LoadedModel).spec = spec from rfl, vector_eq root hpos hdue] at hx
  rw [← Option.some.inj hx]
  refine congrArg some (congrArg (·, imputed) ?_)
  have hfst : names = names.zipIdx.map Prod.fst := (List.zipIdx_map_fst 0 names).symm
  conv => rhs; rw [hfst, List.map_map]
  refine List.map_congr_left ?_
  intro e he
  obtain ⟨value, hmeasured, hlookup⟩ := measured_eq root h hpaced hpos hdue hwindow
    (hnames e.1 (List.fst_mem_of_mem_zipIdx he))
  show (measured window.missing (features root spec window.frame) e.1).getD (median e.2) =
    ((features root spec ((RollingWindow.run spec samples).1.rows.map Prod.snd)).lookup e.1).getD (.finite 0)
  rw [hmeasured, hlookup]
  rfl

end

/-! ## What agreement asks -/

/-- Finite values of one mean that agree but for a gap at the beginning agree there. -/
theorem eq_of_mean_replicate {k : Nat} (hk : 0 < k) {c v : Double} {rest : List Double}
    (hc : ∀ x ∈ List.replicate k c ++ rest, x.Finite) (hv : ∀ x ∈ List.replicate k v ++ rest, x.Finite)
    (h : mean (List.replicate k c ++ rest) = mean (List.replicate k v ++ rest)) : c = v := by
  have hreplicate : ∀ d : Double, d ∈ List.replicate k d := fun d => List.mem_replicate.mpr ⟨hk.ne', rfl⟩
  obtain ⟨p, rfl⟩ := hc c (List.mem_append_left _ (hreplicate c))
  obtain ⟨q, rfl⟩ := hv v (List.mem_append_left _ (hreplicate v))
  obtain ⟨qs, rfl⟩ := exists_rat fun x hx => hc x (List.mem_append_right _ hx)
  have hmean : ∀ r : Rat, mean (List.replicate k (Double.finite r) ++ qs.map .finite) =
      .finite ((k * r + qs.sum) / (k + qs.length : Nat)) := by
    intro r
    have hne : List.replicate k r ++ qs ≠ [] := by simp [hk.ne']
    rw [← List.map_replicate, ← List.map_append, mean_finite hne]
    simp
  rw [hmean, hmean] at h
  have hcount : ((k + qs.length : Nat) : Rat) ≠ 0 := Nat.cast_ne_zero.mpr (by omega)
  have hsum := (div_left_inj' hcount).mp (Double.finite.inj h)
  have hzero : (k : Rat) ≠ 0 := Nat.cast_ne_zero.mpr hk.ne'
  exact congrArg Double.finite (mul_left_cancel₀ hzero (add_right_cancel hsum))

section
variable {sensors : List String} {spec : FeatureSpec} {samples : List Sample} {first : Int} {root : Rat → Rat}

/-- What is the same whatever the medians are is measured. -/
theorem measured_of_agree (hpos : 0 < spec.windowSize) (hdue : (RollingWindow.run spec samples).2 = true)
    {telemetry : List Reading} {«end» : Instant} {window : ScoringWindow}
    (hwindow : telemetryWindow telemetry spec «end» = some window)
    (h : ∀ median, Agree root ⟨spec, featureNames spec, median⟩ telemetry «end» (RollingWindow.run spec samples).1)
    {name : String} (hname : name ∈ featureNames spec) :
    measured window.missing (features root spec window.frame) name = some (((features root spec
      ((RollingWindow.run spec samples).1.rows.map Prod.snd)).lookup name).getD (.finite 0)) := by
  have hne := frame_ne_nil hpos hwindow
  obtain ⟨i, hi⟩ := List.mem_iff_getElem?.mp hname
  have hsame : ∀ median : Nat → Double, ((features root spec
      ((RollingWindow.run spec samples).1.rows.map Prod.snd)).lookup name).getD (.finite 0) =
        (measured window.missing (features root spec window.frame) name).getD (median i) := by
    intro median
    obtain ⟨window', imputed, hwindow', hvector⟩ := h median _ (vector_eq root hpos hdue _)
    cases hwindow.symm.trans hwindow'
    obtain ⟨imputed', hvector'⟩ := featureVector_eq root ⟨spec, featureNames spec, median⟩ hne
    rw [hvector'] at hvector
    have hget := congrArg (·[i]?) (Prod.mk.inj (Option.some.inj hvector)).1
    simpa [hi] using hget.symm
  cases hmeasured : measured window.missing (features root spec window.frame) name with
  | some value =>
    have hvalue := hsame fun _ => .nan
    rw [hmeasured] at hvalue
    rw [hvalue]
    rfl
  | none =>
    have hzero := hsame fun _ => .finite 0
    have hnan := hsame fun _ => .nan
    rw [hmeasured] at hzero hnan
    cases hzero.symm.trans hnan

/-- The means agree on each sensor, which has a reading in the window. -/
theorem mean_of_measured {window : ScoringWindow} {frame : List FrameRow} {sensor : String} (hsensor : sensor ∈ spec.sensorCols)
    (hmean : Stat.mean ∈ spec.stats)
    (h : measured window.missing (features root spec window.frame) (featureName sensor .mean) =
      some (((features root spec frame).lookup (featureName sensor .mean)).getD (.finite 0))) :
    sensor ∉ window.missing ∧ (mean (frame.map fun row => row sensor)).Finite ∧
      mean (frame.map fun row => row sensor) = mean (window.frame.map fun row => row sensor) := by
  unfold measured at h
  rw [lookup_features root _ hsensor hmean, lookup_features root _ hsensor hmean, sensorOf_featureName] at h
  dsimp only at h
  split at h
  · cases h
  · rename_i hpresent
    obtain ⟨hmissing, hfinite⟩ := not_or.mp hpresent
    have hvalue : windowStat root .mean (window.frame.map fun row => row sensor) =
      windowStat root .mean (frame.map fun row => row sensor) := Option.some.inj h
    refine ⟨hmissing, ?_, hvalue.symm⟩
    show (windowStat root .mean (frame.map fun row => row sensor)).Finite
    rw [← hvalue]
    exact Double.isFinite_iff.mp (Bool.eq_true_of_not_eq_false hfinite)

theorem reading_of_present (hpaced : OnePerBucket first samples) (hpos : 0 < spec.windowSize)
    (hsize : spec.windowSize ≤ samples.length) {window : ScoringWindow}
    (hwindow : telemetryWindow (stored sensors samples) spec (endOf first samples) = some window) {sensor : String}
    (hsensor : sensor ∈ spec.sensorCols) (hpresent : sensor ∉ window.missing) :
    sensor ∈ sensors ∧ ∃ v, some v ∈ readings (windowOf spec samples) sensor := by
  obtain ⟨-, -, hmissing⟩ := telemetryWindow_eq_some hpos hwindow
  have hsome : ∃ x ∈ windowOf spec samples,
      (if sensor ∈ sensors then (x.metrics sensor).filter (· ≠ .nan) else none) ≠ none := by
    by_contra hnone
    refine hpresent ?_
    rw [hmissing]
    refine List.mem_filter.mpr ⟨hsensor, List.all_eq_true.mpr ?_⟩
    rw [wide_stored hpaced hsize]
    intro y hy
    obtain ⟨x, hx, rfl⟩ := List.mem_map.mp hy
    rw [Option.isNone_iff_eq_none]
    by_contra hvalue
    exact hnone ⟨x, hx, hvalue⟩
  obtain ⟨x, hx, hvalue⟩ := hsome
  split at hvalue
  · rename_i hplatform
    refine ⟨hplatform, ?_⟩
    cases hreading : x.metrics sensor with
    | none =>
      rw [hreading] at hvalue
      exact absurd rfl hvalue
    | some v => exact ⟨v, hreading ▸ List.mem_map_of_mem hx⟩
  · exact absurd rfl hvalue

theorem finite_of_edge_column (hdue : (RollingWindow.run spec samples).2 = true) {name : String} (hname : name ∈ spec.sensorCols)
    (h : ∀ x ∈ ((RollingWindow.run spec samples).1.rows.map Prod.snd).map (fun row => row name), x.Finite) :
    ∀ v, some v ∈ readings (windowOf spec samples) name → v.Finite := by
  intro v hv
  refine h v ?_
  rw [edge_column hdue hname]
  exact List.mem_map.mpr ⟨some v, mem_ffill hv, rfl⟩

/-- Equal means fill a gap at the beginning with one value. -/
theorem carriedIn_of_mean (hdue : (RollingWindow.run spec samples).2 = true) {name : String} (hname : name ∈ spec.sensorCols)
    {telemetry : List Reading} {«end» : Instant}
    (hwide : wide telemetry spec «end» name = readings (windowOf spec samples) name)
    (hreading : ∃ v, some v ∈ readings (windowOf spec samples) name)
    (hedge : ∀ x ∈ ((RollingWindow.run spec samples).1.rows.map Prod.snd).map (fun row => row name), x.Finite)
    (hserver : ∀ x ∈ filled telemetry spec «end» name, x.Finite)
    (h : mean (((RollingWindow.run spec samples).1.rows.map Prod.snd).map fun row => row name) =
      mean (filled telemetry spec «end» name)) :
    ∃ v, first? (readings (windowOf spec samples) name) = some v ∧
      ((readings (windowOf spec samples) name).head? = some none → carriedIn spec samples name = v) := by
  rcases eq_gap (readings (windowOf spec samples) name) with hnone | ⟨k, v, rest, hgap⟩
  · obtain ⟨v, hv⟩ := hreading
    rw [hnone] at hv
    cases List.eq_of_mem_replicate hv
  · refine ⟨v, by rw [hgap, first?_gap], ?_⟩
    intro hhead
    have hk : 0 < k := by
      refine Nat.pos_of_ne_zero ?_
      rintro rfl
      rw [hgap] at hhead
      cases hhead
    rw [edge_gap hdue hname hgap] at hedge h
    rw [filled_gap (hwide.trans hgap)] at hserver h
    exact eq_of_mean_replicate hk hedge hserver h

theorem alike_of_agree (hpaced : OnePerBucket first samples) (hpos : 0 < spec.windowSize)
    (hdue : (RollingWindow.run spec samples).2 = true) (hmean : Stat.mean ∈ spec.stats)
    (h : ∀ median, Agree root ⟨spec, featureNames spec, median⟩ (stored sensors samples) (endOf first samples)
      (RollingWindow.run spec samples).1) : Alike sensors spec samples := by
  have hsize := windowSize_le hdue
  obtain ⟨window, _, hwindow, -⟩ := h (fun _ => .finite 0) _ (vector_eq root hpos hdue _)
  obtain ⟨hfill, hframe, -⟩ := telemetryWindow_eq_some hpos hwindow
  have hcompared : ∀ name ∈ spec.sensorCols, name ∉ window.missing ∧
      (mean (((RollingWindow.run spec samples).1.rows.map Prod.snd).map fun row => row name)).Finite ∧
      mean (((RollingWindow.run spec samples).1.rows.map Prod.snd).map fun row => row name) =
        mean (filled (stored sensors samples) spec (endOf first samples) name) := by
    intro name hname
    have hfeature : featureName name .mean ∈ featureNames spec :=
      List.mem_flatMap.mpr ⟨name, hname, List.mem_map.mpr ⟨.mean, hmean, rfl⟩⟩
    obtain ⟨hpresent, hfinite, hequal⟩ := mean_of_measured hname hmean (measured_of_agree hpos hdue hwindow h hfeature)
    rw [hframe, column_frame] at hequal
    exact ⟨hpresent, hfinite, hequal⟩
  have hpresent : ∀ name ∈ spec.sensorCols, name ∈ sensors ∧ ∃ v, some v ∈ readings (windowOf spec samples) name :=
    fun name hname => reading_of_present hpaced hpos hsize hwindow hname (hcompared name hname).1
  have hedge : ∀ name ∈ spec.sensorCols, ∀ x ∈ ((RollingWindow.run spec samples).1.rows.map Prod.snd).map
      (fun row => row name), x.Finite := by
    intro name hname
    refine (finite_mean_iff ?_).mp (hcompared name hname).2.1
    intro hnil
    have hlength := congrArg List.length hnil
    rw [List.length_map, List.length_map, RollingWindow.length_of_due hdue] at hlength
    exact hpos.ne' hlength
  have hserver : ∀ name ∈ spec.sensorCols, ∀ x ∈ filled (stored sensors samples) spec (endOf first samples) name,
      x.Finite := by
    intro name hname
    obtain ⟨-, hfinite, hequal⟩ := hcompared name hname
    refine (finite_mean_iff ?_).mp (hequal ▸ hfinite)
    intro hnil
    have hlength := length_filled (stored sensors samples) spec (endOf first samples) name
    rw [hnil] at hlength
    exact hpos.ne hlength
  have hfinite : ∀ name ∈ spec.sensorCols, ∀ v, some v ∈ readings (windowOf spec samples) name → v.Finite :=
    fun name hname => finite_of_edge_column hdue hname (hedge name hname)
  have hsensors : ∀ name ∈ spec.sensorCols, name ∈ sensors := fun name hname => (hpresent name hname).1
  refine ⟨hsensors, hfinite, ?_, ?_⟩
  · intro name hname
    exact carriedIn_of_mean hdue hname (wide_eq_readings hpaced hsize (hsensors name hname) (hfinite name hname))
      (hpresent name hname).2 (hedge name hname) (hserver name hname) (hcompared name hname).2.2
  · rwa [populated_eq hpaced hsize hsensors hfinite] at hfill

/-- A window of no samples has no vector. -/
theorem vector_of_zero (hzero : spec.windowSize = 0) (w : RollingWindow) (names : List String) :
    w.vector root spec names = none := by
  unfold RollingWindow.vector buildFeatures
  rw [if_pos hzero]
  rfl

end

/-- For every list of statistics and every model the vectors agree if and only if the gaps of
the window are filled alike. -/
theorem features_agree_iff (root : Rat → Rat) (sensors : List String) {spec : FeatureSpec} {samples : List Sample}
    {first : Int} (hpaced : OnePerBucket first samples) (hdue : (RollingWindow.run spec samples).2 = true) :
    (∀ statFeatures names median, (∀ name ∈ names, name ∈ featureNames { spec with statFeatures := statFeatures }) →
      Agree root ⟨{ spec with statFeatures := statFeatures }, names, median⟩ (stored sensors samples) (endOf first samples)
        (RollingWindow.run { spec with statFeatures := statFeatures } samples).1) ↔
    (0 < spec.windowSize → Alike sensors spec samples) := by
  constructor
  · intro h hpos
    have hmean : Stat.mean ∈ { spec with statFeatures := ["mean"] }.stats :=
      List.mem_filterMap.mpr ⟨"mean", List.mem_singleton.mpr rfl, Stat.ofName?_name .mean⟩
    have hagree := fun median => h ["mean"] _ median fun name hname => hname
    have halike : Alike sensors { spec with statFeatures := ["mean"] } samples :=
      alike_of_agree hpaced hpos hdue hmean hagree
    exact ⟨halike.sensors, halike.finite, halike.first, halike.fill⟩
  · intro h statFeatures names median hnames
    rcases Nat.eq_zero_or_pos spec.windowSize with hzero | hpos
    · intro x hx
      have hempty : ({ spec with statFeatures := statFeatures } : FeatureSpec).windowSize = 0 := hzero
      cases (vector_of_zero hempty _ _).symm.trans hx
    · obtain ⟨hsensors, hfinite, hfirst, hfill⟩ := h hpos
      have halike : Alike sensors { spec with statFeatures := statFeatures } samples :=
        ⟨hsensors, hfinite, hfirst, hfill⟩
      exact agree_of_alike root halike hpaced hpos hdue hnames median

/-- One sensor, sampled every 10 seconds. -/
def series (values : List (Option Rat)) : List Sample :=
  values.zipIdx.map fun e => ⟨(e.2 : Int) * samplePeriod, fun name => if name = "vib" then e.1.map .finite else none⟩

theorem onePerBucket_series (values : List (Option Rat)) : OnePerBucket 0 (series values) := by
  intro i x hx
  rw [series, List.getElem?_map, List.getElem?_zipIdx, Option.map_map] at hx
  obtain ⟨value, -, rfl⟩ := Option.map_eq_some_iff.mp hx
  show ((0 + i : Nat) : Int) * 10000000 / 10000000 = 0 + (i : Int)
  omega

theorem readings_series (values : List (Option Rat)) : readings (series values) "vib" = values.map (·.map .finite) := by
  rw [readings, series, List.map_map]
  conv => rhs; rw [← List.zipIdx_map_fst 0 values, List.map_map]
  rfl

/-- The root of a square. -/
def rootOf (q : Rat) : Rat := (Nat.sqrt q.num.toNat : Rat) / Nat.sqrt q.den

/-- The latest reading of a full window is missing. -/
theorem features_agree_inner_gap :
    Agree rootOf ⟨⟨3, 1, ["mean", "last"], ["vib"]⟩, ["vib_mean", "vib_last"], fun _ => .finite 0⟩
      (stored ["vib"] (series [some 1, some 3, none])) (endOf 0 (series [some 1, some 3, none]))
      (RollingWindow.run ⟨3, 1, ["mean", "last"], ["vib"]⟩ (series [some 1, some 3, none])).1 := by
  have hdue : (RollingWindow.run ⟨3, 1, [], ["vib"]⟩ (series [some 1, some 3, none])).2 = true := by decide +kernel
  have hreadings : readings (windowOf ⟨3, 1, [], ["vib"]⟩ (series [some 1, some 3, none])) "vib" =
      [some (.finite 1), some (.finite 3), none] := readings_series [some 1, some 3, none]
  have halike : Alike ["vib"] ⟨3, 1, [], ["vib"]⟩ (series [some 1, some 3, none]) := by
    refine ⟨fun _ hname => hname, ?_, ?_, by decide +kernel⟩
    · intro name hname v hv
      rw [List.mem_singleton.mp hname, hreadings] at hv
      rcases List.mem_cons.mp hv with hv | hv
      · cases hv
        exact ⟨1, rfl⟩
      · rcases List.mem_cons.mp hv with hv | hv
        · cases hv
          exact ⟨3, rfl⟩
        · cases List.mem_singleton.mp hv
    · intro name hname
      rw [List.mem_singleton.mp hname, hreadings]
      exact ⟨.finite 1, rfl, fun h => by cases h⟩
  exact (features_agree_iff rootOf ["vib"] (onePerBucket_series [some 1, some 3, none]) hdue).mpr (fun _ => halike)
    ["mean", "last"] ["vib_mean", "vib_last"] (fun _ => .finite 0) (by decide +kernel)

/-- A window that begins with a gap: the edge carries in the reading before it, the server takes the next one. -/
theorem leading_gap_differs :
    OnePerBucket 0 (series [some 1, none, some 3]) ∧
      (RollingWindow.run ⟨2, 1, ["mean"], ["vib"]⟩ (series [some 1, none, some 3])).2 = true ∧
      ¬ Agree rootOf ⟨⟨2, 1, ["mean"], ["vib"]⟩, ["vib_mean"], fun _ => .finite 0⟩
        (stored ["vib"] (series [some 1, none, some 3])) (endOf 0 (series [some 1, none, some 3]))
        (RollingWindow.run ⟨2, 1, ["mean"], ["vib"]⟩ (series [some 1, none, some 3])).1 := by
  refine ⟨onePerBucket_series _, by decide +kernel, ?_⟩
  intro h
  have hedge : RollingWindow.vector rootOf ⟨2, 1, ["mean"], ["vib"]⟩
      (RollingWindow.run ⟨2, 1, ["mean"], ["vib"]⟩ (series [some 1, none, some 3])).1 ["vib_mean"] = some [.finite 2] := by
    decide +kernel
  have hserver : ((telemetryWindow (stored ["vib"] (series [some 1, none, some 3])) ⟨2, 1, ["mean"], ["vib"]⟩
      (endOf 0 (series [some 1, none, some 3]))).bind
      (featureVector rootOf ⟨⟨2, 1, ["mean"], ["vib"]⟩, ["vib_mean"], fun _ => .finite 0⟩)).map Prod.fst =
        some [.finite 3] := by
    decide +kernel
  obtain ⟨window, imputed, hwindow, hvector⟩ := h _ hedge
  rw [hwindow, Option.bind_some, hvector] at hserver
  have hequal : [Double.finite 2] = [Double.finite 3] := Option.some.inj hserver
  exact absurd hequal (by decide +kernel)

end TwinVoice.Pdm
