import TwinVoice.Pdm.Features
import TwinVoice.Xai.CheapestChange
import TwinVoice.Xai.GroundTruth

/-! # Counterfactuals of live models

The features of a model are named after a sensor and a statistic. What an
operator can set are sensors, and a derived statistic is none of them, so the
search has nothing to vary for any model whose features are built here. -/

namespace TwinVoice.Xai

open TwinVoice.Lib
open TwinVoice.Pdm (Stat featureName featureNames)

section
variable (x : Texts)

/-- `FeatureLabels.actionable`. -/
def FeatureLabels.actionable (l : FeatureLabels) : List FeatureLabel :=
  (l.features.filter fun e => e.2.actionable).map fun e => l.get x e.1

/-- The names that an operator can set a value for. -/
def actionableNames : List String := ["coolant_temp", "load_pct", "speed", "lube_interval"]

theorem names_actionable : (FeatureLabels.shipped.actionable x).map FeatureLabel.name = actionableNames := rfl

section
variable (K : Type) [Field K] [LinearOrder K]

/-- The label with its range; a range from more to less is none. -/
def FeatureLabel.setting? (l : FeatureLabel) : Option (Setting K) :=
  if h : ∀ low ∈ l.min.map (Nat.cast : Nat → K), ∀ high ∈ l.max.map (Nat.cast : Nat → K), low ≤ high then
    some ⟨l.name, l.label, l.unit, l.min.map Nat.cast, l.max.map Nat.cast, l.step.map Nat.cast, h⟩
  else none

theorem name_of_setting {l : FeatureLabel} {s : Setting K} (h : l.setting? K = some s) : s.name = l.name := by
  unfold FeatureLabel.setting? at h
  split at h
  · obtain rfl := Option.some.inj h
    rfl
  · cases h

theorem names_settings (labels : List FeatureLabel) :
    ((labels.filterMap (FeatureLabel.setting? K)).map Setting.name).Sublist (labels.map FeatureLabel.name) := by
  induction labels with
  | nil => exact .slnil
  | cons l labels ih =>
    cases hsetting : l.setting? K with
    | none =>
      rw [List.filterMap_cons_none hsetting]
      exact ih.cons _
    | some s =>
      rw [List.filterMap_cons_some hsetting, List.map_cons, List.map_cons, name_of_setting K hsetting]
      exact ih.cons_cons _

/-- The labels that `load_labels` reads. -/
def liveLabels : Table (Setting K) where
  rows := (FeatureLabels.shipped.actionable x).filterMap (FeatureLabel.setting? K)
  keys := (names_settings K _).nodup (by rw [names_actionable]; decide)

end

section
variable {K : Type} [Field K] [LinearOrder K] [FloorRing K] (g whole : K → String)

/-- `_counterfactual`; `whole` is the format `:.0f`. -/
def counterfactual (estimator : Option (List K → K)) (rulPoint : Option K) (p : Point K) :
    Option (CounterfactualResult K) :=
  match rulPoint, estimator with
  | some rul, some predict =>
    let targetRul := max 60.0 (rul * 1.5)
    some (searchCounterfactual predict (fun value => targetRul ≤ value) p (liveLabels x K) g ("rul>=" ++ whole targetRul) 2
      "rul_point")
  | _, _ => none

/-- The statistic of a window in which the sensor has one value. -/
def heldStat (value : K) : Stat → K
  | .mean | .min | .max | .last => value
  | .rms => |value|
  | .std | .slope | .kurtosis => 0

/-- The target is reached with an actionable sensor of the spec held at a value inside its range. -/
def SettingReaches (spec : Pdm.FeatureSpec) (predict : List K → K) (target : K) (p : Point K) : Prop :=
  ∃ s ∈ (liveLabels x K).rows, s.name ∈ spec.sensorCols ∧ ∃ value, s.InRange value ∧ ∃ q : Point K, q.names = p.names ∧
    (∀ stat ∈ spec.stats, q.valueAt (featureName s.name stat) = heldStat value stat) ∧
    (∀ name, (∀ stat ∈ spec.stats, name ≠ featureName s.name stat) → q.valueAt name = p.valueAt name) ∧
    target ≤ predict q.values

/-- A feature can be varied, and where a setting of a sensor reaches the target a counterfactual is found. -/
structure Reachable (spec : Pdm.FeatureSpec) : Prop where
  named : ∃ label ∈ FeatureLabels.shipped.actionable x, label.name ∈ featureNames spec
  found : ∀ predict rul (p : Point K), p.names = featureNames spec →
    SettingReaches x spec predict (max 60 (rul * (3 / 2))) p →
      ∃ r, counterfactual x g whole (some predict) (some rul) p = some r ∧ r.found = true

end

end

/-! ## Names of features -/

/-- What follows the last underscore, read backwards. -/
def lastPart (name : String) : List Char := name.toList.reverse.takeWhile (· ≠ '_')

theorem lastPart_featureName (sensor : String) (stat : Stat) :
    lastPart (featureName sensor stat) = stat.name.toList.reverse := by
  have hchars : ∀ c ∈ stat.name.toList.reverse, decide (c ≠ '_') = true := by
    intro c hc
    refine decide_eq_true fun heq => stat.underscore_not_mem_name ?_
    rw [← heq]
    exact List.mem_reverse.mp hc
  have hreverse : (featureName sensor stat).toList.reverse =
      stat.name.toList.reverse ++ '_' :: sensor.toList.reverse := by
    simp [featureName]
  unfold lastPart
  rw [hreverse, List.takeWhile_append_of_pos hchars, List.takeWhile_cons_of_neg (by simp), List.append_nil]

/-- No feature is named as a sensor that can be set. -/
theorem not_mem_featureNames {name : String} (h : name ∈ actionableNames) (spec : Pdm.FeatureSpec) :
    name ∉ featureNames spec := by
  have hparts : ∀ name ∈ actionableNames, ∀ stat ∈ Stat.all, lastPart name ≠ stat.name.toList.reverse := by decide
  intro hmem
  obtain ⟨sensor, -, hname⟩ := List.mem_flatMap.mp hmem
  obtain ⟨stat, -, rfl⟩ := List.mem_map.mp hname
  exact hparts _ h stat (by cases stat <;> decide) (lastPart_featureName sensor stat)

section
variable {K : Type} [Field K] [LinearOrder K] [FloorRing K]

omit [FloorRing K] in
theorem candidates_eq_nil (x : Texts) {spec : Pdm.FeatureSpec} {p : Point K} (hnames : p.names = featureNames spec) :
    candidates p (liveLabels x K) = [] := by
  refine List.filter_eq_nil_iff.mpr fun s hs hindex => ?_
  obtain ⟨i, hi⟩ := Option.isSome_iff_exists.mp hindex
  have hname : s.name ∈ actionableNames := by
    rw [← names_actionable x]
    exact (names_settings K _).subset (List.mem_map_of_mem hs)
  refine not_mem_featureNames hname spec ?_
  rw [← hnames]
  exact List.mem_of_getElem? (names_of_lastIndex hi)

/-- Whatever the spec and its sensors, nothing of what can be set is among the features, and no
counterfactual is found for any prediction. -/
theorem counterfactual_never_found (x : Texts) (g whole : K → String) (spec : Pdm.FeatureSpec) :
    ¬ Reachable x g whole spec ∧ ∀ estimator rulPoint (p : Point K), p.names = featureNames spec →
      ∀ r ∈ counterfactual x g whole estimator rulPoint p, r.found = false := by
  constructor
  · intro h
    obtain ⟨label, hlabel, hname⟩ := h.named
    have hmem : label.name ∈ actionableNames := names_actionable x ▸ List.mem_map_of_mem hlabel
    exact not_mem_featureNames hmem spec hname
  · intro estimator rulPoint p hnames r hr
    have hnone : ∀ predict satisfied, best predict satisfied p (liveLabels x K) 2 = none := by
      refine fun predict satisfied => best_eq_none.mpr fun c hc => ?_
      obtain ⟨m, rest, hm⟩ := List.exists_cons_of_length_pos hc.some
      have hsub := (Choices.mem_assignments.mp (List.mem_filter.mp hc.mem).1).1
      rw [candidates_eq_nil x hnames, List.sublist_nil, List.map_eq_nil_iff] at hsub
      rw [hsub] at hm
      cases hm
    unfold counterfactual at hr
    split at hr
    · obtain rfl := Option.some.inj hr
      unfold searchCounterfactual
      rw [hnone]
    · cases hr

end

/-! The life of a machine rises with the mean of its load going down. -/

def loadSpec : Pdm.FeatureSpec := ⟨60, 10, ["mean"], ["load_pct"]⟩

def meanLoad (load : Rat) : Point Rat := ⟨["load_pct_mean"], [load], one_value "load_pct_mean" load⟩

/-- At a load of 95 % a load of 40 % would reach the target, and no counterfactual is found. -/
theorem lower_load_not_found :
    SettingReaches asciiTexts loadSpec lifeAtLoad (max 60 (105 * (3 / 2))) (meanLoad 95) ∧
      (counterfactual asciiTexts toString toString (some lifeAtLoad) (some 105) (meanLoad 95)).map
        CounterfactualResult.found = some false := by
  have hlabel : loadSetting ∈ (liveLabels asciiTexts Rat).rows := by decide +kernel
  have hstats : loadSpec.stats = [.mean] := by decide
  refine ⟨⟨loadSetting, hlabel, by decide, 40, ⟨by decide +kernel, by decide +kernel⟩, meanLoad 40, rfl, ?_, ?_, ?_⟩, ?_⟩
  · rw [hstats]
    decide +kernel
  · intro name hname
    have hother : name ≠ "load_pct_mean" := hname .mean (by decide)
    have hindex : ∀ load, (meanLoad load).index name = none := fun load => by
      simp [Point.index, lastIndex, meanLoad, hother.symm]
    unfold Point.valueAt
    rw [hindex, hindex]
    rfl
  · decide +kernel
  · decide +kernel

/-- For the same machine nothing is found, whatever it predicts. -/
theorem load_never_found : ¬ Reachable asciiTexts (toString : Rat → String) toString loadSpec ∧
    ∀ r ∈ counterfactual asciiTexts toString toString (some lifeAtLoad) (some 105) (meanLoad 95), r.found = false :=
  ⟨(counterfactual_never_found asciiTexts toString toString loadSpec).1,
    (counterfactual_never_found asciiTexts toString toString loadSpec).2 _ _ _ (by decide)⟩

end TwinVoice.Xai
