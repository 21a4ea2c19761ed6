import TwinVoice.Edge.Features

/-! # Scores of the server

`score` runs the estimator and the forest that the bundle has pickled. It
mirrors the edge but for what it tells of a classifier's confidence and of the
health of a machine without a forest. -/

namespace TwinVoice.Pdm

open TwinVoice.Lib
open TwinVoice.Sim (Double Json)

section
variable (p : Platform) (b : Bundle) (x : List Double)

/-- The part of `score` that depends on the task. -/
def scoreTask (cap : Double) : Option Score :=
  match b.native with
  | .regressor predict => do
    let point := clip (predict x) cap
    let q ← conformalQ p b.meta point
    let (confidence, reasons) := intervalConfidence ((Double.finite 2).mul q) cap
    return {
      rul := some {
        point := point
        low := clip (point.sub q) cap
        high := clip (point.add q) cap
        unit := .text (p.str ((b.meta.truthy? "rul_unit").getD (.text "cycles")))
        coverage := (b.meta.lookup "coverage").getD .null }
      failureProbability := none
      healthIndex := none
      anomalyScore := none
      confidence := some confidence
      reasons := reasons }
  | .classifier predictProba => do
    let probability ← failureProbability p b.meta (predictProba x)
    return ⟨none, some probability, none, none, some "medium", []⟩

/-- Without a forest the remaining life as a share of the modelled range stands in. -/
def standIn (cap : Double) (rul : Option Rul) : Option Double :=
  match rul with
  | some rul => if usable cap then some (p.round2 (((Double.finite 100).mul rul.point).div cap)) else none
  | none => none

def score : Option Score := do
  let cap ← rulCap p b.meta
  let out ← scoreTask p b x cap
  match b.anomaly with
  | some forest =>
    let anomalyScore := normaliseAnomaly (forest.scoreSamples x).neg forest.baselineQ95
    return { out with
      anomalyScore := some anomalyScore
      healthIndex := some (p.round2 ((Double.finite 100).mul ((Double.finite 1).sub anomalyScore))) }
  | none => return { out with healthIndex := standIn p cap out.rul }

/-! ## Agreement with the edge -/

/-- `float` refuses the value under the key. -/
def Unreadable (key : String) : Prop := ∃ value, b.meta.truthy? key = some value ∧ p.float value = none

/-- The bundle leads to the same score on both sides: neither scores it, or it is a regressor
whose unit is a text and that has a forest or no range of its own. -/
def Mirrored : Prop :=
  match b.native with
  | .regressor _ => Unreadable p b "rul_cap" ∨ Unreadable p b "conformal_q" ∨
      (∀ unit, b.meta.truthy? "rul_unit" = some unit → ∃ s, unit = .text s) ∧
        (b.anomaly = none → ∀ cap, rulCap p b.meta = some cap → usable cap = false)
  | .classifier predictProba => failureProbability p b.meta (predictProba x) = none

end

section
variable {p : Platform} {b : Bundle} {x : List Double}

/-- What the forest adds to a score. -/
def graded (p : Platform) (forest : Forest) (x : List Double) (out : Score) : Score :=
  let anomalyScore := normaliseAnomaly (forest.scoreSamples x).neg forest.baselineQ95
  { out with
    anomalyScore := some anomalyScore
    healthIndex := some (p.round2 ((Double.finite 100).mul ((Double.finite 1).sub anomalyScore))) }

/-- The edge reads the quantile that the forest was fitted with. -/
theorem anomalyQ95_eq {forest : Forest} (h : b.anomaly = some forest) :
    Edge.anomalyQ95 p b.meta = some forest.baselineQ95 := by
  have htruthy : b.meta.truthy? "anomaly_baseline_q95" = some (.float forest.baselineQ95) := by
    rw [Metadata.truthy?, b.baseline forest h, Option.filter_some, if_pos]
    refine decide_eq_true ?_
    intro hzero
    have hfitted := forest.fitted
    rw [hzero] at hfitted
    exact absurd hfitted (by decide +kernel)
  rw [Edge.anomalyQ95, htruthy]
  exact p.float_float _

theorem predict_of_forest {forest : Forest} (h : b.anomaly = some forest) :
    Edge.predict p b x = (Edge.predictTask p b x).map (graded p forest x) := by
  unfold Edge.predict
  rw [h]
  cases Edge.predictTask p b x with
  | none => rfl
  | some out =>
    simp only [Option.bind_eq_bind, Option.bind_some, b.offset forest h, p.float_float, anomalyQ95_eq h, forest.parity]
    rfl

theorem predict_of_none (h : b.anomaly = none) : Edge.predict p b x = Edge.predictTask p b x := by
  unfold Edge.predict
  rw [h]
  cases Edge.predictTask p b x <;> rfl

theorem score_of_forest {forest : Forest} (h : b.anomaly = some forest) {cap : Double} (hcap : rulCap p b.meta = some cap) :
    score p b x = (scoreTask p b x cap).map (graded p forest x) := by
  unfold score
  rw [h, hcap]
  cases hout : scoreTask p b x cap <;> simp [hout, graded]

theorem score_of_none (h : b.anomaly = none) {cap : Double} (hcap : rulCap p b.meta = some cap) :
    score p b x = (scoreTask p b x cap).map fun out => { out with healthIndex := standIn p cap out.rul } := by
  unfold score
  rw [h, hcap]
  cases hout : scoreTask p b x cap <;> simp [hout]

theorem score_eq_none (h : ∀ cap, rulCap p b.meta = some cap → scoreTask p b x cap = none) : score p b x = none := by
  unfold score
  cases hcap : rulCap p b.meta with
  | none => rfl
  | some cap =>
    simp only [Option.bind_eq_bind, Option.bind_some, h cap hcap]
    rfl

theorem predict_eq_none (h : Edge.predictTask p b x = none) : Edge.predict p b x = none := by
  unfold Edge.predict
  rw [h]
  rfl

theorem rulCap_eq_none_iff : rulCap p b.meta = none ↔ Unreadable p b "rul_cap" := by
  unfold rulCap Unreadable
  cases b.meta.truthy? "rul_cap" with
  | none => simp
  | some value => simp

theorem conformalQ_eq_none_iff (point : Double) : conformalQ p b.meta point = none ↔ Unreadable p b "conformal_q" := by
  unfold conformalQ Unreadable
  cases b.meta.truthy? "conformal_q" with
  | none => simp
  | some value => simp

theorem unit_eq_iff (p : Platform) : Json.text (p.str ((b.meta.truthy? "rul_unit").getD (.text "cycles"))) =
    (b.meta.truthy? "rul_unit").getD (.text "cycles") ↔
      ∀ unit, b.meta.truthy? "rul_unit" = some unit → ∃ s, unit = .text s := by
  cases b.meta.truthy? "rul_unit" with
  | none => simp [p.str_text]
  | some unit =>
    constructor
    · intro h unit' hunit
      cases hunit
      exact ⟨_, h.symm⟩
    · intro h
      obtain ⟨s, rfl⟩ := h unit rfl
      exact congrArg Json.text (p.str_text s)

theorem standIn_eq_none_iff {cap : Double} (rul : Rul) : standIn p cap (some rul) = none ↔ usable cap = false := by
  unfold standIn
  cases usable cap <;> simp

/-- What both sides tell of a regressor, up to the unit. -/
def regression (b : Bundle) (point q cap : Double) (unit : Json) : Score where
  rul := some ⟨point, clip (point.sub q) cap, clip (point.add q) cap, unit, (b.meta.lookup "coverage").getD .null⟩
  failureProbability := none
  healthIndex := none
  anomalyScore := none
  confidence := some (intervalConfidence ((Double.finite 2).mul q) cap).1
  reasons := (intervalConfidence ((Double.finite 2).mul q) cap).2

theorem scoreTask_of_regressor {predict : List Double → Double} (h : b.native = .regressor predict) (cap : Double) :
    scoreTask p b x cap = (conformalQ p b.meta (clip (predict x) cap)).map fun q =>
      regression b (clip (predict x) cap) q cap (.text (p.str ((b.meta.truthy? "rul_unit").getD (.text "cycles")))) := by
  unfold scoreTask
  rw [h]
  cases hq : conformalQ p b.meta (clip (predict x) cap) <;> simp [hq, regression]

theorem predictTask_of_regressor {predict : List Double → Double} (h : b.native = .regressor predict) {cap : Double}
    (hcap : rulCap p b.meta = some cap) :
    Edge.predictTask p b x = (conformalQ p b.meta (clip (predict x) cap)).map fun q =>
      regression b (clip (predict x) cap) q cap ((b.meta.truthy? "rul_unit").getD (.text "cycles")) := by
  unfold Edge.predictTask
  rw [b.parity, h]
  cases hq : conformalQ p b.meta (clip (predict x) cap) <;> simp [hcap, hq, regression, Edge.confidence]

/-- A regressor that can be read is scored alike if its unit is and nothing stands in for a forest. -/
theorem regressor_iff {predict : List Double → Double} (h : b.native = .regressor predict) {cap q : Double}
    (hcap : rulCap p b.meta = some cap) (hq : conformalQ p b.meta (clip (predict x) cap) = some q) :
    score p b x = Edge.predict p b x ↔
      (∀ unit, b.meta.truthy? "rul_unit" = some unit → ∃ s, unit = .text s) ∧ (b.anomaly = none → usable cap = false) := by
  have hscore : scoreTask p b x cap = some (regression b (clip (predict x) cap) q cap
      (.text (p.str ((b.meta.truthy? "rul_unit").getD (.text "cycles"))))) := by
    rw [scoreTask_of_regressor h, hq]
    rfl
  have hpredict : Edge.predictTask p b x = some (regression b (clip (predict x) cap) q cap
      ((b.meta.truthy? "rul_unit").getD (.text "cycles"))) := by
    rw [predictTask_of_regressor h hcap, hq]
    rfl
  rw [← unit_eq_iff p]
  cases hanomaly : b.anomaly with
  | some forest =>
    rw [score_of_forest hanomaly hcap, predict_of_forest hanomaly, hscore, hpredict]
    simp [graded, regression]
  | none =>
    rw [score_of_none hanomaly hcap, predict_of_none hanomaly, hscore, hpredict]
    simp [regression, standIn_eq_none_iff]

theorem classifier_iff {predictProba : List Double → List Double} (h : b.native = .classifier predictProba) :
    score p b x = Edge.predict p b x ↔ failureProbability p b.meta (predictProba x) = none := by
  have hpredict : Edge.predictTask p b x =
      (failureProbability p b.meta (predictProba x)).map fun probability => ⟨none, some probability, none, none, none, []⟩ := by
    unfold Edge.predictTask
    rw [b.parity, h]
    cases hprobability : failureProbability p b.meta (predictProba x) <;> simp [hprobability]
  have hscore : ∀ cap, scoreTask p b x cap =
      (failureProbability p b.meta (predictProba x)).map fun probability =>
        ⟨none, some probability, none, none, some "medium", []⟩ := by
    intro cap
    unfold scoreTask
    rw [h]
    cases hprobability : failureProbability p b.meta (predictProba x) <;> simp [hprobability]
  cases hprobability : failureProbability p b.meta (predictProba x) with
  | none =>
    refine iff_of_true ?_ rfl
    rw [hprobability] at hpredict
    rw [predict_eq_none hpredict]
    refine score_eq_none ?_
    intro cap _
    rw [hscore, hprobability]
    rfl
  | some probability =>
    refine iff_of_false ?_ (Option.some_ne_none _)
    intro hequal
    have hconfidence := congrArg (Option.map Score.confidence) hequal
    rw [hprobability] at hpredict
    cases hcap : rulCap p b.meta with
    | none =>
      rw [score_eq_none fun cap h => by cases hcap.symm.trans h] at hconfidence
      cases hanomaly : b.anomaly with
      | some forest =>
        rw [predict_of_forest hanomaly, hpredict] at hconfidence
        cases hconfidence
      | none =>
        rw [predict_of_none hanomaly, hpredict] at hconfidence
        cases hconfidence
    | some cap =>
      cases hanomaly : b.anomaly with
      | some forest =>
        rw [score_of_forest hanomaly hcap, predict_of_forest hanomaly, hpredict, hscore, hprobability] at hconfidence
        cases hconfidence
      | none =>
        rw [score_of_none hanomaly hcap, predict_of_none hanomaly, hpredict, hscore, hprobability] at hconfidence
        cases hconfidence

end

/-- A platform that reads finite numbers and texts only. -/
def plainPlatform : Platform where
  float
    | .float x => some x
    | .int n => some (.finite n)
    | _ => none
  str
    | .text s => s
    | _ => ""
  interp _ _ _ := none
  round2 x := x
  float_float _ := rfl
  str_text _ := rfl

/-- A classifier of failures that is sure of none. -/
def failureBundle : Bundle where
  «meta» := [("classes", .array [.text "failure", .text "none"])]
  native := .classifier fun _ => [.finite (1 / 4), .finite (3 / 4)]
  onnx := .classifier fun _ => [.finite (1 / 4), .finite (3 / 4)]
  anomaly := none
  parity := rfl
  baseline _ h := by cases h
  offset _ h := by cases h

end TwinVoice.Pdm
