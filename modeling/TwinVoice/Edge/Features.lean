import Mathlib.Data.List.Induction
import TwinVoice.Lib.Dict
import TwinVoice.Lib.Filling
import TwinVoice.Pdm.Bundle
import TwinVoice.Pdm.Features

/-! # The rolling window of the edge

The last samples of one asset, each with every sensor carried forward from its
last good value, and the features of a full window at every stride. -/

namespace TwinVoice.Edge

open TwinVoice.Lib TwinVoice.Pdm
open TwinVoice.Sim (Double)

/-- The time of a sample and what it says of each sensor; a bad reading is none. -/
structure Sample where
  time : Instant
  metrics : String → Option Double

structure RollingWindow where
  rows : List (Instant × FrameRow)
  last : Dict String Double
  sinceEmit : Nat

namespace RollingWindow

def empty : RollingWindow := ⟨[], [], 0⟩

/-- The last good values after a sample. -/
def carry (sensorCols : List String) (last : Dict String Double) (metrics : String → Option Double) :
    Dict String Double :=
  sensorCols.foldl (fun last name =>
    match metrics name with
    | some value => last.set name value
    | none => last) last

/-- Append one sample; true when a full window is due for scoring. -/
def add (spec : FeatureSpec) (w : RollingWindow) (x : Sample) : RollingWindow × Bool :=
  let last := carry spec.sensorCols w.last x.metrics
  if ¬ spec.sensorCols.any (fun name => (last.get? name).isSome) = true then ({ w with last := last }, false)
  else
    let rows := w.rows ++ [(x.time, fun name => (last.get? name).getD (.finite 0))]
    let rows := rows.drop (rows.length - spec.windowSize)
    if rows.length = spec.windowSize ∧ spec.stride ≤ w.sinceEmit + 1 then (⟨rows, last, 0⟩, true)
    else (⟨rows, last, w.sinceEmit + 1⟩, false)

/-- The features of the current window, ordered as the model expects. -/
def vector (root : Rat → Rat) (spec : FeatureSpec) (w : RollingWindow) (featureNames : List String) :
    Option (List Double) := do
  let features ← buildFeatures root (w.rows.map Prod.snd) { spec with stride := spec.windowSize }
  let row ← features.getLast?
  return featureNames.map fun name => (row.lookup name).getD (.finite 0)

/-- The window after a series of samples, and whether it is due. -/
def run (spec : FeatureSpec) (samples : List Sample) : RollingWindow × Bool :=
  samples.foldl (fun w x => w.1.add spec x) (empty, false)

end RollingWindow

/-- The readings of one sensor. -/
def readings (samples : List Sample) (name : String) : List (Option Double) := samples.map fun x => x.metrics name

namespace RollingWindow

open Filling

theorem get?_carry (sensorCols : List String) (last : Dict String Double) (metrics : String → Option Double)
    (name : String) : (carry sensorCols last metrics).get? name =
      if name ∈ sensorCols then (metrics name).or (last.get? name) else last.get? name := by
  unfold carry
  induction sensorCols generalizing last with
  | nil => rfl
  | cons c cols ih =>
    rw [List.foldl_cons, ih]
    cases hc : metrics c with
    | none =>
      by_cases hname : name = c
      · subst hname
        simp [hc]
      · simp [hname]
    | some v =>
      rw [Dict.get?_set]
      by_cases hname : c = name
      · subst hname
        simp [hc]
      · simp [hname, Ne.symm hname]

/-- What the window holds after the samples: the filled readings of the last of them. -/
structure Tracks (spec : FeatureSpec) (samples : List Sample) (w : RollingWindow) : Prop where
  last : ∀ name ∈ spec.sensorCols, w.last.get? name = carried none (readings samples name)
  length : w.rows.length ≤ samples.length
  known : w.rows ≠ [] → ∃ name ∈ spec.sensorCols, (w.last.get? name).isSome = true
  column : ∀ name ∈ spec.sensorCols, w.rows.map (fun row => row.2 name) =
    ((ffill none (readings samples name)).drop (samples.length - w.rows.length)).map (·.getD (.finite 0))

theorem tracks_empty (spec : FeatureSpec) : Tracks spec [] empty where
  last _ _ := rfl
  length := Nat.le_refl _
  known h := absurd rfl h
  column _ _ := rfl

theorem readings_append (samples : List Sample) (x : Sample) (name : String) :
    readings (samples ++ [x]) name = readings samples name ++ [x.metrics name] := by
  simp [readings]

/-- A row joins the window, and the oldest leaves a full one. -/
theorem Tracks.append {spec : FeatureSpec} {samples : List Sample} {w : RollingWindow} (h : Tracks spec samples w)
    {x : Sample} {last : Dict String Double}
    (hlast : ∀ name ∈ spec.sensorCols, last.get? name = carried none (readings (samples ++ [x]) name))
    (hknown : ∃ name ∈ spec.sensorCols, (last.get? name).isSome = true) (size since : Nat) :
    let rows := w.rows ++ [(x.time, fun name => (last.get? name).getD (.finite 0))]
    Tracks spec (samples ++ [x]) ⟨rows.drop (rows.length - size), last, since⟩ := by
  intro rows
  have hcount : rows.length = w.rows.length + 1 := List.length_append
  have hle := h.length
  refine ⟨hlast, ?_, fun _ => hknown, ?_⟩
  · have hsamples : (samples ++ [x]).length = samples.length + 1 := List.length_append
    rw [List.length_drop, hsamples]
    omega
  · intro name hname
    have hfull : ffill none (readings (samples ++ [x]) name) =
        ffill none (readings samples name) ++ [last.get? name] := by
      rw [hlast name hname, readings_append, ffill_append, carried_append]
      rfl
    have hrows : rows.map (fun row => row.2 name) = w.rows.map (fun row => row.2 name) ++
        [(last.get? name).getD (.finite 0)] := List.map_append
    have hlength : (ffill none (readings samples name)).length = samples.length := by
      rw [length_ffill, readings, List.length_map]
    have hdrop : (ffill none (readings samples name) ++ [last.get? name]).drop (samples.length - w.rows.length) =
        (ffill none (readings samples name)).drop (samples.length - w.rows.length) ++ [last.get? name] :=
      List.drop_append_of_le_length (by omega)
    have hplace : samples.length - w.rows.length + (rows.length - size) =
        (samples ++ [x]).length - (rows.length - (rows.length - size)) := by
      have hsamples : (samples ++ [x]).length = samples.length + 1 := List.length_append
      omega
    calc (rows.drop (rows.length - size)).map (fun row => row.2 name)
        = List.drop (rows.length - size) (((ffill none (readings samples name)).drop
            (samples.length - w.rows.length) ++ [last.get? name]).map (·.getD (.finite 0))) := by
          rw [List.map_drop, hrows, h.column name hname, List.map_append, List.map_singleton]
      _ = ((ffill none (readings (samples ++ [x]) name)).drop
            (samples.length - w.rows.length + (rows.length - size))).map (·.getD (.finite 0)) := by
          rw [← List.map_drop, hfull, ← List.drop_drop, hdrop]
      _ = _ := by rw [hplace, List.length_drop]

theorem Tracks.add {spec : FeatureSpec} {samples : List Sample} {w : RollingWindow} (h : Tracks spec samples w)
    (x : Sample) : Tracks spec (samples ++ [x]) (w.add spec x).1 := by
  have hlast : ∀ name ∈ spec.sensorCols, (carry spec.sensorCols w.last x.metrics).get? name =
      carried none (readings (samples ++ [x]) name) := by
    intro name hname
    rw [get?_carry, if_pos hname, h.last name hname, readings_append, carried_append]
    rfl
  have hkept : ∀ name ∈ spec.sensorCols, (w.last.get? name).isSome = true →
      ((carry spec.sensorCols w.last x.metrics).get? name).isSome = true := by
    intro name hname hsome
    rw [get?_carry, if_pos hname]
    cases x.metrics name with
    | none => exact hsome
    | some v => rfl
  unfold RollingWindow.add
  dsimp only
  split
  · rename_i hunknown
    have hrows : w.rows = [] := by
      by_contra hne
      obtain ⟨name, hname, hsome⟩ := h.known hne
      exact hunknown (List.any_eq_true.mpr ⟨name, hname, hkept name hname hsome⟩)
    refine ⟨hlast, ?_, ?_, ?_⟩
    · rw [hrows]
      exact Nat.zero_le _
    · intro hne
      exact absurd hrows hne
    · intro name _
      rw [hrows]
      have hlength : (samples ++ [x]).length = (ffill none (readings (samples ++ [x]) name)).length := by
        rw [length_ffill, readings, List.length_map]
      rw [List.length_nil, Nat.sub_zero, hlength, List.drop_length]
      rfl
  · rename_i hknown
    have hknown : ∃ name ∈ spec.sensorCols, ((carry spec.sensorCols w.last x.metrics).get? name).isSome = true :=
      List.any_eq_true.mp (not_not.mp hknown)
    split
    · exact h.append hlast hknown spec.windowSize 0
    · exact h.append hlast hknown spec.windowSize (w.sinceEmit + 1)

theorem tracks_run (spec : FeatureSpec) (samples : List Sample) : Tracks spec samples (run spec samples).1 := by
  induction samples using List.reverseRecOn with
  | nil => exact tracks_empty spec
  | append_singleton samples x ih =>
    rw [run, List.foldl_append]
    exact ih.add x

/-- A window that is due is full. -/
theorem length_of_due {spec : FeatureSpec} {samples : List Sample} (h : (run spec samples).2 = true) :
    (run spec samples).1.rows.length = spec.windowSize := by
  cases List.eq_nil_or_concat samples with
  | inl hnil =>
    rw [hnil] at h
    cases h
  | inr hconcat =>
    obtain ⟨samples', x, rfl⟩ := hconcat
    rw [List.concat_eq_append, run, List.foldl_append] at h ⊢
    simp only [List.foldl_cons, List.foldl_nil, RollingWindow.add] at h ⊢
    split at h
    · cases h
    · rename_i hknown
      rw [if_neg hknown]
      split at h
      · rename_i hfull
        rw [if_pos hfull]
        exact hfull.1
      · cases h

end RollingWindow

end TwinVoice.Edge

/-! ## Inference on the edge

`EdgeModel.predict` runs the ONNX graphs and takes everything else from
`bundle.json`. The time that it takes is left out. -/

namespace TwinVoice.Edge

open TwinVoice.Pdm TwinVoice.Lib
open TwinVoice.Sim (Double Json)

/-- `_confidence`. -/
def confidence (width cap : Double) : String × List String := intervalConfidence width cap

/-- The part of `predict` that depends on the task. -/
def predictTask (p : Platform) (b : Bundle) (x : List Double) : Option Score :=
  match b.onnx with
  | .regressor predict => do
    let cap ← rulCap p b.meta
    let point := clip (predict x) cap
    let q ← conformalQ p b.meta point
    let (confidence, reasons) := confidence ((Double.finite 2).mul q) cap
    return {
      rul := some {
        point := point
        low := clip (point.sub q) cap
        high := clip (point.add q) cap
        unit := (b.meta.truthy? "rul_unit").getD (.text "cycles")
        coverage := (b.meta.lookup "coverage").getD .null }
      failureProbability := none
      healthIndex := none
      anomalyScore := none
      confidence := some confidence
      reasons := reasons }
  | .classifier predictProba => do
    let probability ← failureProbability p b.meta (predictProba x)
    return ⟨none, some probability, none, none, none, []⟩

/-- `float(self.meta.get("anomaly_baseline_q95") or 1.0)`. -/
def anomalyQ95 (p : Platform) («meta» : Metadata) : Option Double :=
  match «meta».truthy? "anomaly_baseline_q95" with
  | some value => p.float value
  | none => some (.finite 1)

def predict (p : Platform) (b : Bundle) (x : List Double) : Option Score := do
  let out ← predictTask p b x
  match b.anomaly with
  | none => return out
  | some forest => do
    let rawScore := onnxAnomalyRaw (forest.scores x) (← (b.meta.lookup "anomaly_offset").bind p.float)
    let q95 ← anomalyQ95 p b.meta
    let anomalyScore := normaliseAnomaly rawScore q95
    return { out with
      anomalyScore := some anomalyScore
      healthIndex := some (p.round2 ((Double.finite 100).mul ((Double.finite 1).sub anomalyScore))) }

end TwinVoice.Edge
