import TwinVoice.Lib.Dict
import TwinVoice.Sim.Commands
import TwinVoice.Sim.Floats

/-! # Model bundles

What the trainer writes next to a model: `bundle.json` with the numbers that
turn the raw outputs into a prediction, and the estimator and the anomaly
forest, each as it is for the server and as its ONNX graph for the edge. -/

namespace TwinVoice.Pdm

open TwinVoice.Lib
open TwinVoice.Sim (Double Json)

/-- What the scoring takes from the interpreter and from numpy; none raises. -/
structure Platform where
  float : Json → Option Double
  str : Json → String
  interp : Double → Json → Json → Option Double
  round2 : Double → Double
  float_float : ∀ x, float (.float x) = some x
  str_text : ∀ s, str (.text s) = s

/-- `bundle.json` without the task, which the estimator tells. -/
abbrev Metadata := List (String × Json)

namespace Metadata

/-- `meta.get(key)` where only a truthy value counts. -/
def truthy? («meta» : Metadata) (key : String) : Option Json := («meta».lookup key).filter Json.truthy

end Metadata

inductive Estimator
  | regressor (predict : List Double → Double)
  | classifier (predictProba : List Double → List Double)

/-- `onnx_anomaly_raw` of the graph's scores. -/
def onnxAnomalyRaw (scores offset : Double) : Double := (scores.add offset).neg

/-- An `AnomalyDetector` and the ONNX graph of its forest. What the graph gives is, with the
offset undone, what the forest gives; a quantile below 1e-10 has been replaced by 1. -/
structure Forest where
  scoreSamples : List Double → Double
  scores : List Double → Double
  baselineQ95 : Double
  offset : Double
  parity : ∀ x, onnxAnomalyRaw (scores x) offset = (scoreSamples x).neg
  fitted : baselineQ95.lt (.finite (1 / 10 ^ 10)) = false

/-- The files of one model, as `save_bundle` writes them. The two runtimes give the same raw outputs. -/
structure Bundle where
  «meta» : Metadata
  native : Estimator
  onnx : Estimator
  anomaly : Option Forest
  parity : onnx = native
  baseline : ∀ forest, anomaly = some forest → «meta».lookup "anomaly_baseline_q95" = some (.float forest.baselineQ95)
  offset : ∀ forest, anomaly = some forest → «meta».lookup "anomaly_offset" = some (.float forest.offset)

structure Rul where
  point : Double
  low : Double
  high : Double
  unit : Json
  coverage : Json

/-- What a scoring tells, `Score` on the server and `Inference` on the edge. -/
structure Score where
  rul : Option Rul
  failureProbability : Option (Dict String Double)
  healthIndex : Option Double
  anomalyScore : Option Double
  confidence : Option String
  reasons : List String

/-- `np.clip(x, 0, cap)`. -/
def clip (x cap : Double) : Double := (x.max (.finite 0)).min cap

/-- `normalise_anomaly`. -/
def normaliseAnomaly (raw baselineQ95 : Double) : Double :=
  let room := (Double.finite 1).sub baselineQ95
  let span := if room.lt (.finite (1 / 10 ^ 6)) then .finite (1 / 10 ^ 6) else room
  clip ((raw.sub baselineQ95).div span) (.finite 1)

/-- A range that a share of it can be taken of. -/
def usable (cap : Double) : Bool := cap.isFinite && (Double.finite 0).lt cap

/-- `interval_confidence`. -/
def intervalConfidence (width cap : Double) : String × List String :=
  if usable cap = false then ("medium", [])
  else
    let relative := width.div cap
    if relative.lt (.finite (15 / 100)) then ("high", [])
    else if relative.lt (.finite (35 / 100)) then ("medium", [])
    else ("low", ["wide_interval"])

section
variable (p : Platform) («meta» : Metadata)

/-- `float(meta.get("rul_cap") or np.inf)`. -/
def rulCap : Option Double :=
  match «meta».truthy? "rul_cap" with
  | some value => p.float value
  | none => some (.infinity false)

/-- `float(meta.get("conformal_q") or 0.2 * point)`. -/
def conformalQ (point : Double) : Option Double :=
  match «meta».truthy? "conformal_q" with
  | some value => p.float value
  | none => some ((Double.finite (1 / 5)).mul point)

/-- The knots of one class, each an array of an object. -/
def calibrated (raw : List Double) (knots : Json) (k : Nat) : Option Double := do
  let .object fields := knots | none
  let x ← raw[k]?
  p.interp x (← fields.lookup "x") (← fields.lookup "y")

/-- `apply_isotonic` on one row; one column is broadcast, another number of them that is not
that of the row does not fit it. -/
def applyIsotonic (raw : List Double) (maps : Json) : Option (List Double) := do
  let .array maps := maps | none
  let out ← maps.zipIdx.mapM fun e => calibrated p raw e.1 e.2
  let total := Double.sum out
  if (Double.finite 0).lt total then
    let row := out.map (·.div total)
    if row.length = raw.length then some row
    else if row.length = 1 then some (raw.map fun _ => row.headD (.finite 0))
    else none
  else if out.length = raw.length ∨ out.length = 1 then some raw
  else none

/-- `meta.get("classes") or [str(i) for i in range(k)]`, and the text of each. -/
def classNames (k : Nat) : Option (List String) :=
  match «meta».truthy? "classes" with
  | none => some ((List.range k).map toString)
  | some (.array items) => some (items.map p.str)
  | some (.object fields) => some (fields.map Prod.fst)
  | some (.text s) => some (s.toList.map fun c => String.ofList [c])
  | some _ => none

/-- The probabilities, calibrated where the bundle says how. -/
def probabilities (raw : List Double) : Option (List Double) :=
  match «meta».truthy? "isotonic" with
  | some maps => applyIsotonic p raw maps
  | none => some raw

/-- Each probability under its class. -/
def failureProbability (raw : List Double) : Option (Dict String Double) := do
  let row ← probabilities p «meta» raw
  let names ← classNames p «meta» row.length
  if names.length = row.length then
    some ((names.zip row).foldl (fun d e => d.set e.1 e.2) [])
  else none

end

end TwinVoice.Pdm
