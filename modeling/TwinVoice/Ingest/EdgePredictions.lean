import TwinVoice.Basic
import TwinVoice.Lib.Dict
import TwinVoice.Lib.FloatFormat
import TwinVoice.Lib.Segments
import TwinVoice.Lib.Table
import TwinVoice.Sim.Floats

/-! # Edge predictions at the ingest consumer

A message on `twinvoice/pred/{asset}` becomes a row of `predictions` and, if it
brings attributions, one of `explanations`, both in one transaction. Columns
that no edge prediction fills are left out. -/

namespace TwinVoice.Ingest.EdgePredictions

open TwinVoice.Lib
open TwinVoice.Sim (Double)

/-! ## The message -/

inductive Label
  | high | medium | low
  deriving DecidableEq

structure RulInterval where
  point : Double
  low : Double
  high : Double
  unit : String := "cycles"
  coverage : Option Double := some (.finite (9 / 10))
  deriving DecidableEq

structure Confidence where
  label : Option Label := none
  reasons : List String := []
  deriving DecidableEq

structure Drift where
  flag : Bool := false
  score : Option Double := none
  deriving DecidableEq

structure EdgeAttribution where
  feature : String
  label : String := ""
  value : Double
  unit : String := ""
  contribution : Double
  direction : String := ""
  share : Double := .finite 0
  rank : Int
  deriving DecidableEq

structure EdgeExplanation where
  method : String := "tree_shap"
  baseValue : Double := .finite 0
  attributions : List EdgeAttribution := []
  deriving DecidableEq

structure EdgeLatency where
  inferMs : Double
  explainMs : Option Double := none
  deriving DecidableEq

structure EdgePrediction where
  id : String
  assetCode : String
  componentCode : Option String := none
  time : Instant
  windowStart : Instant
  windowEnd : Instant
  modelVersion : String
  healthIndex : Option Double := none
  anomalyScore : Option Double := none
  failureProbability : Option (List (String × Double)) := none
  rul : Option RulInterval := none
  confidence : Confidence := {}
  drift : Drift := {}
  explanation : Option EdgeExplanation := none
  latencyMs : EdgeLatency
  deriving DecidableEq

def predTopicPrefix : String := "twinvoice/pred"

def predTopic (assetCode : String) : String := Segments.join '/' [predTopicPrefix, assetCode]

/-- The asset code of a topic `twinvoice/pred/{asset}`. -/
def assetFromPredTopic (topic : String) : Option String :=
  match Segments.split '/' topic with
  | [first, second, third] =>
    if Segments.join '/' [first, second] = predTopicPrefix ∧ third ≠ "" then some third else none
  | _ => none

/-! ## The tables -/

structure Model where
  id : Uuid
  name : String
  version : String
  stage : String
  assetId : Option Uuid

/-- A row of `predictions`. -/
structure Prediction where
  id : Uuid
  time : Instant
  assetId : Uuid
  modelId : Uuid
  windowStart : Instant
  windowEnd : Instant
  healthIndex : Option Double
  anomalyScore : Option Double
  failureProbabilityCalibrated : Option (List (String × Double))
  rulPoint : Option Double
  rulLow : Option Double
  rulHigh : Option Double
  rulUnit : Option String
  rulCoverage : Option Double
  confidenceLabel : Option Label
  confidenceReasons : List String
  driftFlag : Bool
  driftScore : Option Double
  source : String
  latencyMs : Option Int
  deriving DecidableEq

/-- A row of `explanations`. -/
structure Explanation (Card : Type) where
  predictionId : Uuid
  method : String
  baseValue : Option Double
  attributions : List EdgeAttribution
  reasonCard : Option Card
  computeMs : Option Int

/-- `predictions_time_id_uq`. -/
instance : Keyed Prediction (Instant × Uuid) := ⟨fun r => (r.time, r.id)⟩

/-- `explanations_prediction_id_uq`. -/
instance {Card : Type} : Keyed (Explanation Card) Uuid := ⟨Explanation.predictionId⟩

/-- What the consumer tells Ditto and the live channel of the asset. -/
structure StoredEdgePrediction where
  predictionId : Uuid
  assetCode : String
  healthIndex : Option Double
  rulPoint : Option Double
  rulLow : Option Double
  rulHigh : Option Double
  rulUnit : Option String
  confidence : Option Label
  source : String
  time : Instant
  deriving DecidableEq

structure Database (Card : Type) where
  predictions : Table Prediction
  explanations : Table (Explanation Card)

/-- What the consumer works with. -/
structure Platform (Card : Type) where
  /-- `EdgePrediction.model_validate_json` -/
  validate : ByteArray → Option EdgePrediction
  /-- `uuid.UUID`, which raises on a text that is none -/
  uuid : String → Option Uuid
  models : List Model
  assetMap : Dict String Uuid
  /-- the reason card for an asset, from its attributions and health index -/
  reasonCard : Uuid → List EdgeAttribution → Option Double → Option Card
  /-- the float that a column `NUMERIC(3, 2)` gives back for a float, unless it is out of range -/
  numeric : Double → Option Double
  /-- the other columns take the values -/
  takesPrediction : Prediction → Bool
  takesExplanation : Explanation Card → Bool

/-! ## Storing -/

/-- `s.partition(c)` without the separator. -/
def partition (c : Char) (s : String) : String × String :=
  (String.ofList (s.toList.takeWhile (· ≠ c)), String.ofList ((s.toList.dropWhile (· ≠ c)).drop 1))

def getByNameVersion (models : List Model) (name version : String) : Option Model :=
  models.find? fun m => m.name = name ∧ m.version = version

/-- The production model of the whole plant. -/
def productionModel (models : List Model) (name : String) : Option Model :=
  models.find? fun m => m.name = name ∧ m.stage = "production" ∧ m.assetId = none

def resolveModel (models : List Model) (modelVersion : String) : Option Model :=
  let (name, version) := partition ':' modelVersion
  if version ≠ "" then getByNameVersion models name version else productionModel models name

/-- `round` of a finite number. -/
def roundInt (q : Rat) : Int := if q < 0 then -roundToEven (-q).toNNRat else roundToEven q.toNNRat

/-- `round(x, 2)`. -/
def roundTwo : Double → Double
  | .finite q => .finite (roundInt (q * 100) / 100)
  | .nan => .nan
  | .infinity negative => .infinity negative

/-- What is raised while a message is stored. -/
inductive Raised
  | badId
  | notFinite
  | refused

/-- `round(x)`, which raises on what is not finite. -/
def roundMs : Double → Except Raised Int
  | .finite q => .ok (roundInt q)
  | .nan => .error .notFinite
  | .infinity _ => .error .notFinite

/-- The `Prediction` that is made of a message. -/
def predictionOf (m : EdgePrediction) (id assetId modelId : Uuid) : Except Raised Prediction := do
  let latency ← roundMs (m.latencyMs.inferMs.add (m.latencyMs.explainMs.getD (.finite 0)))
  return {
    id := id
    time := m.time
    assetId := assetId
    modelId := modelId
    windowStart := m.windowStart
    windowEnd := m.windowEnd
    healthIndex := m.healthIndex.map roundTwo
    anomalyScore := m.anomalyScore
    failureProbabilityCalibrated := m.failureProbability
    rulPoint := m.rul.map RulInterval.point
    rulLow := m.rul.map RulInterval.low
    rulHigh := m.rul.map RulInterval.high
    rulUnit := m.rul.map RulInterval.unit
    rulCoverage := m.rul.bind RulInterval.coverage
    confidenceLabel := m.confidence.label
    confidenceReasons := m.confidence.reasons
    driftFlag := m.drift.flag
    driftScore := m.drift.score
    source := "edge"
    latencyMs := some latency }

section
variable {Card : Type} (p : Platform Card)

/-- The `Explanation` of a message that carries attributions. -/
def explanationOf (m : EdgePrediction) (id assetId : Uuid) : Except Raised (Option (Explanation Card)) :=
  match m.explanation with
  | none => .ok none
  | some e =>
    if e.attributions = [] then .ok none
    else do
      let computeMs ← m.latencyMs.explainMs.mapM roundMs
      return some {
        predictionId := id
        method := "tree_shap"
        baseValue := some e.baseValue
        attributions := e.attributions
        reasonCard := p.reasonCard assetId e.attributions m.healthIndex
        computeMs := computeMs }

def rulCoverageColumn (coverage : Option Double) : Option Double :=
  match coverage with
  | none => some (.finite (9 / 10))
  | some c => p.numeric c

/-- What is inserted. The ORM leaves a column with a server default out of the statement when its
value is `None`, and the database fills the default in. -/
def columns (r : Prediction) : Option Prediction :=
  (rulCoverageColumn p r.rulCoverage).map fun coverage =>
    { r with rulUnit := some (r.rulUnit.getD "cycles"), rulCoverage := some coverage }

def insertPrediction (t : Table Prediction) (r : Prediction) : Except Raised (Table Prediction) :=
  match columns p r with
  | none => .error .refused
  | some r =>
    if p.takesPrediction r then
      match t.insert r with
      | some t => .ok t
      | none => .error .refused
    else .error .refused

def insertExplanation (t : Table (Explanation Card)) (e : Option (Explanation Card)) :
    Except Raised (Table (Explanation Card)) :=
  match e with
  | none => .ok t
  | some e =>
    if p.takesExplanation e then
      match t.insert e with
      | some t => .ok t
      | none => .error .refused
    else .error .refused

def storedOf (m : EdgePrediction) (id : Uuid) : StoredEdgePrediction where
  predictionId := id
  assetCode := m.assetCode
  healthIndex := m.healthIndex
  rulPoint := m.rul.map RulInterval.point
  rulLow := m.rul.map RulInterval.low
  rulHigh := m.rul.map RulInterval.high
  rulUnit := m.rul.map RulInterval.unit
  confidence := m.confidence.label
  source := "edge"
  time := m.time

/-- What the transaction commits, nothing if the message cannot or need not be stored, or what is
raised, with which the session is closed and the transaction undone. -/
def storeEdgePrediction (db : Database Card) (m : EdgePrediction) (assetId : Uuid) :
    Except Raised (Option (Database Card × StoredEdgePrediction)) :=
  match resolveModel p.models m.modelVersion with
  | none => .ok none
  | some model =>
    match p.uuid m.id with
    | none => .error .badId
    | some id =>
      if (db.predictions.find (m.time, id)).isSome then .ok none
      else do
        let prediction ← predictionOf m id assetId model.id
        let predictions ← insertPrediction p db.predictions prediction
        let explanation ← explanationOf p m id assetId
        let explanations ← insertExplanation p db.explanations explanation
        return some (⟨predictions, explanations⟩, storedOf m id)

/-- The database, and what has been told to Ditto and the live channels. -/
structure State (Card : Type) where
  db : Database Card
  told : List StoredEdgePrediction

/-- `_process_edge_prediction` from the valid message on. -/
def processValid (s : State Card) (topic : String) (m : EdgePrediction) : State Card :=
  if some m.assetCode ≠ assetFromPredTopic topic then s
  else
    match p.assetMap.get? m.assetCode with
    | none => s
    | some assetId =>
      match storeEdgePrediction p s.db m assetId with
      | .ok (some (db, stored)) => ⟨db, s.told ++ [stored]⟩
      | .ok none => s
      | .error _ => s

/-- `_process_edge_prediction`; `_on_message` logs what is raised. -/
def processEdgePrediction (s : State Card) (topic : String) (payload : ByteArray) : State Card :=
  match p.validate payload with
  | none => s
  | some m => processValid p s topic m

end

end TwinVoice.Ingest.EdgePredictions
