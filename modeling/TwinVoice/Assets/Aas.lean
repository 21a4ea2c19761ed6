import Mathlib.Algebra.Order.Floor.Ring
import Mathlib.Data.List.DropRight
import Mathlib.Data.Rat.Floor
import Mathlib.Tactic.Linarith
import TwinVoice.Basic
import TwinVoice.Lib.Segments

/-! # Asset administration shells

An asset is written as a shell with submodels and read back. Elements have
names that are made of codes by a substitution of characters; what the reader
relies on is the text of the code, which is an element of its own. The library
for the shells keeps what it is given and refuses two siblings of one name. -/

namespace TwinVoice.Assets

open TwinVoice.Lib

/-! ## Rows -/

/-- A `NUMERIC` column with so many decimals: a whole number of units of the last. -/
structure Numeric (scale : Nat) where
  units : Int
  deriving DecidableEq

namespace Numeric
variable {scale : Nat}

def toRat (n : Numeric scale) : Rat := n.units / 10 ^ scale

/-- The nearest; of two that one further from zero. -/
def ofRat (q : Rat) : Numeric scale :=
  let x := q * 10 ^ scale
  ⟨if 0 ≤ x then ⌊x + 1 / 2⌋ else -⌊-x + 1 / 2⌋⟩

end Numeric

inductive SensorKind
  | vibration | temperature | current | voltage | power | pressure
  | flow | speed | torque | position | count | other
  deriving DecidableEq

def SensorKind.text : SensorKind → String
  | .vibration => "vibration" | .temperature => "temperature" | .current => "current" | .voltage => "voltage"
  | .power => "power" | .pressure => "pressure" | .flow => "flow" | .speed => "speed"
  | .torque => "torque" | .position => "position" | .count => "count" | .other => "other"

def sensorKinds : List SensorKind :=
  [.vibration, .temperature, .current, .voltage, .power, .pressure, .flow, .speed, .torque, .position, .count, .other]

/-- The columns named by `_THRESHOLDS`. -/
structure Limits where
  minValid : Option Rat
  maxValid : Option Rat
  warnLow : Option Rat
  warnHigh : Option Rat
  alarmLow : Option Rat
  alarmHigh : Option Rat
  deriving DecidableEq

/-- `_THRESHOLDS`. -/
def thresholds : List (String × (Limits → Option Rat)) :=
  [("MinValid", Limits.minValid), ("MaxValid", Limits.maxValid), ("WarnLow", Limits.warnLow),
    ("WarnHigh", Limits.warnHigh), ("AlarmLow", Limits.alarmLow), ("AlarmHigh", Limits.alarmHigh)]

structure Asset (D : Type) where
  code : String
  name : String
  assetType : String
  manufacturer : Option String
  model : Option String
  serialNo : Option String
  installDate : Option D
  aasId : Option String
  fidelityLevel : Int
  idealCycleTimeS : Option (Numeric 3)
  ratedPowerKw : Option (Numeric 3)
  status : String

structure Component (P : Type) where
  id : Uuid
  code : String
  name : String
  componentType : String
  healthWeight : Numeric 3
  physicsModel : Option String
  physicsParams : P

structure Sensor where
  componentId : Option Uuid
  code : String
  metricName : String
  name : String
  unit : String
  kind : SensorKind
  sampleRateHz : Numeric 3
  limits : Limits

structure ComponentSpec (P : Type) where
  code : String
  name : String
  componentType : String
  healthWeight : Rat
  physicsModel : Option String
  physicsParams : P

structure SensorSpec where
  code : String
  componentCode : Option String
  metricName : String
  name : String
  unit : String
  kind : SensorKind
  sampleRateHz : Rat
  limits : Limits
  deriving DecidableEq

/-- The texts of parameters, dates and numbers: `json`, `date`, `float` and `int`. -/
structure Texts (P D : Type) where
  dumps : P → String
  loads : String → Option P
  isoformat : D → String
  fromisoformat : String → Option D
  float : String → Option Rat
  int : String → Option Int
  dumps_ne (p : P) : dumps p ≠ ""
  loads_dumps (p : P) : loads (dumps p) = some p
  fromisoformat_isoformat (d : D) : fromisoformat (isoformat d) = some d

/-- The texts of one parameter set and one date. -/
def bareTexts : Texts Unit Unit where
  dumps _ := "\x7b\x7d"
  loads _ := some ()
  isoformat _ := "2024-01-01"
  fromisoformat _ := some ()
  float _ := none
  int _ := none
  dumps_ne _ := by decide
  loads_dumps _ := rfl
  fromisoformat_isoformat _ := rfl

/-! ## Elements -/

inductive Scalar
  | string (s : String)
  | double (q : Rat)
  | int (n : Int)
  deriving DecidableEq

inductive Element
  | property (idShort : String) (value : Option Scalar)
  | multiLanguage (idShort : String) (texts : List (String × String))
  | collection (idShort : String) (elements : List Element)

def Element.idShort : Element → String
  | .property idShort _ | .multiLanguage idShort _ | .collection idShort _ => idShort

structure Submodel where
  id : String
  idShort : String
  semanticId : Option String
  elements : List Element

structure Shell where
  id : String
  idShort : Option String
  displayName : List (String × String)
  globalAssetId : Option String
  submodels : List Submodel

def baseIri : String := "https://twinvoice.dev"

def semanticIds : List (String × String) :=
  [("Nameplate", "https://admin-shell.io/zvei/nameplate/2/0/Nameplate"),
    ("TechnicalData", "https://admin-shell.io/ZVEI/TechnicalData/Submodel/1/2"),
    ("OperationalData", baseIri ++ "/aas/semantics/OperationalData/1/0")]

def shellId (code : String) : String := baseIri ++ "/aas/" ++ code

def globalAssetId (code : String) : String := baseIri ++ "/assets/" ++ code

def submodelId (code idShort : String) : String := baseIri ++ "/aas/" ++ code ++ "/submodels/" ++ idShort

/-- The letters and digits of ASCII, and the underscore, stay. -/
def safeChar (c : Char) : Char := if c.isAlphanum ∨ c = '_' then c else '_'

def idShortFor (code : String) : String :=
  let safe := String.ofList (code.toList.map safeChar)
  if (safe.toList.head?.map Char.isAlpha).getD false then safe else "x_" ++ safe

def siblings (elements : List Element) : Prop := (elements.map Element.idShort).Nodup

instance (elements : List Element) : Decidable (siblings elements) := inferInstanceAs (Decidable (List.Nodup _))

def collection (idShort : String) (elements : List Element) : Except Failure Element :=
  if siblings elements then .ok (.collection idShort elements) else .error (.crash "AASConstraintViolation")

def submodel (code idShort : String) (elements : List Element) : Except Failure Submodel :=
  if siblings elements then .ok ⟨submodelId code idShort, idShort, semanticIds.lookup idShort, elements⟩
  else .error (.crash "AASConstraintViolation")

/-- `_prop` with a text. -/
def prop (idShort : String) (value : Option String) : Element := .property idShort (value.map .string)

/-- `_prop` with a `Double`. -/
def double (idShort : String) (value : Option Rat) : Element := .property idShort (value.map .double)

def mlp (idShort : String) (text : Option String) : Element :=
  .multiLanguage idShort (match text with | none | some "" => [] | some text => [("en", text)])

section
variable {P D : Type} (py : Texts P D)

def buildNameplate (asset : Asset D) : Except Failure Submodel :=
  submodel asset.code "Nameplate"
    [prop "URIOfTheProduct" (some (globalAssetId asset.code)),
      mlp "ManufacturerName" asset.manufacturer,
      mlp "ManufacturerProductDesignation" asset.model,
      prop "SerialNumber" asset.serialNo]

def buildTechnicalData (asset : Asset D) : Except Failure Submodel := do
  let general ← collection "GeneralInformation"
    [prop "ManufacturerName" asset.manufacturer, prop "ManufacturerArticleNumber" asset.model]
  let technical ← collection "TechnicalProperties"
    [prop "AssetType" (some asset.assetType),
      double "RatedPowerKw" (asset.ratedPowerKw.map Numeric.toRat),
      double "IdealCycleTimeS" (asset.idealCycleTimeS.map Numeric.toRat),
      .property "FidelityLevel" (some (.int asset.fidelityLevel)),
      prop "InstallDate" (asset.installDate.map py.isoformat)]
  submodel asset.code "TechnicalData" [general, technical]

/-- What the live twin has for a metric: its value and the time of it. -/
structure Live where
  v : Option Rat
  t : Option String

def sensorElements (s : Sensor) (live : Live) : List Element :=
  [prop "Code" (some s.code),
    prop "MetricName" (some s.metricName),
    prop "Name" (some s.name),
    prop "Unit" (some s.unit),
    prop "Kind" (some s.kind.text),
    double "SampleRateHz" (some s.sampleRateHz.toRat)] ++
  thresholds.map (fun threshold => double threshold.1 (threshold.2 s.limits)) ++
  [double "CurrentValue" live.v,
    prop "ObservedAt" live.t]

def sensorCollection (telemetry : String → Live) (s : Sensor) : Except Failure Element :=
  collection (idShortFor s.metricName) (sensorElements s (telemetry s.metricName))

def componentElements (c : Component P) (sensors : Element) : List Element :=
  [prop "Code" (some c.code),
    prop "Name" (some c.name),
    prop "ComponentType" (some c.componentType),
    double "HealthWeight" (some c.healthWeight.toRat),
    prop "PhysicsModel" c.physicsModel,
    prop "PhysicsParams" (some (py.dumps c.physicsParams)),
    sensors]

def componentCollection (sensors : List Sensor) (telemetry : String → Live) (c : Component P) : Except Failure Element := do
  let elements ← (sensors.filter fun s => s.componentId = some c.id).mapM (sensorCollection telemetry)
  collection (idShortFor c.code) (componentElements py c (← collection "Sensors" elements))

def buildOperationalData (asset : Asset D) (components : List (Component P)) (sensors : List Sensor)
    (telemetry : String → Live) : Except Failure Submodel := do
  let componentElements ← components.mapM (componentCollection py sensors telemetry)
  let components ← collection "Components" componentElements
  let assetSensors ← (sensors.filter fun s => s.componentId = none).mapM (sensorCollection telemetry)
  submodel asset.code "OperationalData" [prop "Status" (some asset.status), components, ← collection "AssetSensors" assetSensors]

def buildShell (asset : Asset D) (submodels : List Submodel) : Shell :=
  ⟨(asset.aasId.filter (· ≠ "")).getD (shellId asset.code), some (idShortFor asset.code), [("en", String.ofList (asset.name.toList.take 64))],
    some (globalAssetId asset.code), submodels⟩

/-! ## Reading -/

/-- What the `value` of an element can be. -/
inductive Content
  | none
  | scalar (v : Scalar)
  | elements (es : List Element)

def Element.content : Element → Content
  | .property _ value => match value with
    | .none => .none
    | some v => .scalar v
  | .multiLanguage _ texts =>
    match ((texts.lookup "en").filter (· ≠ "")).or (texts.head?.map Prod.snd) with
    | .none => .none
    | some text => .scalar (.string text)
  | .collection _ es => .elements es

/-- `_find`. -/
def find (elements : List Element) (idShort : String) : Option Element := elements.find? fun e => e.idShort = idShort

/-- `_value`. -/
def valueOf (elements : List Element) (idShort : String) : Content :=
  match find elements idShort with
  | some e => e.content
  | .none => .none

/-- Python's truth value. -/
def Content.truthy : Content → Bool
  | .none => false
  | .scalar (.string s) => s ≠ ""
  | .scalar (.double q) => q ≠ 0
  | .scalar (.int n) => n ≠ 0
  | .elements es => !es.isEmpty

/-- `value or default`. -/
def Content.orElse (c : Content) (default : Scalar) : Content := if c.truthy then c else .scalar default

/-- A field of type `str | None`. -/
def Content.optionalText : Content → Except Failure (Option String)
  | .none => .ok .none
  | .scalar (.string s) => .ok (some s)
  | _ => .error (.crash "ValidationError")

/-- A field of type `str`. -/
def Content.text (c : Content) : Except Failure String := do
  match ← c.optionalText with
  | some s => .ok s
  | .none => .error (.crash "ValidationError")

theorem Content.text_string (s : String) : (Content.scalar (.string s)).text = .ok s := rfl

/-- A field of type `float | None`. -/
def Content.optionalNumber : Content → Except Failure (Option Rat)
  | .none => .ok .none
  | .scalar (.double q) => .ok (some q)
  | .scalar (.int n) => .ok (some n)
  | .scalar (.string s) => match py.float s with
    | some q => .ok (some q)
    | .none => .error (.crash "ValidationError")
  | .elements _ => .error (.crash "ValidationError")

/-- A field of type `float`. -/
def Content.number (c : Content) : Except Failure Rat := do
  match ← c.optionalNumber py with
  | some q => .ok q
  | .none => .error (.crash "ValidationError")

/-- A field of type `SensorKind`. -/
def Content.kind (c : Content) : Except Failure SensorKind := do
  let text ← c.text
  match sensorKinds.find? fun kind => kind.text = text with
  | some kind => .ok kind
  | .none => .error (.crash "ValidationError")

/-- `value or ()`, as elements. -/
def Content.items (c : Content) : Except Failure (List Element) :=
  match c with
  | .elements es => .ok es
  | c => if c.truthy then .error (.crash "AttributeError") else .ok []

/-- The elements that `for element in value` runs over. -/
def Content.loop : Content → Except Failure (List Element)
  | .elements es => .ok es
  | .scalar (.string "") => .ok []
  | _ => .error (.crash "TypeError")

def readLimits (v : List Element) : Except Failure Limits := do
  let minValid ← (valueOf v "MinValid").optionalNumber py
  let maxValid ← (valueOf v "MaxValid").optionalNumber py
  let warnLow ← (valueOf v "WarnLow").optionalNumber py
  let warnHigh ← (valueOf v "WarnHigh").optionalNumber py
  let alarmLow ← (valueOf v "AlarmLow").optionalNumber py
  let alarmHigh ← (valueOf v "AlarmHigh").optionalNumber py
  return ⟨minValid, maxValid, warnLow, warnHigh, alarmLow, alarmHigh⟩

def sensorSpec (componentCode : Option String) (element : Element) : Except Failure SensorSpec := do
  let v ← element.content.items
  let code ← (valueOf v "Code").text
  let metricName ← (valueOf v "MetricName").text
  let name ← (valueOf v "Name").text
  let unit ← (valueOf v "Unit").text
  let kind ← (valueOf v "Kind").kind
  let sampleRateHz ← ((valueOf v "SampleRateHz").orElse (.double 1)).number py
  let limits ← readLimits py v
  return ⟨code, componentCode, metricName, name, unit, kind, sampleRateHz, limits⟩

/-- `_sensor_specs`. -/
def sensorSpecs (collection : Option Element) (componentCode : Option String) : Except Failure (List SensorSpec) :=
  match collection with
  | .none => .ok []
  | some collection => do (← collection.content.loop).mapM (sensorSpec py componentCode)

def loadParams (c : Content) : Except Failure P := do
  let text ← (c.orElse (.string "\x7b\x7d")).text
  match py.loads text with
  | some params => .ok params
  | .none => .error (.crash "JSONDecodeError")

/-- A component with its sensors. -/
def readComponent (component : Element) : Except Failure (ComponentSpec P × List SensorSpec) := do
  let v ← component.content.items
  let code ← (valueOf v "Code").text
  let name ← (valueOf v "Name").text
  let componentType ← (valueOf v "ComponentType").text
  let healthWeight ← ((valueOf v "HealthWeight").orElse (.double 1)).number py
  let physicsModel ← (valueOf v "PhysicsModel").optionalText
  let physicsParams ← loadParams py (valueOf v "PhysicsParams")
  let sensors ← sensorSpecs py (find v "Sensors") (some code)
  return (⟨code, name, componentType, healthWeight, physicsModel, physicsParams⟩, sensors)

/-- The components and sensors of an asset, those on a component before those on the asset. -/
def readOperational (operational : Submodel) : Except Failure (List (ComponentSpec P) × List SensorSpec) := do
  let components ← (← (valueOf operational.elements "Components").items).mapM (readComponent py)
  let assetSensors ← sensorSpecs py (find operational.elements "AssetSensors") .none
  return (components.map Prod.fst, components.flatMap Prod.snd ++ assetSensors)

end

end TwinVoice.Assets
