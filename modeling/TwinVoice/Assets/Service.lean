import TwinVoice.Assets.Aas
import TwinVoice.Lib.Dict

/-! # Export, import and update of an asset

The rows of one asset. The nameplate and the technical data are stored, and
written again with every update; the operational data is made of the rows when
the asset is exported. -/

namespace TwinVoice.Assets

open TwinVoice.Lib

/-- An asset with its rows. -/
structure Stored (P D : Type) where
  asset : Asset D
  components : List (Component P)
  sensors : List Sensor
  nameplate : Option Submodel
  technicalData : Option Submodel

/-- The columns of `assets` that a client may give, as `AssetCreate` checks them. -/
structure AssetCreate (D : Type) where
  code : String
  name : String
  assetType : String
  manufacturer : Option String
  model : Option String
  serialNo : Option String
  installDate : Option D
  fidelityLevel : Int
  idealCycleTimeS : Option Rat
  ratedPowerKw : Option Rat

def assetTypes : List String := ["cnc_mill", "compressor", "conveyor", "hydraulic_press", "injection_moulder", "other"]

def codeStart (c : Char) : Bool := c.isLower || c.isDigit

/-- `CODE_PATTERN`. -/
def codePattern (code : String) : Bool :=
  match code.toList with
  | [] => false
  | c :: cs => codeStart c && cs.all (fun c => codeStart c || c = '-') && 1 ≤ cs.length && cs.length ≤ 48

/-- `PART_CODE_PATTERN`. -/
def partCodePattern (code : String) : Bool :=
  match code.toList with
  | [] => false
  | c :: cs => codeStart c && cs.all (fun c => codeStart c || c = '_' || c = '-') && cs.length ≤ 48

def AssetCreate.check {D : Type} (a : AssetCreate D) : Bool :=
  codePattern a.code && 1 ≤ a.name.length && a.name.length ≤ 200 && assetTypes.contains a.assetType &&
    1 ≤ a.fidelityLevel && a.fidelityLevel ≤ 4 && a.idealCycleTimeS.all (0 < ·) && a.ratedPowerKw.all (0 ≤ ·)

def AssetCreate.validated {D : Type} (a : AssetCreate D) : Except Failure (AssetCreate D) :=
  if a.check then .ok a else .error (.problem (.unprocessable "AASX content is not a valid asset"))

section
variable {P D : Type} (py : Texts P D)

/-! ## Export -/

/-- A submodel that is there, or one made of the row. -/
def orBuild (content : Option Submodel) (build : Except Failure Submodel) : Except Failure Submodel :=
  match content with
  | some content => .ok content
  | none => build

def storedNameplate (s : Stored P D) : Except Failure Submodel := orBuild s.nameplate (buildNameplate s.asset)

def storedTechnicalData (s : Stored P D) : Except Failure Submodel := orBuild s.technicalData (buildTechnicalData py s.asset)

/-- `aas_store`, written to a package: what a reader of the package gets. -/
def exportAasx (s : Stored P D) (telemetry : String → Live) : Except Failure (List Shell) := do
  let nameplate ← storedNameplate s
  let technicalData ← storedTechnicalData py s
  let operational ← buildOperationalData py s.asset s.components s.sensors telemetry
  return [buildShell s.asset [nameplate, technicalData, operational]]

/-! ## Import -/

/-- The code at the end of a global id: other characters become hyphens, and none is left at an end. -/
def codeOf (globalId : String) : String :=
  let path := String.ofList (globalId.toList.rdropWhile (· = '/'))
  let last := ((Segments.split '/' path).getLast?).getD ""
  let clean := last.toLower.toList.map fun c => if codeStart c ∨ c = '-' then c else '-'
  String.ofList ((clean.dropWhile (· = '-')).rdropWhile (· = '-'))

/-- The name of an imported asset. -/
def nameOf (shell : Shell) (code : String) : String :=
  let english := (shell.displayName.lookup "en").filter (· ≠ "")
  ((english.or (shell.idShort.filter (· ≠ ""))).getD code)

/-- A field that `AssetCreate` refuses is reported. -/
def reported {α : Type} (x : Except Failure α) : Except Failure α :=
  x.mapError fun _ => .problem (.unprocessable "AASX content is not a valid asset")

/-- `int(value or 2)`. -/
def fidelityOf (c : Content) : Except Failure Int :=
  match c.orElse (.int 2) with
  | .scalar (.int n) => .ok n
  | .scalar (.double q) => .ok (if 0 ≤ q then ⌊q⌋ else ⌈q⌉)
  | .scalar (.string text) => match py.int text with
    | some n => .ok n
    | none => .error (.crash "ValueError")
  | _ => .error (.crash "TypeError")

def installDateOf (c : Content) : Except Failure (Option D) :=
  if c.truthy then do
    match py.fromisoformat (← c.text) with
    | some d => .ok (some d)
    | none => .error (.crash "ValueError")
  else .ok none

/-- What the nameplate and the technical data say, and `AssetCreate` takes. -/
def readAssetCreate (code name assetType : String) (nameplate technicalData : Option Submodel) :
    Except Failure (AssetCreate D) := do
  let plate := (nameplate.map Submodel.elements).getD []
  let props ← (valueOf ((technicalData.map Submodel.elements).getD []) "TechnicalProperties").items
  let fidelityLevel ← fidelityOf py (valueOf props "FidelityLevel")
  let installDate ← installDateOf py (valueOf props "InstallDate")
  let manufacturer ← reported (valueOf plate "ManufacturerName").optionalText
  let model ← reported (valueOf plate "ManufacturerProductDesignation").optionalText
  let serialNo ← reported (valueOf plate "SerialNumber").optionalText
  let ratedPowerKw ← reported ((valueOf props "RatedPowerKw").optionalNumber py)
  let idealCycleTimeS ← reported ((valueOf props "IdealCycleTimeS").optionalNumber py)
  AssetCreate.validated ⟨code, name, assetType, manufacturer, model, serialNo, installDate, fidelityLevel, idealCycleTimeS, ratedPowerKw⟩

/-- The rows of the components, with new ids. -/
def componentRows (specs : List (ComponentSpec P)) (firstId : Uuid) : List (Component P) :=
  (specs.zipIdx firstId).map fun c =>
    ⟨c.2, c.1.code, c.1.name, c.1.componentType, .ofRat c.1.healthWeight, c.1.physicsModel, c.1.physicsParams⟩

def sensorRow (rows : List (Component P)) (s : SensorSpec) : Except Failure Sensor :=
  match s.componentCode.filter (· ≠ "") with
  | none => .ok ⟨none, s.code, s.metricName, s.name, s.unit, s.kind, .ofRat s.sampleRateHz, s.limits⟩
  | some code => match rows.find? fun c => c.code = code with
    | some c => .ok ⟨some c.id, s.code, s.metricName, s.name, s.unit, s.kind, .ofRat s.sampleRateHz, s.limits⟩
    | none => .error (.problem (.unprocessable ("Sensor " ++ s.metricName ++ " references unknown component '" ++ code ++ "'")))

/-- `_store_submodels`: the rows of both submodels are written, whether or not there are any. -/
def storeSubmodels (s : Stored P D) (nameplate technicalData : Option Submodel) : Except Failure (Stored P D) := do
  let nameplate ← orBuild nameplate (buildNameplate s.asset)
  let technicalData ← orBuild technicalData (buildTechnicalData py s.asset)
  return { s with nameplate := some nameplate, technicalData := some technicalData }

/-- `create_asset` where no asset is: with the indices of the tables. -/
def createAsset (data : AssetCreate D) (components : List (ComponentSpec P)) (sensors : List SensorSpec)
    (nameplate technicalData : Option Submodel) (firstId : Uuid) : Except Failure (Stored P D) := do
  let asset : Asset D := ⟨data.code, data.name, data.assetType, data.manufacturer, data.model, data.serialNo, data.installDate,
    some (shellId data.code), data.fidelityLevel, data.idealCycleTimeS.map .ofRat, data.ratedPowerKw.map .ofRat, "RUNNING"⟩
  if (components.map ComponentSpec.code).Nodup ∧ (sensors.map SensorSpec.metricName).Nodup then
    let rows := componentRows components firstId
    let sensorRows ← sensors.mapM (sensorRow rows)
    storeSubmodels py ⟨asset, rows, sensorRows, none, none⟩ nameplate technicalData
  else .error (.crash "IntegrityError")

/-- The submodel of a name, of the shell that is imported. -/
def submodelOf (package : List Shell) (idShort : String) : Option Submodel :=
  package.head?.bind fun shell => Dict.get? (shell.submodels.reverse.map fun sm => (sm.idShort, sm)) idShort

/-- The components and sensors of a package. -/
def readStructure (operational : Option Submodel) : Except Failure (List (ComponentSpec P) × List SensorSpec) :=
  match operational with
  | some operational => readOperational py operational
  | none => .ok ([], [])

/-- `import_aasx` into a system without assets. -/
def importAasx (package : List Shell) (assetType : String) (firstId : Uuid) : Except Failure (Stored P D) :=
  match package with
  | [] => .error (.problem (.unprocessable "AASX package contains no Asset Administration Shell"))
  | shell :: _ => do
    let code := codeOf ((shell.globalAssetId.filter (· ≠ "")).getD shell.id)
    let submodels := submodelOf package
    let parts ← readStructure py (submodels "OperationalData")
    if codePattern code then
      let data ← readAssetCreate py code (nameOf shell code) assetType (submodels "Nameplate") (submodels "TechnicalData")
      createAsset py data parts.1 parts.2 (submodels "Nameplate") (submodels "TechnicalData") firstId
    else
      .error (.problem (.unprocessable ("Derived asset code '" ++ code ++ "' is not valid; expected ^[a-z0-9][a-z0-9-]\x7b1,48\x7d$")))

/-! ## Update -/

/-- The fields that a client sets; a nullable one may be set to nothing. -/
structure AssetUpdate (D : Type) where
  name : Option (Option String)
  manufacturer : Option (Option String)
  model : Option (Option String)
  serialNo : Option (Option String)
  installDate : Option (Option D)
  fidelityLevel : Option (Option Int)
  idealCycleTimeS : Option (Option Rat)
  ratedPowerKw : Option (Option Rat)
  status : Option (Option String)

/-- The value of a column that must have one. -/
def required {α : Type} (new : Option (Option α)) (old : α) : Except Failure α :=
  match new with
  | none => .ok old
  | some (some value) => .ok value
  | some none => .error (.crash "IntegrityError")

def AssetUpdate.apply (u : AssetUpdate D) (a : Asset D) : Except Failure (Asset D) := do
  let name ← required u.name a.name
  let fidelityLevel ← required u.fidelityLevel a.fidelityLevel
  let status ← required u.status a.status
  return { a with
    name, fidelityLevel, status
    manufacturer := u.manufacturer.getD a.manufacturer
    model := u.model.getD a.model
    serialNo := u.serialNo.getD a.serialNo
    installDate := u.installDate.getD a.installDate
    idealCycleTimeS := (u.idealCycleTimeS.map (Option.map Numeric.ofRat)).getD a.idealCycleTimeS
    ratedPowerKw := (u.ratedPowerKw.map (Option.map Numeric.ofRat)).getD a.ratedPowerKw }

/-- `update_asset`, where `sync` is the answer of the twin store. -/
def updateAsset (s : Stored P D) (data : AssetUpdate D) (sync : Except Failure Unit) : Except Failure (Stored P D) := do
  let asset ← data.apply s.asset
  let updated ← storeSubmodels py { s with asset } none none
  sync
  return updated

end

end TwinVoice.Assets
