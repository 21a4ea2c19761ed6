import TwinVoice.Assets.Service
import TwinVoice.Lib.Grouping
import TwinVoice.Lib.Table
import TwinVoice.Lib.Traversal

/-! # Export and import of an asset

What an asset loses on the way through a package. Names of elements must be
distinct among siblings, although they are made of codes by a substitution; a
hyphen at the end of the code is cut; and a zero counts as missing. -/

namespace TwinVoice.Assets

open TwinVoice.Lib

/-! ## Numbers and codes -/

@[simp] theorem Numeric.ofRat_toRat {scale : Nat} (n : Numeric scale) : Numeric.ofRat n.toRat = n := by
  have hplace : (10 ^ scale : Rat) ≠ 0 := pow_ne_zero scale (by norm_num)
  have hwhole : n.toRat * 10 ^ scale = n.units := div_mul_cancel₀ _ hplace
  have hround : ∀ k : Int, ⌊(k : Rat) + 1 / 2⌋ = k := by
    intro k
    rw [Int.floor_eq_iff]
    constructor <;> linarith
  have hneg : -⌊-(n.units : Rat) + 1 / 2⌋ = n.units := by
    have := hround (-n.units)
    push_cast at this
    rw [this, neg_neg]
  unfold Numeric.ofRat
  dsimp only
  rw [hwhole, hround, hneg, ite_self]

/-- What comes of a number that is read with a default of one. -/
def orOne (q : Rat) : Rat := if q = 0 then 1 else q

theorem orOne_ne_zero (q : Rat) : orOne q ≠ 0 := by
  unfold orOne
  split
  · exact one_ne_zero
  · assumption

theorem orOne_of_ne_zero {q : Rat} (h : q ≠ 0) : orOne q = q := if_neg h

theorem codePattern_spec {code : String} (h : codePattern code = true) :
    (∃ c cs, code.toList = c :: cs ∧ codeStart c = true) ∧ ∀ c ∈ code.toList, codeStart c = true ∨ c = '-' := by
  unfold codePattern at h
  split at h
  · cases h
  · rename_i c cs hcode
    simp only [Bool.and_eq_true, List.all_eq_true, Bool.or_eq_true, decide_eq_true_eq] at h
    refine ⟨⟨c, cs, hcode, h.1.1.1⟩, ?_⟩
    rw [hcode]
    exact List.forall_mem_cons.mpr ⟨.inl h.1.1.1, h.1.1.2⟩

theorem codeStart_ne {c d : Char} (h : codeStart c = true) (hd : codeStart d = false) : c ≠ d := by
  intro heq
  rw [heq, hd] at h
  cases h

theorem toLower_of_codeStart {c : Char} (h : codeStart c = true) : c.toLower = c := by
  unfold Char.toLower
  refine dif_neg fun hupper => ?_
  replace h : (decide (c.val ≥ 'a'.val) && decide (c.val ≤ 'z'.val) ||
    decide (c.val ≥ '0'.val) && decide (c.val ≤ '9'.val)) = true := h
  simp only [Bool.or_eq_true, Bool.and_eq_true, decide_eq_true_eq, ge_iff_le, UInt32.le_iff_toNat_le] at h hupper
  have ha : 'a'.val.toNat = 97 := rfl
  have hz : 'Z'.val.toNat = 90 := rfl
  have hA : 'A'.val.toNat = 65 := rfl
  have h9 : '9'.val.toNat = 57 := rfl
  omega

/-- Of the code itself, only hyphens at its end are lost in the global id. -/
theorem codeOf_globalAssetId {code : String} (h : codePattern code = true) :
    codeOf (globalAssetId code) = String.ofList (code.toList.rdropWhile (· = '-')) := by
  obtain ⟨⟨c, cs, hcode, hc⟩, hall⟩ := codePattern_spec h
  have hslash : ∀ d ∈ code.toList, d ≠ '/' := by
    intro d hd
    rcases hall d hd with hstart | rfl
    · exact codeStart_ne hstart (by decide)
    · decide
  have hurl : globalAssetId code = Segments.join '/' ["https:", "", "twinvoice.dev", "assets", code] := by
    refine String.toList_inj.mp ?_
    have hjoined : (Segments.join '/' ["https:", "", "twinvoice.dev", "assets", code]).toList =
        ['/'].intercalate (["https:", "", "twinvoice.dev", "assets", code].map String.toList) := String.toList_ofList
    rw [hjoined, globalAssetId, baseIri, String.toList_append, String.toList_append]
    simp [List.intercalate]
  have hpath : (globalAssetId code).toList.rdropWhile (· = '/') = (globalAssetId code).toList := by
    rw [List.rdropWhile_eq_self_iff]
    intro hne
    have hlast : (globalAssetId code).toList.getLast hne ∈ code.toList := by
      have happend : (globalAssetId code).toList = (baseIri ++ "/assets/").toList ++ code.toList := String.toList_append
      have hcode : code.toList ≠ [] := by simp [hcode]
      simp only [happend, List.getLast_append_of_ne_nil _ hcode]
      exact List.getLast_mem hcode
    simpa using hslash _ hlast
  have hfree : Segments.Free '/' ["https:", "", "twinvoice.dev", "assets", code] := by
    intro part hpart
    simp only [List.mem_cons, List.not_mem_nil, or_false] at hpart
    rcases hpart with rfl | rfl | rfl | rfl | rfl
    · decide
    · decide
    · decide
    · decide
    · exact fun hmem => hslash _ hmem rfl
  have hlower : code.toLower.toList.map (fun c => if codeStart c ∨ c = '-' then c else '-') = code.toList := by
    have htoLower : code.toLower.toList = code.toList.map Char.toLower := String.toList_map
    rw [htoLower, List.map_map]
    refine (List.map_congr_left fun d hd => ?_).trans (List.map_id _)
    rcases hall d hd with hstart | rfl
    · show (if codeStart d.toLower ∨ d.toLower = '-' then d.toLower else '-') = d
      rw [toLower_of_codeStart hstart, if_pos (.inl hstart)]
    · rfl
  unfold codeOf
  dsimp only
  rw [hpath, String.ofList_toList, hurl, Segments.split_join hfree (by simp)]
  show String.ofList (List.rdropWhile _ ((code.toLower.toList.map _).dropWhile _)) = _
  rw [hlower, hcode, List.dropWhile_cons_of_neg]
  simpa using codeStart_ne hc (by decide)

/-! ## Elements that are written and read -/

theorem orElse_double (q : Rat) : (Content.scalar (.double q)).orElse (.double 1) = .scalar (.double (orOne q)) := by
  unfold Content.orElse orOne Content.truthy
  by_cases hq : q = 0 <;> simp [hq]

@[simp] theorem kind_text (kind : SensorKind) : (Content.scalar (.string kind.text)).kind = .ok kind := by
  cases kind <;> rfl

theorem optionalNumber_double {P D : Type} (py : Texts P D) (idShort : String) (q : Option Rat) :
    (double idShort q).content.optionalNumber py = .ok q := by
  cases q <;> rfl

theorem optionalText_prop (idShort : String) (text : Option String) : (prop idShort text).content.optionalText = .ok text := by
  cases text <;> rfl

theorem collection_eq_ok_iff {idShort : String} {elements : List Element} {e : Element} :
    collection idShort elements = .ok e ↔ siblings elements ∧ e = .collection idShort elements := by
  unfold collection
  split
  · rename_i h
    simp [h, eq_comm]
  · rename_i h
    simp [h]

theorem collection_ok {elements : List Element} (idShort : String) (h : siblings elements) :
    collection idShort elements = .ok (.collection idShort elements) := if_pos h

theorem siblings_sensorElements (s : Sensor) (live : Live) : siblings (sensorElements s live) := by
  have hnames : (sensorElements s live).map Element.idShort =
      ["Code", "MetricName", "Name", "Unit", "Kind", "SampleRateHz", "MinValid", "MaxValid", "WarnLow", "WarnHigh",
        "AlarmLow", "AlarmHigh", "CurrentValue", "ObservedAt"] := rfl
  unfold siblings
  rw [hnames]
  decide

section
variable {P D : Type} (py : Texts P D)

theorem sensorSpec_sensorElements (componentCode : Option String) (name : String) (s : Sensor) (live : Live) :
    sensorSpec py componentCode (.collection name (sensorElements s live)) =
      .ok ⟨s.code, componentCode, s.metricName, s.name, s.unit, s.kind, orOne s.sampleRateHz.toRat, s.limits⟩ := by
  have hcode : valueOf (sensorElements s live) "Code" = .scalar (.string s.code) := rfl
  have hmetric : valueOf (sensorElements s live) "MetricName" = .scalar (.string s.metricName) := rfl
  have hname : valueOf (sensorElements s live) "Name" = .scalar (.string s.name) := rfl
  have hunit : valueOf (sensorElements s live) "Unit" = .scalar (.string s.unit) := rfl
  have hkind : valueOf (sensorElements s live) "Kind" = .scalar (.string s.kind.text) := rfl
  have hrate : valueOf (sensorElements s live) "SampleRateHz" = .scalar (.double s.sampleRateHz.toRat) := rfl
  have hlimits : readLimits py (sensorElements s live) = .ok s.limits := by
    have hread : readLimits py (sensorElements s live) = (do
        let minValid ← (double "MinValid" s.limits.minValid).content.optionalNumber py
        let maxValid ← (double "MaxValid" s.limits.maxValid).content.optionalNumber py
        let warnLow ← (double "WarnLow" s.limits.warnLow).content.optionalNumber py
        let warnHigh ← (double "WarnHigh" s.limits.warnHigh).content.optionalNumber py
        let alarmLow ← (double "AlarmLow" s.limits.alarmLow).content.optionalNumber py
        let alarmHigh ← (double "AlarmHigh" s.limits.alarmHigh).content.optionalNumber py
        return ⟨minValid, maxValid, warnLow, warnHigh, alarmLow, alarmHigh⟩) := rfl
    rw [hread]
    simp only [optionalNumber_double]
    rfl
  unfold sensorSpec
  simp only [Element.content, Content.items, bind, Except.bind, pure, Except.pure]
  rw [hcode, hmetric, hname, hunit, hkind, hrate, orElse_double, kind_text, hlimits]
  rfl

def exportedSensor (telemetry : String → Live) (s : Sensor) : Element :=
  .collection (idShortFor s.metricName) (sensorElements s (telemetry s.metricName))

theorem sensorCollection_eq (telemetry : String → Live) (s : Sensor) :
    sensorCollection telemetry s = .ok (exportedSensor telemetry s) :=
  collection_ok _ (siblings_sensorElements s _)

theorem siblings_exportedSensor (telemetry : String → Live) (sensors : List Sensor) :
    siblings (sensors.map (exportedSensor telemetry)) ↔ (sensors.map fun s => idShortFor s.metricName).Nodup := by
  unfold siblings
  rw [List.map_map]
  rfl

theorem siblings_componentElements (c : Component P) (elements : List Element) :
    siblings (componentElements py c (.collection "Sensors" elements)) := by
  have hnames : (componentElements py c (.collection "Sensors" elements)).map Element.idShort =
      ["Code", "Name", "ComponentType", "HealthWeight", "PhysicsModel", "PhysicsParams", "Sensors"] := rfl
  unfold siblings
  rw [hnames]
  decide

def exportedComponent (sensors : List Sensor) (telemetry : String → Live) (c : Component P) : Element :=
  .collection (idShortFor c.code) (componentElements py c
    (.collection "Sensors" ((sensors.filter fun s => s.componentId = some c.id).map (exportedSensor telemetry))))

/-- A component can be written exactly if its sensors have names apart. -/
theorem componentCollection_eq_ok_iff {sensors : List Sensor} {telemetry : String → Live} {c : Component P} {e : Element} :
    componentCollection py sensors telemetry c = .ok e ↔
      ((sensors.filter fun s => s.componentId = some c.id).map fun s => idShortFor s.metricName).Nodup ∧
        e = exportedComponent py sensors telemetry c := by
  unfold componentCollection
  rw [mapM_eq_map fun s _ => sensorCollection_eq telemetry s, ← siblings_exportedSensor telemetry]
  constructor
  · intro h
    obtain ⟨elements, helements, h⟩ := bind_eq_ok h
    cases helements
    obtain ⟨collected, hsensors, h⟩ := bind_eq_ok h
    obtain ⟨hapart, rfl⟩ := collection_eq_ok_iff.mp hsensors
    exact ⟨hapart, (collection_eq_ok_iff.mp h).2⟩
  · intro h
    obtain ⟨hapart, rfl⟩ := h
    simp only [bind, Except.bind]
    rw [collection_ok _ hapart]
    exact collection_ok _ (siblings_componentElements py c _)

/-- Components, the sensors of each, and those of the asset have names apart among themselves. -/
structure NamesApart (cs : List (Component P)) (sensors : List Sensor) : Prop where
  components : (cs.map fun c => idShortFor c.code).Nodup
  componentSensors : ∀ c ∈ cs,
    ((sensors.filter fun s => s.componentId = some c.id).map fun s => idShortFor s.metricName).Nodup
  assetSensors : ((sensors.filter fun s => s.componentId = none).map fun s => idShortFor s.metricName).Nodup

def operationalElements (asset : Asset D) (components : List (Component P)) (sensors : List Sensor)
    (telemetry : String → Live) : List Element :=
  [prop "Status" (some asset.status),
    .collection "Components" (components.map (exportedComponent py sensors telemetry)),
    .collection "AssetSensors" ((sensors.filter fun s => s.componentId = none).map (exportedSensor telemetry))]

theorem buildOperationalData_eq_ok_iff {asset : Asset D} {components : List (Component P)} {sensors : List Sensor}
    {telemetry : String → Live} {operational : Submodel} :
    buildOperationalData py asset components sensors telemetry = .ok operational ↔
      NamesApart components sensors ∧
        operational = ⟨submodelId asset.code "OperationalData", "OperationalData", semanticIds.lookup "OperationalData",
          operationalElements py asset components sensors telemetry⟩ := by
  have hnames : siblings (components.map (exportedComponent py sensors telemetry)) ↔
      (components.map fun c => idShortFor c.code).Nodup := by
    unfold siblings
    rw [List.map_map]
    rfl
  have htop : ∀ components assetSensors : List Element,
      siblings [prop "Status" (some asset.status), .collection "Components" components, .collection "AssetSensors" assetSensors] := by
    intro components assetSensors
    show List.Nodup ["Status", "Components", "AssetSensors"]
    decide
  constructor
  · intro h
    unfold buildOperationalData at h
    obtain ⟨elements, helements, h⟩ := bind_eq_ok h
    obtain ⟨componentsElement, hcomponents, h⟩ := bind_eq_ok h
    obtain ⟨sensorElements, hsensorElements, h⟩ := bind_eq_ok h
    obtain ⟨assetSensors, hassetSensors, h⟩ := bind_eq_ok h
    have heach : ∀ c ∈ components, ∃ e, componentCollection py sensors telemetry c = .ok e := exists_of_mapM helements
    have hall : ∀ c ∈ components, componentCollection py sensors telemetry c = .ok (exportedComponent py sensors telemetry c) := by
      intro c hc
      obtain ⟨e, he⟩ := heach c hc
      rw [he, ((componentCollection_eq_ok_iff py).mp he).2]
    rw [mapM_eq_map hall] at helements
    rw [mapM_eq_map fun s _ => sensorCollection_eq telemetry s] at hsensorElements
    cases helements
    cases hsensorElements
    obtain ⟨hapart, rfl⟩ := collection_eq_ok_iff.mp hcomponents
    obtain ⟨hassets, rfl⟩ := collection_eq_ok_iff.mp hassetSensors
    rw [submodel, if_pos (htop _ _)] at h
    cases h
    exact ⟨⟨hnames.mp hapart, fun c hc => ((componentCollection_eq_ok_iff py).mp (hall c hc)).1,
      (siblings_exportedSensor telemetry _).mp hassets⟩, rfl⟩
  · intro h
    obtain ⟨hapart, rfl⟩ := h
    have hcomponents : components.mapM (componentCollection py sensors telemetry) =
        .ok (components.map (exportedComponent py sensors telemetry)) :=
      mapM_eq_map fun c hc => (componentCollection_eq_ok_iff py).mpr ⟨hapart.componentSensors c hc, rfl⟩
    unfold buildOperationalData
    rw [hcomponents, mapM_eq_map fun s _ => sensorCollection_eq telemetry s]
    simp only [bind, Except.bind]
    rw [collection_ok _ (hnames.mpr hapart.components)]
    dsimp only
    rw [collection_ok _ ((siblings_exportedSensor telemetry _).mpr hapart.assetSensors)]
    exact if_pos (htop _ _)

/-! ## What is read back -/

/-- A component as it is read back. -/
def Component.readBack (c : Component P) : ComponentSpec P :=
  ⟨c.code, c.name, c.componentType, orOne c.healthWeight.toRat, c.physicsModel, c.physicsParams⟩

/-- A sensor as it is read back from the collection of its owner. -/
def Sensor.readBack (componentCode : Option String) (s : Sensor) : SensorSpec :=
  ⟨s.code, componentCode, s.metricName, s.name, s.unit, s.kind, orOne s.sampleRateHz.toRat, s.limits⟩

theorem sensorSpecs_exported (componentCode : Option String) (telemetry : String → Live) (name : String) (sensors : List Sensor) :
    sensorSpecs py (some (.collection name (sensors.map (exportedSensor telemetry)))) componentCode =
      .ok (sensors.map (Sensor.readBack componentCode)) := by
  show (sensors.map (exportedSensor telemetry)).mapM (sensorSpec py componentCode) = _
  exact mapM_map_eq_map fun s _ => sensorSpec_sensorElements py componentCode _ s _

theorem readComponent_exported (sensors : List Sensor) (telemetry : String → Live) (c : Component P) :
    readComponent py (exportedComponent py sensors telemetry c) =
      .ok (c.readBack, (sensors.filter fun s => s.componentId = some c.id).map (Sensor.readBack (some c.code))) := by
  have hparams : loadParams py (.scalar (.string (py.dumps c.physicsParams))) = .ok c.physicsParams := by
    have htruthy : (Content.scalar (.string (py.dumps c.physicsParams))).truthy = true := by
      simpa [Content.truthy] using py.dumps_ne c.physicsParams
    rw [loadParams, Content.orElse, if_pos htruthy]
    simp only [Content.text_string, bind, Except.bind, py.loads_dumps]
  have hread : readComponent py (exportedComponent py sensors telemetry c) = (do
      let healthWeight ← ((Content.scalar (.double c.healthWeight.toRat)).orElse (.double 1)).number py
      let physicsModel ← (prop "PhysicsModel" c.physicsModel).content.optionalText
      let physicsParams ← loadParams py (.scalar (.string (py.dumps c.physicsParams)))
      let sensors ← sensorSpecs py (some (.collection "Sensors"
        ((sensors.filter fun s => s.componentId = some c.id).map (exportedSensor telemetry)))) (some c.code)
      return (⟨c.code, c.name, c.componentType, healthWeight, physicsModel, physicsParams⟩, sensors)) := rfl
  rw [hread, orElse_double, optionalText_prop, hparams, sensorSpecs_exported]
  rfl

theorem readOperational_exported (asset : Asset D) (components : List (Component P)) (sensors : List Sensor)
    (telemetry : String → Live) (id idShort : String) (semanticId : Option String) :
    readOperational py ⟨id, idShort, semanticId, operationalElements py asset components sensors telemetry⟩ =
      .ok (components.map Component.readBack,
        (components.flatMap fun c => (sensors.filter fun s => s.componentId = some c.id).map (Sensor.readBack (some c.code))) ++
          (sensors.filter fun s => s.componentId = none).map (Sensor.readBack none)) := by
  have hread : readOperational py ⟨id, idShort, semanticId, operationalElements py asset components sensors telemetry⟩ = (do
      let components ← (components.map (exportedComponent py sensors telemetry)).mapM (readComponent py)
      let assetSensors ← sensorSpecs py (some (.collection "AssetSensors"
        ((sensors.filter fun s => s.componentId = none).map (exportedSensor telemetry)))) none
      return (components.map Prod.fst, components.flatMap Prod.snd ++ assetSensors)) := rfl
  rw [hread, mapM_map_eq_map fun c _ => readComponent_exported py sensors telemetry c, sensorSpecs_exported]
  simp only [bind, Except.bind, pure, Except.pure, List.map_map, List.flatMap_map]
  rfl

/-! ## The rows that come back -/

def Component.spec (c : Component P) : ComponentSpec P :=
  ⟨c.code, c.name, c.componentType, c.healthWeight.toRat, c.physicsModel, c.physicsParams⟩

/-- The code of the component that a sensor is on. -/
def Stored.ownerCode (s : Stored P D) (x : Sensor) : Option String :=
  x.componentId.bind fun id => (s.components.find? fun c => c.id = id).map Component.code

def Stored.sensorSpec (s : Stored P D) (x : Sensor) : SensorSpec :=
  ⟨x.code, s.ownerCode x, x.metricName, x.name, x.unit, x.kind, x.sampleRateHz.toRat, x.limits⟩

/-- The same asset code, components and sensors, up to the ids of the rows and the order of the sensors. -/
structure Reproduced (s t : Stored P D) : Prop where
  code : t.asset.code = s.asset.code
  components : t.components.map Component.spec = s.components.map Component.spec
  sensors : (t.sensors.map t.sensorSpec).Perm (s.sensors.map s.sensorSpec)

theorem toRat_ofRat_orOne {scale : Nat} (n : Numeric scale) :
    (Numeric.ofRat (orOne n.toRat) : Numeric scale).toRat = orOne n.toRat := by
  have hplace : (10 ^ scale : Rat) ≠ 0 := pow_ne_zero scale (by norm_num)
  by_cases hn : n.toRat = 0
  · have hone : (1 : Rat) = (⟨10 ^ scale⟩ : Numeric scale).toRat := by
      rw [Numeric.toRat]
      push_cast
      exact (div_self hplace).symm
    rw [orOne, if_pos hn, hone, Numeric.ofRat_toRat]
  · rw [orOne_of_ne_zero hn, Numeric.ofRat_toRat]

theorem map_id_componentRows (specs : List (ComponentSpec P)) (firstId : Uuid) :
    (componentRows specs firstId).map Component.id = List.range' firstId specs.length := by
  rw [componentRows, List.map_map, ← List.zipIdx_map_snd firstId specs]
  rfl

theorem map_code_componentRows (specs : List (ComponentSpec P)) (firstId : Uuid) :
    (componentRows specs firstId).map Component.code = specs.map ComponentSpec.code := by
  have hfst := congrArg (List.map ComponentSpec.code) (List.zipIdx_map_fst firstId specs)
  rw [List.map_map] at hfst
  rw [componentRows, List.map_map, ← hfst]
  rfl

theorem map_spec_componentRows (components : List (Component P)) (firstId : Uuid) :
    (componentRows (components.map Component.readBack) firstId).map Component.spec = components.map Component.readBack := by
  have hfst := List.zipIdx_map_fst firstId (components.map Component.readBack)
  rw [componentRows, List.map_map]
  refine Eq.trans (List.map_congr_left fun c hc => ?_) hfst
  have hmem : c.1 ∈ components.map Component.readBack := hfst ▸ List.mem_map_of_mem hc
  obtain ⟨x, _, hx⟩ := List.mem_map.mp hmem
  show (⟨c.1.code, c.1.name, c.1.componentType, (Numeric.ofRat c.1.healthWeight : Numeric 3).toRat, c.1.physicsModel,
    c.1.physicsParams⟩ : ComponentSpec P) = c.1
  rw [← hx]
  show (⟨x.code, x.name, x.componentType, (Numeric.ofRat (orOne x.healthWeight.toRat) : Numeric 3).toRat, x.physicsModel,
    x.physicsParams⟩ : ComponentSpec P) = x.readBack
  rw [toRat_ofRat_orOne]
  rfl

/-- The row of a specification. -/
def rowOf (rows : List (Component P)) (s : SensorSpec) : Sensor :=
  ⟨s.componentCode.bind fun code => (rows.find? fun c => c.code = code).map Component.id, s.code, s.metricName, s.name, s.unit,
    s.kind, .ofRat s.sampleRateHz, s.limits⟩

/-- The specification is of the asset or of one of the rows. -/
def Placed (rows : List (Component P)) (s : SensorSpec) : Prop :=
  ∀ code, s.componentCode = some code → code ≠ "" ∧ code ∈ rows.map Component.code

theorem sensorRow_eq {rows : List (Component P)} {s : SensorSpec} (h : Placed rows s) : sensorRow rows s = .ok (rowOf rows s) := by
  unfold sensorRow rowOf
  cases hcode : s.componentCode with
  | none => rfl
  | some code =>
    obtain ⟨hne, hmem⟩ := h code hcode
    obtain ⟨c, hc, rfl⟩ := List.mem_map.mp hmem
    have hsome : (rows.find? fun d => decide (d.code = c.code)).isSome := by
      rw [List.find?_isSome]
      exact ⟨c, hc, decide_eq_true rfl⟩
    obtain ⟨d, hd⟩ := Option.isSome_iff_exists.mp hsome
    simp [Option.filter, hne, hd]

/-- A sensor whose row is made of its specification is specified that way. -/
theorem sensorSpec_rowOf {t : Stored P D} (hcodes : (t.components.map Component.code).Nodup)
    (hids : (t.components.map Component.id).Nodup) {s : SensorSpec} (h : Placed t.components s)
    (hrate : (Numeric.ofRat s.sampleRateHz : Numeric 3).toRat = s.sampleRateHz) :
    t.sensorSpec (rowOf t.components s) = s := by
  have howner : t.ownerCode (rowOf t.components s) = s.componentCode := by
    unfold Stored.ownerCode rowOf
    cases hcode : s.componentCode with
    | none => rfl
    | some code =>
      obtain ⟨_, hmem⟩ := h code hcode
      obtain ⟨c, hc, rfl⟩ := List.mem_map.mp hmem
      have hfind := find_of_nodup hcodes hc
      have hback := find_of_nodup hids hc
      simp only [Option.bind_some, hfind, Option.map_some, hback]
  unfold Stored.sensorSpec
  rw [howner]
  show (⟨s.code, s.componentCode, s.metricName, s.name, s.unit, s.kind, (Numeric.ofRat s.sampleRateHz : Numeric 3).toRat, s.limits⟩
    : SensorSpec) = s
  rw [hrate]

/-! ## There and back -/

/-- What the tables and the schemas of the API keep true of an asset. -/
structure Stored.Valid (s : Stored P D) : Prop where
  code : codePattern s.asset.code = true
  partCodes : ∀ c ∈ s.components, partCodePattern c.code = true
  codes : (s.components.map Component.code).Nodup
  ids : (s.components.map Component.id).Nodup
  metrics : (s.sensors.map Sensor.metricName).Nodup
  owners : ∀ x ∈ s.sensors, ∀ id, x.componentId = some id → id ∈ s.components.map Component.id
  nameplate : ∀ content, s.nameplate = some content → content.idShort = "Nameplate"
  technicalData : ∀ content, s.technicalData = some content → content.idShort = "TechnicalData"

/-- The sensors of the components, then those of the asset, as they are read back. -/
def Stored.readBack (s : Stored P D) : List SensorSpec :=
  (s.components.flatMap fun c => (s.sensors.filter fun x => x.componentId = some c.id).map (Sensor.readBack (some c.code))) ++
    (s.sensors.filter fun x => x.componentId = none).map (Sensor.readBack none)

/-- The owners a sensor can have. -/
def Stored.owners (s : Stored P D) : List (Option Uuid) := s.components.map (fun c => some c.id) ++ [none]

theorem Stored.Valid.nodup_owners {s : Stored P D} (h : s.Valid) : s.owners.Nodup := by
  have hids : (s.components.map fun c => some c.id).Nodup := by
    have := h.ids.map (Option.some_injective Uuid)
    rwa [List.map_map] at this
  refine hids.append (List.nodup_singleton none) ?_
  intro k hk hnone
  obtain ⟨c, _, rfl⟩ := List.mem_map.mp hk
  simp at hnone

theorem Stored.Valid.mem_owners {s : Stored P D} (h : s.Valid) {x : Sensor} (hx : x ∈ s.sensors) : x.componentId ∈ s.owners := by
  cases hid : x.componentId with
  | none => exact List.mem_append_right _ (List.mem_singleton.mpr rfl)
  | some id =>
    obtain ⟨c, hc, rfl⟩ := List.mem_map.mp (h.owners x hx id hid)
    exact List.mem_append_left _ (List.mem_map_of_mem hc)

theorem Stored.Valid.ownerCode_eq {s : Stored P D} (h : s.Valid) {c : Component P} (hc : c ∈ s.components) {x : Sensor}
    (hx : x.componentId = some c.id) : s.ownerCode x = some c.code := by
  rw [Stored.ownerCode, hx, Option.bind_some, find_of_nodup h.ids hc, Option.map_some]

/-- Every sensor is read back once, with its owner. -/
theorem Stored.Valid.readBack_perm {s : Stored P D} (h : s.Valid) :
    s.readBack.Perm (s.sensors.map fun x => x.readBack (s.ownerCode x)) := by
  have hof : ∀ c ∈ s.components, (s.sensors.filter fun x => x.componentId = some c.id).map (Sensor.readBack (some c.code)) =
      (s.sensors.filter fun x => x.componentId = some c.id).map fun x => x.readBack (s.ownerCode x) := by
    intro c hc
    refine List.map_congr_left fun x hx => ?_
    rw [h.ownerCode_eq hc (of_decide_eq_true (List.mem_filter.mp hx).2)]
  have hnone : (s.sensors.filter fun x => x.componentId = none).map (Sensor.readBack none) =
      (s.sensors.filter fun x => x.componentId = none).map fun x => x.readBack (s.ownerCode x) := by
    refine List.map_congr_left fun x hx => ?_
    have hasset : x.componentId = none := of_decide_eq_true (List.mem_filter.mp hx).2
    rw [Stored.ownerCode, hasset]
    rfl
  have hflat : s.readBack =
      (s.owners.map fun k => s.sensors.filter fun x => x.componentId = k).flatten.map fun x => x.readBack (s.ownerCode x) := by
    rw [Stored.readBack, hnone, Stored.owners, List.map_append, List.flatten_append, List.map_append, List.map_map,
      List.map_flatten, List.map_map, List.flatMap]
    congr 1
    · exact congrArg List.flatten (List.map_congr_left hof)
    · simp
  rw [hflat]
  exact (Grouping.flatten_filters_perm Sensor.componentId h.nodup_owners fun x hx => h.mem_owners hx).map _

theorem Stored.Valid.nodup_metrics_readBack {s : Stored P D} (h : s.Valid) : (s.readBack.map SensorSpec.metricName).Nodup := by
  have hperm := h.readBack_perm.map SensorSpec.metricName
  rw [List.map_map] at hperm
  exact hperm.nodup_iff.mpr h.metrics

theorem partCodePattern_ne {code : String} (h : partCodePattern code = true) : code ≠ "" := by
  intro hempty
  rw [hempty] at h
  cases h

theorem Stored.Valid.placed_readBack {s : Stored P D} (h : s.Valid) (firstId : Uuid) :
    ∀ spec ∈ s.readBack, Placed (componentRows (s.components.map Component.readBack) firstId) spec := by
  intro spec hspec code hcode
  obtain ⟨x, hx, rfl⟩ := List.mem_map.mp (h.readBack_perm.mem_iff.mp hspec)
  have howner : s.ownerCode x = some code := hcode
  obtain ⟨id, _, hfound⟩ := Option.bind_eq_some_iff.mp howner
  obtain ⟨c, hc, rfl⟩ := Option.map_eq_some_iff.mp hfound
  have hmem := List.mem_of_find?_eq_some hc
  refine ⟨partCodePattern_ne (h.partCodes c hmem), ?_⟩
  rw [map_code_componentRows, List.map_map]
  exact List.mem_map.mpr ⟨c, hmem, rfl⟩

/-- The rows that come back have the components and sensors that were read. -/
theorem createAsset_readBack {s : Stored P D} (h : s.Valid) (data : AssetCreate D) (nameplate technicalData : Submodel) (firstId : Uuid) :
    ∃ t, createAsset py data (s.components.map Component.readBack) s.readBack (some nameplate) (some technicalData) firstId = .ok t ∧
      t.asset.code = data.code ∧ t.components.map Component.spec = s.components.map Component.readBack ∧
      t.sensors.map t.sensorSpec = s.readBack := by
  have hcodes : ((s.components.map Component.readBack).map ComponentSpec.code).Nodup := by
    rw [List.map_map]
    exact h.codes
  have hplaced := h.placed_readBack firstId
  unfold createAsset
  dsimp only
  rw [if_pos ⟨hcodes, h.nodup_metrics_readBack⟩, mapM_eq_map fun spec hspec => sensorRow_eq (hplaced spec hspec)]
  refine ⟨_, rfl, rfl, map_spec_componentRows s.components firstId, ?_⟩
  dsimp only
  rw [List.map_map]
  refine (List.map_congr_left fun spec hspec => ?_).trans (List.map_id _)
  refine sensorSpec_rowOf ?_ ?_ (hplaced spec hspec) ?_
  · show ((componentRows _ firstId).map Component.code).Nodup
    rw [map_code_componentRows]
    exact hcodes
  · show ((componentRows _ firstId).map Component.id).Nodup
    rw [map_id_componentRows]
    exact List.nodup_range'
  · obtain ⟨x, hx, rfl⟩ := List.mem_map.mp (h.readBack_perm.mem_iff.mp hspec)
    exact toRat_ofRat_orOne x.sampleRateHz

/-- The code as it comes back. -/
def returnedCode (code : String) : String := String.ofList (code.toList.rdropWhile (· = '-'))

theorem returnedCode_eq_iff {code : String} : returnedCode code = code ↔ code.toList.getLast? ≠ some '-' := by
  have hback : returnedCode code = code ↔ code.toList.rdropWhile (· = '-') = code.toList := by
    rw [returnedCode, ← String.toList_inj, String.toList_ofList]
  rw [hback, List.rdropWhile_eq_self_iff]
  by_cases hnil : code.toList = []
  · simp [hnil]
  · rw [List.getLast?_eq_some_getLast hnil]
    simp [hnil]

theorem readAssetCreate_code {code name assetType : String} {nameplate technicalData : Option Submodel} {data : AssetCreate D}
    (h : readAssetCreate py code name assetType nameplate technicalData = .ok data) : data.code = code := by
  unfold readAssetCreate at h
  obtain ⟨_, _, h⟩ := bind_eq_ok h
  obtain ⟨_, _, h⟩ := bind_eq_ok h
  obtain ⟨_, _, h⟩ := bind_eq_ok h
  obtain ⟨_, _, h⟩ := bind_eq_ok h
  obtain ⟨_, _, h⟩ := bind_eq_ok h
  obtain ⟨_, _, h⟩ := bind_eq_ok h
  obtain ⟨_, _, h⟩ := bind_eq_ok h
  obtain ⟨_, _, h⟩ := bind_eq_ok h
  unfold AssetCreate.validated at h
  split at h
  · cases h
    rfl
  · cases h

/-- What an import makes of an exported package. -/
theorem importAasx_exported {s : Stored P D} (h : s.Valid) (telemetry : String → Live) {nameplate technicalData : Submodel}
    (hplate : nameplate.idShort = "Nameplate") (htechnical : technicalData.idShort = "TechnicalData") (assetType : String) (firstId : Uuid)
    (id : String) (semanticId : Option String) :
    importAasx py [buildShell s.asset [nameplate, technicalData, ⟨id, "OperationalData", semanticId,
        operationalElements py s.asset s.components s.sensors telemetry⟩]] assetType firstId =
      if codePattern (returnedCode s.asset.code) then do
        let data ← readAssetCreate py (returnedCode s.asset.code) (nameOf (buildShell s.asset []) (returnedCode s.asset.code)) assetType
          (some nameplate) (some technicalData)
        createAsset py data (s.components.map Component.readBack) s.readBack (some nameplate) (some technicalData) firstId
      else .error (.problem (.unprocessable ("Derived asset code '" ++ returnedCode s.asset.code ++
        "' is not valid; expected ^[a-z0-9][a-z0-9-]\x7b1,48\x7d$"))) := by
  have hne : globalAssetId s.asset.code ≠ "" := by
    intro hempty
    have hlength := congrArg String.length hempty
    simp [globalAssetId, baseIri] at hlength
  have hcode : ∀ other, codeOf (((some (globalAssetId s.asset.code)).filter (· ≠ "")).getD other) = returnedCode s.asset.code := by
    intro other
    rw [Option.filter_some, if_pos (decide_eq_true hne), Option.getD_some]
    exact codeOf_globalAssetId h.code
  have hfound : ∀ operational : Submodel, operational.idShort = "OperationalData" →
      let submodels := submodelOf [buildShell s.asset [nameplate, technicalData, operational]]
      submodels "OperationalData" = some operational ∧ submodels "Nameplate" = some nameplate ∧
        submodels "TechnicalData" = some technicalData := by
    intro operational hoperational
    have hdict : [nameplate, technicalData, operational].reverse.map (fun sm => (sm.idShort, sm)) =
        [("OperationalData", operational), ("TechnicalData", technicalData), ("Nameplate", nameplate)] := by
      rw [← hoperational, ← hplate, ← htechnical]
      rfl
    have hlookup : submodelOf [buildShell s.asset [nameplate, technicalData, operational]] = fun idShort =>
        Dict.get? ([nameplate, technicalData, operational].reverse.map fun sm => (sm.idShort, sm)) idShort := rfl
    rw [hlookup, hdict]
    exact ⟨rfl, rfl, rfl⟩
  obtain ⟨hoperational, hnameplate, htechnicalData⟩ := hfound ⟨id, "OperationalData", semanticId,
    operationalElements py s.asset s.components s.sensors telemetry⟩ rfl
  have hglobal : ∀ submodels, (buildShell s.asset submodels).globalAssetId = some (globalAssetId s.asset.code) := fun _ => rfl
  unfold importAasx
  dsimp only
  rw [hglobal, hcode, hoperational, hnameplate, htechnicalData]
  show (readOperational py _ >>= _) = _
  rw [readOperational_exported]
  rfl

theorem idShort_of_submodel {code idShort : String} {elements : List Element} {content : Submodel}
    (h : submodel code idShort elements = .ok content) : content.idShort = idShort := by
  unfold submodel at h
  split at h
  · cases h
    rfl
  · cases h

theorem orBuild_eq_ok {content : Option Submodel} {build : Except Failure Submodel} {result : Submodel}
    (h : orBuild content build = .ok result) : content = some result ∨ build = .ok result := by
  cases content with
  | none => exact .inr h
  | some content =>
    cases h
    exact .inl rfl

theorem Stored.Valid.idShort_nameplate {s : Stored P D} (h : s.Valid) {content : Submodel} (hcontent : storedNameplate s = .ok content) :
    content.idShort = "Nameplate" := by
  rcases orBuild_eq_ok hcontent with hstored | hbuilt
  · exact h.nameplate content hstored
  · exact idShort_of_submodel hbuilt

theorem Stored.Valid.idShort_technicalData {s : Stored P D} (h : s.Valid) {content : Submodel}
    (hcontent : storedTechnicalData py s = .ok content) : content.idShort = "TechnicalData" := by
  rcases orBuild_eq_ok hcontent with hstored | hbuilt
  · exact h.technicalData content hstored
  · unfold buildTechnicalData at hbuilt
    obtain ⟨_, _, hbuilt⟩ := bind_eq_ok hbuilt
    obtain ⟨_, _, hbuilt⟩ := bind_eq_ok hbuilt
    exact idShort_of_submodel hbuilt

/-- The nameplate and the technical data describe an asset that can be created. -/
def Described (s : Stored P D) (assetType : String) : Prop :=
  ∃ nameplate technicalData data, storedNameplate s = .ok nameplate ∧ storedTechnicalData py s = .ok technicalData ∧
    readAssetCreate py s.asset.code (nameOf (buildShell s.asset []) s.asset.code) assetType (some nameplate) (some technicalData) = .ok data

theorem optionalText_mlp (idShort : String) (text : Option String) :
    (mlp idShort text).content.optionalText = .ok (text.filter (· ≠ "")) := by
  cases text with
  | none => rfl
  | some text =>
    by_cases htext : text = ""
    · subst htext
      rfl
    · have hkept : (some text).filter (· ≠ "") = some text := by
        rw [Option.filter_some, if_pos (decide_eq_true htext)]
      simp only [mlp, Element.content, List.lookup_cons_self, hkept]
      rfl

theorem installDateOf_prop (idShort : String) (date : Option D) :
    ∃ d, installDateOf py (prop idShort (date.map py.isoformat)).content = .ok d := by
  cases date with
  | none => exact ⟨none, rfl⟩
  | some date =>
    by_cases htext : py.isoformat date = ""
    · exact ⟨none, if_neg (by simp [prop, Element.content, Content.truthy, htext])⟩
    · refine ⟨some date, ?_⟩
      unfold installDateOf
      rw [if_pos (by simp [prop, Element.content, Content.truthy, htext])]
      simp only [prop, Element.content, Option.map_some, Content.text_string, bind, Except.bind, py.fromisoformat_isoformat]

theorem name_of_shell (asset : Asset D) (code : String) (h : asset.name ≠ "") :
    1 ≤ (nameOf (buildShell asset []) code).length ∧ (nameOf (buildShell asset []) code).length ≤ 64 := by
  have htake : asset.name.toList.take 64 ≠ [] := by
    simpa using h
  have hname : nameOf (buildShell asset []) code = String.ofList (asset.name.toList.take 64) := by
    have hne : String.ofList (asset.name.toList.take 64) ≠ "" := by simpa using h
    show (((some (String.ofList (asset.name.toList.take 64))).filter (· ≠ "")).or
      ((some (idShortFor asset.code)).filter (· ≠ ""))).getD code = _
    rw [Option.filter_some, if_pos (decide_eq_true hne)]
    rfl
  rw [hname, String.length_ofList]
  exact ⟨List.length_pos_iff.mpr htake, by simp⟩

/-- An asset that has not been imported describes itself, if its row passes the checks of `AssetCreate`. -/
theorem described_of_row {s : Stored P D} {assetType : String} (h : s.Valid) (hplate : storedNameplate s = buildNameplate s.asset)
    (htechnical : storedTechnicalData py s = buildTechnicalData py s.asset) (hname : s.asset.name ≠ "")
    (htype : assetTypes.contains assetType = true) (hfidelity : 1 ≤ s.asset.fidelityLevel ∧ s.asset.fidelityLevel ≤ 4)
    (hcycle : ∀ n, s.asset.idealCycleTimeS = some n → 0 < n.toRat) (hpower : ∀ n, s.asset.ratedPowerKw = some n → 0 ≤ n.toRat) :
    Described py s assetType := by
  obtain ⟨date, hdate⟩ := installDateOf_prop py "InstallDate" s.asset.installDate
  have hfidelityOf : fidelityOf py (.scalar (.int s.asset.fidelityLevel)) = .ok s.asset.fidelityLevel := by
    have htruthy : (Content.scalar (.int s.asset.fidelityLevel)).truthy = true := by
      simp [Content.truthy]
      omega
    rw [fidelityOf, Content.orElse, if_pos htruthy]
  have hread : ∀ code name, ∃ nameplate technicalData, buildNameplate s.asset = .ok nameplate ∧
      buildTechnicalData py s.asset = .ok technicalData ∧
      readAssetCreate py code name assetType (some nameplate) (some technicalData) = (do
        let fidelityLevel ← fidelityOf py (.scalar (.int s.asset.fidelityLevel))
        let installDate ← installDateOf py (prop "InstallDate" (s.asset.installDate.map py.isoformat)).content
        let manufacturer ← reported (mlp "ManufacturerName" s.asset.manufacturer).content.optionalText
        let model ← reported (mlp "ManufacturerProductDesignation" s.asset.model).content.optionalText
        let serialNo ← reported (prop "SerialNumber" s.asset.serialNo).content.optionalText
        let ratedPowerKw ← reported ((double "RatedPowerKw" (s.asset.ratedPowerKw.map Numeric.toRat)).content.optionalNumber py)
        let idealCycleTimeS ← reported ((double "IdealCycleTimeS" (s.asset.idealCycleTimeS.map Numeric.toRat)).content.optionalNumber py)
        AssetCreate.validated ⟨code, name, assetType, manufacturer, model, serialNo, installDate, fidelityLevel, idealCycleTimeS,
          ratedPowerKw⟩) :=
    fun _ _ => ⟨_, _, rfl, rfl, rfl⟩
  obtain ⟨nameplate, technicalData, hnameplate, htechnicalData, hread⟩ :=
    hread s.asset.code (nameOf (buildShell s.asset []) s.asset.code)
  rw [hfidelityOf, hdate, optionalText_mlp, optionalText_mlp, optionalText_prop, optionalNumber_double, optionalNumber_double] at hread
  obtain ⟨hlong, hshort⟩ := name_of_shell s.asset s.asset.code hname
  refine ⟨nameplate, technicalData, _, hplate.trans hnameplate, htechnical.trans htechnicalData, hread.trans (if_pos ?_)⟩
  have hcycle' : (s.asset.idealCycleTimeS.map Numeric.toRat).all (0 < ·) = true := by
    cases hn : s.asset.idealCycleTimeS with
    | none => rfl
    | some n => exact decide_eq_true (hcycle n hn)
  have hpower' : (s.asset.ratedPowerKw.map Numeric.toRat).all (0 ≤ ·) = true := by
    cases hn : s.asset.ratedPowerKw with
    | none => rfl
    | some n => exact decide_eq_true (hpower n hn)
  have hlength : (nameOf (buildShell s.asset []) s.asset.code).length ≤ 200 := by omega
  unfold AssetCreate.check
  rw [hcycle', hpower', h.code, htype]
  simp [hlong, hlength, hfidelity]

/-- What it takes to come back as it was. -/
structure Survives (s : Stored P D) (assetType : String) : Prop where
  names : NamesApart s.components s.sensors
  code : s.asset.code.toList.getLast? ≠ some '-'
  healthWeights : ∀ c ∈ s.components, c.healthWeight.toRat ≠ 0
  sampleRates : ∀ x ∈ s.sensors, x.sampleRateHz.toRat ≠ 0
  described : Described py s assetType

theorem readBack_eq_spec {c : Component P} (h : c.healthWeight.toRat ≠ 0) : c.readBack = c.spec := by
  rw [Component.readBack, orOne_of_ne_zero h]
  rfl

/-- Nothing of an asset is lost, changed or refused on the way through a package exactly if the names of its
elements are apart, its code does not end with a hyphen, and no weight or rate is zero. -/
theorem round_trip_iff {s : Stored P D} (h : s.Valid) (telemetry : String → Live) (assetType : String) (firstId : Uuid) :
    (∃ package t, exportAasx py s telemetry = .ok package ∧ importAasx py package assetType firstId = .ok t ∧ Reproduced s t) ↔
      Survives py s assetType := by
  constructor
  · intro hback
    obtain ⟨package, t, hexport, himport, hreproduced⟩ := hback
    unfold exportAasx at hexport
    obtain ⟨nameplate, hnameplate, hexport⟩ := bind_eq_ok hexport
    obtain ⟨technicalData, htechnicalData, hexport⟩ := bind_eq_ok hexport
    obtain ⟨operational, hoperational, hexport⟩ := bind_eq_ok hexport
    obtain ⟨hnames, rfl⟩ := (buildOperationalData_eq_ok_iff py).mp hoperational
    cases hexport
    rw [importAasx_exported py h telemetry (h.idShort_nameplate hnameplate) (h.idShort_technicalData py htechnicalData)] at himport
    split at himport
    · obtain ⟨data, hdata, hcreate⟩ := bind_eq_ok himport
      obtain ⟨t', ht', hcode, hcomponents, hsensors⟩ := createAsset_readBack py h data nameplate technicalData firstId
      rw [hcreate] at ht'
      cases ht'
      have hreturned : returnedCode s.asset.code = s.asset.code := by
        rw [← readAssetCreate_code py hdata, ← hcode, hreproduced.code]
      rw [hreturned] at hdata
      refine ⟨hnames, returnedCode_eq_iff.mp hreturned, ?_, ?_, nameplate, technicalData, data, hnameplate, htechnicalData, hdata⟩
      · intro c hc hzero
        have hspec : c.spec ∈ s.components.map Component.readBack := by
          rw [← hcomponents, hreproduced.components]
          exact List.mem_map_of_mem hc
        obtain ⟨d, _, hd⟩ := List.mem_map.mp hspec
        exact orOne_ne_zero d.healthWeight.toRat ((congrArg ComponentSpec.healthWeight hd).trans hzero)
      · intro x hx hzero
        have hspec : s.sensorSpec x ∈ s.readBack := by
          rw [← hsensors]
          exact hreproduced.sensors.mem_iff.mpr (List.mem_map_of_mem hx)
        obtain ⟨y, _, hy⟩ := List.mem_map.mp (h.readBack_perm.mem_iff.mp hspec)
        exact orOne_ne_zero y.sampleRateHz.toRat ((congrArg SensorSpec.sampleRateHz hy).trans hzero)
    · cases himport
  · intro hsurvives
    obtain ⟨hnames, hhyphen, hweights, hrates, nameplate, technicalData, data, hnameplate, htechnicalData, hdata⟩ := hsurvives
    have hreturned := returnedCode_eq_iff.mpr hhyphen
    obtain ⟨t, hcreate, hcode, hcomponents, hsensors⟩ := createAsset_readBack py h data nameplate technicalData firstId
    refine ⟨[buildShell s.asset [nameplate, technicalData, ⟨submodelId s.asset.code "OperationalData", "OperationalData",
      semanticIds.lookup "OperationalData", operationalElements py s.asset s.components s.sensors telemetry⟩]], t, ?_, ?_, ?_⟩
    · unfold exportAasx
      rw [hnameplate, htechnicalData, (buildOperationalData_eq_ok_iff py).mpr ⟨hnames, rfl⟩]
      rfl
    · rw [importAasx_exported py h telemetry (h.idShort_nameplate hnameplate) (h.idShort_technicalData py htechnicalData), hreturned,
        if_pos h.code, hdata]
      exact hcreate
    · refine ⟨hcode.trans (readAssetCreate_code py hdata), ?_, ?_⟩
      · rw [hcomponents]
        exact List.map_congr_left fun c hc => readBack_eq_spec (hweights c hc)
      · rw [hsensors]
        refine h.readBack_perm.trans (.of_eq (List.map_congr_left fun x hx => ?_))
        rw [Sensor.readBack, orOne_of_ne_zero (hrates x hx)]
        rfl

end

/-! ## Two assets -/

def part (id : Uuid) (code : String) : Component Unit := ⟨id, code, code, "bearing", ⟨1000⟩, none, ()⟩

def millWith (components : List (Component Unit)) : Stored Unit Unit :=
  ⟨⟨"mill-1", "Mill 1", "cnc_mill", none, none, none, none, none, 2, none, none, "RUNNING"⟩, components, [], none, none⟩

theorem valid_millWith {components : List (Component Unit)} (hpattern : ∀ c ∈ components, partCodePattern c.code = true)
    (hcodes : (components.map Component.code).Nodup) (hids : (components.map Component.id).Nodup) : (millWith components).Valid := by
  refine ⟨(by decide : codePattern "mill-1" = true), hpattern, hcodes, hids, List.nodup_nil, ?_, ?_, ?_⟩
  · intro x hx
    cases hx
  · intro content hcontent
    cases hcontent
  · intro content hcontent
    cases hcontent

theorem round_trip_of_one_part :
    (∃ package t, exportAasx bareTexts (millWith [part 1 "spindle"]) (fun _ => ⟨none, none⟩) = .ok package ∧
        importAasx bareTexts package "cnc_mill" 1 = .ok t ∧ Reproduced (millWith [part 1 "spindle"]) t) ↔
      Survives bareTexts (millWith [part 1 "spindle"]) "cnc_mill" :=
  round_trip_iff bareTexts (valid_millWith (by decide) (by decide) (by decide)) _ _ _

/-- Two parts with the codes `a-b` and `a_b` have the same name in a package. -/
theorem close_codes_cannot_be_exported :
    (millWith [part 1 "a-b", part 2 "a_b"]).Valid ∧
      exportAasx bareTexts (millWith [part 1 "a-b", part 2 "a_b"]) (fun _ => ⟨none, none⟩) = .error (.crash "AASConstraintViolation") :=
  ⟨valid_millWith (by decide) (by decide) (by decide), rfl⟩

end TwinVoice.Assets
