import Mathlib.Data.List.Pairwise
import TwinVoice.Lib.Dict
import TwinVoice.Lib.FloatBits
import TwinVoice.Lib.Registers

/-! # The Modbus mirror

The catalogue gives every metric of an asset a register, and the server keeps
one image of registers for each unit, into which it encodes what the machines
report. The ranges of the metrics lie inside the image and apart from each
other, so a client that reads one of them gets the metric's last value,
whatever the others hold. -/

namespace TwinVoice.Sim.Modbus

open TwinVoice.Lib

/-! ## The catalogue -/

inductive AssetType
  | cncMill | compressor | conveyor | hydraulicPress | injectionMoulder
  deriving DecidableEq

structure SensorSpec where
  code : String

structure ComponentSpec where
  code : String
  sensors : List SensorSpec

structure AssetSpec where
  code : String
  assetType : AssetType

/-- A catalogue: the assets of its lines and the machine types. -/
structure Catalog where
  lines : List (List AssetSpec)
  types : Dict AssetType (List ComponentSpec)

namespace Catalog
variable (c : Catalog)

def assets : List AssetSpec := c.lines.flatten

/-- `_assets_by_code`: the last asset of a code. -/
def assetsByCode : Dict String AssetSpec := c.assets.foldl (fun d a => d.set a.code a) []

/-- What `_validate` makes sure of for the registers: every asset is of a type that is defined. -/
def Typed : Prop := ∀ a ∈ c.assets, (c.types.get? a.assetType).isSome

/-- The sensors of components, by metric. -/
def componentSpecs (components : List ComponentSpec) : Dict String (Option String × SensorSpec) :=
  (components.flatMap fun component => component.sensors.map fun sensor => (component, sensor)).foldl
    (fun d e => d.set (e.1.code ++ "." ++ e.2.code) (some e.1.code, e.2)) []

/-- `sensor_specs`; none is a `KeyError`. -/
def sensorSpecs (assetCode : String) : Option (Dict String (Option String × SensorSpec)) := do
  let asset ← c.assetsByCode.get? assetCode
  let components ← c.types.get? asset.assetType
  return ((componentSpecs components).set "power_kw" (none, ⟨"power_kw"⟩)).set "load_pct" (none, ⟨"load_pct"⟩)

end Catalog

/-- `MODBUS_STATE_REGISTER`. -/
def stateRegister : Nat := 0

/-- `MODBUS_GOOD_REGISTER`. -/
def goodRegister : Nat := 2

/-- `MODBUS_REJECT_REGISTER`. -/
def rejectRegister : Nat := 4

/-- `MODBUS_METRIC_BASE`. -/
def metricBase : Nat := 10

/-- `modbus_registers`, from the metrics in the order of their rows. -/
def registersOf (metrics : List String) : Dict String Nat :=
  (metrics.zipIdx).foldl (fun d e => d.set e.1 (metricBase + 2 * e.2))
    [("state", stateRegister), ("good_count", goodRegister), ("reject_count", rejectRegister)]

def Catalog.modbusRegisters (c : Catalog) (assetCode : String) : Option (Dict String Nat) :=
  (c.sensorSpecs assetCode).map fun specs => registersOf (specs.map Prod.fst)

/-! ## Words -/

/-- A value of a snapshot. -/
inductive Value
  | none
  | int (n : Int)
  | float (x : Floating binary64)
  | str (s : String)

/-- Two words of sixteen bits, the high one first. -/
def words (n : Nat) : List Nat := [n / 2 ^ 16, n % 2 ^ 16]

/-- `float32_words`, for what `struct.pack` does not raise for. -/
def float32Words (value : Option (Floating binary64)) : Option (List Nat) :=
  match value with
  | .none => some (words (single.bits .nan))
  | some x =>
    if (x.convert binary32).isInfinite ∧ ¬ x.isInfinite then .none else some (words (single.bits (x.convert binary32).number))

def uint32Words (n : Int) : List Nat := words (n % 2 ^ 32).toNat

/-- `float(value) if isinstance(value, int | float) else None`; an integer that is too large raises. -/
def reading (value : Option Value) : Option (Option (Floating binary64)) :=
  match value with
  | some (.int n) => if (Floating.ofInt binary64 n).isInfinite then .none else some (some (Floating.ofInt binary64 n))
  | some (.float x) => some (some x)
  | _ => some .none

/-- `int(x)` of a float. -/
def truncate (x : Floating binary64) : Option Int :=
  match x.number with
  | .finite negative x => some (if negative then -⌊x⌋₊ else ⌊x⌋₊)
  | _ => .none

/-- `int(value or 0)`; what `int` makes of a text is left open. -/
def counter (intOfStr : String → Option Int) (value : Value) : Option Int :=
  match value with
  | .none => some 0
  | .int n => some n
  | .float x => truncate x
  | .str s => if s = "" then some 0 else intOfStr s

/-- `STATE_CODES`. -/
def stateCodes : Dict String Nat := [("RUNNING", 0), ("IDLE", 1), ("DOWN", 2), ("MAINTENANCE", 3), ("UNKNOWN", 4)]

/-- `STATE_CODES.get(str(value), 4)`; what is no text has no state's name. -/
def stateCode (value : Value) : Nat :=
  match value with
  | .str s => (stateCodes.get? s).getD 4
  | _ => 4

/-! ## The server -/

structure AssetSnapshot where
  code : String
  values : Dict String Value

/-- The metrics that the loop over the registers passes over. -/
def reserved : List String := ["state", "good_count", "reject_count"]

structure ModbusMirror where
  units : Dict String Nat
  registers : Dict String (Dict String Nat)
  images : Dict Nat (List Nat)

/-- `max(registers.values()) + 2`. -/
def sizeOf (registers : Dict String Nat) : Nat := (registers.map Prod.snd).max?.getD 0 + 2

namespace ModbusMirror

/-- What the constructor does for one asset. -/
def add (c : Catalog) (m : ModbusMirror) (asset : AssetSpec) (unit : Nat) : Option ModbusMirror := do
  let registers ← c.modbusRegisters asset.code
  return {
    units := m.units.set asset.code unit
    registers := m.registers.set asset.code registers
    images := m.images.set unit (Registers.write (List.replicate (sizeOf registers) 0) stateRegister [4]) }

/-- The constructor, over the assets with their units. -/
def new (c : Catalog) : Option ModbusMirror := (c.assets.zipIdx 1).foldlM (fun m e => m.add c e.1 e.2) ⟨[], [], []⟩

/-- The body of the loop over the registers. -/
def encodeMetric (snap : AssetSnapshot) (image : List Nat) (metric : String × Nat) : Option (List Nat) :=
  if metric.1 ∈ reserved then some image
  else do
    let value ← reading (snap.values.get? metric.1)
    let words ← float32Words value
    return Registers.write image metric.2 words

def encode (intOfStr : String → Option Int) (m : ModbusMirror) (snap : AssetSnapshot) : Option ModbusMirror := do
  let unit ← m.units.get? snap.code
  let image ← m.images.get? unit
  let state ← snap.values.get? "state"
  let image := Registers.write image stateRegister [stateCode state]
  let good ← (snap.values.get? "good_count").bind (counter intOfStr)
  let image := Registers.write image goodRegister (uint32Words good)
  let reject ← (snap.values.get? "reject_count").bind (counter intOfStr)
  let image := Registers.write image rejectRegister (uint32Words reject)
  let registers ← m.registers.get? snap.code
  let image ← registers.foldlM (encodeMetric snap) image
  return { m with images := m.images.set unit image }

/-- A mirror after some snapshots. -/
def run (intOfStr : String → Option Int) (m : ModbusMirror) (snaps : List AssetSnapshot) : Option ModbusMirror :=
  snaps.foldlM (encode intOfStr) m

end ModbusMirror

/-! ## Registers -/

/-- The metrics of an asset in the order of their rows. -/
def Catalog.metrics (c : Catalog) (assetCode : String) : Option (List String) :=
  (c.sensorSpecs assetCode).map fun specs => specs.map Prod.fst

theorem Catalog.modbusRegisters_eq (c : Catalog) (assetCode : String) :
    c.modbusRegisters assetCode = (c.metrics assetCode).map registersOf := by
  rw [modbusRegisters, metrics, Option.map_map]
  rfl

/-- A component's metric has a dot in its name. -/
theorem dot_mem (component sensor : String) : '.' ∈ (component ++ "." ++ sensor).toList := by
  simp

/-- The names of metrics: each stands once, and none of them is that of another register. -/
structure Distinct (metrics : List String) : Prop where
  nodup : metrics.Nodup
  free : ∀ m ∈ metrics, m ∉ reserved

theorem componentSpecs_spec (components : List ComponentSpec) :
    ((Catalog.componentSpecs components).map Prod.fst).Nodup ∧
      ∀ m ∈ (Catalog.componentSpecs components).map Prod.fst, '.' ∈ m.toList := by
  unfold Catalog.componentSpecs
  generalize components.flatMap (fun component => component.sensors.map fun sensor => (component, sensor)) = sensors
  have hstart : ((([] : Dict String (Option String × SensorSpec)).map Prod.fst).Nodup) ∧
      ∀ m ∈ ([] : Dict String (Option String × SensorSpec)).map Prod.fst, '.' ∈ m.toList :=
    ⟨List.nodup_nil, fun m hm => absurd hm List.not_mem_nil⟩
  generalize ([] : Dict String (Option String × SensorSpec)) = d at *
  induction sensors generalizing d with
  | nil => exact hstart
  | cons e sensors ih =>
    refine ih _ ⟨Dict.nodup_set hstart.1 _ _, fun m hm => ?_⟩
    rcases Dict.mem_keys_set.mp hm with rfl | hm
    · exact dot_mem _ _
    · exact hstart.2 m hm

theorem Catalog.distinct_metrics {c : Catalog} {assetCode : String} {metrics : List String}
    (h : c.metrics assetCode = some metrics) : Distinct metrics := by
  obtain ⟨specs, hspecs, rfl⟩ := Option.map_eq_some_iff.mp h
  obtain ⟨asset, -, hspecs⟩ := Option.bind_eq_some_iff.mp hspecs
  obtain ⟨components, -, hspecs⟩ := Option.bind_eq_some_iff.mp hspecs
  obtain ⟨hnodup, hdot⟩ := componentSpecs_spec components
  cases hspecs
  refine ⟨Dict.nodup_set (Dict.nodup_set hnodup _ _) _ _, fun m hm hreserved => ?_⟩
  rcases Dict.mem_keys_set.mp hm with rfl | hm
  · revert hreserved
    decide
  · rcases Dict.mem_keys_set.mp hm with rfl | hm
    · revert hreserved
      decide
    · have hnone : ∀ name ∈ reserved, '.' ∉ name.toList := by decide
      exact hnone m hreserved (hdot m hm)

/-- The registers of the metrics stand behind those of the state and the counts. -/
theorem registersOf_eq {metrics : List String} (h : Distinct metrics) :
    registersOf metrics = [("state", stateRegister), ("good_count", goodRegister), ("reject_count", rejectRegister)] ++
      metrics.zipIdx.map fun e => (e.1, metricBase + 2 * e.2) := by
  have hfold : registersOf metrics = (metrics.zipIdx.map fun e => (e.1, metricBase + 2 * e.2)).foldl
      (fun (d : Dict String Nat) x => d.set x.1 x.2)
      [("state", stateRegister), ("good_count", goodRegister), ("reject_count", rejectRegister)] := by
    rw [List.foldl_map]
    rfl
  rw [hfold]
  refine Dict.foldl_set_eq_append _ _ ?_
  have hkeys : (metrics.zipIdx.map fun e => (e.1, metricBase + 2 * e.2)).map Prod.fst = metrics := by
    rw [List.map_map]
    exact List.zipIdx_map_fst 0 metrics
  rw [List.map_append, hkeys]
  refine List.nodup_append.mpr ⟨by decide, h.nodup, fun a ha b hb hab => ?_⟩
  subst hab
  exact h.free a hb ha

/-! ## The layout of an image -/

/-- How many registers the type of a metric takes. -/
def width (name : String) : Nat := if name = "state" then 1 else 2

/-- The ranges of the metrics lie in an image of this size, apart from each other. -/
structure Layout (registers : Dict String Nat) (size : Nat) : Prop where
  inside : ∀ e ∈ registers, e.2 + width e.1 ≤ size
  apart : ∀ e ∈ registers, ∀ e' ∈ registers, e.1 ≠ e'.1 → Registers.Apart e.2 (width e.1) e'.2 (width e'.1)

theorem width_of_ne {name : String} (h : name ≠ "state") : width name = 2 := if_neg h

theorem zipIdx_pairwise {α : Type} (l : List α) : l.zipIdx.Pairwise fun e e' => e.2 < e'.2 := by
  rw [← List.pairwise_map, List.zipIdx_map_snd]
  exact List.pairwise_lt_range'

/-- A range ends before the next one begins. -/
theorem registersOf_pairwise {metrics : List String} (h : Distinct metrics) :
    (registersOf metrics).Pairwise fun e e' => e.2 + width e.1 ≤ e'.2 := by
  rw [registersOf_eq h]
  refine List.pairwise_append.mpr ⟨by decide, ?_, ?_⟩
  · refine List.pairwise_map.mpr ((zipIdx_pairwise metrics).imp_of_mem fun {e e'} he _ hlt => ?_)
    have hname : e.1 ∈ metrics := List.mem_of_getElem? (List.mem_zipIdx_iff_getElem?.mp he)
    have hne : e.1 ≠ "state" := fun heq => h.free e.1 hname (heq ▸ List.mem_cons_self)
    dsimp only
    rw [width_of_ne hne]
    omega
  · intro e he e' he'
    obtain ⟨x, -, rfl⟩ := List.mem_map.mp he'
    have hend : ∀ e ∈ [("state", stateRegister), ("good_count", goodRegister), ("reject_count", rejectRegister)],
        e.2 + width e.1 ≤ metricBase := by decide
    exact (hend e he).trans (Nat.le_add_right _ _)

/-- The last register is the largest. -/
theorem le_sizeOf {registers : Dict String Nat} {e : String × Nat} (he : e ∈ registers) : e.2 + 2 ≤ sizeOf registers := by
  have hmem : e.2 ∈ registers.map Prod.snd := List.mem_map_of_mem he
  unfold sizeOf
  cases hmax : (registers.map Prod.snd).max? with
  | none =>
    rw [List.max?_eq_none_iff.mp hmax] at hmem
    cases hmem
  | some most => exact Nat.add_le_add_right ((List.max?_eq_some_iff.mp hmax).2 _ hmem) 2

theorem width_le (name : String) : width name ≤ 2 := by
  unfold width
  split <;> decide

/-- The ranges of two registers are apart. -/
def RangesApart (e e' : String × Nat) : Prop := Registers.Apart e.2 (width e.1) e'.2 (width e'.1)

instance symmRangesApart : Std.Symm RangesApart := ⟨fun _ _ h => Or.symm h⟩

theorem layout_registersOf {metrics : List String} (h : Distinct metrics) :
    Layout (registersOf metrics) (sizeOf (registersOf metrics)) where
  inside e he := (Nat.add_le_add_left (width_le e.1) _).trans (le_sizeOf he)
  apart e he e' he' hdiffer := by
    have hpairwise : (registersOf metrics).Pairwise RangesApart := (registersOf_pairwise h).imp Or.inl
    exact hpairwise.forall he he' fun heq => hdiffer (congrArg Prod.fst heq)

/-! ## Encoding -/

/-- The number that stands in the registers of a metric. -/
def shown (value : Option (Floating binary64)) : Number :=
  match value with
  | .none => .nan
  | some x => (x.convert binary32).number

/-- A snapshot that the mirror can encode: its readings are missing or in the range of the registers. -/
structure Encodable (intOfStr : String → Option Int) (metrics : List String) (snap : AssetSnapshot) : Prop where
  state : ∃ v, snap.values.get? "state" = some v
  counts : ∀ name ∈ ["good_count", "reject_count"], ∃ n, (snap.values.get? name).bind (counter intOfStr) = some n
  readings : ∀ name ∈ metrics, ∃ value, reading (snap.values.get? name) = some value ∧
    ∀ x ∈ value, (x.convert binary32).isInfinite = false

/-- The words that a snapshot has for a metric. -/
def content (intOfStr : String → Option Int) (snap : AssetSnapshot) (name : String) : List Nat :=
  if name = "state" then [stateCode ((snap.values.get? name).getD .none)]
  else if name ∈ reserved then uint32Words (((snap.values.get? name).bind (counter intOfStr)).getD 0)
  else words (single.bits (shown ((reading (snap.values.get? name)).getD .none)))

theorem length_content (intOfStr : String → Option Int) (snap : AssetSnapshot) (name : String) :
    (content intOfStr snap name).length = width name := by
  unfold content width
  split
  · rfl
  · split <;> rfl

theorem float32Words_eq {value : Option (Floating binary64)} (h : ∀ x ∈ value, (x.convert binary32).isInfinite = false) :
    float32Words value = some (words (single.bits (shown value))) := by
  cases value with
  | none => rfl
  | some x =>
    have hfits := h x rfl
    simp [float32Words, shown, hfits]

theorem encodeMetric_eq {intOfStr : String → Option Int} {metrics : List String} {snap : AssetSnapshot}
    (h : Encodable intOfStr metrics snap) (image : List Nat) {e : String × Nat} (hmetric : e.1 ∈ metrics)
    (he : e.1 ∉ reserved) : ModbusMirror.encodeMetric snap image e = some (Registers.write image e.2 (content intOfStr snap e.1)) := by
  have hstate : e.1 ≠ "state" := fun heq => he (heq ▸ List.mem_cons_self)
  obtain ⟨value, hreading, hfits⟩ := h.readings e.1 hmetric
  rw [ModbusMirror.encodeMetric, if_neg he, hreading, content, if_neg hstate, if_neg he, hreading, Option.bind_eq_bind,
    Option.bind_some, float32Words_eq hfits]
  rfl

theorem foldlM_encodeMetric {intOfStr : String → Option Int} {metrics : List String} {snap : AssetSnapshot}
    (h : Encodable intOfStr metrics snap) {entries : List (String × Nat)}
    (hfree : ∀ e ∈ entries, e.1 ∈ metrics ∧ e.1 ∉ reserved) (image : List Nat) :
    entries.foldlM (ModbusMirror.encodeMetric snap) image =
      some (Registers.writes image (entries.map fun e => (e.2, content intOfStr snap e.1))) := by
  induction entries generalizing image with
  | nil => rfl
  | cons e entries ih =>
    obtain ⟨he, hrest⟩ := List.forall_mem_cons.mp hfree
    rw [List.foldlM_cons, encodeMetric_eq h image he.1 he.2, Option.bind_eq_bind, Option.bind_some, ih hrest]
    rfl

/-- The ranges that a snapshot is written to. -/
def ranges (intOfStr : String → Option Int) (snap : AssetSnapshot) (registers : Dict String Nat) : List (Nat × List Nat) :=
  registers.map fun e => (e.2, content intOfStr snap e.1)

theorem encode_eq {intOfStr : String → Option Int} {m : ModbusMirror} {snap : AssetSnapshot} {unit : Nat}
    {image : List Nat} {metrics : List String} (h : Encodable intOfStr metrics snap) (hdistinct : Distinct metrics)
    (hunit : m.units.get? snap.code = some unit) (himage : m.images.get? unit = some image)
    (hregisters : m.registers.get? snap.code = some (registersOf metrics)) :
    m.encode intOfStr snap = some { m with
      images := m.images.set unit (Registers.writes image (ranges intOfStr snap (registersOf metrics))) } := by
  obtain ⟨state, hstate⟩ := h.state
  obtain ⟨good, hgood⟩ := h.counts "good_count" (by decide)
  obtain ⟨reject, hreject⟩ := h.counts "reject_count" (by decide)
  have hfree : ∀ e ∈ metrics.zipIdx.map fun e => (e.1, metricBase + 2 * e.2), e.1 ∈ metrics ∧ e.1 ∉ reserved := by
    intro e he
    obtain ⟨x, hx, rfl⟩ := List.mem_map.mp he
    have hmem : x.1 ∈ metrics := List.mem_of_getElem? (List.mem_zipIdx_iff_getElem?.mp hx)
    exact ⟨hmem, hdistinct.free x.1 hmem⟩
  have hfirst : ∀ image, [("state", stateRegister), ("good_count", goodRegister), ("reject_count", rejectRegister)].foldlM
      (ModbusMirror.encodeMetric snap) image = some image := fun _ => rfl
  have hwrites : Registers.writes image (ranges intOfStr snap (registersOf metrics)) =
      Registers.writes (Registers.write (Registers.write (Registers.write image stateRegister [stateCode state])
        goodRegister (uint32Words good)) rejectRegister (uint32Words reject))
        ((metrics.zipIdx.map fun e => (e.1, metricBase + 2 * e.2)).map fun e => (e.2, content intOfStr snap e.1)) := by
    have hstateWords : content intOfStr snap "state" = [stateCode state] := by simp [content, hstate]
    have hgoodWords : content intOfStr snap "good_count" = uint32Words good := by simp [content, reserved, hgood]
    have hrejectWords : content intOfStr snap "reject_count" = uint32Words reject := by simp [content, reserved, hreject]
    rw [ranges, registersOf_eq hdistinct, List.map_append, Registers.writes, List.foldl_append]
    simp only [List.map_cons, List.map_nil, List.foldl_cons, List.foldl_nil, hstateWords, hgoodWords, hrejectWords]
    rfl
  rw [hwrites]
  simp only [ModbusMirror.encode, hunit, himage, hstate, hgood, hreject, hregisters, Option.bind_eq_bind, Option.bind_some]
  rw [registersOf_eq hdistinct, List.foldlM_append, hfirst, Option.bind_eq_bind, Option.bind_some,
    foldlM_encodeMetric h hfree]
  rfl

/-- Ranges that lie in the image, apart from each other. -/
theorem ranges_spec (intOfStr : String → Option Int) (snap : AssetSnapshot) {metrics : List String}
    (hdistinct : Distinct metrics) :
    (∀ r ∈ ranges intOfStr snap (registersOf metrics), r.1 + r.2.length ≤ sizeOf (registersOf metrics)) ∧
      (ranges intOfStr snap (registersOf metrics)).Pairwise fun r s => Registers.Apart s.1 s.2.length r.1 r.2.length := by
  constructor
  · intro r hr
    obtain ⟨e, he, rfl⟩ := List.mem_map.mp hr
    dsimp only
    rw [length_content]
    exact (layout_registersOf hdistinct).inside e he
  · refine List.pairwise_map.mpr ((registersOf_pairwise hdistinct).imp fun {e e'} hle => Or.inr ?_)
    dsimp only
    rw [length_content]
    exact hle

/-- What was written can be read. -/
theorem read_ranges (intOfStr : String → Option Int) (snap : AssetSnapshot) {metrics : List String}
    (hdistinct : Distinct metrics) {image : List Nat} (hsize : image.length = sizeOf (registersOf metrics))
    {e : String × Nat} (he : e ∈ registersOf metrics) :
    Registers.read (Registers.writes image (ranges intOfStr snap (registersOf metrics))) e.2 (width e.1) =
      content intOfStr snap e.1 := by
  obtain ⟨hinside, hapart⟩ := ranges_spec intOfStr snap hdistinct
  have hread := Registers.read_writes image (hsize ▸ hinside) hapart (List.mem_map_of_mem he)
  rwa [length_content] at hread

/-! ## Reading back -/

/-- The number in some words, the high one first. -/
def ofWords (ws : List Nat) : Nat := ws.foldl (fun n w => n * 2 ^ 16 + w) 0

@[simp] theorem ofWords_words (n : Nat) : ofWords (words n) = n := by
  simp only [ofWords, words, List.foldl_cons, List.foldl_nil]
  omega

/-- What a client reads is what the snapshot says: the code of the state, the counts modulo the width of their
registers, and the readings as near as single precision comes. -/
structure ReadsBack (intOfStr : String → Option Int) (snap : AssetSnapshot) (registers : Dict String Nat)
    (image : List Nat) : Prop where
  state : ∀ a, ("state", a) ∈ registers → ∀ v, snap.values.get? "state" = some v → Registers.read image a 1 = [stateCode v]
  counts : ∀ name ∈ ["good_count", "reject_count"], ∀ a, (name, a) ∈ registers →
    ∀ n, (snap.values.get? name).bind (counter intOfStr) = some n → (ofWords (Registers.read image a 2) : Int) = n % 2 ^ 32
  metrics : ∀ name a, (name, a) ∈ registers → name ∉ reserved →
    ∀ value, reading (snap.values.get? name) = some value → single.ofBits (ofWords (Registers.read image a 2)) = shown value

theorem round_shown (value : Option (Floating binary64)) : single.round (shown value) = shown value := by
  cases value with
  | none => rfl
  | some x => exact (x.convert binary32).exact

theorem readsBack_of_content {intOfStr : String → Option Int} {snap : AssetSnapshot} {registers : Dict String Nat}
    {image : List Nat} (h : ∀ e ∈ registers, Registers.read image e.2 (width e.1) = content intOfStr snap e.1) :
    ReadsBack intOfStr snap registers image where
  state a ha v hv := by
    have hread := h ("state", a) ha
    simpa [width, content, hv] using hread
  counts name hname a ha n hn := by
    have hread := h (name, a) ha
    have hne : name ≠ "state" := by
      rintro rfl
      revert hname
      decide
    have hreserved : name ∈ reserved := List.mem_cons_of_mem _ hname
    simp only [content, if_neg hne, if_pos hreserved, hn, width_of_ne hne, Option.getD_some] at hread
    rw [hread, uint32Words, ofWords_words]
    exact Int.toNat_of_nonneg (Int.emod_nonneg n (by decide))
  metrics name a ha hfree value hvalue := by
    have hread := h (name, a) ha
    have hne : name ≠ "state" := fun heq => hfree (heq ▸ List.mem_cons_self)
    simp only [content, if_neg hne, if_neg hfree, hvalue, width_of_ne hne, Option.getD_some] at hread
    rw [hread, ofWords_words]
    exact (single.ofBits_bits (round_shown value)).1

/-! ## Units -/

theorem get?_foldl_code {assets : List AssetSpec} {d : Dict String AssetSpec} {a : AssetSpec}
    (h : a ∈ assets ∨ ∃ b, d.get? a.code = some b) :
    ∃ b, (assets.foldl (fun d a => d.set a.code a) d).get? a.code = some b ∧ (b ∈ assets ∨ d.get? a.code = some b) := by
  induction assets generalizing d with
  | nil =>
    rcases h with hmem | ⟨b, hb⟩
    · cases hmem
    · exact ⟨b, hb, Or.inr hb⟩
  | cons x xs ih =>
    have hset := Dict.get?_set d x.code x a.code
    have hnext : a ∈ xs ∨ ∃ b, (d.set x.code x).get? a.code = some b := by
      rcases h with hmem | ⟨b, hb⟩
      · rcases List.mem_cons.mp hmem with rfl | hmem
        · exact Or.inr ⟨a, by rw [hset, if_pos rfl]⟩
        · exact Or.inl hmem
      · rw [hset]
        by_cases hcode : x.code = a.code
        · exact Or.inr ⟨x, if_pos hcode⟩
        · exact Or.inr ⟨b, by rw [if_neg hcode, hb]⟩
    obtain ⟨b, hb, hfrom⟩ := ih hnext
    refine ⟨b, hb, ?_⟩
    rcases hfrom with hmem | hold
    · exact Or.inl (List.mem_cons_of_mem x hmem)
    · rw [hset] at hold
      split at hold
      · exact Or.inl (Option.some.inj hold ▸ List.mem_cons_self)
      · exact Or.inr hold

/-- Every asset has metrics. -/
theorem Catalog.Typed.metrics {c : Catalog} (h : c.Typed) {a : AssetSpec} (ha : a ∈ c.assets) :
    ∃ metrics, c.metrics a.code = some metrics := by
  obtain ⟨b, hb, hfrom⟩ := get?_foldl_code (Or.inl ha) (d := [])
  rcases hfrom with hmem | hnone
  · obtain ⟨components, hcomponents⟩ := Option.isSome_iff_exists.mp (h b hmem)
    have hbyCode : c.assetsByCode.get? a.code = some b := hb
    refine Option.isSome_iff_exists.mp ?_
    rw [Catalog.metrics, Catalog.sensorSpecs, hbyCode, Option.bind_eq_bind, Option.bind_some, hcomponents,
      Option.bind_eq_bind, Option.bind_some]
    rfl
  · cases hnone

/-- The mirror of a catalogue, as far as these assets go. -/
structure Held (c : Catalog) (units : List (AssetSpec × Nat)) (m : ModbusMirror) : Prop where
  nodup : (units.map Prod.snd).Nodup
  laidOut : ∀ e ∈ units, ∃ metrics image, c.metrics e.1.code = some metrics ∧
    m.registers.get? e.1.code = some (registersOf metrics) ∧ m.images.get? e.2 = some image ∧
      image.length = sizeOf (registersOf metrics)
  known : ∀ e ∈ units, ∃ unit, m.units.get? e.1.code = some unit
  units : ∀ code unit, m.units.get? code = some unit → ∃ e ∈ units, e.1.code = code ∧ e.2 = unit

section
variable {c : Catalog} {units : List (AssetSpec × Nat)} {m : ModbusMirror} {intOfStr : String → Option Int}

theorem held_add {asset : AssetSpec} {unit : Nat} {metrics : List String} (h : Held c units m)
    (hmetrics : c.metrics asset.code = some metrics) (hfresh : unit ∉ units.map Prod.snd) :
    ∃ m', m.add c asset unit = some m' ∧ Held c (units ++ [(asset, unit)]) m' := by
  have hregisters : c.modbusRegisters asset.code = some (registersOf metrics) := by
    rw [c.modbusRegisters_eq, hmetrics, Option.map_some]
  refine ⟨_, congrArg (Option.bind · _) hregisters, ?_⟩
  constructor
  · rw [List.map_append]
    refine List.nodup_append.mpr ⟨h.nodup, List.nodup_singleton _, fun a ha b hb hab => ?_⟩
    rw [List.map_singleton, List.mem_singleton] at hb
    rw [hab, hb] at ha
    exact hfresh ha
  · intro e he
    dsimp only
    rw [Dict.get?_set, Dict.get?_set]
    rcases List.mem_append.mp he with hmem | hnew
    · obtain ⟨metrics', image, hmetrics', hregisters', himage, hsize⟩ := h.laidOut e hmem
      have hunit : unit ≠ e.2 := fun heq => hfresh (heq ▸ List.mem_map_of_mem hmem)
      rw [if_neg hunit]
      refine ⟨metrics', image, hmetrics', ?_, himage, hsize⟩
      by_cases hcode : asset.code = e.1.code
      · rw [if_pos hcode]
        rw [hcode, hmetrics'] at hmetrics
        rw [Option.some.inj hmetrics]
      · rw [if_neg hcode]
        exact hregisters'
    · obtain rfl := List.mem_singleton.mp hnew
      rw [if_pos rfl, if_pos rfl]
      refine ⟨metrics, _, hmetrics, rfl, rfl, ?_⟩
      have hroom : stateRegister + [4].length ≤ (List.replicate (sizeOf (registersOf metrics)) 0).length := by
        rw [List.length_replicate]
        exact Nat.le_add_left_of_le (by decide)
      rw [Registers.length_write hroom, List.length_replicate]
  · intro e he
    dsimp only
    rw [Dict.get?_set]
    by_cases hcode : asset.code = e.1.code
    · exact ⟨unit, if_pos hcode⟩
    · rw [if_neg hcode]
      rcases List.mem_append.mp he with hmem | hnew
      · exact h.known e hmem
      · obtain rfl := List.mem_singleton.mp hnew
        exact absurd rfl hcode
  · intro code unit' hunit'
    dsimp only at hunit'
    rw [Dict.get?_set] at hunit'
    split at hunit'
    · rename_i hcode
      exact ⟨(asset, unit), List.mem_append_right _ List.mem_cons_self, hcode, Option.some.inj hunit'⟩
    · obtain ⟨e, he, hsame⟩ := h.units code unit' hunit'
      exact ⟨e, List.mem_append_left _ he, hsame⟩

theorem held_foldlM (hmetrics : ∀ a ∈ c.assets, ∃ metrics, c.metrics a.code = some metrics)
    {later : List (AssetSpec × Nat)} (h : Held c units m) (hlater : ∀ e ∈ later, e.1 ∈ c.assets)
    (hnodup : ((units ++ later).map Prod.snd).Nodup) :
    ∃ m', later.foldlM (fun m e => m.add c e.1 e.2) m = some m' ∧ Held c (units ++ later) m' := by
  induction later generalizing units m with
  | nil => exact ⟨m, rfl, (List.append_nil units).symm ▸ h⟩
  | cons e later ih =>
    obtain ⟨hasset, hrest⟩ := List.forall_mem_cons.mp hlater
    obtain ⟨metrics, he⟩ := hmetrics e.1 hasset
    have hfresh : e.2 ∉ units.map Prod.snd := by
      rw [List.map_append, List.map_cons] at hnodup
      exact fun hmem => (List.nodup_append.mp hnodup).2.2 e.2 hmem e.2 List.mem_cons_self rfl
    obtain ⟨m₁, hadd, hheld⟩ := held_add h he hfresh
    have happend : units ++ e :: later = units ++ [(e.1, e.2)] ++ later := by rw [List.append_assoc]; rfl
    rw [happend] at hnodup ⊢
    obtain ⟨m', hm', hlast⟩ := ih hheld hrest hnodup
    exact ⟨m', by rw [List.foldlM_cons, hadd]; exact hm', hlast⟩

/-- The constructor sees to it that every asset has a unit, with an image of the size of its registers. -/
theorem held_new (htyped : c.Typed) : ∃ m, ModbusMirror.new c = some m ∧ Held c (c.assets.zipIdx 1) m := by
  have hempty : Held c [] ⟨[], [], []⟩ :=
    ⟨List.nodup_nil, fun e he => absurd he List.not_mem_nil, fun e he => absurd he List.not_mem_nil,
      fun code unit hunit => by cases hunit⟩
  refine held_foldlM (fun a ha => htyped.metrics ha) hempty (fun e he => ?_) ?_
  · have hfst : e.1 ∈ (c.assets.zipIdx 1).map Prod.fst := List.mem_map_of_mem he
    rwa [List.zipIdx_map_fst] at hfst
  · rw [List.nil_append, List.zipIdx_map_snd]
    exact List.nodup_range'

/-- The unit of a snapshot's asset shows what the snapshot says. -/
def Shows (intOfStr : String → Option Int) (c : Catalog) (m : ModbusMirror) (snap : AssetSnapshot) : Prop :=
  ∃ unit registers image, m.units.get? snap.code = some unit ∧ c.modbusRegisters snap.code = some registers ∧
    m.images.get? unit = some image ∧ ReadsBack intOfStr snap registers image

/-- No two codes share a unit. -/
theorem Held.code_eq (h : Held c units m) {code code' : String} {unit : Nat} (hcode : m.units.get? code = some unit)
    (hcode' : m.units.get? code' = some unit) : code = code' := by
  obtain ⟨e, he, rfl, heq⟩ := h.units code unit hcode
  obtain ⟨e', he', rfl, heq'⟩ := h.units code' unit hcode'
  rw [List.inj_on_of_nodup_map h.nodup he he' (heq.trans heq'.symm)]

/-- A snapshot is encoded into its own unit only. -/
theorem held_encode {snap : AssetSnapshot} (h : Held c units m) (hknown : ∃ e ∈ units, e.1.code = snap.code)
    (hsnap : ∀ metrics, c.metrics snap.code = some metrics → Encodable intOfStr metrics snap) :
    ∃ m', m.encode intOfStr snap = some m' ∧ Held c units m' ∧ Shows intOfStr c m' snap ∧
      ∀ other, other.code ≠ snap.code → Shows intOfStr c m other → Shows intOfStr c m' other := by
  obtain ⟨e₀, he₀, hcode₀⟩ := hknown
  obtain ⟨unit, hunit⟩ := h.known e₀ he₀
  rw [hcode₀] at hunit
  obtain ⟨e, he, hcode, rfl⟩ := h.units snap.code unit hunit
  obtain ⟨metrics, image, hmetrics, hregisters, himage, hsize⟩ := h.laidOut e he
  rw [hcode] at hmetrics hregisters
  have hdistinct := Catalog.distinct_metrics hmetrics
  obtain ⟨hinside, -⟩ := ranges_spec intOfStr snap hdistinct
  have hlength : (Registers.writes image (ranges intOfStr snap (registersOf metrics))).length = image.length :=
    Registers.length_writes (hsize ▸ hinside)
  refine ⟨_, encode_eq (hsnap metrics hmetrics) hdistinct hunit himage hregisters, ⟨h.nodup, ?_, h.known, h.units⟩, ?_, ?_⟩
  · intro e' he'
    obtain ⟨metrics', image', hmetrics', hregisters', himage', hsize'⟩ := h.laidOut e' he'
    dsimp only
    rw [Dict.get?_set]
    by_cases hsame : e.2 = e'.2
    · obtain rfl := List.inj_on_of_nodup_map h.nodup he he' hsame
      rw [hcode, hmetrics] at hmetrics'
      cases hmetrics'
      exact ⟨metrics, _, hcode ▸ hmetrics, hregisters', if_pos rfl, hlength.trans hsize⟩
    · rw [if_neg hsame]
      exact ⟨metrics', image', hmetrics', hregisters', himage', hsize'⟩
  · refine ⟨e.2, registersOf metrics, _, hunit, by rw [c.modbusRegisters_eq, hmetrics, Option.map_some], ?_,
      readsBack_of_content fun r hr => read_ranges intOfStr snap hdistinct hsize hr⟩
    dsimp only
    rw [Dict.get?_set, if_pos rfl]
  · intro other hother hshows
    obtain ⟨unit', registers', image', hunit', hregisters', himage', hread⟩ := hshows
    have hne : e.2 ≠ unit' := fun heq => hother (h.code_eq hunit' (heq ▸ hunit))
    refine ⟨unit', registers', image', hunit', hregisters', ?_, hread⟩
    dsimp only
    rw [Dict.get?_set, if_neg hne]
    exact himage'

/-- Every snapshot that is the last of its asset is shown in the end. -/
theorem held_run {snaps : List AssetSnapshot} (h : Held c units m)
    (hknown : ∀ snap ∈ snaps, ∃ e ∈ units, e.1.code = snap.code)
    (hsnaps : ∀ snap ∈ snaps, ∀ metrics, c.metrics snap.code = some metrics → Encodable intOfStr metrics snap) :
    ∃ m', m.run intOfStr snaps = some m' ∧ Held c units m' ∧
      (∀ other, (∀ snap ∈ snaps, other.code ≠ snap.code) → Shows intOfStr c m other → Shows intOfStr c m' other) ∧
      ∀ before snap after, snaps = before ++ snap :: after → (∀ later ∈ after, snap.code ≠ later.code) →
        Shows intOfStr c m' snap := by
  induction snaps generalizing m with
  | nil => exact ⟨m, rfl, h, fun other _ hshows => hshows, fun before snap after heq => by simp at heq⟩
  | cons first snaps ih =>
    obtain ⟨hfirst, hrest⟩ := List.forall_mem_cons.mp hknown
    obtain ⟨hencodable, hlater⟩ := List.forall_mem_cons.mp hsnaps
    obtain ⟨m₁, hencode, hheld, hshown, hothers⟩ := held_encode h hfirst hencodable
    obtain ⟨m', hrun, hlast, hkeeps, hshows⟩ := ih hheld hrest hlater
    refine ⟨m', ?_, hlast, fun other hother hold => ?_, fun before snap after heq hnone => ?_⟩
    · rw [ModbusMirror.run, List.foldlM_cons, hencode]
      exact hrun
    · obtain ⟨hne, hnes⟩ := List.forall_mem_cons.mp hother
      exact hkeeps other hnes (hothers other hne hold)
    · cases before with
      | nil =>
        obtain ⟨rfl, rfl⟩ := List.cons.inj heq
        exact hkeeps first hnone hshown
      | cons x before => exact hshows before snap after (List.cons.inj heq).2 hnone

end

/-- A press with one sensor. -/
def pressCatalog : Catalog := ⟨[[⟨"press-01", .hydraulicPress⟩]], [(.hydraulicPress, [⟨"pump", [⟨"flow"⟩]⟩])]⟩

/-- It runs; the power is missing. -/
def pressSnapshot : AssetSnapshot where
  code := "press-01"
  values := [("state", .str "RUNNING"), ("good_count", .int 70000), ("reject_count", .int 0),
    ("pump.flow", .float (.ofInt binary64 3)), ("power_kw", .none), ("load_pct", .int 90)]

end TwinVoice.Sim.Modbus
