import TwinVoice.Lib.Dict
import TwinVoice.Lib.FloatFormat

/-! # The Sparkplug B codec

Metrics as Python dictionaries on one side, the protobuf messages of
`sparkplug_b.proto` on the other. A metric's datatype names one field of the
value's `oneof`, and integers are brought to the field's unsigned width. The
decoder takes whichever field the sender has filled. Serialising a message
is left to the protobuf library. -/

namespace TwinVoice.Sparkplug

open TwinVoice.Lib

inductive DataType
  | int8 | int16 | int32 | int64 | uint8 | uint16 | uint32 | uint64
  | float | double | boolean | string | datetime | text | uuid
  deriving DecidableEq

/-- The scalar fields of a value's `oneof`. -/
inductive Field
  | intValue | longValue | floatValue | doubleValue | booleanValue | stringValue
  deriving DecidableEq

/-- `_TypeSpec`; `bits` is the width of an integer type. -/
structure TypeSpec where
  code : Nat
  field : Field
  bits : Option Nat
  signed : Bool

namespace DataType

/-- The value of the `StrEnum`. -/
def label : DataType → String
  | int8 => "Int8"
  | int16 => "Int16"
  | int32 => "Int32"
  | int64 => "Int64"
  | uint8 => "UInt8"
  | uint16 => "UInt16"
  | uint32 => "UInt32"
  | uint64 => "UInt64"
  | float => "Float"
  | double => "Double"
  | boolean => "Boolean"
  | string => "String"
  | datetime => "DateTime"
  | text => "Text"
  | uuid => "UUID"

/-- `_SPECS`. -/
def spec : DataType → TypeSpec
  | int8 => ⟨1, .intValue, some 8, true⟩
  | int16 => ⟨2, .intValue, some 16, true⟩
  | int32 => ⟨3, .intValue, some 32, true⟩
  | int64 => ⟨4, .longValue, some 64, true⟩
  | uint8 => ⟨5, .intValue, some 8, false⟩
  | uint16 => ⟨6, .intValue, some 16, false⟩
  | uint32 => ⟨7, .intValue, some 32, false⟩
  | uint64 => ⟨8, .longValue, some 64, false⟩
  | float => ⟨9, .floatValue, none, false⟩
  | double => ⟨10, .doubleValue, none, false⟩
  | boolean => ⟨11, .booleanValue, none, false⟩
  | string => ⟨12, .stringValue, none, false⟩
  | datetime => ⟨13, .longValue, some 64, false⟩
  | text => ⟨14, .stringValue, none, false⟩
  | uuid => ⟨15, .stringValue, none, false⟩

def all : List DataType :=
  [int8, int16, int32, int64, uint8, uint16, uint32, uint64, float, double, boolean, string, datetime,
    text, uuid]

/-- `DataType(s)`. -/
def ofLabel? (s : String) : Option DataType := all.find? (·.label == s)

/-- `_BY_CODE.get(code)`. -/
def ofCode? (code : UInt32) : Option DataType := all.find? (·.spec.code == code.toNat)

def code (dt : DataType) : UInt32 := UInt32.ofNat dt.spec.code

@[simp] theorem ofLabel?_label (dt : DataType) : ofLabel? dt.label = some dt := by
  cases dt <;> decide

@[simp] theorem ofCode?_code (dt : DataType) : ofCode? dt.code = some dt := by
  cases dt <;> decide

end DataType

/-- The Python values that a metric can hold: scalars, and what a decoder may
find in other fields. A message is known by its content. -/
inductive Scalar
  | bool (b : Bool)
  | int (n : Int)
  | float (x : Floating binary64)
  | str (s : String)
  | bytes (b : List UInt8)
  | message (content : List UInt8)

inductive PyError
  | valueError (text : String)
  | typeError (text : String)
  | overflowError (text : String)

/-- What Python's `repr` and `int` make of a text, or of bytes. -/
structure Builtins where
  repr : Scalar → String
  intOfStr : String → Option Int
  intOfBytes : List UInt8 → Option Int

/-! ## Messages -/

/-- The field of a value that is set; `X` are those that hold no scalar. -/
inductive OneOf (X : Type)
  | intValue (n : UInt32)
  | longValue (n : UInt64)
  | floatValue (x : Floating binary32)
  | doubleValue (x : Floating binary64)
  | booleanValue (b : Bool)
  | stringValue (s : String)
  | other (x : X)

/-- The other fields of a metric's value. -/
inductive MetricExtra
  | bytesValue (b : List UInt8)
  | datasetValue (content : List UInt8)
  | templateValue (content : List UInt8)
  | extensionValue (content : List UInt8)

/-- The other fields of a property's value. -/
inductive PropertyExtra
  | propertysetValue (content : List UInt8)
  | propertysetsValue (content : List UInt8)
  | extensionValue (content : List UInt8)

structure PropertyValue where
  type : Option UInt32
  isNull : Option Bool
  value : Option (OneOf PropertyExtra)

structure PropertySet where
  keys : List String
  values : List PropertyValue

structure Metric where
  name : Option String
  timestamp : Option UInt64
  datatype : Option UInt32
  isNull : Option Bool
  properties : Option PropertySet
  value : Option (OneOf MetricExtra)

structure Payload where
  timestamp : Option UInt64
  metrics : List Metric
  seq : Option UInt64

/-- The library's `SerializeToString` and `ParseFromString`, which give a message back. -/
structure Protobuf (Bytes : Type) where
  serializeToString : Payload → Bytes
  parseFromString : Bytes → Except PyError Payload
  faithful : ∀ p, parseFromString (serializeToString p) = .ok p

/-- A field that holds no scalar is read as bytes or as a message. -/
class Extra (X : Type) where
  read : X → Scalar

instance : Extra MetricExtra := ⟨fun
  | .bytesValue b => .bytes b
  | .datasetValue c | .templateValue c | .extensionValue c => .message c⟩

instance : Extra PropertyExtra := ⟨fun
  | .propertysetValue c | .propertysetsValue c | .extensionValue c => .message c⟩

namespace OneOf
variable {X : Type} [Extra X]

/-- `getattr(source, source.WhichOneof("value"))`. -/
def read : OneOf X → Scalar
  | intValue n => .int n.toNat
  | longValue n => .int n.toNat
  | floatValue x => .float (x.convert binary64)
  | doubleValue x => .float x
  | booleanValue b => .bool b
  | stringValue s => .str s
  | other x => Extra.read x

end OneOf

/-- What protobuf does with an integer for an unsigned field. -/
def checkRange (width : Nat) (n : Int) : Except PyError Nat :=
  if 0 ≤ n ∧ n < 2 ^ width then .ok n.toNat else .error (.valueError "Value out of range")

/-- `setattr(target, field, value)`. -/
def OneOf.write {X : Type} (field : Field) (value : Scalar) : Except PyError (OneOf X) :=
  match field, value with
  | .intValue, .int n => (checkRange 32 n).map fun k => .intValue (UInt32.ofNat k)
  | .longValue, .int n => (checkRange 64 n).map fun k => .longValue (UInt64.ofNat k)
  | .floatValue, .float x => .ok (.floatValue (x.convert binary32))
  | .doubleValue, .float x => .ok (.doubleValue x)
  | .booleanValue, .bool b => .ok (.booleanValue b)
  | .stringValue, .str s => .ok (.stringValue s)
  | _, _ => .error (.typeError "bad argument type for built-in operation")

/-! ## Values -/

/-- `float(n)`. -/
def floatOfInt (n : Int) : Except PyError (Floating binary64) :=
  let x := Floating.ofInt binary64 n
  if x.isInfinite then .error (.overflowError "int too large to convert to float") else .ok x

/-- The bounds `lo` and `hi` of an integer type. -/
def bounds (bits : Nat) (signed : Bool) : Int × Int :=
  if signed then (-2 ^ (bits - 1), 2 ^ (bits - 1)) else (0, 2 ^ bits)

section
variable (py : Builtins)

/-- `_to_wire`. -/
def toWire (dt : DataType) (value : Scalar) : Except PyError Scalar :=
  let requires (what : String) : Except PyError Scalar :=
    .error (.valueError (dt.label ++ " requires " ++ what ++ ", got " ++ py.repr value))
  match dt.spec.bits with
  | some bits =>
    match value with
    | .int n =>
      if (bounds bits dt.spec.signed).1 ≤ n ∧ n < (bounds bits dt.spec.signed).2 then
        .ok (.int (if n < 0 then n + 2 ^ bits else n))
      else .error (.valueError (toString n ++ " out of range for " ++ dt.label))
    | _ => requires "an int"
  | none =>
    match dt.spec.field with
    | .floatValue | .doubleValue =>
      match value with
      | .int n => (floatOfInt n).map .float
      | .float x => .ok (.float x)
      | _ => requires "a number"
    | .booleanValue =>
      match value with
      | .bool b => .ok (.bool b)
      | _ => requires "a bool"
    | _ =>
      match value with
      | .str s => .ok (.str s)
      | _ => requires "a str"

/-- `int(raw)`. -/
def pyInt : Scalar → Except PyError Int
  | .bool b => .ok (if b then 1 else 0)
  | .int n => .ok n
  | .float x =>
    match x.number with
    | .nan => .error (.valueError "cannot convert float NaN to integer")
    | .infinite _ => .error (.overflowError "cannot convert float infinity to integer")
    | .finite negative m => .ok (if negative then -⌊m⌋₊ else ⌊m⌋₊)
  | .str s =>
    match py.intOfStr s with
    | some n => .ok n
    | none => .error (.valueError ("invalid literal for int() with base 10: " ++ py.repr (.str s)))
  | .bytes b =>
    match py.intOfBytes b with
    | some n => .ok n
    | none => .error (.valueError ("invalid literal for int() with base 10: " ++ py.repr (.bytes b)))
  | .message _ => .error (.typeError "int() argument must be a string, a bytes-like object or a real number")

/-- The low bits of an integer, read as two's complement. -/
def signExtend (bits : Nat) (n : Int) : Int :=
  let v := n % 2 ^ bits
  if 2 ^ (bits - 1) ≤ v then v - 2 ^ bits else v

/-- `_from_wire`. -/
def fromWire (dt : DataType) (raw : Scalar) : Except PyError Scalar :=
  match dt.spec.bits, dt.spec.signed with
  | some bits, true => (pyInt py raw).map fun n => .int (signExtend bits n)
  | _, _ => .ok raw

/-- `_infer_property_type`. -/
def inferPropertyType : Option Scalar → DataType
  | none | some (.str _) => .string
  | some (.bool _) => .boolean
  | some (.int n) => if -2 ^ 31 ≤ n ∧ n < 2 ^ 31 then .int32 else .int64
  | some _ => .double

/-- `_set_value`: the fields `is_null` and `value` of the target. -/
def setValue {X : Type} (dt : DataType) (value : Option Scalar) (isNull : Bool) :
    Except PyError (Option Bool × Option (OneOf X)) :=
  match isNull, value with
  | false, some v => do
    let wire ← toWire py dt v
    let field ← OneOf.write dt.spec.field wire
    return (none, some field)
  | _, _ => .ok (some true, none)

/-- `_read_value` of a source with these fields. -/
def readValue {X : Type} [Extra X] (typeCode : UInt32) (isNull : Option Bool) (value : Option (OneOf X)) :
    Except PyError (DataType × Option Scalar × Bool) :=
  match DataType.ofCode? typeCode with
  | none => .error (.valueError ("unsupported Sparkplug datatype code " ++ toString typeCode))
  | some dt =>
    match isNull.getD false, value with
    | false, some field => (fromWire py dt field.read).map fun v => (dt, some v, false)
    | _, _ => .ok (dt, none, true)

/-! ## Metrics -/

/-- A `MetricDict`; absent keys and `None` are read alike. A datatype is a `StrEnum`, so a text. -/
structure MetricDict where
  name : String
  datatype : String
  value : Option Scalar
  timestamp : Option Int
  isNull : Bool
  properties : Option (Dict String (Option Scalar))

structure PayloadDict where
  timestamp : Option Int
  seq : Option Int
  metrics : List MetricDict

def setUint64 (n : Int) : Except PyError UInt64 := (checkRange 64 n).map UInt64.ofNat

/-- An optional field that is set if there is a value. -/
def setOptional : Option Int → Except PyError (Option UInt64)
  | none => .ok none
  | some n => (setUint64 n).map some

def encodeProperty (value : Option Scalar) : Except PyError PropertyValue := do
  let dt := inferPropertyType value
  let (isNull, field) ← setValue py dt value value.isNone
  return ⟨some dt.code, isNull, field⟩

/-- The loop over the properties; a metric without any has no set. -/
def encodeProperties (properties : Dict String (Option Scalar)) : Except PyError (Option PropertySet) := do
  let values ← properties.mapM fun e => encodeProperty py e.2
  return if properties.isEmpty then none else some ⟨properties.map Prod.fst, values⟩

/-- `_encode_metric`. -/
def encodeMetric (m : MetricDict) : Except PyError Metric :=
  match DataType.ofLabel? m.datatype with
  | none => .error (.valueError (py.repr (.str m.datatype) ++ " is not a valid DataType"))
  | some dt => do
    let timestamp ← setOptional m.timestamp
    let (isNull, value) ← setValue py dt m.value m.isNull
    let properties ← encodeProperties py (m.properties.getD [])
    return ⟨some m.name, timestamp, some dt.code, isNull, properties, value⟩

/-- The loop over `zip(keys, values, strict=True)`. -/
def decodeProperties : List String → List PropertyValue → Dict String (Option Scalar) →
    Except PyError (Dict String (Option Scalar))
  | [], [], properties => .ok properties
  | key :: keys, prop :: values, properties => do
    let (_, value, _) ← readValue py (prop.type.getD 0) prop.isNull prop.value
    decodeProperties keys values (properties.set key value)
  | [], _ :: _, _ => .error (.valueError "zip() argument 2 is longer than argument 1")
  | _ :: _, [], _ => .error (.valueError "zip() argument 2 is shorter than argument 1")

/-- `if source.HasField("properties")`. -/
def decodePropertySet : Option PropertySet → Except PyError (Dict String (Option Scalar))
  | some set => decodeProperties py set.keys set.values []
  | none => .ok []

/-- `_decode_metric`. -/
def decodeMetric (m : Metric) : Except PyError MetricDict := do
  let (dt, value, isNull) ← readValue py (m.datatype.getD 0) m.isNull m.value
  let properties ← decodePropertySet py m.properties
  return ⟨m.name.getD "", dt.label, value, m.timestamp.map (·.toNat), isNull, some properties⟩

/-! ## Payloads -/

variable {Bytes : Type} (pb : Protobuf Bytes)

def checkSeq : Option Int → Except PyError (Option UInt64)
  | none => .ok none
  | some seq =>
    if 0 ≤ seq ∧ seq ≤ 255 then (setUint64 seq).map some
    else .error (.valueError ("seq must be 0..255, got " ++ toString seq))

/-- `encode_payload`, at the time `nowMs`. -/
def encodePayload (nowMs : Int) (metrics : List MetricDict) (timestamp seq : Option Int) :
    Except PyError Bytes := do
  let timestamp ← setUint64 (timestamp.getD nowMs)
  let seq ← checkSeq seq
  let metrics ← metrics.mapM (encodeMetric py)
  return pb.serializeToString ⟨some timestamp, metrics, seq⟩

/-- `decode_payload`. -/
def decodePayload (data : Bytes) : Except PyError PayloadDict := do
  let payload ← pb.parseFromString data
  let metrics ← payload.metrics.mapM (decodeMetric py)
  return ⟨payload.timestamp.map (·.toNat), payload.seq.map (·.toNat), metrics⟩

end

end TwinVoice.Sparkplug
