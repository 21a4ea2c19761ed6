import TwinVoice.Lib.Traversal
import TwinVoice.Sparkplug.Codec

/-! # Encoding and decoding again

A value of a datatype's type and in its range comes back as it was put in, up
to the rounding of a `Float` and the float that stands for an integer; so do
whole metrics and payloads. Any other value, and a sequence number that is no
byte, is refused with a `ValueError`. -/

namespace TwinVoice.Sparkplug

open TwinVoice.Lib

/-! ## Values and datatypes -/

/-- What the type tests of `_to_wire` let through. -/
def Typed (dt : DataType) (v : Scalar) : Prop :=
  match dt.spec.field, v with
  | .intValue, .int _ | .longValue, .int _ => True
  | .floatValue, .int _ | .floatValue, .float _ | .doubleValue, .int _ | .doubleValue, .float _ => True
  | .booleanValue, .bool _ | .stringValue, .str _ => True
  | _, _ => False

/-- Within the bounds of an integer type; all others have none. -/
def Bounded (dt : DataType) (v : Scalar) : Prop :=
  match dt.spec.bits, v with
  | some bits, .int n => (bounds bits dt.spec.signed).1 ≤ n ∧ n < (bounds bits dt.spec.signed).2
  | _, _ => True

/-- An integer for a float type is not too large for a float. -/
def Representable (dt : DataType) (v : Scalar) : Prop :=
  match dt.spec.bits, v with
  | none, .int n => (Floating.ofInt binary64 n).isInfinite = false
  | _, _ => True

structure InRange (dt : DataType) (v : Scalar) : Prop where
  typed : Typed dt v
  bounded : Bounded dt v
  representable : Representable dt v

/-- The value that comes back. -/
def canonical (dt : DataType) (v : Scalar) : Scalar :=
  match dt.spec.field, v with
  | .floatValue, .float x => .float ((x.convert binary32).convert binary64)
  | .floatValue, .int n => .float (((Floating.ofInt binary64 n).convert binary32).convert binary64)
  | .doubleValue, .int n => .float (Floating.ofInt binary64 n)
  | _, v => v

/-- An integer that is given for a `Double` comes back as the float that equals it. -/
theorem canonical_double_int {n : Int} {x : Floating binary64}
    (h : x.number = .finite (decide (n < 0)) n.natAbs) : canonical .double (.int n) = .float x :=
  congrArg Scalar.float (Floating.ofInt_eq h)

/-- And for a `Float`, if it equals one of 32 bits. -/
theorem canonical_float_int {n : Int} {x : Floating binary32}
    (h : x.number = .finite (decide (n < 0)) n.natAbs) :
    canonical .float (.int n) = .float (x.convert binary64) := by
  have hwide : Floating.ofInt binary64 n = x.convert binary64 :=
    Floating.ofInt_eq (by rw [Floating.convert_number binary32_within_binary64, h])
  show Scalar.float _ = _
  rw [hwide, Floating.convert_convert binary32_within_binary64]

/-! ## Integers -/

theorem checkRange_ok {width : Nat} {n : Int} (hlo : 0 ≤ n) (hhi : n < 2 ^ width) :
    checkRange width n = .ok n.toNat := if_pos ⟨hlo, hhi⟩

theorem write_intValue {X : Type} [Extra X] {n : Int} (hlo : 0 ≤ n) (hhi : n < 2 ^ 32) :
    ∃ field : OneOf X, OneOf.write .intValue (.int n) = .ok field ∧ field.read = .int n := by
  refine ⟨.intValue (UInt32.ofNat n.toNat), by simp only [OneOf.write, checkRange_ok hlo hhi]; rfl, ?_⟩
  have hsize : n.toNat < UInt32.size := by
    have : UInt32.size = 2 ^ 32 := rfl
    omega
  rw [OneOf.read, UInt32.toNat_ofNat_of_lt' hsize, Int.toNat_of_nonneg hlo]

theorem write_longValue {X : Type} [Extra X] {n : Int} (hlo : 0 ≤ n) (hhi : n < 2 ^ 64) :
    ∃ field : OneOf X, OneOf.write .longValue (.int n) = .ok field ∧ field.read = .int n := by
  refine ⟨.longValue (UInt64.ofNat n.toNat), by simp only [OneOf.write, checkRange_ok hlo hhi]; rfl, ?_⟩
  have hsize : n.toNat < UInt64.size := by
    have : UInt64.size = 2 ^ 64 := rfl
    omega
  rw [OneOf.read, UInt64.toNat_ofNat_of_lt' hsize, Int.toNat_of_nonneg hlo]

/-- The field of an integer type is wide enough for its bits. -/
theorem write_int {X : Type} [Extra X] {dt : DataType} {bits : Nat} (hbits : dt.spec.bits = some bits)
    {n : Int} (hlo : 0 ≤ n) (hhi : n < 2 ^ bits) :
    ∃ field : OneOf X, OneOf.write dt.spec.field (.int n) = .ok field ∧ field.read = .int n := by
  cases dt <;> cases hbits <;>
    first
    | exact write_longValue hlo hhi
    | exact write_intValue hlo (by omega)

theorem bits_pos {dt : DataType} {bits : Nat} (hbits : dt.spec.bits = some bits) : 0 < bits := by
  cases dt <;> cases hbits <;> decide

/-- Two's complement and back. -/
theorem signExtend_wire {bits : Nat} (hbits : 0 < bits) {n : Int} (hlo : -2 ^ (bits - 1) ≤ n)
    (hhi : n < 2 ^ (bits - 1)) : signExtend bits (if n < 0 then n + 2 ^ bits else n) = n := by
  obtain ⟨b, rfl⟩ : ∃ b, bits = b + 1 := ⟨bits - 1, by omega⟩
  have hdouble : (2 : Int) ^ (b + 1) = 2 * 2 ^ b := by rw [Int.pow_succ, Int.mul_comm]
  rw [Nat.add_sub_cancel] at hlo hhi
  unfold signExtend
  simp only [Nat.add_sub_cancel, hdouble]
  by_cases hneg : n < 0
  · rw [if_pos hneg, Int.emod_eq_of_lt (by omega) (by omega), if_pos (by omega)]
    omega
  · rw [if_neg hneg, Int.emod_eq_of_lt (by omega) (by omega), if_neg (by omega)]

/-- An integer within the bounds is brought to the unsigned range of its width. -/
theorem wire_bounds {bits : Nat} {signed : Bool} (hbits : 0 < bits) {n : Int}
    (h : (bounds bits signed).1 ≤ n ∧ n < (bounds bits signed).2) :
    0 ≤ (if n < 0 then n + 2 ^ bits else n) ∧ (if n < 0 then n + 2 ^ bits else n) < 2 ^ bits := by
  obtain ⟨b, rfl⟩ : ∃ b, bits = b + 1 := ⟨bits - 1, by omega⟩
  have hdouble : (2 : Int) ^ (b + 1) = 2 * 2 ^ b := by rw [Int.pow_succ, Int.mul_comm]
  have hpos : (0 : Int) < 2 ^ b := Int.pow_pos (by decide)
  cases signed <;> simp only [bounds, hdouble, Nat.add_sub_cancel] at h ⊢ <;> split <;> simp at h <;> omega

section
variable (py : Builtins) {X : Type} [Extra X]

theorem fromWire_wire {dt : DataType} {bits : Nat} (hbits : dt.spec.bits = some bits) {n : Int}
    (h : (bounds bits dt.spec.signed).1 ≤ n ∧ n < (bounds bits dt.spec.signed).2) :
    fromWire py dt (.int (if n < 0 then n + 2 ^ bits else n)) = .ok (.int n) := by
  unfold fromWire
  rw [hbits]
  cases hsigned : dt.spec.signed with
  | true =>
    rw [hsigned] at h
    have hextend := signExtend_wire (bits_pos hbits) h.1 h.2
    simp only [pyInt, Except.map, hextend]
  | false =>
    rw [hsigned] at h
    have hnonneg : ¬n < 0 := Int.not_lt.mpr h.1
    simp only [if_neg hnonneg]

theorem int_round_trip {dt : DataType} {bits : Nat} (hbits : dt.spec.bits = some bits) {n : Int}
    (h : (bounds bits dt.spec.signed).1 ≤ n ∧ n < (bounds bits dt.spec.signed).2) :
    ∃ (wire : Scalar) (field : OneOf X), toWire py dt (.int n) = .ok wire ∧
      OneOf.write dt.spec.field wire = .ok field ∧ fromWire py dt field.read = .ok (.int n) := by
  obtain ⟨hlo, hhi⟩ := wire_bounds (bits_pos hbits) h
  obtain ⟨field, hwrite, hread⟩ := write_int (X := X) hbits hlo hhi
  refine ⟨_, field, ?_, hwrite, ?_⟩
  · simp only [toWire, hbits, if_pos h]
  · rw [hread, fromWire_wire py hbits h]

/-! ## Values -/

theorem Typed.int {dt : DataType} {bits : Nat} (hbits : dt.spec.bits = some bits) {v : Scalar}
    (h : Typed dt v) : ∃ n, v = .int n := by
  cases v with
  | int n => exact ⟨n, rfl⟩
  | _ => cases dt <;> first | exact absurd h id | cases hbits

theorem canonical_int {dt : DataType} {bits : Nat} (hbits : dt.spec.bits = some bits) (n : Int) :
    canonical dt (.int n) = .int n := by
  cases dt <;> first | rfl | cases hbits

theorem floatOfInt_ok {n : Int} (h : (Floating.ofInt binary64 n).isInfinite = false) :
    floatOfInt n = .ok (Floating.ofInt binary64 n) := by
  simp [floatOfInt, h]

/-- A value in range goes to the wire and comes back as itself, rounded if it must be. -/
theorem value_round_trip {dt : DataType} {v : Scalar} (h : InRange dt v) :
    ∃ (wire : Scalar) (field : OneOf X), toWire py dt v = .ok wire ∧
      OneOf.write dt.spec.field wire = .ok field ∧ fromWire py dt field.read = .ok (canonical dt v) := by
  cases hbits : dt.spec.bits with
  | some bits =>
    obtain ⟨n, rfl⟩ := h.typed.int hbits
    have hbounded := h.bounded
    simp only [Bounded, hbits] at hbounded
    rw [canonical_int hbits]
    exact int_round_trip py hbits hbounded
  | none =>
    have htyped := h.typed
    have hrepresentable := h.representable
    cases dt <;> cases hbits
    all_goals cases v <;> first | exact absurd htyped id | skip
    case none.float.refl.int n =>
      exact ⟨_, _, by simp only [toWire, DataType.spec, floatOfInt_ok hrepresentable]; rfl, rfl, rfl⟩
    case none.double.refl.int n =>
      exact ⟨_, _, by simp only [toWire, DataType.spec, floatOfInt_ok hrepresentable]; rfl, rfl, rfl⟩
    all_goals exact ⟨_, _, rfl, rfl, rfl⟩

/-- `_set_value` and then `_read_value`, of a value that is there and in range. -/
theorem setValue_some {dt : DataType} {v : Scalar} (h : InRange dt v) :
    ∃ field : OneOf X, setValue py dt (some v) false = .ok (none, some field) ∧
      readValue py dt.code none (some field) = .ok (dt, some (canonical dt v), false) := by
  obtain ⟨wire, field, hwire, hwrite, hread⟩ := value_round_trip py (X := X) h
  refine ⟨field, ?_, ?_⟩
  · simp only [setValue, hwire, hwrite, bind, Except.bind, pure, Except.pure]
  · simp only [readValue, DataType.ofCode?_code, Option.getD_none, hread, Except.map]

/-- And of one that is not, or is flagged as null. -/
theorem setValue_null (dt : DataType) (value : Option Scalar) (isNull : Bool)
    (h : isNull = true ∨ value = none) :
    setValue (X := X) py dt value isNull = .ok (some true, none) ∧
      readValue (X := X) py dt.code (some true) none = .ok (dt, none, true) := by
  refine ⟨?_, ?_⟩
  · rcases h with rfl | rfl
    · rfl
    · cases isNull <;> rfl
  · simp only [readValue, DataType.ofCode?_code, Option.getD_some]

end

/-! ## Properties -/

/-- A scalar, and not beyond 64 bits if it is an integer. -/
def PropertyInRange : Scalar → Prop
  | .int n => -2 ^ 63 ≤ n ∧ n < 2 ^ 63
  | .bool _ | .float _ | .str _ => True
  | .bytes _ | .message _ => False

/-- The type that is inferred for a property fits it, and loses nothing. -/
theorem PropertyInRange.inferred {v : Scalar} (h : PropertyInRange v) :
    InRange (inferPropertyType (some v)) v ∧ canonical (inferPropertyType (some v)) v = v := by
  cases v with
  | int n =>
    obtain ⟨hlo, hhi⟩ := h
    by_cases hsmall : -2 ^ 31 ≤ n ∧ n < 2 ^ 31
    · have htype : inferPropertyType (some (.int n)) = .int32 := if_pos hsmall
      rw [htype]
      exact ⟨⟨trivial, hsmall, trivial⟩, rfl⟩
    · have htype : inferPropertyType (some (.int n)) = .int64 := if_neg hsmall
      rw [htype]
      exact ⟨⟨trivial, ⟨hlo, hhi⟩, trivial⟩, rfl⟩
  | bytes b => exact absurd h id
  | message c => exact absurd h id
  | bool b => exact ⟨⟨trivial, trivial, trivial⟩, rfl⟩
  | float x => exact ⟨⟨trivial, trivial, trivial⟩, rfl⟩
  | str s => exact ⟨⟨trivial, trivial, trivial⟩, rfl⟩

section
variable (py : Builtins)

theorem property_round_trip {value : Option Scalar} (h : ∀ v ∈ value, PropertyInRange v) :
    ∃ prop dt isNull, encodeProperty py value = .ok prop ∧
      readValue py (prop.type.getD 0) prop.isNull prop.value = .ok (dt, value, isNull) := by
  cases value with
  | none =>
    obtain ⟨hset, hread⟩ := setValue_null (X := PropertyExtra) py .string none true (.inr rfl)
    exact ⟨⟨some DataType.string.code, some true, none⟩, .string, true, rfl, hread⟩
  | some v =>
    obtain ⟨hrange, hsame⟩ := (h v rfl).inferred
    obtain ⟨field, hset, hread⟩ := setValue_some (X := PropertyExtra) py hrange
    rw [hsame] at hread
    refine ⟨⟨some (inferPropertyType (some v)).code, none, some field⟩, _, _, ?_, hread⟩
    simp only [encodeProperty, Option.isNone_some, hset, bind, Except.bind, pure, Except.pure]

/-- Properties under distinct keys come back in their order. -/
theorem properties_round_trip : ∀ {properties : Dict String (Option Scalar)},
    (∀ e ∈ properties, ∀ v ∈ e.2, PropertyInRange v) →
    ∃ values, properties.mapM (fun e => encodeProperty py e.2) = .ok values ∧
      ∀ read, (read.map Prod.fst ++ properties.map Prod.fst).Nodup →
        decodeProperties py (properties.map Prod.fst) values read = .ok (read ++ properties)
  | [], _ => ⟨[], rfl, fun read _ => by simp [decodeProperties]⟩
  | (key, value) :: properties, h => by
    obtain ⟨values, hencode, hdecode⟩ :=
      properties_round_trip fun e he => h e (List.mem_cons_of_mem _ he)
    obtain ⟨prop, dt, isNull, hprop, hread⟩ := property_round_trip py (h (key, value) List.mem_cons_self)
    refine ⟨prop :: values, ?_, fun read hnodup => ?_⟩
    · simp only [List.mapM_cons, hprop, hencode, bind, Except.bind, pure, Except.pure]
    · have hfresh : key ∉ read.map Prod.fst := by
        intro hmem
        simp only [List.map_cons] at hnodup
        exact (List.nodup_append.mp hnodup).2.2 key hmem key List.mem_cons_self rfl
      have hset : Dict.set read key value = read ++ [(key, value)] := if_neg hfresh
      have hrest := hdecode (read ++ [(key, value)]) (by simpa using hnodup)
      simp only [List.map_cons, decodeProperties, hread, bind, Except.bind, hset, hrest]
      simp

theorem propertySet_round_trip {properties : Dict String (Option Scalar)}
    (h : ∀ e ∈ properties, ∀ v ∈ e.2, PropertyInRange v) (hkeys : (properties.map Prod.fst).Nodup) :
    ∃ set, encodeProperties py properties = .ok set ∧ decodePropertySet py set = .ok properties := by
  obtain ⟨values, hencode, hdecode⟩ := properties_round_trip py h
  have hset : encodeProperties py properties =
      .ok (if properties.isEmpty then none else some ⟨properties.map Prod.fst, values⟩) := by
    simp only [encodeProperties, hencode, bind, Except.bind, pure, Except.pure]
  refine ⟨_, hset, ?_⟩
  cases properties with
  | nil => rfl
  | cons e properties => exact hdecode [] (by simpa using hkeys)

end

/-! ## Metrics -/

theorem setUint64_ok {n : Int} (hlo : 0 ≤ n) (hhi : n < 2 ^ 64) :
    ∃ u, setUint64 n = .ok u ∧ (u.toNat : Int) = n := by
  refine ⟨UInt64.ofNat n.toNat, by rw [setUint64, checkRange_ok hlo hhi]; rfl, ?_⟩
  have hsize : n.toNat < UInt64.size := by
    have : UInt64.size = 2 ^ 64 := rfl
    omega
  rw [UInt64.toNat_ofNat_of_lt' hsize, Int.toNat_of_nonneg hlo]

theorem setOptional_ok {t : Option Int} (h : ∀ n ∈ t, 0 ≤ n ∧ n < 2 ^ 64) :
    ∃ u, setOptional t = .ok u ∧ u.map (fun k => (k.toNat : Int)) = t := by
  cases t with
  | none => exact ⟨none, rfl, rfl⟩
  | some n =>
    obtain ⟨u, hu, hn⟩ := setUint64_ok (h n rfl).1 (h n rfl).2
    exact ⟨some u, by rw [setOptional, hu]; rfl, congrArg some hn⟩

/-- A metric of the datatype that the codec can carry: a null one, or one whose
value is in range, with a timestamp of 64 bits and scalar properties. -/
structure MetricDict.WellFormed (m : MetricDict) (dt : DataType) : Prop where
  datatype : m.datatype = dt.label
  timestamp : ∀ t ∈ m.timestamp, 0 ≤ t ∧ t < 2 ^ 64
  value : m.isNull = false → ∀ v ∈ m.value, InRange dt v
  keys : ((m.properties.getD []).map Prod.fst).Nodup
  properties : ∀ e ∈ m.properties.getD [], ∀ v ∈ e.2, PropertyInRange v

/-- The metric that comes back: null if it was flagged or has no value, and with
no properties where there were none. -/
def MetricDict.returned (m : MetricDict) : MetricDict where
  name := m.name
  datatype := m.datatype
  value := if m.isNull then none else m.value.map fun v =>
    match DataType.ofLabel? m.datatype with
    | some dt => canonical dt v
    | none => v
  timestamp := m.timestamp
  isNull := m.isNull || m.value.isNone
  properties := some (m.properties.getD [])

section
variable (py : Builtins)

/-- `_set_value` of a metric's value, in range if it is not null. -/
theorem setValue_round_trip {dt : DataType} {value : Option Scalar} {isNull : Bool}
    (h : isNull = false → ∀ v ∈ value, InRange dt v) :
    ∃ flag field, setValue (X := MetricExtra) py dt value isNull = .ok (flag, field) ∧
      readValue py dt.code flag field =
        .ok (dt, if isNull then none else value.map (canonical dt), isNull || value.isNone) := by
  cases isNull with
  | true =>
    obtain ⟨hset, hread⟩ := setValue_null (X := MetricExtra) py dt value true (.inl rfl)
    exact ⟨_, _, hset, hread⟩
  | false =>
    cases value with
    | none =>
      obtain ⟨hset, hread⟩ := setValue_null (X := MetricExtra) py dt none false (.inr rfl)
      exact ⟨_, _, hset, hread⟩
    | some v =>
      obtain ⟨field, hset, hread⟩ := setValue_some (X := MetricExtra) py (h rfl v rfl)
      exact ⟨_, _, hset, hread⟩

theorem metric_round_trip {m : MetricDict} {dt : DataType} (h : m.WellFormed dt) :
    ∃ w, encodeMetric py m = .ok w ∧ decodeMetric py w = .ok m.returned := by
  obtain ⟨t, ht, htime⟩ := setOptional_ok h.timestamp
  obtain ⟨flag, field, hset, hread⟩ := setValue_round_trip py h.value
  obtain ⟨set, hencode, hdecode⟩ := propertySet_round_trip py h.properties h.keys
  refine ⟨⟨some m.name, t, some dt.code, flag, set, field⟩, ?_, ?_⟩
  · simp only [encodeMetric, h.datatype, DataType.ofLabel?_label, ht, hset, hencode, bind, Except.bind, pure,
      Except.pure]
  · simp only [decodeMetric, Option.getD_some, hread, hdecode, bind, Except.bind, pure, Except.pure, htime]
    simp only [MetricDict.returned, h.datatype, DataType.ofLabel?_label]

/-! ## What is refused -/

theorem toWire_rejects {dt : DataType} {v : Scalar} (h : ¬Typed dt v ∨ ¬Bounded dt v) :
    ∃ text, toWire py dt v = .error (.valueError text) := by
  cases hbits : dt.spec.bits with
  | some bits =>
    cases v with
    | int n =>
      have hout : ¬((bounds bits dt.spec.signed).1 ≤ n ∧ n < (bounds bits dt.spec.signed).2) := by
        rcases h with htyped | hbounded
        · cases dt <;> first | exact absurd trivial htyped | cases hbits
        · simpa only [Bounded, hbits] using hbounded
      simp only [toWire, hbits, if_neg hout]
      exact ⟨_, rfl⟩
    | _ =>
      simp only [toWire, hbits]
      exact ⟨_, rfl⟩
  | none =>
    have htyped : ¬Typed dt v := by
      rcases h with htyped | hbounded
      · exact htyped
      · simp [Bounded, hbits] at hbounded
    cases dt <;> cases hbits <;> cases v <;> first | exact absurd trivial htyped | exact ⟨_, rfl⟩

theorem setValue_rejects {dt : DataType} {v : Scalar} (h : ¬Typed dt v ∨ ¬Bounded dt v) :
    ∃ text, setValue (X := MetricExtra) py dt (some v) false = .error (.valueError text) := by
  obtain ⟨text, htext⟩ := toWire_rejects py h
  exact ⟨text, by simp only [setValue, htext, bind, Except.bind]⟩

/-- A timestamp is set or refused with a `ValueError`. -/
theorem setUint64_or (n : Int) :
    (∃ u, setUint64 n = .ok u) ∨ ∃ text, setUint64 n = .error (.valueError text) := by
  unfold setUint64 checkRange
  split
  · exact .inl ⟨_, rfl⟩
  · exact .inr ⟨_, rfl⟩

theorem setOptional_or (t : Option Int) :
    (∃ u, setOptional t = .ok u) ∨ ∃ text, setOptional t = .error (.valueError text) := by
  cases t with
  | none => exact .inl ⟨none, rfl⟩
  | some n =>
    rcases setUint64_or n with ⟨u, hu⟩ | ⟨text, htext⟩
    · exact .inl ⟨some u, by rw [setOptional, hu]; rfl⟩
    · exact .inr ⟨text, by rw [setOptional, htext]; rfl⟩

theorem encodeMetric_rejects {m : MetricDict} {dt : DataType} {v : Scalar} (hdt : m.datatype = dt.label)
    (hvalue : m.value = some v) (hnull : m.isNull = false) (h : ¬Typed dt v ∨ ¬Bounded dt v) :
    ∃ text, encodeMetric py m = .error (.valueError text) := by
  rcases setOptional_or m.timestamp with ⟨t, ht⟩ | ⟨text, htext⟩
  · obtain ⟨text, htext⟩ := setValue_rejects py h
    refine ⟨text, ?_⟩
    simp only [encodeMetric, hdt, DataType.ofLabel?_label, ht, hvalue, hnull, htext, bind, Except.bind]
  · refine ⟨text, ?_⟩
    simp only [encodeMetric, hdt, DataType.ofLabel?_label, htext, bind, Except.bind]

end

/-! ## Payloads -/

theorem checkSeq_ok {seq : Option Int} (h : ∀ n ∈ seq, 0 ≤ n ∧ n ≤ 255) :
    ∃ u, checkSeq seq = .ok u ∧ u.map (fun k => (k.toNat : Int)) = seq := by
  cases seq with
  | none => exact ⟨none, rfl, rfl⟩
  | some n =>
    obtain ⟨hlo, hhi⟩ := h n rfl
    obtain ⟨u, hu, hn⟩ := setUint64_ok hlo (by omega)
    exact ⟨some u, by rw [checkSeq, if_pos ⟨hlo, hhi⟩, hu]; rfl, congrArg some hn⟩

theorem checkSeq_or (seq : Option Int) :
    (∃ u, checkSeq seq = .ok u) ∨ ∃ text, checkSeq seq = .error (.valueError text) := by
  cases seq with
  | none => exact .inl ⟨none, rfl⟩
  | some n =>
    by_cases h : 0 ≤ n ∧ n ≤ 255
    · have hbyte : ∀ k ∈ some n, 0 ≤ k ∧ k ≤ 255 := by simpa using h
      obtain ⟨u, hu, -⟩ := checkSeq_ok hbyte
      exact .inl ⟨u, hu⟩
    · exact .inr ⟨_, if_neg h⟩

section
variable {Bytes : Type} (py : Builtins) (pb : Protobuf Bytes) (nowMs : Int)

/-- Well-formed metrics come back in their order, and a value of the wrong type
or out of range, or a sequence number that is no byte, is a `ValueError`. -/
theorem payload_round_trip :
    (∀ (metrics : List MetricDict) (timestamp seq : Option Int),
      (∀ m ∈ metrics, ∃ dt, m.WellFormed dt) →
      0 ≤ timestamp.getD nowMs ∧ timestamp.getD nowMs < 2 ^ 64 → (∀ n ∈ seq, 0 ≤ n ∧ n ≤ 255) →
      ∃ data, encodePayload py pb nowMs metrics timestamp seq = .ok data ∧
        decodePayload py pb data =
          .ok ⟨some (timestamp.getD nowMs), seq, metrics.map MetricDict.returned⟩) ∧
    (∀ (pre post : List MetricDict) (m : MetricDict) (dt : DataType) (v : Scalar)
      (timestamp seq : Option Int), (∀ x ∈ pre, ∃ dt, x.WellFormed dt) →
      m.datatype = dt.label → m.value = some v → m.isNull = false → ¬Typed dt v ∨ ¬Bounded dt v →
      ∃ text, encodePayload py pb nowMs (pre ++ m :: post) timestamp seq = .error (.valueError text)) ∧
    ∀ (metrics : List MetricDict) (timestamp : Option Int) (n : Int), ¬(0 ≤ n ∧ n ≤ 255) →
      ∃ text, encodePayload py pb nowMs metrics timestamp (some n) = .error (.valueError text) := by
  refine ⟨?_, ?_, ?_⟩
  · intro metrics timestamp seq hmetrics htime hseq
    obtain ⟨t, ht, htn⟩ := setUint64_ok htime.1 htime.2
    obtain ⟨u, hu, hun⟩ := checkSeq_ok hseq
    obtain ⟨ws, hencode, hdecode⟩ := mapM_mapM (h := MetricDict.returned) fun m hm => by
      obtain ⟨dt, hdt⟩ := hmetrics m hm
      exact metric_round_trip py hdt
    refine ⟨_, by simp only [encodePayload, ht, hu, hencode, bind, Except.bind, pure, Except.pure]; rfl, ?_⟩
    simp only [decodePayload, pb.faithful, hdecode, bind, Except.bind, pure, Except.pure, Option.map_some, htn,
      hun]
  · intro pre post m dt v timestamp seq hpre hdt hvalue hnull h
    obtain ⟨text, htext⟩ := encodeMetric_rejects py hdt hvalue hnull h
    have hmetrics : (pre ++ m :: post).mapM (encodeMetric py) = .error (.valueError text) := by
      refine mapM_error (fun x hx => ?_) htext
      obtain ⟨dt', hx⟩ := hpre x hx
      obtain ⟨w, hw, -⟩ := metric_round_trip py hx
      exact ⟨w, hw⟩
    rcases setUint64_or (timestamp.getD nowMs) with ⟨t, ht⟩ | ⟨time, htime⟩
    · rcases checkSeq_or seq with ⟨u, hu⟩ | ⟨number, hnumber⟩
      · exact ⟨text, by simp only [encodePayload, ht, hu, hmetrics, bind, Except.bind]⟩
      · exact ⟨number, by simp only [encodePayload, ht, hnumber, bind, Except.bind]⟩
    · exact ⟨time, by simp only [encodePayload, htime, bind, Except.bind]⟩
  · intro metrics timestamp n hn
    rcases setUint64_or (timestamp.getD nowMs) with ⟨t, ht⟩ | ⟨time, htime⟩
    · have hseq : checkSeq (some n) = .error (.valueError ("seq must be 0..255, got " ++ toString n)) :=
        if_neg hn
      exact ⟨_, by simp only [encodePayload, ht, hseq, bind, Except.bind]; rfl⟩
    · exact ⟨time, by simp only [encodePayload, htime, bind, Except.bind]⟩

end

/-- A library that keeps messages as they are. -/
def plain : Protobuf Payload := ⟨id, .ok, fun _ => rfl⟩

def noText : Builtins := ⟨fun _ => "", fun _ => none, fun _ => none⟩

/-- A temperature offset with a property, and a null vibration reading. -/
def readings : List MetricDict :=
  [⟨"offset", "Int8", some (.int (-5)), some 1758000000123, false, some [("Quality", some (.int 192))]⟩,
    ⟨"spindle.vib_rms", "Float", none, none, false, none⟩]

theorem payload_round_trip_readings : ∃ data,
    encodePayload noText plain 0 readings (some 1758000000123) (some 7) = .ok data ∧
      decodePayload noText plain data =
        .ok ⟨some 1758000000123, some 7, readings.map MetricDict.returned⟩ := by
  refine (payload_round_trip noText plain 0).1 readings (some 1758000000123) (some 7) ?_ (by decide) (by simp)
  intro m hm
  simp only [readings, List.mem_cons, List.not_mem_nil, or_false] at hm
  rcases hm with rfl | rfl
  · refine ⟨.int8, rfl, by simp, fun _ v hv => ?_, by simp, by simp [PropertyInRange]⟩
    cases hv
    exact ⟨trivial, by simp [Bounded, DataType.spec, bounds], trivial⟩
  · exact ⟨.float, rfl, by simp, by simp, by simp, by simp⟩

end TwinVoice.Sparkplug
