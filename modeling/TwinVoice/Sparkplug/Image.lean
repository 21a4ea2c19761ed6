import TwinVoice.Sparkplug.RoundTrip

/-! # Decoding and encoding again

The decoder brings a signed integer into its range whatever field it finds. For
every other datatype it hands on what the sender has put there: a number too
large for an unsigned type, a double that is no float, a text under a boolean.
What it returns can be encoded again, to the same metrics, exactly when the
sender has filled a field of the datatype's kind with a value in its range. -/

namespace TwinVoice.Sparkplug

open TwinVoice.Lib

/-! ## What the sender has to keep to -/

/-- The field holds a value of the datatype: any that `int` accepts for a signed
integer, an integer in range for an unsigned one, a number that the float type
represents, a boolean or a text. -/
def OneOf.Conforms {X : Type} (dt : DataType) (field : OneOf X) : Prop :=
  match dt.spec.bits, dt.spec.signed, dt.spec.field, field with
  | some _, true, _, _ => True
  | some bits, false, _, .intValue n => n.toNat < 2 ^ bits
  | some bits, false, _, .longValue n => n.toNat < 2 ^ bits
  | none, _, .floatValue, .floatValue _ => True
  | none, _, .floatValue, .doubleValue x => (x.convert binary32).convert binary64 = x
  | none, _, .doubleValue, .floatValue _ => True
  | none, _, .doubleValue, .doubleValue _ => True
  | none, _, .booleanValue, .booleanValue _ => True
  | none, _, .stringValue, .stringValue _ => True
  | _, _, _, _ => False

/-- A property holds a scalar, and no integer of 2^63 or more unless its type is signed. -/
def OneOf.ConformsProperty {X : Type} (dt : DataType) (field : OneOf X) : Prop :=
  match dt.spec.signed, field with
  | true, _ => True
  | false, .longValue n => n.toNat < 2 ^ 63
  | false, .other _ => False
  | false, _ => True

def PropertyValue.Conforms (p : PropertyValue) : Prop :=
  ∀ dt ∈ DataType.ofCode? (p.type.getD 0), p.isNull.getD false = false →
    ∀ field ∈ p.value, field.ConformsProperty dt

/-- Of several properties under one key the last counts. -/
def LastConform : List String → List PropertyValue → Prop
  | key :: keys, p :: values => (key ∉ keys → p.Conforms) ∧ LastConform keys values
  | _, _ => True

/-- The metric is null or holds a value of its datatype, and so do its properties. -/
structure Metric.Conforms (m : Metric) : Prop where
  value : ∀ dt ∈ DataType.ofCode? (m.datatype.getD 0), m.isNull.getD false = false →
    ∀ field ∈ m.value, field.Conforms dt
  properties : ∀ set ∈ m.properties, LastConform set.keys set.values

/-! ## What the claim asks of a decoded metric -/

/-- A value of the datatype's own type and within its range. -/
def Proper (dt : DataType) (v : Scalar) : Prop :=
  match dt.spec.bits, dt.spec.field, v with
  | some bits, _, .int n => (bounds bits dt.spec.signed).1 ≤ n ∧ n < (bounds bits dt.spec.signed).2
  | none, .floatValue, .float _ | none, .doubleValue, .float _ => True
  | none, .booleanValue, .bool _ | none, .stringValue, .str _ => True
  | _, _, _ => False

def MetricDict.Proper (m : MetricDict) : Prop :=
  ∃ dt, m.datatype = dt.label ∧ ∀ v ∈ m.value, Sparkplug.Proper dt v

/-! ## Values -/

/-- The value is in range and comes back as it is. -/
def Settled (dt : DataType) (v : Scalar) : Prop := InRange dt v ∧ canonical dt v = v

theorem Settled.proper {dt : DataType} {v : Scalar} (h : Settled dt v) : Proper dt v := by
  obtain ⟨⟨htyped, hbounded, -⟩, hsame⟩ := h
  cases dt <;> cases v <;>
    first
    | exact absurd htyped id
    | exact hbounded
    | trivial

theorem signExtend_bounds {bits : Nat} (hbits : 0 < bits) (n : Int) :
    (bounds bits true).1 ≤ signExtend bits n ∧ signExtend bits n < (bounds bits true).2 := by
  obtain ⟨b, rfl⟩ : ∃ b, bits = b + 1 := ⟨bits - 1, by omega⟩
  have hdouble : (2 : Int) ^ (b + 1) = 2 * 2 ^ b := by rw [Int.pow_succ, Int.mul_comm]
  have hpos : (0 : Int) < 2 ^ b := Int.pow_pos (by decide)
  have hlo := Int.emod_nonneg n (show (2 : Int) * 2 ^ b ≠ 0 by omega)
  have hhi := Int.emod_lt_of_pos n (show (0 : Int) < 2 * 2 ^ b by omega)
  simp only [bounds, signExtend, if_true, hdouble, Nat.add_sub_cancel]
  split <;> omega

section
variable (py : Builtins)

/-- A signed integer comes out of the decoder in range. -/
theorem settled_of_signed {dt : DataType} (hsigned : dt.spec.signed = true) {raw v : Scalar}
    (h : fromWire py dt raw = .ok v) : Settled dt v := by
  obtain ⟨bits, hbits⟩ : ∃ bits, dt.spec.bits = some bits := by
    cases dt <;> first | exact ⟨_, rfl⟩ | cases hsigned
  simp only [fromWire, hbits, hsigned] at h
  cases hint : pyInt py raw with
  | error e =>
    rw [hint] at h
    cases h
  | ok n =>
    rw [hint] at h
    cases h
    have hbounds := signExtend_bounds (bits_pos hbits) n
    refine ⟨⟨?_, ?_, ?_⟩, canonical_int hbits _⟩
    · cases dt <;> trivial
    · simpa only [Bounded, hbits, hsigned] using hbounds
    · simp only [Representable, hbits]

theorem fromWire_unsigned {dt : DataType} (hsigned : dt.spec.signed = false) (raw : Scalar) :
    fromWire py dt raw = .ok raw := by
  cases dt <;> first | rfl | cases hsigned

theorem settled_unsigned {dt : DataType} {bits : Nat} (hbits : dt.spec.bits = some bits)
    (hsigned : dt.spec.signed = false) (n : Nat) : Settled dt (.int n) ↔ n < 2 ^ bits := by
  have hbounded : Bounded dt (.int n) ↔ n < 2 ^ bits := by
    simp only [Bounded, hbits, hsigned, bounds, Bool.false_eq_true, if_false]
    constructor
    · rintro ⟨-, hlt⟩
      exact_mod_cast hlt
    · exact fun hlt => ⟨Int.natCast_nonneg n, by exact_mod_cast hlt⟩
  have htyped : Typed dt (.int n) := by cases dt <;> trivial
  have hrepresentable : Representable dt (.int n) := by simp only [Representable, hbits]
  rw [← hbounded]
  exact ⟨fun h => h.1.bounded, fun h => ⟨⟨htyped, h, hrepresentable⟩, canonical_int hbits _⟩⟩

theorem not_settled {dt : DataType} {v : Scalar} (h : ¬Typed dt v) : ¬Settled dt v :=
  fun hsettled => h hsettled.1.typed

/-- An integer where a float belongs comes back as a float. -/
theorem not_settled_of_ne {dt : DataType} {v : Scalar} (h : canonical dt v ≠ v) : ¬Settled dt v :=
  fun hsettled => h hsettled.2

/-- A float is settled under `Double`, and under `Float` if it is one of 32 bits. -/
theorem settled_double (x : Floating binary64) : Settled .double (.float x) :=
  ⟨⟨trivial, trivial, trivial⟩, rfl⟩

theorem settled_float (x : Floating binary64) :
    Settled .float (.float x) ↔ (x.convert binary32).convert binary64 = x :=
  ⟨fun h => Scalar.float.inj h.2, fun h => ⟨⟨trivial, trivial, trivial⟩, congrArg Scalar.float h⟩⟩

/-- What the decoder makes of a field is settled exactly when the field conforms. -/
theorem settled_iff {dt : DataType} {field : OneOf MetricExtra} {v : Scalar}
    (h : fromWire py dt field.read = .ok v) : Settled dt v ↔ field.Conforms dt := by
  cases hsigned : dt.spec.signed with
  | true =>
    refine iff_of_true (settled_of_signed py hsigned h) ?_
    cases dt <;> trivial
  | false =>
    rw [fromWire_unsigned py hsigned] at h
    cases h
    cases hbits : dt.spec.bits with
    | some bits =>
      have hother {v : Scalar} (hv : ∀ n, v ≠ .int n) : ¬Settled dt v := fun hsettled => by
        obtain ⟨n, hn⟩ := hsettled.1.typed.int hbits
        exact hv n hn
      cases field with
      | intValue n =>
        rw [OneOf.read, settled_unsigned hbits hsigned]
        simp only [OneOf.Conforms, hbits, hsigned]
      | longValue n =>
        rw [OneOf.read, settled_unsigned hbits hsigned]
        simp only [OneOf.Conforms, hbits, hsigned]
      | other x =>
        refine iff_of_false (hother fun n hn => ?_) (by simp [OneOf.Conforms, hbits, hsigned])
        cases x <;> cases hn
      | _ =>
        refine iff_of_false (hother fun n hn => ?_) (by simp [OneOf.Conforms, hbits, hsigned])
        cases hn
    | none =>
      have hfloat (x : Floating binary32) :
          ((x.convert binary64).convert binary32).convert binary64 = x.convert binary64 := by
        rw [Floating.convert_convert binary32_within_binary64]
      cases dt <;> cases hbits <;> cases field
      case none.float.refl.floatValue x => exact iff_of_true ((settled_float _).mpr (hfloat x)) trivial
      case none.float.refl.doubleValue x => exact settled_float x
      case none.float.refl.intValue n => exact iff_of_false (not_settled_of_ne fun h => by cases h) id
      case none.float.refl.longValue n => exact iff_of_false (not_settled_of_ne fun h => by cases h) id
      case none.double.refl.intValue n => exact iff_of_false (not_settled_of_ne fun h => by cases h) id
      case none.double.refl.longValue n => exact iff_of_false (not_settled_of_ne fun h => by cases h) id
      case none.double.refl.floatValue x => exact iff_of_true (settled_double _) trivial
      case none.double.refl.doubleValue x => exact iff_of_true (settled_double _) trivial
      -- the other fields are of the type or of none that the type tests let through
      all_goals
        first
        | exact iff_of_false (not_settled id) id
        | exact iff_of_true ⟨⟨trivial, trivial, trivial⟩, rfl⟩ trivial
        | (rename_i x; cases x <;> exact iff_of_false (not_settled id) id)

/-! ## What the encoder accepts -/

/-- What `_to_wire` lets through is in range. -/
theorem inRange_of_toWire {dt : DataType} {v wire : Scalar} (h : toWire py dt v = .ok wire) : InRange dt v := by
  have haccepted : Typed dt v ∧ Bounded dt v := by
    by_contra hout
    obtain ⟨text, htext⟩ := toWire_rejects py (not_and_or.mp hout)
    rw [htext] at h
    cases h
  refine ⟨haccepted.1, haccepted.2, ?_⟩
  cases v with
  | int n =>
    cases hbits : dt.spec.bits with
    | some bits => simp only [Representable, hbits]
    | none =>
      cases hinf : (Floating.ofInt binary64 n).isInfinite with
      | false => simpa only [Representable, hbits] using hinf
      | true =>
        have htyped := haccepted.1
        cases dt <;> cases hbits <;> first | exact absurd htyped id | skip
        all_goals
          simp only [toWire, DataType.spec, floatOfInt, hinf, if_true] at h
          cases h
  | _ => cases dt <;> trivial

theorem inRange_of_setValue {X : Type} {dt : DataType} {v : Scalar} {r : Option Bool × Option (OneOf X)}
    (h : setValue py dt (some v) false = .ok r) : InRange dt v := by
  obtain ⟨wire, hwire, -⟩ := bind_eq_ok h
  exact inRange_of_toWire py hwire

/-- The type that is inferred for a property accepts it only in 64 bits. -/
theorem propertyInRange_of_inferred {v : Scalar} (h : InRange (inferPropertyType (some v)) v) :
    PropertyInRange v := by
  cases v with
  | int n =>
    by_cases hsmall : -2 ^ 31 ≤ n ∧ n < 2 ^ 31
    · show -2 ^ 63 ≤ n ∧ n < 2 ^ 63
      omega
    · have htype : inferPropertyType (some (.int n)) = .int64 := if_neg hsmall
      rw [htype] at h
      exact h.bounded
  | bytes b => exact absurd h.typed id
  | message c => exact absurd h.typed id
  | _ => trivial

theorem propertyInRange_of_encodeProperty {value : Option Scalar} {p : PropertyValue}
    (h : encodeProperty py value = .ok p) : ∀ v ∈ value, PropertyInRange v := by
  rintro v rfl
  obtain ⟨r, hset, -⟩ := bind_eq_ok h
  exact propertyInRange_of_inferred (inRange_of_setValue py hset)

/-! ## What the decoder returns -/

/-- A source is read as null, or its field is. -/
theorem readValue_cases {X : Type} [Extra X] {code : UInt32} {flag : Option Bool} {value : Option (OneOf X)}
    {dt : DataType} {v : Option Scalar} {isNull : Bool} (h : readValue py code flag value = .ok (dt, v, isNull)) :
    DataType.ofCode? code = some dt ∧
      ((v = none ∧ isNull = true ∧ (flag.getD false = true ∨ value = none)) ∨
        ∃ field w, flag.getD false = false ∧ value = some field ∧ fromWire py dt field.read = .ok w ∧
          v = some w ∧ isNull = false) := by
  cases hdt : DataType.ofCode? code with
  | none =>
    rw [readValue, hdt] at h
    cases h
  | some dt' =>
    simp only [readValue, hdt] at h
    cases hflag : flag.getD false with
    | true =>
      rw [hflag] at h
      cases h
      exact ⟨rfl, .inl ⟨rfl, rfl, .inl rfl⟩⟩
    | false =>
      cases value with
      | none =>
        rw [hflag] at h
        cases h
        exact ⟨rfl, .inl ⟨rfl, rfl, .inr rfl⟩⟩
      | some field =>
        simp only [hflag] at h
        cases hwire : fromWire py dt' field.read with
        | error e =>
          rw [hwire] at h
          cases h
        | ok w =>
          rw [hwire] at h
          cases h
          exact ⟨rfl, .inr ⟨field, w, rfl, rfl, hwire, rfl, rfl⟩⟩

/-- A metric's value is settled exactly when the field of it conforms. -/
theorem settled_of_readValue {code : UInt32} {flag : Option Bool} {value : Option (OneOf MetricExtra)}
    {dt : DataType} {v : Option Scalar} {isNull : Bool} (h : readValue py code flag value = .ok (dt, v, isNull)) :
    (∀ w ∈ v, Settled dt w) ↔
      ∀ dt ∈ DataType.ofCode? code, flag.getD false = false → ∀ field ∈ value, field.Conforms dt := by
  obtain ⟨hdt, ⟨rfl, -, hnull⟩ | ⟨field, w, hflag, rfl, hwire, rfl, -⟩⟩ := readValue_cases py h
  · refine iff_of_true (by simp) fun _ _ hflag field hfield => ?_
    rcases hnull with hset | rfl
    · simp [hset] at hflag
    · cases hfield
  · simpa [hdt, hflag] using settled_iff py hwire

/-- A property's field is a scalar that fits the type to be inferred exactly when it conforms. -/
theorem propertyInRange_iff {dt : DataType} {field : OneOf PropertyExtra} {v : Scalar}
    (h : fromWire py dt field.read = .ok v) : PropertyInRange v ↔ field.ConformsProperty dt := by
  cases hsigned : dt.spec.signed with
  | true =>
    refine iff_of_true ?_ (by simp only [OneOf.ConformsProperty, hsigned])
    have hsettled := (settled_of_signed py hsigned h).1
    cases v with
    | int n =>
      have hbounded := hsettled.bounded
      show -2 ^ 63 ≤ n ∧ n < 2 ^ 63
      cases dt <;> cases hsigned <;> simp only [Bounded, DataType.spec, bounds, if_true] at hbounded <;> omega
    | _ =>
      have htyped := hsettled.typed
      cases dt <;> cases hsigned <;> exact absurd htyped id
  | false =>
    rw [fromWire_unsigned py hsigned] at h
    cases h
    cases field with
    | intValue n =>
      refine iff_of_true ?_ (by simp only [OneOf.ConformsProperty, hsigned])
      have hlt := n.toNat_lt
      show -2 ^ 63 ≤ (n.toNat : Int) ∧ (n.toNat : Int) < 2 ^ 63
      omega
    | longValue n =>
      simp only [OneOf.ConformsProperty, hsigned, OneOf.read, PropertyInRange]
      omega
    | other x =>
      refine iff_of_false ?_ (by simp only [OneOf.ConformsProperty, hsigned, not_false_eq_true])
      cases x <;> exact id
    | _ => exact iff_of_true trivial (by simp only [OneOf.ConformsProperty, hsigned])

theorem propertyInRange_of_readValue {p : PropertyValue} {dt : DataType} {v : Option Scalar} {isNull : Bool}
    (h : readValue py (p.type.getD 0) p.isNull p.value = .ok (dt, v, isNull)) :
    (∀ w ∈ v, PropertyInRange w) ↔ p.Conforms := by
  obtain ⟨hdt, ⟨rfl, -, hnull⟩ | ⟨field, w, hflag, hvalue, hwire, rfl, -⟩⟩ := readValue_cases py h
  · refine iff_of_true (by simp) fun _ _ hflag field hfield => ?_
    rcases hnull with hset | hnone
    · simp [hset] at hflag
    · rw [hnone] at hfield
      cases hfield
  · simpa [PropertyValue.Conforms, hdt, hflag, hvalue] using propertyInRange_iff py hwire

/-- After the loop the entries read before it stand unless a later key took their place. -/
theorem decodeProperties_iff : ∀ {keys : List String} {values : List PropertyValue}
    {read d : Dict String (Option Scalar)}, decodeProperties py keys values read = .ok d →
    ((∀ e ∈ d, ∀ v ∈ e.2, PropertyInRange v) ↔
      (∀ e ∈ read, e.1 ∉ keys → ∀ v ∈ e.2, PropertyInRange v) ∧ LastConform keys values)
  | [], [], read, d, h => by
    cases h
    simp [LastConform]
  | [], _ :: _, _, _, h => by cases h
  | _ :: _, [], _, _, h => by cases h
  | key :: keys, p :: values, read, d, h => by
    obtain ⟨⟨dt, value, isNull⟩, hread, hrest⟩ := bind_eq_ok h
    rw [decodeProperties_iff hrest, LastConform, ← propertyInRange_of_readValue py hread]
    simp only [Dict.mem_set, List.mem_cons, not_or]
    constructor
    · rintro ⟨hset, hlast⟩
      exact ⟨fun e he hkey => hset e (.inl ⟨he, hkey.1⟩) hkey.2, fun hkey => hset _ (.inr rfl) hkey, hlast⟩
    · rintro ⟨hread, hkey, hlast⟩
      refine ⟨?_, hlast⟩
      rintro e (⟨he, hne⟩ | rfl) hlater
      · exact hread e he ⟨hne, hlater⟩
      · exact hkey hlater

theorem decodeProperties_nodup : ∀ {keys : List String} {values : List PropertyValue}
    {read d : Dict String (Option Scalar)}, decodeProperties py keys values read = .ok d →
    (read.map Prod.fst).Nodup → (d.map Prod.fst).Nodup
  | [], [], read, d, h, hnodup => by
    cases h
    exact hnodup
  | [], _ :: _, _, _, h, _ => by cases h
  | _ :: _, [], _, _, h, _ => by cases h
  | key :: keys, p :: values, read, d, h, hnodup => by
    obtain ⟨r, -, hrest⟩ := bind_eq_ok h
    exact decodeProperties_nodup hrest (Dict.nodup_set hnodup _ _)

theorem decodePropertySet_iff {set : Option PropertySet} {d : Dict String (Option Scalar)}
    (h : decodePropertySet py set = .ok d) : (d.map Prod.fst).Nodup ∧
      ((∀ e ∈ d, ∀ v ∈ e.2, PropertyInRange v) ↔ ∀ s ∈ set, LastConform s.keys s.values) := by
  cases set with
  | none =>
    cases h
    simp
  | some s =>
    refine ⟨decodeProperties_nodup py h List.nodup_nil, ?_⟩
    rw [decodeProperties_iff py h]
    simp

/-! ## Metrics -/

/-- What the decoder makes of a metric: flagged as null if it has no value, with
a timestamp of 64 bits and distinct keys. -/
theorem decodeMetric_cases {m : Metric} {md : MetricDict} (h : decodeMetric py m = .ok md) : ∃ dt d,
    md.datatype = dt.label ∧ md.isNull = md.value.isNone ∧ md.properties = some d ∧
      (∀ t ∈ md.timestamp, 0 ≤ t ∧ t < 2 ^ 64) ∧ (d.map Prod.fst).Nodup ∧
      (((∀ v ∈ md.value, Settled dt v) ∧ ∀ e ∈ d, ∀ v ∈ e.2, PropertyInRange v) ↔ m.Conforms) := by
  obtain ⟨⟨dt, value, isNull⟩, hread, hrest⟩ := bind_eq_ok h
  obtain ⟨d, hset, hmetric⟩ := bind_eq_ok hrest
  cases hmetric
  obtain ⟨hnodup, hproperties⟩ := decodePropertySet_iff py hset
  refine ⟨dt, d, rfl, ?_, rfl, ?_, hnodup, ?_⟩
  · obtain ⟨-, ⟨rfl, rfl, -⟩ | ⟨field, w, -, -, -, rfl, rfl⟩⟩ := readValue_cases py hread <;> rfl
  · intro t ht
    obtain ⟨u, -, rfl⟩ := Option.map_eq_some_iff.mp ht
    have hlt := u.toNat_lt
    omega
  · rw [settled_of_readValue py hread, hproperties]
    exact ⟨fun ⟨hvalue, hprops⟩ => ⟨hvalue, hprops⟩, fun hm => ⟨hm.value, hm.properties⟩⟩

/-- What a metric that encodes has in it. -/
theorem ranges_of_encodeMetric {md : MetricDict} {dt : DataType} {d : Dict String (Option Scalar)} {w : Metric}
    (hdt : md.datatype = dt.label) (hnull : md.isNull = md.value.isNone) (hd : md.properties = some d)
    (h : encodeMetric py md = .ok w) :
    (∀ v ∈ md.value, InRange dt v) ∧ ∀ e ∈ d, ∀ v ∈ e.2, PropertyInRange v := by
  simp only [encodeMetric, hdt, DataType.ofLabel?_label, hd, Option.getD_some] at h
  obtain ⟨t, -, h₁⟩ := bind_eq_ok h
  obtain ⟨r, hset, h₂⟩ := bind_eq_ok h₁
  obtain ⟨set, hprops, -⟩ := bind_eq_ok h₂
  obtain ⟨values, hvalues, -⟩ := bind_eq_ok hprops
  refine ⟨fun v hv => ?_, fun e he => ?_⟩
  · rw [hnull, hv] at hset
    exact inRange_of_setValue py hset
  · obtain ⟨p, hp⟩ := exists_of_mapM hvalues e he
    exact propertyInRange_of_encodeProperty py hp

/-- A decoded metric is proper, goes to the wire and comes back as it is exactly
when the sender's metric conforms. -/
theorem metric_image {m : Metric} {md : MetricDict} (h : decodeMetric py m = .ok md) :
    (md.Proper ∧ ∃ w, encodeMetric py md = .ok w ∧ decodeMetric py w = .ok md) ↔ m.Conforms := by
  obtain ⟨dt, d, hdt, hnull, hd, htime, hnodup, hiff⟩ := decodeMetric_cases py h
  have hwell (hvalue : ∀ v ∈ md.value, InRange dt v) (hprops : ∀ e ∈ d, ∀ v ∈ e.2, PropertyInRange v) :
      md.WellFormed dt := ⟨hdt, htime, fun _ => hvalue, by rw [hd]; exact hnodup, by rw [hd]; exact hprops⟩
  have hreturned : md.returned = md ↔ ∀ v ∈ md.value, canonical dt v = v := by
    obtain ⟨name, datatype, value, timestamp, isNull, properties⟩ := md
    obtain rfl : datatype = dt.label := hdt
    obtain rfl : properties = some d := hd
    obtain rfl : isNull = value.isNone := hnull
    cases value <;> simp [MetricDict.returned]
  rw [← hiff]
  constructor
  · rintro ⟨-, w, hencode, hdecode⟩
    obtain ⟨hvalue, hprops⟩ := ranges_of_encodeMetric py hdt hnull hd hencode
    obtain ⟨w', hencode', hdecode'⟩ := metric_round_trip py (hwell hvalue hprops)
    rw [hencode] at hencode'
    cases hencode'
    rw [hdecode] at hdecode'
    have hsame := hreturned.mp (Except.ok.inj hdecode').symm
    exact ⟨fun v hv => ⟨hvalue v hv, hsame v hv⟩, hprops⟩
  · rintro ⟨hsettled, hprops⟩
    obtain ⟨w, hencode, hdecode⟩ := metric_round_trip py (hwell (fun v hv => (hsettled v hv).1) hprops)
    exact ⟨⟨dt, hdt, fun v hv => (hsettled v hv).proper⟩, w, hencode,
      by rw [hdecode, hreturned.mpr fun v hv => (hsettled v hv).2]⟩

/-! ## Payloads -/

variable {Bytes : Type} (pb : Protobuf Bytes)

/-- What the decoder returns is of the declared types and in range, can be encoded
again and comes back the same exactly when every metric of the sender conforms. -/
theorem decoded_encodable_iff (nowMs : Int) (data : Bytes) (payload : Payload) (d : PayloadDict)
    (timestamp seq : Option Int) (hparse : pb.parseFromString data = .ok payload)
    (hdecode : decodePayload py pb data = .ok d)
    (htime : 0 ≤ timestamp.getD nowMs ∧ timestamp.getD nowMs < 2 ^ 64) (hseq : ∀ n ∈ seq, 0 ≤ n ∧ n ≤ 255) :
    ((∀ m ∈ d.metrics, m.Proper) ∧ ∃ data', encodePayload py pb nowMs d.metrics timestamp seq = .ok data' ∧
      ∃ d', decodePayload py pb data' = .ok d' ∧ d'.metrics = d.metrics) ↔
      ∀ m ∈ payload.metrics, m.Conforms := by
  have hmetrics : payload.metrics.mapM (decodeMetric py) = .ok d.metrics := by
    obtain ⟨payload', hparse', hrest⟩ := bind_eq_ok hdecode
    rw [hparse] at hparse'
    cases hparse'
    obtain ⟨metrics, hmetrics, hd⟩ := bind_eq_ok hrest
    cases hd
    exact hmetrics
  obtain ⟨t, ht, -⟩ := setUint64_ok htime.1 htime.2
  obtain ⟨u, hu, -⟩ := checkSeq_ok hseq
  have hencodes : encodePayload py pb nowMs d.metrics timestamp seq =
      (d.metrics.mapM (encodeMetric py)).map fun ws => pb.serializeToString ⟨some t, ws, u⟩ := by
    simp only [encodePayload, ht, hu]
    cases d.metrics.mapM (encodeMetric py) <;> rfl
  have hdecodes (ws : List Metric) : decodePayload py pb (pb.serializeToString ⟨some t, ws, u⟩) =
      (ws.mapM (decodeMetric py)).map fun metrics => ⟨some t.toNat, u.map (·.toNat), metrics⟩ := by
    simp only [decodePayload, pb.faithful, bind, Except.bind]
    cases ws.mapM (decodeMetric py) <;> rfl
  rw [← forall_mem_of_mapM (fun _ _ => metric_image py) hmetrics, forall₂_and, ← mapM_mapM_eq_iff, hencodes]
  refine and_congr_right fun _ => ?_
  constructor
  · rintro ⟨data', hencode, d', hdecode', hsame⟩
    obtain ⟨ws, hws, rfl⟩ := map_eq_ok_iff.mp hencode
    rw [hdecodes] at hdecode'
    obtain ⟨metrics, hback, rfl⟩ := map_eq_ok_iff.mp hdecode'
    cases hsame
    exact ⟨ws, hws, hback⟩
  · rintro ⟨ws, hws, hback⟩
    exact ⟨_, map_eq_ok_iff.mpr ⟨ws, hws, rfl⟩, ⟨some t.toNat, u.map (·.toNat), d.metrics⟩,
      by rw [hdecodes, hback]; rfl, rfl⟩

end

/-- A payload of one reading of type `UInt8`. -/
def reading (n : UInt32) : Payload where
  timestamp := some 1758000000123
  metrics := [⟨some "count", some 1758000000123, some DataType.uint8.code, none, none, some (.intValue n)⟩]
  seq := some 7

def decodedReading (n : UInt32) : PayloadDict where
  timestamp := some 1758000000123
  seq := some 7
  metrics := [⟨"count", "UInt8", some (.int n.toNat), some 1758000000123, false, some []⟩]

theorem decoded_encodable_reading :
    ((∀ m ∈ (decodedReading 200).metrics, m.Proper) ∧ ∃ data',
      encodePayload noText plain 0 (decodedReading 200).metrics none none = .ok data' ∧
        ∃ d', decodePayload noText plain data' = .ok d' ∧ d'.metrics = (decodedReading 200).metrics) ↔
      ∀ m ∈ (reading 200).metrics, m.Conforms :=
  decoded_encodable_iff noText plain 0 (reading 200) (reading 200) (decodedReading 200) none none rfl rfl
    (by decide) (by simp)

/-- Nothing masks an unsigned integer: 300 is handed on as a `UInt8`, which the
encoder then refuses. -/
theorem unsigned_not_masked : decodePayload noText plain (reading 300) = .ok (decodedReading 300) ∧
    (¬∀ m ∈ (decodedReading 300).metrics, m.Proper) ∧
    encodePayload noText plain 0 (decodedReading 300).metrics none none =
      .error (.valueError "300 out of range for UInt8") := by
  refine ⟨rfl, fun hproper => ?_, rfl⟩
  obtain ⟨dt, hdt, hvalue⟩ := hproper _ List.mem_cons_self
  have hrange := hvalue _ rfl
  cases dt <;> first | exact absurd hdt (by decide) | skip
  exact absurd hrange.2 (by decide)

end TwinVoice.Sparkplug
