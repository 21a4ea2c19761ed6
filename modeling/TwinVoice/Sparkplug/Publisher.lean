import TwinVoice.Sparkplug.EdgeNode
import TwinVoice.Sparkplug.Image
import TwinVoice.Sparkplug.Topics

/-! # What an edge node sends

`build_metrics` makes the metrics of a payload of what a machine shows at a
tick, and the payload goes out under the topic of its device. The node keeps
what it was given last, for a rebirth. Whatever the order of its events, it
sends nothing that it was not given, and what the host decodes is what the
machine showed, in the order of the metrics of the device. -/

namespace TwinVoice.Sparkplug.Publisher

open TwinVoice.Lib Transition EdgeNode

/-- `MetricType`. -/
inductive MetricType
  | double | int64 | string
  deriving DecidableEq

def MetricType.dataType : MetricType → DataType
  | double => .double
  | int64 => .int64
  | string => .string

structure MetricDef where
  name : String
  datatype : MetricType
  unit : String
  deriving DecidableEq

/-- What `publish_device` is given of a machine. -/
structure Snapshot where
  values : Dict String (Option Scalar)
  jitterMs : Dict String Int

namespace Snapshot

/-- `values.get(name)`. -/
def value (snap : Snapshot) (name : String) : Option Scalar := (snap.values.get? name).join

/-- `ts + jitter_ms.get(name, 0)`. -/
def timestamp (snap : Snapshot) (ts : Int) (name : String) : Int := ts + (snap.jitterMs.get? name).getD 0

end Snapshot

/-- What does not change of a node while it runs. The metrics of a device are those of a dictionary. -/
structure Identity where
  groupId : String
  edgeNodeId : String
  defs : Dict String (List MetricDef)
  distinct : ∀ e ∈ defs, (e.2.map MetricDef.name).Nodup

/-- `GOOD_QUALITY`. -/
def goodQuality : Int := 192

/-- `BAD_QUALITY`. -/
def badQuality : Int := 0

/-! ## Building metrics -/

def properties (d : MetricDef) (value : Option Scalar) (birth : Bool) : Dict String (Option Scalar) :=
  let unit : Dict String (Option Scalar) := if birth ∧ d.unit ≠ "" then [("engUnit", some (.str d.unit))] else []
  match value with
  | none => unit ++ [("Quality", some (.int badQuality))]
  | some _ => if birth then unit ++ [("Quality", some (.int goodQuality))] else unit

def buildMetric (snap : Snapshot) (ts : Int) (birth : Bool) (d : MetricDef) : MetricDict :=
  let properties := properties d (snap.value d.name) birth
  { name := d.name
    datatype := d.datatype.dataType.label
    value := snap.value d.name
    timestamp := some (snap.timestamp ts d.name)
    isNull := false
    properties := if properties.isEmpty then none else some properties }

def buildMetrics (defs : List MetricDef) (snap : Snapshot) (ts : Int) (birth : Bool) : List MetricDict :=
  defs.map (buildMetric snap ts birth)

/-! ## Publishing -/

section
variable {Bytes : Type} (py : Builtins) (pb : Protobuf Bytes)

/-- `nbirth` of the contract, without metrics of its own. -/
def nbirth (bdSeq : Nat) (nowMs : Int) : Except PyError Bytes :=
  encodePayload py pb nowMs
    [⟨"bdSeq", DataType.int64.label, some (.int bdSeq), some nowMs, false, none⟩,
      ⟨"Node Control/Rebirth", DataType.boolean.label, some (.bool false), some nowMs, false, none⟩]
    (some nowMs) (some 0)

/-- What is published of a device, by `dbirth` or `ddata`: the metrics are of the time `ts` and the payload of the time
`nowMs`. An unknown device raises, and so does what cannot be encoded. -/
def deviceMessage (x : Identity) (type : MessageType) (device : String) (snap : Snapshot) (seq : Nat) (ts nowMs : Int) :
    Option (String × Bytes) := do
  let defs ← x.defs.get? device
  let metrics := buildMetrics defs snap ts (type = .dbirth)
  let payload ← (encodePayload py pb nowMs metrics none (some seq)).toOption
  let topic ← (buildTopic py x.groupId type.value x.edgeNodeId (some device)).toOption
  return (topic, payload)

/-- The arguments of `self._client.publish` for a message. -/
def wire (x : Identity) (ts nowMs : Int) : Message Snapshot → Option (String × Bytes)
  | .nbirth bdSeq => do
    let topic ← (buildTopic py x.groupId MessageType.nbirth.value x.edgeNodeId none).toOption
    let payload ← (nbirth py pb bdSeq nowMs).toOption
    return (topic, payload)
  | .dbirth device snap seq => deviceMessage py pb x .dbirth device snap seq ts nowMs
  | .ddata device snap seq => deviceMessage py pb x .ddata device snap seq ts nowMs

end

/-! ## What was encoded can be decoded -/

theorem checkRange_bounds {width : Nat} {n : Int} {k : Nat} (h : checkRange width n = .ok k) :
    0 ≤ n ∧ n < 2 ^ width := by
  unfold checkRange at h
  split at h
  · assumption
  · cases h

theorem setUint64_bounds {n : Int} {u : UInt64} (h : setUint64 n = .ok u) : 0 ≤ n ∧ n < 2 ^ 64 := by
  obtain ⟨k, hk, -⟩ := map_eq_ok_iff.mp h
  exact checkRange_bounds hk

section
variable {py : Builtins}

theorem wellFormed_of_encodeMetric {m : MetricDict} {dt : DataType} {w : Metric} (hdt : m.datatype = dt.label)
    (hkeys : ((m.properties.getD []).map Prod.fst).Nodup) (h : encodeMetric py m = .ok w) : m.WellFormed dt := by
  simp only [encodeMetric, hdt, DataType.ofLabel?_label] at h
  obtain ⟨t, ht, h⟩ := bind_eq_ok h
  obtain ⟨⟨flag, field⟩, hset, h⟩ := bind_eq_ok h
  obtain ⟨set, hprops, -⟩ := bind_eq_ok h
  obtain ⟨values, hvalues, -⟩ := bind_eq_ok hprops
  refine ⟨hdt, ?_, ?_, hkeys, ?_⟩
  · intro stamp hstamp
    rw [Option.mem_def.mp hstamp] at ht
    obtain ⟨u, hu, -⟩ := map_eq_ok_iff.mp ht
    exact setUint64_bounds hu
  · intro hnull v hv
    rw [hnull, Option.mem_def.mp hv] at hset
    exact inRange_of_setValue py hset
  · intro e he
    obtain ⟨p, hp⟩ := exists_of_mapM hvalues e he
    exact propertyInRange_of_encodeProperty py hp

end

section
variable {Bytes : Type} {py : Builtins} {pb : Protobuf Bytes} {nowMs : Int}

theorem encoded_of_mem {metrics : List MetricDict} {timestamp seq : Option Int} {data : Bytes}
    (h : encodePayload py pb nowMs metrics timestamp seq = .ok data) {m : MetricDict} (hm : m ∈ metrics) :
    ∃ w, encodeMetric py m = .ok w := by
  obtain ⟨t, -, h⟩ := bind_eq_ok h
  obtain ⟨s, -, h⟩ := bind_eq_ok h
  obtain ⟨ws, hws, -⟩ := bind_eq_ok h
  exact exists_of_mapM hws m hm

/-- A payload that could be encoded is decoded to its metrics, as they come back. -/
theorem decode_of_encode {metrics : List MetricDict} {timestamp seq : Option Int} {data : Bytes}
    (h : encodePayload py pb nowMs metrics timestamp seq = .ok data) (hmetrics : ∀ m ∈ metrics, ∃ dt, m.WellFormed dt) :
    ∃ t s, decodePayload py pb data = .ok ⟨t, s, metrics.map MetricDict.returned⟩ := by
  obtain ⟨t, -, h⟩ := bind_eq_ok h
  obtain ⟨s, -, h⟩ := bind_eq_ok h
  obtain ⟨ws, hws, hdata⟩ := bind_eq_ok h
  obtain rfl := Except.ok.inj hdata
  obtain ⟨ws', hws', hdecode⟩ := mapM_mapM (h := MetricDict.returned) fun m hm => by
    obtain ⟨dt, hwell⟩ := hmetrics m hm
    exact metric_round_trip py hwell
  obtain rfl := Except.ok.inj (hws.symm.trans hws')
  refine ⟨some (t.toNat : Int), s.map fun u => (u.toNat : Int), ?_⟩
  simp only [decodePayload, pb.faithful, hdecode, bind, Except.bind, pure, Except.pure, Option.map_some]

end

/-! ## Snapshots come back -/

theorem keys_properties (d : MetricDef) (value : Option Scalar) (birth : Bool) :
    ((properties d value birth).map Prod.fst).Nodup := by
  unfold properties
  cases value <;> cases birth <;> by_cases h : d.unit = "" <;> simp [h]

/-- The properties of a metric, as the host finds them. -/
theorem getD_properties (snap : Snapshot) (ts : Int) (birth : Bool) (d : MetricDef) :
    (buildMetric snap ts birth d).properties.getD [] = properties d (snap.value d.name) birth := by
  unfold buildMetric
  dsimp only
  split
  · rename_i h
    rw [List.isEmpty_iff.mp h]
    rfl
  · rfl

theorem wellFormed_buildMetric {py : Builtins} {snap : Snapshot} {ts : Int} {birth : Bool} {d : MetricDef} {w : Metric}
    (h : encodeMetric py (buildMetric snap ts birth d) = .ok w) :
    (buildMetric snap ts birth d).WellFormed d.datatype.dataType := by
  refine wellFormed_of_encodeMetric rfl ?_ h
  rw [getD_properties]
  exact keys_properties d _ birth

/-- What the host reads of a metric of a device. -/
def received (snap : Snapshot) (ts : Int) (birth : Bool) (d : MetricDef) : MetricDict where
  name := d.name
  datatype := d.datatype.dataType.label
  value := (snap.value d.name).map (canonical d.datatype.dataType)
  timestamp := some (snap.timestamp ts d.name)
  isNull := (snap.value d.name).isNone
  properties := some (properties d (snap.value d.name) birth)

@[simp] theorem name_received (snap : Snapshot) (ts : Int) (birth : Bool) (d : MetricDef) :
    (received snap ts birth d).name = d.name := rfl

theorem returned_buildMetric (snap : Snapshot) (ts : Int) (birth : Bool) (d : MetricDef) :
    (buildMetric snap ts birth d).returned = received snap ts birth d := by
  unfold MetricDict.returned received
  rw [getD_properties]
  simp only [buildMetric, DataType.ofLabel?_label, Bool.false_eq_true, if_false, Bool.false_or]

/-- What is published of a device is in range, and what the host reads: its topic, and the metrics in their order. -/
theorem deviceMessage_spec {Bytes : Type} {py : Builtins} {pb : Protobuf Bytes} {x : Identity} {type : MessageType}
    {device topic : String} {snap : Snapshot} {seq : Nat} {ts nowMs : Int} {payload : Bytes}
    (h : deviceMessage py pb x type device snap seq ts nowMs = some (topic, payload)) :
    ∃ defs t s, x.defs.get? device = some defs ∧
      (∀ d ∈ defs, ∀ v ∈ snap.value d.name, InRange d.datatype.dataType v) ∧
      parseTopic py topic = .ok ⟨x.groupId, type, x.edgeNodeId, some device⟩ ∧
      decodePayload py pb payload = .ok ⟨t, s, defs.map (received snap ts (type = .dbirth))⟩ := by
  obtain ⟨defs, hdefs, h⟩ := Option.bind_eq_some_iff.mp h
  obtain ⟨data, hdata, h⟩ := Option.bind_eq_some_iff.mp h
  obtain ⟨built, hbuilt, h⟩ := Option.bind_eq_some_iff.mp h
  obtain ⟨rfl, rfl⟩ := Prod.mk.inj (Option.some.inj h)
  obtain ⟨mt, hmt, hparse⟩ := parseTopic_of_buildTopic (toOption_eq_some.mp hbuilt)
  obtain rfl : mt = type :=
    Option.some.inj ((MessageType.ofValue?_eq_some.mpr hmt).symm.trans (MessageType.ofValue?_value type))
  have hwell : ∀ d ∈ defs, (buildMetric snap ts (mt = .dbirth) d).WellFormed d.datatype.dataType := fun d hd => by
    obtain ⟨w, hw⟩ := encoded_of_mem (toOption_eq_some.mp hdata) (List.mem_map_of_mem hd)
    exact wellFormed_buildMetric hw
  obtain ⟨t, s, hdecode⟩ := decode_of_encode (toOption_eq_some.mp hdata) fun m hm => by
    obtain ⟨d, hd, rfl⟩ := List.mem_map.mp hm
    exact ⟨_, hwell d hd⟩
  refine ⟨defs, t, s, hdefs, fun d hd => (hwell d hd).value rfl, hparse, ?_⟩
  rw [hdecode, buildMetrics, List.map_map]
  exact congrArg (fun metrics => Except.ok (PayloadDict.mk t s metrics))
    (List.map_congr_left fun d _ => returned_buildMetric snap ts _ d)

/-! ## Nothing is sent that was not given -/

/-- The device of a message and what the message says of it. -/
def carried {Values : Type} : Message Values → Option (String × Values)
  | .nbirth _ => none
  | .dbirth device values _ | .ddata device values _ => some (device, values)

/-- `publish_device` has been called with all that the node holds and has sent. -/
structure Given {Values : Type} (es : List (Event Values)) (n : Node Values) : Prop where
  last : ∀ device values, n.last.get? device = some values → .store device values ∈ es
  loop : ∀ device values, n.loop = .stored device values ∨ n.loop = .checked device values →
    .store device values ∈ es
  sent : ∀ s ∈ n.sessions, ∀ m ∈ s.messages, ∀ e ∈ carried m, .store e.1 e.2 ∈ es

section
variable {Values : Type} {encode : String → Values → Encoding} {es : List (Event Values)} {n : Node Values}

theorem Given.mono (h : Given es n) (e : Event Values) : Given (es ++ [e]) n where
  last device values hlast := List.mem_append_left _ (h.last device values hlast)
  loop device values hloop := List.mem_append_left _ (h.loop device values hloop)
  sent s hs m hm c hc := List.mem_append_left _ (h.sent s hs m hm c hc)

/-- Nothing is sent, held or waiting that was not before. -/
theorem Given.congr {n' : Node Values} (h : Given es n) (hlast : n'.last = n.last)
    (hloop : n'.loop = n.loop ∨ n'.loop = .idle) (hsessions : n'.sessions = n.sessions) : Given es n' where
  last device values := by
    rw [hlast]
    exact h.last device values
  loop device values hwaits := by
    rcases hloop with hsame | hidle
    · rw [hsame] at hwaits
      exact h.loop device values hwaits
    · rw [hidle] at hwaits
      rcases hwaits with hwaits | hwaits <;> cases hwaits
  sent := by
    rw [hsessions]
    exact h.sent

theorem Given.publish (h : Given es n) {m : Message Values} (hm : ∀ e ∈ carried m, .store e.1 e.2 ∈ es) :
    Given es (n.publish m) where
  last := h.last
  loop := h.loop
  sent s hs k hk e he := by
    unfold Node.publish at hs
    dsimp only at hs
    split at hs
    · cases hsessions : n.sessions with
      | nil =>
        rw [hsessions] at hs
        cases hs
      | cons first rest =>
        rw [hsessions, List.modifyHead_cons] at hs
        rcases List.mem_cons.mp hs with rfl | hrest
        · rcases List.mem_append.mp hk with hold | hnew
          · exact h.sent first (hsessions ▸ List.mem_cons_self) k hold e he
          · rw [List.mem_singleton.mp hnew] at he
            exact hm e he
        · exact h.sent s (hsessions ▸ List.mem_cons_of_mem _ hrest) k hk e he
    · exact h.sent s hs k hk e he

theorem Given.publishDbirth (h : Given es n) (device : String) : Given es (n.publishDbirth encode device).1 := by
  unfold Node.publishDbirth
  cases hlast : n.last.get? device with
  | none => exact h
  | some values =>
    have hgiven := h.last device values hlast
    have hseq : Given es n.nextSeq := h.congr rfl (.inl rfl) rfl
    dsimp only
    split
    · exact h
    · exact hseq
    · refine (hseq.publish (m := .dbirth device values n.nextSeq.seq) ?_).congr rfl (.inl rfl) rfl
      intro e he
      rw [← Option.some.inj he]
      exact hgiven

theorem Given.publishDevice (h : Given es n) {device : String} {values : Values}
    (hgiven : .store device values ∈ es) : Given es (n.publishDevice encode device values) := by
  unfold Node.publishDevice
  have hseq : Given es n.nextSeq := h.congr rfl (.inl rfl) rfl
  split
  · split
    · exact h
    · exact hseq
    · refine hseq.publish ?_
      intro e he
      rw [← Option.some.inj he]
      exact hgiven
  · exact h.publishDbirth device

theorem Given.announce (h : Given es n) (network : Bool) : Given es (n.announce network) := by
  have hseq : Given es { n with seq := 0 } := h.congr rfl (.inl rfl) rfl
  refine (hseq.publish (m := .nbirth n.bdSeq) ?_).congr rfl (.inl rfl) rfl
  intro e he
  cases he

theorem given_step {n' : Node Values} {e : Event Values} (h : Given es n) (hstep : n.step encode e = some n') :
    Given (es ++ [e]) n' := by
  have hmono := h.mono e
  cases e with
  | connect =>
    obtain ⟨-, rfl⟩ := Option.ite_some_none_eq_some.mp hstep
    refine ⟨hmono.last, hmono.loop, fun s hs m hm => ?_⟩
    rcases List.mem_cons.mp hs with rfl | hs
    · cases hm
    · exact hmono.sent s hs m hm
  | connack | close | onDisconnect | request =>
    obtain ⟨-, rfl⟩ := Option.ite_some_none_eq_some.mp hstep
    exact hmono.congr rfl (.inl rfl) rfl
  | onConnect | onMessage =>
    obtain ⟨-, rfl⟩ := Option.ite_some_none_eq_some.mp hstep
    exact hmono.announce true
  | store device values =>
    cases hloop : n.loop with
    | idle =>
      simp only [Node.step, hloop, Option.some.injEq] at hstep
      subst hstep
      have hnew : Event.store device values ∈ es ++ [.store device values] := by simp
      refine ⟨fun d v hlast => ?_, fun d v hwaits => ?_, hmono.sent⟩
      · rw [Dict.get?_set] at hlast
        split at hlast
        · rename_i hd
          rw [← hd, ← Option.some.inj hlast]
          exact hnew
        · exact hmono.last d v hlast
      · rcases hwaits with hwaits | hwaits
        · cases hwaits
          exact hnew
        · cases hwaits
    | stored d v | checked d v => simp [Node.step, hloop] at hstep
  | check =>
    cases hloop : n.loop with
    | stored d v =>
      simp only [Node.step, hloop, Option.some.injEq] at hstep
      subst hstep
      refine ⟨hmono.last, fun device values hwaits => ?_, hmono.sent⟩
      dsimp only at hwaits
      split at hwaits
      · rcases hwaits with hwaits | hwaits
        · cases hwaits
        · cases hwaits
          exact hmono.loop d v (.inl hloop)
      · rcases hwaits with hwaits | hwaits <;> cases hwaits
    | idle | checked d v => simp [Node.step, hloop] at hstep
  | publish =>
    cases hloop : n.loop with
    | checked d v =>
      cases hrebirth : n.rebirth with
      | none =>
        simp only [Node.step, hloop, hrebirth, Option.some.injEq] at hstep
        subst hstep
        exact (hmono.publishDevice (hmono.loop d v (.inr hloop))).congr rfl (.inr rfl) rfl
      | some r => simp [Node.step, hloop, hrebirth] at hstep
    | idle | stored d v => simp [Node.step, hloop] at hstep
  | rebirth =>
    obtain ⟨-, rfl⟩ := Option.ite_some_none_eq_some.mp hstep
    exact (hmono.announce false).congr rfl (.inl rfl) rfl
  | birth =>
    cases hrebirth : n.rebirth with
    | none => simp [Node.step, hrebirth] at hstep
    | some r =>
      obtain ⟨network, size, left⟩ := r
      cases left with
      | nil => simp [Node.step, hrebirth] at hstep
      | cons device left =>
        simp only [Node.step, hrebirth] at hstep
        obtain ⟨-, rfl⟩ := Option.ite_some_none_eq_some.mp hstep
        have hbirth : Given (es ++ [.birth]) (n.publishDbirth encode device).1 := hmono.publishDbirth device
        split
        · exact hbirth.congr rfl (.inl rfl) rfl
        · exact hbirth.congr rfl (.inl rfl) rfl
  | finish =>
    cases hrebirth : n.rebirth with
    | none => simp [Node.step, hrebirth] at hstep
    | some r =>
      obtain ⟨network, size, left⟩ := r
      simp only [Node.step, hrebirth] at hstep
      obtain ⟨-, rfl⟩ := Option.ite_some_none_eq_some.mp hstep
      exact hmono.congr rfl (.inl rfl) rfl

/-- Whatever happens in which order. -/
theorem given_run (hrun : Run (Fires (Node.step encode)) Node.start es n) : Given es n := by
  refine Run.invariant (fun es n => Given es n) ?_ (fun _ _ _ _ => given_step) hrun
  refine ⟨fun device values hlast => ?_, fun device values hwaits => ?_, fun s hs => ?_⟩
  · cases hlast
  · rcases hwaits with hwaits | hwaits <;> cases hwaits
  · cases hs

end

end TwinVoice.Sparkplug.Publisher
