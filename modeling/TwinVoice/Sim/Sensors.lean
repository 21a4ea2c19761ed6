import TwinVoice.Lib.Dict
import TwinVoice.Sim.Base

/-! # What the sensors report

The clean signals of a machine become readings: a slow bias, noise, spikes and
gaps that the generator draws, and faults that are injected into one sensor or
another while the simulation runs. -/

namespace TwinVoice.Sim.Sensors

open TwinVoice.Lib TwinVoice.Sim.Base

/-! ## One sensor -/

def driftCorrelationS : Rat := 24 * 3600

def offsetSpanFraction : Rat := 1 / 5

def driftSpanFractionPerH : Rat := 1 / 20

inductive SensorFaultKind
  | stuck
  | offset
  | dropout
  | drift
  deriving DecidableEq

structure NoiseParams where
  std : Rat := 0
  drift : Rat := 0
  spikeProb : Rat := 0
  spikeScale : Rat := 3 / 20
  dropoutProb : Rat := 0
  jitterMs : Nat := 0

/-- The stuck value is not a number until there is one. -/
structure SensorFault where
  kind : SensorFaultKind
  severity : Rat
  startedS : Rat
  untilS : Option Rat
  stuckValue : Option Rat

/-- What `MeasurementModel` keeps of one sensor. -/
structure Sensor where
  params : NoiseParams
  minValid : Rat
  maxValid : Rat
  bias : Rat
  last : Option Rat
  fault : Option SensorFault

def Sensor.new (params : NoiseParams) (minValid maxValid : Rat) : Sensor :=
  ⟨params, minValid, maxValid, 0, none, none⟩

/-- What the generator draws for one sensor. -/
structure SensorDraw where
  bias : Rat
  noise : Rat
  spike : Rat
  drop : Rat
  shape : Rat
  jitter : Rat

structure Reading where
  value : Option Rat
  jitterMs : Int
  deriving DecidableEq

/-- `inject`. -/
def Sensor.inject (s : Sensor) (kind : SensorFaultKind) (severity nowS : Rat) (durationS : Option Rat) : Sensor :=
  { s with fault := some ⟨kind, severity, nowS, durationS.map (nowS + ·), s.last⟩ }

def Sensor.clear (s : Sensor) : Sensor := { s with fault := none }

def SensorFault.expired (fault : SensorFault) (nowS : Rat) : Bool := fault.untilS.any (· ≤ nowS)

/-- `_apply_fault`: the value, and the fault with the value that it is stuck at. -/
def applyFault (fault : SensorFault) (value : Option Rat) (clean span nowS : Rat) : Option Rat × SensorFault :=
  match fault.kind with
  | .dropout => (none, fault)
  | .stuck =>
    let stuck := fault.stuckValue.getD (value.getD clean)
    (some stuck, { fault with stuckValue := some stuck })
  | .offset => (value.map (· + fault.severity * offsetSpanFraction * span), fault)
  | .drift => (value.map (· + fault.severity * driftSpanFractionPerH * span * ((nowS - fault.startedS) / 3600)), fault)

/-- The bias after a step: an exact update keeps it bounded for any `dt`. -/
def Sensor.nextBias (math : Math) (s : Sensor) (dt : Rat) (draw : SensorDraw) : Rat :=
  let decay := math.exp (-dt / driftCorrelationS)
  s.bias * decay + s.params.drift * (s.maxValid - s.minValid) * math.sqrt (1 - decay * decay) * draw.bias

/-- The value before faults, from the bias after the step. -/
def NoiseParams.measured (p : NoiseParams) (span clean bias : Rat) (draw : SensorDraw) : Option Rat :=
  let value := clean + bias + p.std * draw.noise
  let value := if draw.spike < p.spikeProb then
      value + (if draw.shape < 1 / 2 then -1 else 1) * p.spikeScale * span * (1 / 2 + |draw.shape - 1 / 2|)
    else value
  if draw.drop < p.dropoutProb then none else some value

def clamp (lo hi x : Rat) : Rat := min (max x lo) hi

/-- The value that the fault leaves, and the fault, which is removed when it has expired. -/
def Sensor.faulted (s : Sensor) (value : Option Rat) (clean nowS : Rat) : Option Rat × Option SensorFault :=
  match s.fault with
  | none => (value, none)
  | some fault =>
    if fault.expired nowS then (value, none)
    else
      let (value, fault) := applyFault fault value clean (s.maxValid - s.minValid) nowS
      (value, some fault)

/-- The share of `sample` that is about one sensor. -/
def Sensor.sample (math : Math) (s : Sensor) (clean nowS dt : Rat) (draw : SensorDraw) : Reading × Sensor :=
  let bias := s.nextBias math dt draw
  let (value, fault) := s.faulted (s.params.measured (s.maxValid - s.minValid) clean bias draw) clean nowS
  let value := value.map (clamp s.minValid s.maxValid)
  (⟨value, truncated (draw.jitter * (2 * s.params.jitterMs + 1)) - s.params.jitterMs⟩,
    { s with bias, fault, last := value.or s.last })

/-! ## The sensors of a machine -/

/-- `SensorArray` with its `MeasurementModel`: one record for each metric. -/
structure SensorArray (n : Nat) where
  metrics : Fin n → String
  components : Fin n → Option String
  sensors : Fin n → Sensor

/-- What happens to the sensors. -/
inductive Op (n : Nat)
  | sample (clean : Fin n → Rat) (nowS dt : Rat) (draws : Fin n → SensorDraw)
  | inject (metric : String) (kind : SensorFaultKind) (severity nowS : Rat) (durationS : Option Rat)
  | clear (components : Option (List String))

namespace SensorArray
variable {n : Nat}

/-- `index[metric]`. -/
def index (a : SensorArray n) (metric : String) : Option (Fin n) := (List.finRange n).find? fun i => a.metrics i = metric

/-- The sensors that `clear` is about. -/
def named (a : SensorArray n) (components : Option (List String)) (i : Fin n) : Bool :=
  match components with
  | none => true
  | some codes => (a.components i).any (· ∈ codes)

/-- The readings of a sample. -/
def readings (math : Math) (a : SensorArray n) (clean : Fin n → Rat) (nowS dt : Rat) (draws : Fin n → SensorDraw)
    (i : Fin n) : Reading :=
  ((a.sensors i).sample math (clean i) nowS dt (draws i)).1

/-- The array after an operation; an unknown metric is a `KeyError`. -/
def step (math : Math) (a : SensorArray n) : Op n → SensorArray n
  | .sample clean nowS dt draws =>
    { a with sensors := fun i => ((a.sensors i).sample math (clean i) nowS dt (draws i)).2 }
  | .inject metric kind severity nowS durationS =>
    match a.index metric with
    | none => a
    | some i => { a with sensors := Function.update a.sensors i ((a.sensors i).inject kind severity nowS durationS) }
  | .clear components =>
    { a with sensors := fun i => if a.named components i then (a.sensors i).clear else a.sensors i }

/-- `faults`: those in force, in the order of the sensors. -/
def faults (a : SensorArray n) (nowS : Rat) : List (String × SensorFault) :=
  (List.finRange n).filterMap fun i => (a.sensors i).fault.bind fun fault =>
    if fault.expired nowS then none else some (a.metrics i, fault)

def run (math : Math) (a : SensorArray n) (ops : List (Op n)) : SensorArray n := ops.foldl (step math) a

end SensorArray

/-! ## Faults leave no trace -/

/-- What of a sensor no fault can change. -/
structure Core where
  params : NoiseParams
  minValid : Rat
  maxValid : Rat
  bias : Rat

def Sensor.core (s : Sensor) : Core := ⟨s.params, s.minValid, s.maxValid, s.bias⟩

/-- The fault is in force. -/
def Sensor.faulty (s : Sensor) (nowS : Rat) : Bool := s.fault.any fun fault => !fault.expired nowS

def Op.isSample {n : Nat} : Op n → Bool
  | .sample .. => true
  | _ => false

section
variable {math : Math}

theorem core_sample {s s' : Sensor} (h : s.core = s'.core) (clean nowS dt : Rat) (draw : SensorDraw) :
    ((s.sample math clean nowS dt draw).2).core = ((s'.sample math clean nowS dt draw).2).core := by
  obtain ⟨params, minValid, maxValid, bias, last, fault⟩ := s
  obtain ⟨_, _, _, _, last', fault'⟩ := s'
  cases h
  rfl

theorem faulted_of_not_faulty {s : Sensor} {nowS : Rat} (h : s.faulty nowS = false) (value : Option Rat) (clean : Rat) :
    (s.faulted value clean nowS).1 = value := by
  rw [Sensor.faulted]
  rw [Sensor.faulty] at h
  cases hfault : s.fault with
  | none => rfl
  | some fault =>
    rw [hfault, Option.any_some] at h
    have hexpired : fault.expired nowS = true := by simpa using h
    simp [hexpired]

theorem jitter_of_core {s s' : Sensor} (h : s.core = s'.core) (clean nowS dt : Rat) (draw : SensorDraw) :
    (s.sample math clean nowS dt draw).1.jitterMs = (s'.sample math clean nowS dt draw).1.jitterMs := by
  obtain ⟨params, minValid, maxValid, bias, last, fault⟩ := s
  obtain ⟨_, _, _, _, last', fault'⟩ := s'
  cases h
  rfl

/-- Of two sensors that have the same core, neither of which is faulty, the readings are the same. -/
theorem reading_of_core {s s' : Sensor} (h : s.core = s'.core) {nowS : Rat} (hs : s.faulty nowS = false)
    (hs' : s'.faulty nowS = false) (clean dt : Rat) (draw : SensorDraw) :
    (s.sample math clean nowS dt draw).1 = (s'.sample math clean nowS dt draw).1 := by
  have hvalue (s : Sensor) (hs : s.faulty nowS = false) : (s.sample math clean nowS dt draw).1 =
      ⟨(s.params.measured (s.maxValid - s.minValid) clean (s.nextBias math dt draw) draw).map (clamp s.minValid s.maxValid),
        truncated (draw.jitter * (2 * s.params.jitterMs + 1)) - s.params.jitterMs⟩ := by
    rw [Sensor.sample]
    dsimp only
    rw [faulted_of_not_faulty hs]
  rw [hvalue s hs, hvalue s' hs']
  obtain ⟨params, minValid, maxValid, bias, last, fault⟩ := s
  obtain ⟨_, _, _, _, last', fault'⟩ := s'
  cases h
  rfl

namespace SensorArray
variable {n : Nat}

def cores (a : SensorArray n) (i : Fin n) : Core := (a.sensors i).core

theorem cores_step_sample {a b : SensorArray n} (h : a.cores = b.cores) {op : Op n} (hop : op.isSample = true) :
    (a.step math op).cores = (b.step math op).cores := by
  cases op with
  | sample clean nowS dt draws => exact funext fun i => core_sample (congrFun h i) (clean i) nowS dt (draws i)
  | inject => cases hop
  | clear => cases hop

theorem cores_step (math : Math) (a : SensorArray n) {op : Op n} (hop : op.isSample = false) :
    (a.step math op).cores = a.cores := by
  cases op with
  | sample => cases hop
  | inject metric kind severity nowS durationS =>
    rw [step]
    cases a.index metric with
    | none => rfl
    | some i =>
      funext j
      show (Function.update a.sensors i ((a.sensors i).inject kind severity nowS durationS) j).core = _
      by_cases hj : j = i
      · subst hj
        rw [Function.update_self]
        rfl
      · rw [Function.update_of_ne hj]
        rfl
  | clear components =>
    funext i
    show Sensor.core (if a.named components i then (a.sensors i).clear else a.sensors i) = _
    split <;> rfl

/-- Only the samples count for the cores. -/
theorem cores_run (a : SensorArray n) (ops : List (Op n)) :
    (a.run math ops).cores = (a.run math (ops.filter Op.isSample)).cores := by
  have hsame (b : SensorArray n) (h : a.cores = b.cores) :
      (a.run math ops).cores = (b.run math (ops.filter Op.isSample)).cores := by
    induction ops generalizing a b with
    | nil => exact h
    | cons op ops ih =>
      cases hop : op.isSample with
      | true =>
        rw [List.filter_cons_of_pos hop]
        exact ih _ _ (cores_step_sample h hop)
      | false =>
        rw [List.filter_cons_of_neg (by simp [hop])]
        exact ih _ _ ((a.cores_step math hop).trans h)
  exact hsame a rfl

end SensorArray

/-- Whatever faults are injected and cleared in two runs with the same samples, at the next sample the clocks of all
sensors jitter alike, and a sensor that is faulty in neither of them reads the same in both. -/
theorem faults_leave_no_trace (math : Math) {n : Nat} (a : SensorArray n) {es fs : List (Op n)}
    (h : es.filter Op.isSample = fs.filter Op.isSample) (clean : Fin n → Rat) (nowS dt : Rat) (draws : Fin n → SensorDraw)
    (i : Fin n) :
    ((a.run math es).readings math clean nowS dt draws i).jitterMs =
        ((a.run math fs).readings math clean nowS dt draws i).jitterMs ∧
      (((a.run math es).sensors i).faulty nowS = false → ((a.run math fs).sensors i).faulty nowS = false →
        (a.run math es).readings math clean nowS dt draws i = (a.run math fs).readings math clean nowS dt draws i) := by
  have hcores : (a.run math es).cores = (a.run math fs).cores := by
    rw [a.cores_run es, a.cores_run fs, h]
  exact ⟨jitter_of_core (congrFun hcores i) .., fun hes hfs => reading_of_core (congrFun hcores i) hes hfs ..⟩

/-! A thermometer without noise. -/

def flatMath : Math := ⟨fun _ => 1, fun _ => 0, fun x _ => x⟩

def thermometer : SensorArray 1 := ⟨fun _ => "temperature", fun _ => none, fun _ => .new {} 0 100⟩

def calm : Fin 1 → SensorDraw := fun _ => ⟨0, 0, 1, 1, 0, 0⟩

def readAt (clean nowS : Rat) : Op 1 := .sample (fun _ => clean) nowS 1 calm

/-- It drifts for a while, until the fault is cleared. -/
theorem faults_leave_no_trace_thermometer :
    (thermometer.run flatMath
        [readAt 60 1, .inject "temperature" .drift 1 1 none, readAt 70 2, .clear none]).readings flatMath (fun _ => 80) 3 1 calm 0 =
      (thermometer.run flatMath [readAt 60 1, readAt 70 2]).readings flatMath (fun _ => 80) 3 1 calm 0 := by
  refine (faults_leave_no_trace flatMath thermometer ?_ (fun _ => 80) 3 1 calm 0).2 ?_ ?_
  · rfl
  · decide +kernel
  · decide +kernel

/-! ## A sensor that is stuck -/

namespace SensorArray
variable {n : Nat}

/-- What one sensor reads in a run. -/
def trace (math : Math) (i : Fin n) : SensorArray n → List (Op n) → List Reading
  | _, [] => []
  | a, op@(.sample clean nowS dt draws) :: ops => a.readings math clean nowS dt draws i :: trace math i (a.step math op) ops
  | a, op :: ops => trace math i (a.step math op) ops

theorem run_cons (a : SensorArray n) (op : Op n) (ops : List (Op n)) :
    a.run math (op :: ops) = (a.step math op).run math ops := rfl

/-- Nothing but samples changes what a sensor has reported last. -/
theorem last_step (a : SensorArray n) {op : Op n} (hop : op.isSample = false) (i : Fin n) :
    ((a.step math op).sensors i).last = (a.sensors i).last := by
  cases op with
  | sample => cases hop
  | inject metric kind severity nowS durationS =>
    rw [step]
    cases a.index metric with
    | none => rfl
    | some j =>
      show (Function.update a.sensors j ((a.sensors j).inject kind severity nowS durationS) i).last = _
      by_cases hi : i = j
      · subst hi
        rw [Function.update_self]
        rfl
      · rw [Function.update_of_ne hi]
  | clear components =>
    show Sensor.last (if a.named components i then (a.sensors i).clear else a.sensors i) = _
    split <;> rfl

theorem last_run (a : SensorArray n) (ops : List (Op n)) (i : Fin n) :
    ((a.run math ops).sensors i).last =
      ((trace math i a ops).filterMap Reading.value).getLast?.or (a.sensors i).last := by
  induction ops generalizing a with
  | nil => rfl
  | cons op ops ih =>
    rw [run_cons, ih]
    cases op with
    | sample clean nowS dt draws =>
      rw [trace]
      have hlast : ((a.step math (.sample clean nowS dt draws)).sensors i).last =
          (a.readings math clean nowS dt draws i).value.or (a.sensors i).last := rfl
      rw [hlast, List.filterMap_cons]
      cases hvalue : (a.readings math clean nowS dt draws i).value with
      | none => rfl
      | some v =>
        rw [List.getLast?_cons]
        cases ((trace math i (a.step math (.sample clean nowS dt draws)) ops).filterMap Reading.value).getLast? <;> rfl
    | inject metric kind severity nowS durationS =>
      rw [last_step _ rfl]
      rfl
    | clear components =>
      rw [last_step _ rfl]
      rfl

theorem index_step (a : SensorArray n) (op : Op n) : (a.step math op).index = a.index := by
  cases op with
  | inject metric kind severity nowS durationS =>
    rw [step]
    cases a.index metric <;> rfl
  | _ => rfl

theorem named_step (a : SensorArray n) (op : Op n) : (a.step math op).named = a.named := by
  cases op with
  | inject metric kind severity nowS durationS =>
    rw [step]
    cases a.index metric <;> rfl
  | _ => rfl

theorem index_run (a : SensorArray n) (ops : List (Op n)) : (a.run math ops).index = a.index := by
  induction ops generalizing a with
  | nil => rfl
  | cons op ops ih => exact (ih _).trans (a.index_step op)

theorem named_run (a : SensorArray n) (ops : List (Op n)) : (a.run math ops).named = a.named := by
  induction ops generalizing a with
  | nil => rfl
  | cons op ops ih => exact (ih _).trans (a.named_step op)

/-- The operation injects a fault into the sensor, or clears it. -/
def Touches (a : SensorArray n) (i : Fin n) : Op n → Prop
  | .sample .. => False
  | .inject metric .. => a.index metric = some i
  | .clear components => a.named components i = true

theorem touches_step (math : Math) (a : SensorArray n) (op : Op n) : (a.step math op).Touches = a.Touches := by
  funext i op'
  cases op' with
  | sample => rfl
  | inject metric => exact congrArg (fun index => index metric = some i) (a.index_step op)
  | clear components => exact congrArg (fun named => named components i = true) (a.named_step op)

theorem sensors_step (math : Math) {a : SensorArray n} {i : Fin n} {op : Op n} (hop : op.isSample = false) (h : ¬a.Touches i op) :
    (a.step math op).sensors i = a.sensors i := by
  cases op with
  | sample => cases hop
  | inject metric kind severity nowS durationS =>
    rw [step]
    cases hindex : a.index metric with
    | none => rfl
    | some j =>
      have hne : i ≠ j := fun heq => h (show a.index metric = some i from heq ▸ hindex)
      exact Function.update_of_ne hne ..
  | clear components => exact if_neg h

theorem range_step (math : Math) (a : SensorArray n) (op : Op n) (i : Fin n) :
    ((a.step math op).sensors i).minValid = (a.sensors i).minValid ∧
      ((a.step math op).sensors i).maxValid = (a.sensors i).maxValid := by
  cases hop : op.isSample with
  | true =>
    cases op with
    | sample => exact ⟨rfl, rfl⟩
    | inject => cases hop
    | clear => cases hop
  | false =>
    have hcore := congrFun (a.cores_step math hop) i
    exact ⟨congrArg Core.minValid hcore, congrArg Core.maxValid hcore⟩

theorem range_run (math : Math) (a : SensorArray n) (ops : List (Op n)) (i : Fin n) :
    ((a.run math ops).sensors i).minValid = (a.sensors i).minValid ∧
      ((a.run math ops).sensors i).maxValid = (a.sensors i).maxValid := by
  induction ops generalizing a with
  | nil => exact ⟨rfl, rfl⟩
  | cons op ops ih =>
    obtain ⟨hmin, hmax⟩ := a.range_step math op i
    exact ⟨(ih _).1.trans hmin, (ih _).2.trans hmax⟩

end SensorArray

theorem clamp_range {lo hi : Rat} (h : lo ≤ hi) (x : Rat) : lo ≤ clamp lo hi x ∧ clamp lo hi x ≤ hi :=
  ⟨le_min (le_max_right x lo) h, min_le_right ..⟩

theorem clamp_of_range {lo hi x : Rat} (h : lo ≤ x ∧ x ≤ hi) : clamp lo hi x = x := by
  rw [clamp, max_eq_left h.1, min_eq_left h.2]

/-- A stuck sensor reports the value that it is stuck at, and one that has none yet is stuck at what it reports. -/
theorem sample_stuck (math : Math) {s : Sensor} {fault : SensorFault} (hfault : s.fault = some fault) (hkind : fault.kind = .stuck)
    {nowS : Rat} (hforce : fault.expired nowS = false) (clean dt : Rat) (draw : SensorDraw) :
    ∃ x, (∀ y ∈ fault.stuckValue, y = x) ∧
      (s.sample math clean nowS dt draw).1.value = some (clamp s.minValid s.maxValid x) ∧
      (s.sample math clean nowS dt draw).2.fault = some { fault with stuckValue := some x } := by
  refine ⟨fault.stuckValue.getD
    ((s.params.measured (s.maxValid - s.minValid) clean (s.nextBias math dt draw) draw).getD clean), ?_, ?_, ?_⟩
  · rintro y hy
    rw [Option.mem_def.mp hy]
    rfl
  · simp [Sensor.sample, Sensor.faulted, hfault, hforce, applyFault, hkind]
  · simp [Sensor.sample, Sensor.faulted, hfault, hforce, applyFault, hkind]

namespace SensorArray
variable {n : Nat}

/-- The samples are taken before this moment. -/
def Before (untilS : Option Rat) : Op n → Prop
  | .sample _ nowS _ _ => ∀ u ∈ untilS, nowS < u
  | _ => True

theorem expired_eq_false {fault : SensorFault} {nowS : Rat} (h : ∀ u ∈ fault.untilS, nowS < u) :
    fault.expired nowS = false := by
  rw [SensorFault.expired]
  cases huntil : fault.untilS with
  | none => rfl
  | some u => simpa using h u huntil

theorem trace_stuck {a : SensorArray n} {i : Fin n} {fault : SensorFault} {ops : List (Op n)}
    (hfault : (a.sensors i).fault = some fault) (hkind : fault.kind = .stuck)
    (hops : ∀ op ∈ ops, ¬a.Touches i op ∧ Before fault.untilS op) :
    ∃ v, (∀ y ∈ fault.stuckValue, v = clamp (a.sensors i).minValid (a.sensors i).maxValid y) ∧
      ∀ r ∈ trace math i a ops, r.value = some v := by
  induction ops generalizing a fault with
  | nil =>
    refine ⟨clamp (a.sensors i).minValid (a.sensors i).maxValid (fault.stuckValue.getD 0), ?_, by simp [trace]⟩
    rintro y hy
    rw [Option.mem_def.mp hy]
    rfl
  | cons op ops ih =>
    obtain ⟨⟨htouches, hbefore⟩, hrest⟩ := List.forall_mem_cons.mp hops
    rw [← a.touches_step math op] at hrest
    cases hop : op.isSample with
    | false =>
      have hsame := sensors_step math hop htouches
      obtain ⟨v, hv, hreadings⟩ := ih (hsame ▸ hfault) hkind hrest
      rw [hsame] at hv
      have htrace : trace math i a (op :: ops) = trace math i (a.step math op) ops := by
        cases op with
        | sample => cases hop
        | inject => rfl
        | clear => rfl
      exact ⟨v, hv, htrace ▸ hreadings⟩
    | true =>
      cases op with
      | inject => cases hop
      | clear => cases hop
      | sample clean nowS dt draws =>
        obtain ⟨x, hx, hvalue, hstuck⟩ :=
          sample_stuck math hfault hkind (expired_eq_false hbefore) (clean i) dt (draws i)
        obtain ⟨v, hv, hreadings⟩ := ih (a := a.step math (.sample clean nowS dt draws)) hstuck hkind hrest
        have hfirst : v = clamp (a.sensors i).minValid (a.sensors i).maxValid x := hv x rfl
        refine ⟨v, fun y hy => hx y hy ▸ hfirst, fun r hr => ?_⟩
        rcases List.mem_cons.mp hr with rfl | hr
        · exact hvalue.trans (congrArg some hfirst.symm)
        · exact hreadings r hr

theorem trace_in_range {a : SensorArray n} {i : Fin n} (hrange : (a.sensors i).minValid ≤ (a.sensors i).maxValid)
    (ops : List (Op n)) :
    ∀ r ∈ trace math i a ops, ∀ v ∈ r.value, (a.sensors i).minValid ≤ v ∧ v ≤ (a.sensors i).maxValid := by
  induction ops generalizing a with
  | nil => simp [trace]
  | cons op ops ih =>
    obtain ⟨hmin, hmax⟩ := a.range_step math op i
    have hrest := ih (a := a.step math op) (by rw [hmin, hmax]; exact hrange)
    rw [hmin, hmax] at hrest
    cases op with
    | inject => exact hrest
    | clear => exact hrest
    | sample clean nowS dt draws =>
      intro r hr
      rcases List.mem_cons.mp hr with rfl | hr
      · intro v hv
        obtain ⟨x, -, rfl⟩ := Option.map_eq_some_iff.mp hv
        exact clamp_range hrange x
      · exact hrest r hr

end SensorArray

end

open SensorArray

/-- A sensor into which the fault is injected after any run, and which is left alone until that has run out, reads one
value all the time: the last that it has reported, if it has reported any. -/
theorem stuck_at_last (math : Math) {n : Nat} {a : SensorArray n} {i : Fin n} {metric : String}
    (hindex : a.index metric = some i) (hrange : (a.sensors i).minValid ≤ (a.sensors i).maxValid)
    (hnew : (a.sensors i).last = none) (es fs : List (Op n)) (severity nowS : Rat) (durationS : Option Rat)
    (hfs : ∀ op ∈ fs, ¬a.Touches i op ∧ Before (durationS.map (nowS + ·)) op) :
    ∃ v, (∀ w ∈ ((trace math i a es).filterMap Reading.value).getLast?, v = w) ∧
      ∀ r ∈ trace math i ((a.run math es).step math (.inject metric .stuck severity nowS durationS)) fs,
        r.value = some v := by
  have hindex' : (a.run math es).index metric = some i := (congrFun (a.index_run es) metric).trans hindex
  obtain ⟨fault, hfault, hkind, huntil, hstuck⟩ : ∃ fault : SensorFault,
      (((a.run math es).step math (.inject metric .stuck severity nowS durationS)).sensors i).fault = some fault ∧
        fault.kind = .stuck ∧ fault.untilS = durationS.map (nowS + ·) ∧
          fault.stuckValue = ((a.run math es).sensors i).last := by
    refine ⟨⟨.stuck, severity, nowS, durationS.map (nowS + ·), ((a.run math es).sensors i).last⟩, ?_, rfl, rfl, rfl⟩
    rw [SensorArray.step, hindex']
    show (Function.update (a.run math es).sensors i _ i).fault = _
    rw [Function.update_self]
    rfl
  have htouches : ((a.run math es).step math (.inject metric .stuck severity nowS durationS)).Touches = a.Touches := by
    rw [touches_step]
    funext j op
    cases op with
    | sample => rfl
    | inject metric => exact congrArg (fun index => index metric = some j) (a.index_run es)
    | clear components => exact congrArg (fun named => named components j = true) (a.named_run es)
  rw [← htouches, ← huntil] at hfs
  obtain ⟨v, hv, hreadings⟩ := trace_stuck hfault hkind hfs
  refine ⟨v, fun w hw => ?_, hreadings⟩
  have hlast : ((a.run math es).sensors i).last = some w := by
    rw [last_run, hnew, Option.or_none]
    exact hw
  have hclamp := hv w (hstuck.trans hlast)
  obtain ⟨hmin, hmax⟩ := range_step math (a.run math es) (.inject metric .stuck severity nowS durationS) i
  obtain ⟨hmin', hmax'⟩ := a.range_run math es i
  rw [hmin, hmax, hmin', hmax'] at hclamp
  obtain ⟨r, hr, hrw⟩ := List.mem_filterMap.mp (List.mem_of_getLast? hw)
  exact hclamp.trans (clamp_of_range (trace_in_range hrange es r hr w hrw))

/-- A thermometer reads 60, then 70, is stuck for ten seconds, and left alone. -/
theorem stuck_at_last_thermometer : (trace flatMath 0
    ((thermometer.run flatMath [readAt 60 1, readAt 70 2]).step flatMath (.inject "temperature" .stuck 1 2 (some 10)))
    [readAt 80 3, readAt 20 11]).map Reading.value = List.replicate 2 (some 70) := by
  have hfs : ∀ op ∈ [readAt 80 3, readAt 20 11], ¬thermometer.Touches 0 op ∧ Before ((some 10).map ((2 : Rat) + ·)) op := by
    intro op hop
    rcases List.mem_cons.mp hop with rfl | hop
    · exact ⟨id, fun u hu => Option.some.inj hu ▸ (by decide +kernel : (3 : Rat) < 2 + 10)⟩
    · rw [List.mem_singleton.mp hop]
      exact ⟨id, fun u hu => Option.some.inj hu ▸ (by decide +kernel : (11 : Rat) < 2 + 10)⟩
  have hindex : thermometer.index "temperature" = some 0 := by decide
  have hrange : (thermometer.sensors 0).minValid ≤ (thermometer.sensors 0).maxValid := by decide +kernel
  have hlast : ((trace flatMath 0 thermometer [readAt 60 1, readAt 70 2]).filterMap Reading.value).getLast? = some 70 := by
    decide +kernel
  obtain ⟨v, hv, hreadings⟩ :=
    stuck_at_last flatMath hindex hrange rfl [readAt 60 1, readAt 70 2] [readAt 80 3, readAt 20 11] 1 2 (some 10) hfs
  refine List.eq_replicate_iff.mpr ⟨rfl, List.forall_mem_map.mpr fun r hr => ?_⟩
  rw [hreadings r hr, hv 70 hlast]

end TwinVoice.Sim.Sensors
