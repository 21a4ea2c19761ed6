import TwinVoice.Ingest.AssetMetrics
import TwinVoice.Lib.Segments

/-! # Draining a payload

`_process_message` goes through the metrics of a payload and collects those
whose last segment is the name of an asset-level metric. A component metric
that ends in such a name is collected as well, in the place of the asset's own
one or instead of it, and a component metric whose handling raises takes the
facts of the whole payload with it. -/

namespace TwinVoice.Ingest.AssetMetrics

open TwinVoice.Lib States

/-- A metric of a decoded payload. -/
structure Metric (K : Type) where
  name : String
  value : Option (MetricValue K)
  deriving DecidableEq

/-- `ASSET_METRICS`. -/
def assetMetricNames : List String :=
  ["state", "good_count", "reject_count", "cycle_time_s", "energy_kwh", "power_kw", "power_factor"]

/-- `metric_name.split(".")[-1]`. -/
def bare (metricName : String) : String :=
  (Segments.split '.' metricName).getLast (Segments.split_ne_nil '.' metricName)

/-- `metric_name.startswith("Node Control")`. -/
def nodeControl (metricName : String) : Bool := "Node Control".toList.isPrefixOf metricName.toList

section
variable {K : Type} (raises : Metric K → Bool)

/-- The loop over the metrics of `_process_message`, as far as `asset_metrics` goes. Handling a
metric as telemetry (its sensor, its quality and time, its alarm rules) may raise. -/
def drain : Dict String (MetricValue K) → List (Metric K) → Option (Dict String (MetricValue K))
  | assetMetrics, [] => some assetMetrics
  | assetMetrics, metric :: rest =>
    match metric.value with
    | none => drain assetMetrics rest
    | some value =>
      if nodeControl metric.name then drain assetMetrics rest
      else
        let collected :=
          if bare metric.name ∈ assetMetricNames then assetMetrics.set (bare metric.name) value else assetMetrics
        if bare metric.name = "state" then drain collected rest
        else if raises metric then none
        else drain collected rest

/-- Nothing is stored. -/
def Facts.nothing : Facts K := ⟨none, none, none⟩

/-- `_process_message` for an asset that is known or not, as far as its facts go. -/
def processMessage [Field K] [LinearOrder K] (x : Settings K) (m : Memory K) (assetId : Option Uuid)
    (metrics : List (Metric K)) (now : Instant) : Memory K × Facts K :=
  match drain raises [] metrics, assetId with
  | some assetMetrics, some assetId =>
    if assetMetrics.isEmpty then (m, .nothing) else handleAssetMetrics x m assetId assetMetrics now
  | _, _ => (m, .nothing)

end

/-! ## What a payload says -/

section
variable {K : Type}

/-- The metrics whose full name is that of an asset-level metric. -/
def assetLevel (metrics : List (Metric K)) : List (Metric K) := metrics.filter fun metric => metric.name ∈ assetMetricNames

/-- The last value among the metrics that end in a name. -/
def lastEnding (metrics : List (Metric K)) (name : String) : Option (MetricValue K) :=
  ((metrics.filter fun metric => ¬ nodeControl metric.name ∧ bare metric.name = name).filterMap Metric.value).getLast?

/-- The last value among the metrics of a name. -/
def lastNamed (metrics : List (Metric K)) (name : String) : Option (MetricValue K) :=
  ((metrics.filter fun metric => metric.name = name).filterMap Metric.value).getLast?

/-- The handling of a metric as telemetry raises. -/
def Raising (raises : Metric K → Bool) (metric : Metric K) : Prop :=
  metric.value.isSome ∧ ¬ nodeControl metric.name ∧ bare metric.name ≠ "state" ∧ raises metric

def Interrupted (raises : Metric K → Bool) (metrics : List (Metric K)) : Prop := ∃ metric ∈ metrics, Raising raises metric

/-- The numbers that an energy row is made of. -/
def energyOf (values : String → Option (MetricValue K)) : Option (K × K × Option K) :=
  ((values "power_kw").bind MetricValue.number).bind fun powerKw =>
    ((values "energy_kwh").bind MetricValue.number).map fun energyKwh =>
      (powerKw, energyKwh, (values "power_factor").bind MetricValue.number)

/-- Values that come to the same facts: the same valid state, the same counts, with them the same
cycle time, and the same energy. -/
structure SameFacts (values other : String → Option (MetricValue K)) : Prop where
  state : ((values "state").bind fun v => AssetState.ofText? v.text) = (other "state").bind fun v => AssetState.ofText? v.text
  good : (values "good_count").bind MetricValue.number = (other "good_count").bind MetricValue.number
  reject : (values "reject_count").bind MetricValue.number = (other "reject_count").bind MetricValue.number
  cycle : ((values "good_count").bind MetricValue.number).isSome ∨ ((values "reject_count").bind MetricValue.number).isSome →
    (values "cycle_time_s").bind MetricValue.number = (other "cycle_time_s").bind MetricValue.number
  energy : energyOf values = energyOf other

/-- The component metrics of a payload make no difference: those that end in the name of an asset-level
metric say what the last metric of that very name says, or are followed by it, and none raises. -/
def Isolated (raises : Metric K → Bool) (metrics : List (Metric K)) : Prop :=
  (Interrupted raises metrics → Interrupted raises (assetLevel metrics) ∨ SameFacts (fun _ => none) (lastNamed metrics)) ∧
  (¬ Interrupted raises metrics → SameFacts (lastEnding metrics) (lastNamed metrics))

theorem SameFacts.congr {v v' w w' : String → Option (MetricValue K)} (h : SameFacts v w)
    (hv : ∀ name ∈ assetMetricNames, v name = v' name) (hw : ∀ name ∈ assetMetricNames, w name = w' name) :
    SameFacts v' w' := by
  have hstate : "state" ∈ assetMetricNames := by decide
  have hgood : "good_count" ∈ assetMetricNames := by decide
  have hreject : "reject_count" ∈ assetMetricNames := by decide
  have hcycle : "cycle_time_s" ∈ assetMetricNames := by decide
  have hpower : "power_kw" ∈ assetMetricNames := by decide
  have hkwh : "energy_kwh" ∈ assetMetricNames := by decide
  have hfactor : "power_factor" ∈ assetMetricNames := by decide
  exact
    { state := by rw [← hv _ hstate, ← hw _ hstate, h.state]
      good := by rw [← hv _ hgood, ← hw _ hgood, h.good]
      reject := by rw [← hv _ hreject, ← hw _ hreject, h.reject]
      cycle := by
        rw [← hv _ hgood, ← hv _ hreject, ← hv _ hcycle, ← hw _ hcycle]
        exact h.cycle
      energy := by
        have henergy := h.energy
        unfold energyOf at *
        rwa [← hv _ hpower, ← hv _ hkwh, ← hv _ hfactor, ← hw _ hpower, ← hw _ hkwh, ← hw _ hfactor] }

theorem sameFacts_congr {v v' w w' : String → Option (MetricValue K)}
    (hv : ∀ name ∈ assetMetricNames, v name = v' name) (hw : ∀ name ∈ assetMetricNames, w name = w' name) :
    SameFacts v w ↔ SameFacts v' w' :=
  ⟨fun h => h.congr hv hw, fun h => h.congr (fun n hn => (hv n hn).symm) fun n hn => (hw n hn).symm⟩

theorem bare_of_mem {name : String} (h : name ∈ assetMetricNames) : bare name = name := by
  have hall : ∀ n ∈ assetMetricNames, bare n = n := by decide
  exact hall name h

theorem nodeControl_of_mem {name : String} (h : name ∈ assetMetricNames) : nodeControl name = false := by
  have hall : ∀ n ∈ assetMetricNames, nodeControl n = false := by decide
  exact hall name h

theorem lastEnding_cons (metric : Metric K) (rest : List (Metric K)) (name : String) :
    lastEnding (metric :: rest) name = (lastEnding rest name).or
      (if ¬ nodeControl metric.name ∧ bare metric.name = name then metric.value else none) := by
  unfold lastEnding
  rw [List.filter_cons]
  by_cases h : ¬ nodeControl metric.name ∧ bare metric.name = name
  · rw [if_pos (decide_eq_true h), if_pos h, List.filterMap_cons]
    cases metric.value with
    | none => simp
    | some value =>
      dsimp only
      rw [List.getLast?_cons]
      cases ((rest.filter fun metric => ¬ nodeControl metric.name ∧ bare metric.name = name).filterMap
        Metric.value).getLast? <;> rfl
  · rw [if_neg (by simpa using h), if_neg h, Option.or_none]

/-- Among the asset-level metrics those that end in a name are those of that name. -/
theorem lastEnding_assetLevel (metrics : List (Metric K)) {name : String} (h : name ∈ assetMetricNames) :
    lastEnding (assetLevel metrics) name = lastNamed metrics name := by
  unfold lastEnding lastNamed assetLevel
  rw [List.filter_filter]
  congr 2
  refine List.filter_congr fun metric _ => ?_
  rw [← Bool.decide_and]
  refine decide_eq_decide.mpr ?_
  constructor
  · rintro ⟨⟨-, hbare⟩, hmem⟩
    exact (bare_of_mem hmem).symm.trans hbare
  · rintro rfl
    exact ⟨⟨by simp [nodeControl_of_mem h], bare_of_mem h⟩, h⟩

section
variable (raises : Metric K → Bool)

/-- What a metric adds to what is collected. -/
def collect (acc : Dict String (MetricValue K)) (metric : Metric K) : Dict String (MetricValue K) :=
  match metric.value with
  | none => acc
  | some value => if ¬ nodeControl metric.name ∧ bare metric.name ∈ assetMetricNames then acc.set (bare metric.name) value else acc

theorem drain_cons_of_raising {acc : Dict String (MetricValue K)} {metric : Metric K} {rest : List (Metric K)}
    (h : Raising raises metric) : drain raises acc (metric :: rest) = none := by
  obtain ⟨hvalue, hcontrol, hstate, hraises⟩ := h
  obtain ⟨value, hvalue⟩ := Option.isSome_iff_exists.mp hvalue
  rw [drain, hvalue]
  simp [hcontrol, hstate, hraises]

theorem drain_cons {acc : Dict String (MetricValue K)} {metric : Metric K} {rest : List (Metric K)}
    (h : ¬ Raising raises metric) : drain raises acc (metric :: rest) = drain raises (collect acc metric) rest := by
  rw [drain, collect]
  cases hvalue : metric.value with
  | none => rfl
  | some value =>
    by_cases hcontrol : nodeControl metric.name
    · simp [hcontrol]
    · by_cases hstate : bare metric.name = "state"
      · simp [hcontrol, hstate]
      · have hquiet : raises metric = false := by
          by_contra hraises
          exact h ⟨by simp [hvalue], hcontrol, hstate, by simpa using hraises⟩
        simp [hcontrol, hstate, hquiet]

theorem interrupted_cons (metric : Metric K) (rest : List (Metric K)) :
    Interrupted raises (metric :: rest) ↔ Raising raises metric ∨ Interrupted raises rest := List.exists_mem_cons_iff _ _ _

theorem drain_eq_none (acc : Dict String (MetricValue K)) (metrics : List (Metric K)) :
    drain raises acc metrics = none ↔ Interrupted raises metrics := by
  induction metrics generalizing acc with
  | nil => simp [drain, Interrupted]
  | cons metric rest ih =>
    rw [interrupted_cons]
    by_cases h : Raising raises metric
    · exact iff_of_true (drain_cons_of_raising raises h) (.inl h)
    · rw [drain_cons raises h, ih, or_iff_right h]

theorem get?_collect (acc : Dict String (MetricValue K)) (metric : Metric K) {name : String} (hname : name ∈ assetMetricNames) :
    (collect acc metric).get? name =
      (if ¬ nodeControl metric.name ∧ bare metric.name = name then metric.value else none).or (acc.get? name) := by
  unfold collect
  cases metric.value with
  | none => simp
  | some value =>
    by_cases hcontrol : nodeControl metric.name
    · simp [hcontrol]
    · by_cases hbare : bare metric.name = name
      · simp [hcontrol, hbare, hname, Dict.get?_set]
      · by_cases hmem : bare metric.name ∈ assetMetricNames
        · simp [hcontrol, hbare, hmem, Dict.get?_set]
        · simp [hcontrol, hbare, hmem]

theorem get?_drain {acc d : Dict String (MetricValue K)} {metrics : List (Metric K)}
    (h : drain raises acc metrics = some d) {name : String} (hname : name ∈ assetMetricNames) :
    d.get? name = (lastEnding metrics name).or (acc.get? name) := by
  induction metrics generalizing acc with
  | nil =>
    cases h
    rfl
  | cons metric rest ih =>
    by_cases hraising : Raising raises metric
    · rw [drain_cons_of_raising raises hraising] at h
      cases h
    · rw [drain_cons raises hraising] at h
      rw [ih h, get?_collect acc metric hname, lastEnding_cons, Option.or_assoc]

end

end

/-! ## What the facts tell

A memory in which every counter stands below all readings lets the facts show what was read. -/

section
variable {K : Type}

def below (p : K) (assetId : Uuid) : Memory K :=
  ⟨[], [(assetId, [("good_count", p), ("reject_count", p), ("energy_kwh", p)])]⟩

def lowCounters (p : K) : Dict String K := [("good_count", p), ("reject_count", p), ("energy_kwh", p)]

theorem previous_below (p : K) : ((below p assetId).lastCounters.get? assetId).getD [] = lowCounters p := by
  simp [below, lowCounters, Dict.get?_cons]

theorem energyKwh_of_energyOf {values : String → Option (MetricValue K)} {e : K × K × Option K} (h : energyOf values = some e) :
    (values "energy_kwh").bind MetricValue.number = some e.2.1 := by
  obtain ⟨powerKw, -, he⟩ := Option.bind_eq_some_iff.mp h
  obtain ⟨energyKwh, henergy, rfl⟩ := Option.map_eq_some_iff.mp he
  exact henergy

end

section
variable {K : Type} [Field K] [LinearOrder K] (x : Settings K) (m : Memory K) (assetId : Uuid) (now : Instant)

theorem stateEvent_eq (d : Dict String (MetricValue K)) : (handleAssetMetrics x m assetId d now).2.stateEvent =
    ((d.get? "state").bind fun v => AssetState.ofText? v.text).bind fun st =>
      if m.lastState.get? assetId = some st then none else some ⟨now, assetId, st, "simulator"⟩ := by
  unfold handleAssetMetrics
  dsimp only
  cases d.get? "state" with
  | none => rfl
  | some v =>
    unfold handleStateChange
    cases hst : AssetState.ofText? v.text with
    | none => simp [hst]
    | some st =>
      simp only [Option.bind_some, hst]
      split <;> rfl

theorem energyRow_eq (previous : Dict String K) (d : Dict String (MetricValue K)) :
    (energyRow x previous assetId d now).2 = (energyOf d.get?).map fun e =>
      { time := now
        assetId := assetId
        powerKw := e.1
        energyKwh := Climbing.delta (previous.get? "energy_kwh") e.2.1
        powerFactor := e.2.2
        currentA := currentA x e.1 e.2.2
        voltageV := lineVoltageV
        tariffRate := Analytics.Site.tariffRate (x.tariffs.get? assetId) now } := by
  unfold energyRow energyOf floatOf
  cases (d.get? "power_kw").bind MetricValue.number with
  | none => rfl
  | some powerKw =>
    cases (d.get? "energy_kwh").bind MetricValue.number with
    | none => rfl
    | some energyKwh =>
      dsimp only
      rw [counterDelta_eq]
      rfl

variable {d other : Dict String (MetricValue K)}

theorem productionRow_congr (previous : Dict String K) (h : SameFacts d.get? other.get?) :
    productionRow previous assetId d now = productionRow previous assetId other now := by
  have hgood : floatOf d "good_count" = floatOf other "good_count" := h.good
  have hreject : floatOf d "reject_count" = floatOf other "reject_count" := h.reject
  unfold productionRow
  rw [← hgood, ← hreject]
  dsimp only
  by_cases hsome : (floatOf d "good_count").isSome ∨ (floatOf d "reject_count").isSome
  · have hcycle : floatOf d "cycle_time_s" = floatOf other "cycle_time_s" := h.cycle hsome
    rw [hcycle]
  · rw [if_neg hsome, if_neg hsome]

theorem facts_congr (h : SameFacts d.get? other.get?) :
    (handleAssetMetrics x m assetId d now).2 = (handleAssetMetrics x m assetId other now).2 := by
  have hstate : (handleAssetMetrics x m assetId d now).2.stateEvent =
      (handleAssetMetrics x m assetId other now).2.stateEvent := by
    rw [stateEvent_eq, stateEvent_eq, h.state]
  have hproduction := productionRow_congr assetId now ((m.lastCounters.get? assetId).getD []) h
  have henergy : (handleAssetMetrics x m assetId d now).2.energy = (handleAssetMetrics x m assetId other now).2.energy := by
    unfold handleAssetMetrics
    dsimp only
    rw [energyRow_eq, energyRow_eq, hproduction, h.energy]
  have hrow : (handleAssetMetrics x m assetId d now).2.production = (handleAssetMetrics x m assetId other now).2.production :=
    congrArg Prod.snd hproduction
  exact Facts.ext hstate hrow henergy

theorem elim_sub_inj [IsStrictOrderedRing K] {p : K} {o o' : Option K} (ho : ∀ v ∈ o, p < v) (ho' : ∀ v ∈ o', p < v)
    (h : o.elim 0 (· - p) = o'.elim 0 (· - p)) : o = o' := by
  cases o with
  | none =>
    cases o' with
    | none => rfl
    | some v' => exact absurd h (sub_pos.mpr (ho' v' rfl)).ne
  | some v =>
    cases o' with
    | none => exact absurd h (sub_pos.mpr (ho v rfl)).ne'
    | some v' => exact congrArg some (sub_left_injective h)

theorem delta_below {p v : K} (h : p < v) : Climbing.delta (some p) v = v - p := if_neg h.not_gt

theorem elim_delta_below {p : K} {o : Option K} (h : ∀ v ∈ o, p < v) :
    o.elim 0 (Climbing.delta (some p)) = o.elim 0 (· - p) := by
  cases o with
  | none => rfl
  | some v => exact delta_below (h v rfl)

/-- There is a production row as soon as there is a count, and it holds both of them. -/
theorem production_below [IsStrictOrderedRing K] {p : K} (d : Dict String (MetricValue K))
    (hgood : ∀ v ∈ floatOf d "good_count", p < v) (hreject : ∀ v ∈ floatOf d "reject_count", p < v) :
    (handleAssetMetrics x (below p assetId) assetId d now).2.production =
      if (floatOf d "good_count").isSome ∨ (floatOf d "reject_count").isSome then
        some ⟨now, assetId, (floatOf d "good_count").elim 0 (· - p), (floatOf d "reject_count").elim 0 (· - p),
          floatOf d "cycle_time_s"⟩
      else none := by
  have hfirst : (counterDelta (lowCounters p) "good_count" (floatOf d "good_count")).1 =
      (floatOf d "good_count").elim 0 (· - p) := by
    rw [counterDelta_eq]
    exact elim_delta_below hgood
  have hsecond : (counterDelta (counterDelta (lowCounters p) "good_count" (floatOf d "good_count")).2 "reject_count"
      (floatOf d "reject_count")).1 = (floatOf d "reject_count").elim 0 (· - p) := by
    have hkept : (lowCounters p).get? "reject_count" = some p := by simp [lowCounters, Dict.get?_cons]
    rw [counterDelta_eq _ "reject_count", get?_counterDelta, if_neg (by decide), hkept]
    exact elim_delta_below hreject
  have hpos : ∀ o : Option K, (∀ v ∈ o, p < v) → (o.elim 0 (· - p) ≠ 0 ↔ o.isSome) := by
    intro o ho
    cases o with
    | none => simp
    | some v => simpa using (sub_pos.mpr (ho v rfl)).ne'
  change (productionRow (((below p assetId).lastCounters.get? assetId).getD []) assetId d now).2 = _
  rw [previous_below]
  unfold productionRow
  dsimp only
  rw [hfirst, hsecond]
  by_cases hsome : (floatOf d "good_count").isSome ∨ (floatOf d "reject_count").isSome
  · rw [if_pos hsome, if_pos hsome, if_pos (by rwa [hpos _ hgood, hpos _ hreject])]
  · rw [if_neg hsome, if_neg hsome]

theorem energy_below {p : K} (d : Dict String (MetricValue K)) (henergy : ∀ v ∈ floatOf d "energy_kwh", p < v) :
    (handleAssetMetrics x (below p assetId) assetId d now).2.energy.map
      (fun r => (r.powerKw, r.energyKwh + p, r.powerFactor)) = energyOf d.get? := by
  have hkept : (productionRow (lowCounters p) assetId d now).1.get? "energy_kwh" = some p := by
    rw [productionRow_after, get?_counterDelta, if_neg (by decide), get?_counterDelta, if_neg (by decide)]
    simp [lowCounters, Dict.get?_cons]
  change (energyRow x (productionRow (((below p assetId).lastCounters.get? assetId).getD []) assetId d now).1 assetId d
    now).2.map _ = _
  rw [previous_below, energyRow_eq, hkept, Option.map_map]
  cases he : energyOf d.get? with
  | none => rfl
  | some e =>
    have hlt : p < e.2.1 := henergy _ (energyKwh_of_energyOf he)
    simp [delta_below hlt]

end

theorem exists_lt_all (xs : List ℝ) : ∃ p, ∀ x ∈ xs, p < x := by
  induction xs with
  | nil => exact ⟨0, by simp⟩
  | cons x xs ih =>
    obtain ⟨p, hp⟩ := ih
    refine ⟨min p x - 1, List.forall_mem_cons.mpr ⟨?_, fun y hy => ?_⟩⟩
    · linarith [min_le_right p x]
    · linarith [min_le_left p x, hp y hy]

theorem sameFacts_iff (x : Settings ℝ) (assetId : Uuid) (now : Instant) (d other : Dict String (MetricValue ℝ)) :
    (∀ m, (handleAssetMetrics x m assetId d now).2 = (handleAssetMetrics x m assetId other now).2) ↔
      SameFacts d.get? other.get? := by
  refine ⟨fun h => ?_, fun h m => facts_congr x m assetId now h⟩
  obtain ⟨p, hp⟩ := exists_lt_all
    ([d, other].flatMap fun values => ["good_count", "reject_count", "energy_kwh"].filterMap (floatOf values))
  have hlow : ∀ values ∈ [d, other], ∀ key ∈ ["good_count", "reject_count", "energy_kwh"], ∀ v ∈ floatOf values key, p < v := by
    intro values hvalues key hkey v hv
    exact hp v (List.mem_flatMap.mpr ⟨values, hvalues, List.mem_filterMap.mpr ⟨key, hkey, hv⟩⟩)
  have hstate : ∀ o o' : Option AssetState,
      (o.bind fun st => if (below p assetId).lastState.get? assetId = some st then none
        else some (⟨now, assetId, st, "simulator"⟩ : AssetStateEvent)) =
      (o'.bind fun st => if (below p assetId).lastState.get? assetId = some st then none
        else some (⟨now, assetId, st, "simulator"⟩ : AssetStateEvent)) → o = o' := by
    intro o o' heq
    cases o <;> cases o' <;> simp_all [below]
  have hgood := hlow d (by simp) "good_count" (by simp)
  have hgood' := hlow other (by simp) "good_count" (by simp)
  have hreject := hlow d (by simp) "reject_count" (by simp)
  have hreject' := hlow other (by simp) "reject_count" (by simp)
  have hrow := congrArg Facts.production (h (below p assetId))
  rw [production_below x assetId now d hgood hreject, production_below x assetId now other hgood' hreject'] at hrow
  have hcounts : floatOf d "good_count" = floatOf other "good_count" ∧ floatOf d "reject_count" = floatOf other "reject_count" ∧
      ((floatOf d "good_count").isSome ∨ (floatOf d "reject_count").isSome →
        floatOf d "cycle_time_s" = floatOf other "cycle_time_s") := by
    split at hrow
    · split at hrow
      · rw [Option.some_inj, ProductionCount.mk.injEq] at hrow
        obtain ⟨-, -, hg, hr, hc⟩ := hrow
        exact ⟨elim_sub_inj hgood hgood' hg, elim_sub_inj hreject hreject' hr, fun _ => hc⟩
      · cases hrow
    · split at hrow
      · cases hrow
      · rename_i hnone hnone'
        simp only [not_or, Option.not_isSome_iff_eq_none] at hnone hnone'
        simp [hnone, hnone']
  exact
    { state := by
        have heq := congrArg Facts.stateEvent (h (below p assetId))
        rw [stateEvent_eq, stateEvent_eq] at heq
        exact hstate _ _ heq
      good := hcounts.1
      reject := hcounts.2.1
      cycle := hcounts.2.2
      energy := by
        rw [← energy_below x assetId now d (hlow d (by simp) "energy_kwh" (by simp)),
          ← energy_below x assetId now other (hlow other (by simp) "energy_kwh" (by simp)), h (below p assetId)] }

/-! ## When component metrics make no difference -/

section
variable (raises : Metric ℝ → Bool)

/-- Whatever the consumer remembers: the facts of a payload are those of its asset-level metrics. -/
def Confined (metrics : List (Metric ℝ)) : Prop :=
  ∀ (x : Settings ℝ) (m : Memory ℝ) (assetId : Option Uuid) (now : Instant),
    (processMessage raises x m assetId metrics now).2 = (processMessage raises x m assetId (assetLevel metrics) now).2

/-- What is collected of a payload, if nothing raises. -/
def collected (metrics : List (Metric ℝ)) : Dict String (MetricValue ℝ) := (drain raises [] metrics).getD []

theorem facts_processMessage (x : Settings ℝ) (m : Memory ℝ) (assetId : Uuid) (metrics : List (Metric ℝ)) (now : Instant) :
    (processMessage raises x m (some assetId) metrics now).2 =
      (handleAssetMetrics x m assetId (collected raises metrics) now).2 := by
  have hempty : (handleAssetMetrics x m assetId [] now).2 = .nothing := by
    refine Facts.ext ?_ ?_ ?_
    · rw [stateEvent_eq]
      rfl
    · rfl
    · rfl
  unfold processMessage collected
  cases drain raises [] metrics with
  | none => exact hempty.symm
  | some d =>
    dsimp only [Option.getD]
    split
    · rename_i h
      rw [List.isEmpty_iff.mp h, hempty]
    · rfl

theorem get?_collected (metrics : List (Metric ℝ)) {name : String} (hname : name ∈ assetMetricNames) :
    (Interrupted raises metrics → (collected raises metrics).get? name = none) ∧
    (¬ Interrupted raises metrics → (collected raises metrics).get? name = lastEnding metrics name) := by
  rw [← drain_eq_none raises [] metrics, collected]
  cases hdrain : drain raises [] metrics with
  | none => exact ⟨fun _ => rfl, fun h => absurd rfl h⟩
  | some d =>
    refine ⟨nofun, fun _ => ?_⟩
    have hget := get?_drain raises hdrain hname
    rwa [Dict.get?_nil, Option.or_none] at hget

theorem interrupted_of_assetLevel {metrics : List (Metric ℝ)} (h : Interrupted raises (assetLevel metrics)) :
    Interrupted raises metrics := by
  obtain ⟨metric, hmetric, hraising⟩ := h
  exact ⟨metric, (List.mem_filter.mp hmetric).1, hraising⟩

theorem sameFacts_collected (metrics : List (Metric ℝ)) :
    SameFacts (collected raises metrics).get? (collected raises (assetLevel metrics)).get? ↔ Isolated raises metrics := by
  have hown : ¬ Interrupted raises (assetLevel metrics) → ∀ name ∈ assetMetricNames,
      (collected raises (assetLevel metrics)).get? name = lastNamed metrics name := by
    intro h name hname
    rw [(get?_collected raises (assetLevel metrics) hname).2 h, lastEnding_assetLevel metrics hname]
  by_cases hinterrupted : Interrupted raises metrics
  · have hnothing : ∀ name ∈ assetMetricNames, (collected raises metrics).get? name = none :=
      fun name hname => (get?_collected raises metrics hname).1 hinterrupted
    rw [Isolated, and_iff_left fun h => absurd hinterrupted h, forall_prop_of_true hinterrupted]
    by_cases hboth : Interrupted raises (assetLevel metrics)
    · have hneither : ∀ name ∈ assetMetricNames, (collected raises (assetLevel metrics)).get? name = none :=
        fun name hname => (get?_collected raises (assetLevel metrics) hname).1 hboth
      rw [sameFacts_congr hnothing hneither]
      exact iff_of_true ⟨rfl, rfl, rfl, fun _ => rfl, rfl⟩ (.inl hboth)
    · rw [sameFacts_congr hnothing (hown hboth), or_iff_right hboth]
  · rw [Isolated, and_iff_right fun h => absurd h hinterrupted, forall_prop_of_true hinterrupted]
    exact sameFacts_congr (fun name hname => (get?_collected raises metrics hname).2 hinterrupted)
      (hown fun h => hinterrupted (interrupted_of_assetLevel raises h))

/-- The facts of a payload are those of its asset-level metrics exactly if its component metrics say nothing else. -/
theorem confined_iff (metrics : List (Metric ℝ)) : Confined raises metrics ↔ Isolated raises metrics := by
  rw [← sameFacts_collected]
  constructor
  · intro h
    refine (sameFacts_iff ⟨0, []⟩ 0 0 _ _).mp fun m => ?_
    rw [← facts_processMessage, ← facts_processMessage]
    exact h ⟨0, []⟩ m (some 0) 0
  · intro h x m assetId now
    cases assetId with
    | none =>
      unfold processMessage
      cases drain raises [] metrics <;> cases drain raises [] (assetLevel metrics) <;> rfl
    | some assetId =>
      rw [facts_processMessage, facts_processMessage]
      exact facts_congr x m assetId now h

end

/-- The power of a pump beside that of the machine. -/
noncomputable def pumpPayload : List (Metric ℝ) :=
  [⟨"power_kw", some ⟨some 10.0, "10.0"⟩⟩, ⟨"energy_kwh", some ⟨some 5.0, "5.0"⟩⟩, ⟨"pump.power_kw", some ⟨some 3.0, "3.0"⟩⟩]

/-- The machine is put on record with the power of its pump. -/
theorem pump_power_leaks : ¬ Confined (fun _ => false) pumpPayload := by
  intro h
  have hpower : some (3.0 : ℝ) = some 10.0 :=
    congrArg (fun facts => facts.energy.map EnergyReading.powerKw) (h ⟨0, []⟩ ⟨[], []⟩ (some 4) 0)
  norm_num at hpower

end TwinVoice.Ingest.AssetMetrics
