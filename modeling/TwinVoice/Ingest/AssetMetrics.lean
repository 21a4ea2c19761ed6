import Mathlib.Algebra.Order.Field.Basic
import Mathlib.Data.Real.Basic
import TwinVoice.Analytics.Tariffs
import TwinVoice.Ingest.States
import TwinVoice.Lib.Runs

/-! # The facts of an asset

`_handle_asset_metrics` makes of the asset-level metrics of a message a state
event, a production row and an energy row. The counters that the simulator
publishes only grow, until it starts again; the rows hold differences, and the
reading before is kept for each counter of each asset. -/

namespace TwinVoice.Ingest.AssetMetrics

open TwinVoice.Lib States

/-- The value of a metric, as `_as_float` and `str` read it. -/
structure MetricValue (K : Type) where
  number : Option K
  text : String
  deriving DecidableEq

/-- A row of `production_counts`. -/
structure ProductionCount (K : Type) where
  time : Instant
  assetId : Uuid
  goodCount : K
  rejectCount : K
  cycleTimeS : Option K
  deriving DecidableEq

/-- A row of `energy_readings`. -/
structure EnergyReading (K : Type) where
  time : Instant
  assetId : Uuid
  powerKw : K
  energyKwh : K
  powerFactor : Option K
  currentA : Option K
  voltageV : K
  tariffRate : Option Rat
  deriving DecidableEq

/-- What a message comes to. -/
@[ext] structure Facts (K : Type) where
  stateEvent : Option AssetStateEvent
  production : Option (ProductionCount K)
  energy : Option (EnergyReading K)
  deriving DecidableEq

/-- `_last_state` and `_last_counters`. -/
structure Memory (K : Type) where
  lastState : Dict Uuid AssetState
  lastCounters : Dict Uuid (Dict String K)

/-- What the consumer reads besides: `SQRT_3` and the tariffs of the assets. -/
structure Settings (K : Type) where
  sqrt3 : K
  tariffs : Dict Uuid (Int × List Analytics.Tariff)

section
variable {K : Type}

/-- `_as_float(metrics.get(key))`. -/
def floatOf (metrics : Dict String (MetricValue K)) (key : String) : Option K := (metrics.get? key).bind MetricValue.number

/-- `_handle_state_change`, on a database that works. -/
def handleStateChange (m : Memory K) (assetId : Uuid) (state : String) (now : Instant) : Memory K × Option AssetStateEvent :=
  match AssetState.ofText? state with
  | none => (m, none)
  | some st =>
    if m.lastState.get? assetId = some st then (m, none)
    else ({ m with lastState := m.lastState.set assetId st }, some ⟨now, assetId, st, "simulator"⟩)

end

section
variable {K : Type} [Field K] [LinearOrder K]

/-- `LINE_VOLTAGE_V`. -/
def lineVoltageV : K := 415

/-- `_counter_delta`, and what `previous` is after it. -/
def counterDelta (previous : Dict String K) (key : String) (current : Option K) : K × Dict String K :=
  match current with
  | none => (0, previous)
  | some current =>
    let after := previous.set key current
    match previous.get? key with
    | none => (0, after)
    | some last => if current < last then (0, after) else (current - last, after)

/-- The row for `_production_buffer`, and what `previous` is after it. -/
def productionRow (previous : Dict String K) (assetId : Uuid) (metrics : Dict String (MetricValue K)) (now : Instant) :
    Dict String K × Option (ProductionCount K) :=
  let good := floatOf metrics "good_count"
  let reject := floatOf metrics "reject_count"
  if good.isSome ∨ reject.isSome then
    let goodDelta := counterDelta previous "good_count" good
    let rejectDelta := counterDelta goodDelta.2 "reject_count" reject
    if goodDelta.1 ≠ 0 ∨ rejectDelta.1 ≠ 0 then
      (rejectDelta.2, some ⟨now, assetId, goodDelta.1, rejectDelta.1, floatOf metrics "cycle_time_s"⟩)
    else (rejectDelta.2, none)
  else (previous, none)

/-- `current_a`. -/
def currentA (x : Settings K) (powerKw : K) (powerFactor : Option K) : Option K :=
  (powerFactor.filter (· ≠ 0)).map fun powerFactor => powerKw * 1000 / (x.sqrt3 * lineVoltageV * powerFactor)

/-- The row for `_energy_buffer`, and what `previous` is after it. -/
def energyRow (x : Settings K) (previous : Dict String K) (assetId : Uuid) (metrics : Dict String (MetricValue K))
    (now : Instant) : Dict String K × Option (EnergyReading K) :=
  match floatOf metrics "power_kw", floatOf metrics "energy_kwh" with
  | some powerKw, some energyKwh =>
    let energyDelta := counterDelta previous "energy_kwh" (some energyKwh)
    let powerFactor := floatOf metrics "power_factor"
    (energyDelta.2, some
      { time := now
        assetId := assetId
        powerKw := powerKw
        energyKwh := energyDelta.1
        powerFactor := powerFactor
        currentA := currentA x powerKw powerFactor
        voltageV := lineVoltageV
        tariffRate := Analytics.Site.tariffRate (x.tariffs.get? assetId) now })
  | _, _ => (previous, none)

/-- `_handle_asset_metrics`. -/
def handleAssetMetrics (x : Settings K) (m : Memory K) (assetId : Uuid) (metrics : Dict String (MetricValue K)) (now : Instant) :
    Memory K × Facts K :=
  let changed := match metrics.get? "state" with
    | none => (m, none)
    | some state => handleStateChange m assetId state.text now
  let previous := (m.lastCounters.get? assetId).getD []
  let production := productionRow previous assetId metrics now
  let energy := energyRow x production.1 assetId metrics now
  ({ changed.1 with lastCounters := m.lastCounters.set assetId energy.1 }, ⟨changed.2, production.2, energy.2⟩)

end

/-! ## Counters -/

/-- The asset-level metrics of one message. -/
structure AssetMessage (K : Type) where
  assetId : Uuid
  metrics : Dict String (MetricValue K)
  now : Instant

section
variable {K : Type}

/-- The counters of an asset. -/
inductive Counter
  | good | reject | energy
  deriving DecidableEq

namespace Counter

def key : Counter → String
  | good => "good_count"
  | reject => "reject_count"
  | energy => "energy_kwh"

/-- The reading of the counter in a message; energy is read where power is. -/
def reading (metrics : Dict String (MetricValue K)) : Counter → Option K
  | good => floatOf metrics "good_count"
  | reject => floatOf metrics "reject_count"
  | energy => (floatOf metrics "power_kw").bind fun _ => floatOf metrics "energy_kwh"

/-- What the facts of a message add to the counter, and for which asset. -/
def added (facts : Facts K) : Counter → Option (Uuid × K)
  | good => facts.production.map fun r => (r.assetId, r.goodCount)
  | reject => facts.production.map fun r => (r.assetId, r.rejectCount)
  | energy => facts.energy.map fun r => (r.assetId, r.energyKwh)

/-- What was added to the counter of an asset. -/
def deltas (c : Counter) (asset : Uuid) (facts : List (Facts K)) : List K :=
  (facts.filterMap fun f => (c.added f).filter fun e => e.1 = asset).map Prod.snd

/-- The readings of the counter of an asset, those that are missing left out. -/
def readings (c : Counter) (asset : Uuid) (messages : List (AssetMessage K)) : List K :=
  (messages.filter fun msg => msg.assetId = asset).filterMap fun msg => c.reading msg.metrics

end Counter

/-- The reading of a counter that is kept. -/
def Memory.remembered (m : Memory K) (asset : Uuid) (c : Counter) : Option K :=
  (m.lastCounters.get? asset).bind fun previous => previous.get? c.key

theorem get?_previous (m : Memory K) (assetId : Uuid) (c : Counter) :
    ((m.lastCounters.get? assetId).getD []).get? c.key = m.remembered assetId c := by
  unfold Memory.remembered
  cases m.lastCounters.get? assetId <;> rfl

theorem deltas_cons (c : Counter) (asset : Uuid) (f : Facts K) (facts : List (Facts K)) :
    c.deltas asset (f :: facts) =
      (((c.added f).filter fun e => e.1 = asset).map Prod.snd).toList ++ c.deltas asset facts := by
  unfold Counter.deltas
  rw [List.filterMap_cons]
  cases (c.added f).filter fun e => e.1 = asset <;> rfl

theorem readings_cons (c : Counter) (asset : Uuid) (msg : AssetMessage K) (messages : List (AssetMessage K)) :
    c.readings asset (msg :: messages) =
      (if msg.assetId = asset then (c.reading msg.metrics).toList else []) ++ c.readings asset messages := by
  unfold Counter.readings
  rw [List.filter_cons]
  by_cases h : msg.assetId = asset
  · rw [if_pos (decide_eq_true h), if_pos h, List.filterMap_cons]
    cases c.reading msg.metrics <;> rfl
  · rw [if_neg (by simpa using h), if_neg h]
    rfl

end

section
variable {K : Type} [Field K] [LinearOrder K]

/-- The facts of messages, one after the other. -/
def ingest (x : Settings K) : Memory K → List (AssetMessage K) → List (Facts K)
  | _, [] => []
  | m, msg :: rest =>
    let handled := handleAssetMetrics x m msg.assetId msg.metrics msg.now
    handled.2 :: ingest x handled.1 rest

/-! ## One message -/

theorem counterDelta_eq (previous : Dict String K) (key : String) (current : Option K) :
    counterDelta previous key current =
      (current.elim 0 (Climbing.delta (previous.get? key)), current.elim previous (previous.set key)) := by
  cases current with
  | none => rfl
  | some current =>
    unfold counterDelta Climbing.delta
    dsimp only [Option.elim]
    cases previous.get? key with
    | none => rfl
    | some last =>
      dsimp only
      split <;> rfl

/-- After a message the reading of the counter is kept, or the one before. -/
theorem get?_counterDelta (previous : Dict String K) (key key' : String) (current : Option K) :
    (counterDelta previous key current).2.get? key' =
      if key = key' then current.or (previous.get? key') else previous.get? key' := by
  rw [counterDelta_eq]
  cases current with
  | none => simp
  | some current =>
    change (previous.set key current).get? key' = _
    rw [Dict.get?_set]
    split <;> rfl

section
variable (previous : Dict String K) (assetId : Uuid) (metrics : Dict String (MetricValue K)) (now : Instant)

/-- Whether or not there is a row, both counters are read. -/
theorem productionRow_after : (productionRow previous assetId metrics now).1 =
    (counterDelta (counterDelta previous "good_count" (floatOf metrics "good_count")).2 "reject_count"
      (floatOf metrics "reject_count")).2 := by
  unfold productionRow
  dsimp only
  split
  · split <;> rfl
  · rename_i h
    simp only [not_or, Option.not_isSome_iff_eq_none] at h
    rw [h.1, h.2]
    rfl

/-- A row that is left out would have held nothing. -/
theorem productionRow_counts :
    ((productionRow previous assetId metrics now).2.map ProductionCount.goodCount).getD 0 =
        (counterDelta previous "good_count" (floatOf metrics "good_count")).1 ∧
      ((productionRow previous assetId metrics now).2.map ProductionCount.rejectCount).getD 0 =
        (counterDelta (counterDelta previous "good_count" (floatOf metrics "good_count")).2 "reject_count"
          (floatOf metrics "reject_count")).1 := by
  unfold productionRow
  dsimp only
  split
  · split
    · exact ⟨rfl, rfl⟩
    · rename_i h
      rw [not_or, not_ne_iff, not_ne_iff] at h
      exact ⟨h.1.symm, h.2.symm⟩
  · rename_i h
    simp only [not_or, Option.not_isSome_iff_eq_none] at h
    rw [h.1, h.2]
    exact ⟨rfl, rfl⟩

theorem assetId_productionRow {r : ProductionCount K} (h : (productionRow previous assetId metrics now).2 = some r) :
    r.assetId = assetId := by
  unfold productionRow at h
  dsimp only at h
  split at h
  · split at h
    · cases h
      rfl
    · cases h
  · cases h

variable (x : Settings K)

theorem energyRow_after : (energyRow x previous assetId metrics now).1 =
    (counterDelta previous "energy_kwh" (Counter.energy.reading metrics)).2 := by
  unfold energyRow Counter.reading
  cases floatOf metrics "power_kw" with
  | none => rfl
  | some powerKw => cases floatOf metrics "energy_kwh" <;> rfl

theorem energyRow_kwh : ((energyRow x previous assetId metrics now).2.map EnergyReading.energyKwh).getD 0 =
    (counterDelta previous "energy_kwh" (Counter.energy.reading metrics)).1 := by
  unfold energyRow Counter.reading
  cases floatOf metrics "power_kw" with
  | none => rfl
  | some powerKw => cases floatOf metrics "energy_kwh" <;> rfl

theorem assetId_energyRow {r : EnergyReading K} (h : (energyRow x previous assetId metrics now).2 = some r) :
    r.assetId = assetId := by
  unfold energyRow at h
  cases hpower : floatOf metrics "power_kw" with
  | none =>
    rw [hpower] at h
    cases h
  | some powerKw =>
    cases henergy : floatOf metrics "energy_kwh" with
    | none =>
      rw [hpower, henergy] at h
      cases h
    | some energyKwh =>
      rw [hpower, henergy] at h
      cases h
      rfl

end

section
variable (x : Settings K) (m : Memory K) (assetId : Uuid) (metrics : Dict String (MetricValue K)) (now : Instant) (c : Counter)

theorem added_assetId {e : Uuid × K} (h : c.added (handleAssetMetrics x m assetId metrics now).2 = some e) :
    e.1 = assetId := by
  cases c with
  | good =>
    obtain ⟨r, hr, rfl⟩ := Option.map_eq_some_iff.mp h
    exact assetId_productionRow _ _ _ _ hr
  | reject =>
    obtain ⟨r, hr, rfl⟩ := Option.map_eq_some_iff.mp h
    exact assetId_productionRow _ _ _ _ hr
  | energy =>
    obtain ⟨r, hr, rfl⟩ := Option.map_eq_some_iff.mp h
    exact assetId_energyRow _ _ _ _ x hr

/-- A message adds to a counter what its reading is above the one that is kept. -/
theorem added_handle : ((c.added (handleAssetMetrics x m assetId metrics now).2).map Prod.snd).getD 0 =
    (c.reading metrics).elim 0 (Climbing.delta (m.remembered assetId c)) := by
  have hcounts := productionRow_counts ((m.lastCounters.get? assetId).getD []) assetId metrics now
  cases c with
  | good =>
    have hkept : ((m.lastCounters.get? assetId).getD []).get? "good_count" = m.remembered assetId .good :=
      get?_previous m assetId .good
    have hgood := hcounts.1
    rw [counterDelta_eq, hkept] at hgood
    rw [Counter.added, Option.map_map]
    exact hgood
  | reject =>
    have hkept : ((m.lastCounters.get? assetId).getD []).get? "reject_count" = m.remembered assetId .reject :=
      get?_previous m assetId .reject
    have hreject := hcounts.2
    rw [counterDelta_eq _ "reject_count", get?_counterDelta, if_neg (by decide), hkept] at hreject
    rw [Counter.added, Option.map_map]
    exact hreject
  | energy =>
    have hkept : (productionRow ((m.lastCounters.get? assetId).getD []) assetId metrics now).1.get? "energy_kwh" =
        m.remembered assetId .energy := by
      rw [productionRow_after, get?_counterDelta, if_neg (by decide), get?_counterDelta, if_neg (by decide)]
      exact get?_previous m assetId .energy
    have hkwh := energyRow_kwh (productionRow ((m.lastCounters.get? assetId).getD []) assetId metrics now).1 assetId
      metrics now x
    rw [counterDelta_eq, hkept] at hkwh
    rw [Counter.added, Option.map_map]
    exact hkwh

/-- After a message the reading of a counter is kept until the next one of the same counter and asset. -/
theorem remembered_handle (asset : Uuid) : (handleAssetMetrics x m assetId metrics now).1.remembered asset c =
    if assetId = asset then (c.reading metrics).or (m.remembered asset c) else m.remembered asset c := by
  have hcounters : (handleAssetMetrics x m assetId metrics now).1.lastCounters = m.lastCounters.set assetId
      (counterDelta (counterDelta (counterDelta ((m.lastCounters.get? assetId).getD []) "good_count"
        (floatOf metrics "good_count")).2 "reject_count" (floatOf metrics "reject_count")).2 "energy_kwh"
        (Counter.energy.reading metrics)).2 := by
    rw [← productionRow_after _ assetId _ now, ← energyRow_after _ assetId _ now x]
    rfl
  rw [Memory.remembered, hcounters, Dict.get?_set]
  by_cases h : assetId = asset
  · subst h
    rw [if_pos rfl, if_pos rfl, Option.bind_some, get?_counterDelta, get?_counterDelta, get?_counterDelta]
    rw [get?_previous]
    cases c <;> simp [Counter.key, Counter.reading]
  · rw [if_neg h, if_neg h]
    rfl

end

/-! ## Any number of messages -/

/-- What the facts of a message add to the counter of an asset. -/
theorem sum_added (x : Settings K) (m : Memory K) (msg : AssetMessage K) (asset : Uuid) (c : Counter) :
    (((c.added (handleAssetMetrics x m msg.assetId msg.metrics msg.now).2).filter fun e => e.1 = asset).map
      Prod.snd).toList.sum =
        if msg.assetId = asset then (c.reading msg.metrics).elim 0 (Climbing.delta (m.remembered asset c)) else 0 := by
  have hadded := added_handle x m msg.assetId msg.metrics msg.now c
  cases hfact : c.added (handleAssetMetrics x m msg.assetId msg.metrics msg.now).2 with
  | none =>
    rw [hfact] at hadded
    split
    · rename_i h
      exact h ▸ hadded
    · rfl
  | some e =>
    rw [hfact] at hadded
    rw [Option.filter_some, added_assetId x m msg.assetId msg.metrics msg.now c hfact]
    by_cases h : msg.assetId = asset
    · rw [if_pos h, if_pos (decide_eq_true h), ← h, ← hadded]
      simp
    · rw [if_neg h, if_neg (by simpa using h)]
      rfl

theorem sum_deltas_ingest (x : Settings K) (m : Memory K) (messages : List (AssetMessage K)) (asset : Uuid) (c : Counter) :
    (c.deltas asset (ingest x m messages)).sum =
      (Climbing.deltas (m.remembered asset c) (c.readings asset messages)).sum := by
  induction messages generalizing m with
  | nil => rfl
  | cons msg messages ih =>
    rw [ingest, deltas_cons, List.sum_append, ih, remembered_handle, readings_cons, sum_added]
    by_cases h : msg.assetId = asset
    · simp only [h, if_true]
      cases c.reading msg.metrics with
      | none => simp
      | some reading => simp [Climbing.deltas]
    · simp [h]

theorem added_nonneg [IsStrictOrderedRing K] (x : Settings K) (m : Memory K) (assetId : Uuid)
    (metrics : Dict String (MetricValue K)) (now : Instant) (c : Counter) {e : Uuid × K}
    (h : c.added (handleAssetMetrics x m assetId metrics now).2 = some e) : 0 ≤ e.2 := by
  have hadded := added_handle x m assetId metrics now c
  rw [h, Option.map_some, Option.getD_some] at hadded
  rw [hadded]
  cases c.reading metrics with
  | none => exact le_refl 0
  | some reading => exact Climbing.delta_nonneg _ _

theorem deltas_nonneg [IsStrictOrderedRing K] (x : Settings K) (m : Memory K) (messages : List (AssetMessage K))
    (asset : Uuid) (c : Counter) : ∀ d ∈ c.deltas asset (ingest x m messages), 0 ≤ d := by
  induction messages generalizing m with
  | nil => simp [ingest, Counter.deltas]
  | cons msg messages ih =>
    intro d hd
    rw [ingest, deltas_cons] at hd
    rcases List.mem_append.mp hd with hd | hd
    · obtain ⟨e, he, rfl⟩ := Option.map_eq_some_iff.mp (Option.mem_toList.mp hd)
      exact added_nonneg x m _ _ _ c (Option.filter_eq_some_iff.mp he).1
    · exact ih _ d hd

end

/-- Whatever the messages, nothing negative is added to a counter, and what is added comes to what the counter
gains over its runs without a fall, from the reading on that is kept at the beginning. -/
theorem deltas_conserve (x : Settings ℝ) (m : Memory ℝ) (messages : List (AssetMessage ℝ)) (asset : Uuid) (c : Counter) :
    (∀ d ∈ c.deltas asset (ingest x m messages), 0 ≤ d) ∧
    (c.deltas asset (ingest x m messages)).sum =
      Climbing.climb ((m.remembered asset c).toList ++ c.readings asset messages) := by
  refine ⟨deltas_nonneg x m messages asset c, ?_⟩
  rw [sum_deltas_ingest, Climbing.sum_deltas]

end TwinVoice.Ingest.AssetMetrics
