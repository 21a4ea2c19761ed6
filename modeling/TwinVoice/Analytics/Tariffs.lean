import Mathlib.Data.List.Induction
import Mathlib.Data.List.Perm.Basic
import TwinVoice.Analytics.Calendar
import TwinVoice.Lib.Dict
import TwinVoice.Lib.Table
import TwinVoice.Maintenance.Planning

/-! # Electricity tariffs

A tariff is a window of the plant's local time with a rate. Four places look
the rate at an instant up: the ingest in the plant's local time, the quote and
the what-if in UTC, and the optimiser for every slot on the clock of the
horizon, among the tariffs of all plants. -/

namespace TwinVoice.Analytics

open TwinVoice.Lib

/-- A row of `plants`; local time is `offset` ahead of UTC. -/
structure Plant where
  id : Uuid
  offset : Int
  deriving DecidableEq

structure Line where
  id : Uuid
  plantId : Uuid
  deriving DecidableEq

structure Asset where
  id : Uuid
  lineId : Uuid
  deriving DecidableEq

structure Tariff where
  id : Uuid
  plantId : Uuid
  startsLocal : TimeOfDay
  endsLocal : TimeOfDay
  ratePerKwh : Rat
  daysOfWeek : List Int
  deriving DecidableEq

instance : Keyed Plant Uuid := ⟨Plant.id⟩
instance : Keyed Line Uuid := ⟨Line.id⟩
instance : Keyed Asset Uuid := ⟨Asset.id⟩
instance : Keyed Tariff Uuid := ⟨Tariff.id⟩

/-- The rows that are not deleted. -/
structure Site where
  plants : Table Plant
  lines : Table Line
  assets : Table Asset
  tariffs : Table Tariff

/-- The window covers a local time. -/
def Tariff.Covers (w : Tariff) (moment : Int) : Prop :=
  weekday (dayOf moment) ∈ w.daysOfWeek ∧ Within (clockOf moment) w.startsLocal w.endsLocal

instance (w : Tariff) (moment : Int) : Decidable (w.Covers moment) := inferInstanceAs (Decidable (_ ∧ _))

/-- `rate_at`. -/
def rateAt (tariffs : List Tariff) (moment : Int) : Rat :=
  match tariffs.find? (·.Covers moment) with
  | some w => w.ratePerKwh
  | none => 0

namespace Site

/-- `all_active`: by start, of one plant or of all. -/
def allActive (db : Site) (plantId : Option Uuid) : List Tariff :=
  (db.tariffs.select fun w => plantId.all (w.plantId = ·)).insertionSort fun w w' => w.startsLocal ≤ w'.startsLocal

/-- A row of the join of `_load_tariffs`. -/
structure JoinRow where
  assetId : Uuid
  timezone : Int
  tariffId : Uuid
  deriving DecidableEq

/-- The join of `_load_tariffs`, which comes back in any order. -/
def join (db : Site) : List JoinRow :=
  db.tariffs.rows.flatMap fun w =>
    (db.plants.select (·.id = w.plantId)).flatMap fun p =>
      (db.lines.select (·.plantId = p.id)).flatMap fun l =>
        (db.assets.select (·.lineId = l.id)).map fun a => ⟨a.id, p.offset, w.id⟩

/-- `_load_tariffs`, for the rows of the join in the order they come. -/
def loadTariffs (db : Site) (rows : List JoinRow) : Dict Uuid (Int × List Tariff) :=
  rows.foldl (fun byAsset r =>
    match db.tariffs.find r.tariffId with
    | none => byAsset
    | some w =>
      let entry := (byAsset.get? r.assetId).getD (r.timezone, [])
      byAsset.set r.assetId (entry.1, entry.2 ++ [w])) []

/-- `_tariff_rate`. -/
def tariffRate (entry : Option (Int × List Tariff)) (at' : Int) : Option Rat :=
  match entry with
  | none => none
  | some (timezone, tariffs) =>
    let rate := rateAt tariffs (at' + timezone)
    if rate ≠ 0 then some rate else none

/-- `rate_now`. -/
def rateNow (db : Site) (plantId : Uuid) (now : Int) : Rat := rateAt (db.allActive (some plantId)) now

/-- `WhatIfService._tariff`, of which the currency is left out. -/
def whatIfTariff (db : Site) (asset : Asset) (now : Int) : Option Rat :=
  match (db.lines.find asset.lineId).bind fun l => db.plants.find l.plantId with
  | none => none
  | some plant =>
    let tariffs := db.allActive (some plant.id)
    let rate := if tariffs.isEmpty then none else some (rateAt tariffs now)
    rate.filter (· ≠ 0)

/-- `_tariff_per_slot`; the clock of the horizon is `offset` ahead of UTC. -/
def tariffPerSlot (db : Site) (offset : Int) (horizonStart : Int) (nSlots : Nat) : List Rat :=
  let tariffs := db.allActive none
  if tariffs.isEmpty then []
  else (List.range nSlots).map fun slot => rateAt tariffs (Maintenance.slotTime horizonStart slot + offset)

/-- What the schedule service is given of the tariffs to call the optimiser with. -/
theorem tariffPerSlot_eq (db : Site) (offset horizonStart : Int) (nSlots : Nat) (p : Maintenance.Planning)
    (h : p.rateAt = if (db.allActive none).isEmpty then none
      else some fun t => rateAt (db.allActive none) (t + offset)) :
    Maintenance.tariffPerSlot p horizonStart nSlots = db.tariffPerSlot offset horizonStart nSlots := by
  unfold Maintenance.tariffPerSlot tariffPerSlot
  rw [h]
  by_cases hnone : (db.allActive none).isEmpty = true
  · simp [hnone]
  · simp [hnone]

/-! ## The windows of an asset's plant -/

/-- The tariffs that the ingest keeps for an asset, in the order of its rows. -/
def windowsOf (db : Site) (rows : List JoinRow) (assetId : Uuid) : List Tariff :=
  (rows.filter (·.assetId = assetId)).filterMap fun r => db.tariffs.find r.tariffId

theorem get?_loadTariffs (db : Site) {rows : List JoinRow} {assetId : Uuid} {timezone : Int}
    (h : ∀ r ∈ rows, r.assetId = assetId → r.timezone = timezone) :
    (db.loadTariffs rows).get? assetId =
      if db.windowsOf rows assetId = [] then none else some (timezone, db.windowsOf rows assetId) := by
  induction rows using List.reverseRecOn with
  | nil => rfl
  | append_singleton rows r ih =>
    have hrows := ih fun r' hr' => h r' (List.mem_append_left _ hr')
    have hlast := h r (by simp)
    have hwindows : db.windowsOf (rows ++ [r]) assetId =
        db.windowsOf rows assetId ++ if r.assetId = assetId then (db.tariffs.find r.tariffId).toList else [] := by
      unfold windowsOf
      rw [List.filter_append, List.filterMap_append]
      by_cases hr : r.assetId = assetId
      · cases hfind : db.tariffs.find r.tariffId <;> simp [hr, hfind]
      · simp [hr]
    unfold loadTariffs at hrows ⊢
    rw [List.foldl_append, List.foldl_cons, List.foldl_nil, hwindows]
    generalize rows.foldl _ _ = byAsset at *
    cases hfind : db.tariffs.find r.tariffId with
    | none => simpa [hfind] using hrows
    | some w =>
      by_cases hr : r.assetId = assetId
      · subst hr
        simp only [Dict.get?_set, if_true, hrows, hlast rfl]
        split <;> simp [*]
      · simp only [Dict.get?_set, hr, if_false, hrows, List.append_nil]

section
variable {db : Site} {plant : Plant} {line : Line} {asset : Asset}

/-- The asset stands on a line of the plant. -/
structure Stands (db : Site) (plant : Plant) (line : Line) (asset : Asset) : Prop where
  hasAsset : asset ∈ db.assets.rows
  hasLine : line ∈ db.lines.rows
  hasPlant : plant ∈ db.plants.rows
  onLine : asset.lineId = line.id
  inPlant : line.plantId = plant.id

/-- What the join has for an asset: every tariff of its plant, under the plant's timezone. -/
theorem join_of_asset (h : Stands db plant line asset) :
    db.join.filter (·.assetId = asset.id) =
      db.tariffs.rows.flatMap fun w =>
        if plant.id = w.plantId then [⟨asset.id, plant.offset, w.id⟩] else [] := by
  have hassets : ∀ (p : Plant) (l : Line) (w : Tariff),
      ((db.assets.select (·.lineId = l.id)).map fun a => (⟨a.id, p.offset, w.id⟩ : JoinRow)).filter
        (·.assetId = asset.id) = if l.id = line.id then [⟨asset.id, p.offset, w.id⟩] else [] := by
    intro p l w
    rw [List.map_eq_flatMap, List.filter_flatMap]
    have hpick := db.assets.flatMap_select h.hasAsset (·.lineId = l.id) [(⟨asset.id, p.offset, w.id⟩ : JoinRow)]
    simp only [decide_eq_true_eq, h.onLine, @eq_comm _ line.id] at hpick
    rw [← hpick]
    refine List.flatMap_congr fun a _ => ?_
    show _ = if a.id = asset.id then _ else []
    by_cases ha : a.id = asset.id <;> simp [ha]
  have hlines : ∀ p ∈ db.plants.rows, ∀ w : Tariff,
      ((db.lines.select (·.plantId = p.id)).flatMap fun l =>
        if l.id = line.id then [(⟨asset.id, p.offset, w.id⟩ : JoinRow)] else []) =
        if p.id = plant.id then [⟨asset.id, plant.offset, w.id⟩] else [] := by
    intro p hp w
    have hpick := db.lines.flatMap_select h.hasLine (·.plantId = p.id) [(⟨asset.id, p.offset, w.id⟩ : JoinRow)]
    simp only [decide_eq_true_eq, h.inPlant, @eq_comm _ plant.id] at hpick
    refine hpick.trans ?_
    split
    · rename_i hid
      have hsame : p = plant := by
        have hfind := Table.find_iff.mpr ⟨h.hasPlant, hid.symm⟩
        exact Option.some.inj ((Table.find_iff.mpr ⟨hp, rfl⟩).symm.trans hfind)
      rw [hsame]
    · rfl
  have hplants : ∀ w : Tariff,
      ((db.plants.select (·.id = w.plantId)).flatMap fun p =>
        if p.id = plant.id then [(⟨asset.id, plant.offset, w.id⟩ : JoinRow)] else []) =
        if plant.id = w.plantId then [⟨asset.id, plant.offset, w.id⟩] else [] := by
    intro w
    have hpick := db.plants.flatMap_select h.hasPlant (·.id = w.plantId) [(⟨asset.id, plant.offset, w.id⟩ : JoinRow)]
    simp only [decide_eq_true_eq] at hpick
    exact hpick
  simp only [join, List.filter_flatMap, hassets]
  refine List.flatMap_congr fun w _ => ?_
  rw [← hplants w]
  refine List.flatMap_congr fun p hp => ?_
  exact hlines p (List.mem_filter.mp hp).1 w

theorem timezone_of_asset {rows : List JoinRow} (h : Stands db plant line asset) (hrows : rows.Perm db.join) :
    ∀ r ∈ rows, r.assetId = asset.id → r.timezone = plant.offset := by
  intro r hr hasset
  have hmem : r ∈ db.join.filter (·.assetId = asset.id) :=
    List.mem_filter.mpr ⟨hrows.mem_iff.mp hr, decide_eq_true hasset⟩
  rw [join_of_asset h] at hmem
  obtain ⟨w, _, hw⟩ := List.mem_flatMap.mp hmem
  split at hw
  · rw [List.mem_singleton.mp hw]
  · cases hw

/-- The ingest keeps the tariffs of the asset's plant. -/
theorem windowsOf_perm {rows : List JoinRow} (h : Stands db plant line asset) (hrows : rows.Perm db.join) :
    (db.windowsOf rows asset.id).Perm (db.tariffs.select (plant.id = ·.plantId)) := by
  have hperm : (db.windowsOf rows asset.id).Perm
      ((db.join.filter (·.assetId = asset.id)).filterMap fun r => db.tariffs.find r.tariffId) :=
    (hrows.filter _).filterMap _
  refine hperm.trans (List.Perm.of_eq ?_)
  rw [join_of_asset h, List.filterMap_flatMap, Table.select, ← List.filterMap_eq_filter,
    List.filterMap_eq_flatMap_toList]
  refine List.flatMap_congr fun w hw => ?_
  have hfind : db.tariffs.find w.id = some w := Table.find_iff.mpr ⟨hw, rfl⟩
  by_cases hplant : plant.id = w.plantId
  · simp [hplant, Option.guard, hfind]
  · simp [hplant, Option.guard]

end

/-! ## The four rates -/

/-- The rate of a window that covers a local time, and 0 if there is none. -/
def Charged (tariffs : List Tariff) (moment : Int) (rate : Rat) : Prop :=
  (∃ w ∈ tariffs, w.Covers moment ∧ w.ratePerKwh = rate) ∨ ((∀ w ∈ tariffs, ¬ w.Covers moment) ∧ rate = 0)

/-- At the start of a slot the ingest, the quote, the what-if and the optimiser use one
rate, and it is that of a window of the plant that covers the plant's local time. -/
def RatesAgree (db : Site) (rows : List JoinRow) (plant : Plant) (asset : Asset)
    (horizonStart horizonOffset : Int) (nSlots slot : Nat) : Prop :=
  let t := Maintenance.slotTime horizonStart slot
  ∃ rate, Charged (db.tariffs.select (plant.id = ·.plantId)) (t + plant.offset) rate ∧
    (tariffRate ((db.loadTariffs rows).get? asset.id) t).getD 0 = rate ∧
    db.rateNow plant.id t = rate ∧
    (db.whatIfTariff asset t).getD 0 = rate ∧
    Maintenance.Optimiser.tariff (db.tariffPerSlot horizonOffset horizonStart nSlots) slot = rate

/-- What the first of some windows that covers a local time charges. -/
def firstCharge (windows : List Tariff) (moment : Int) : Rat :=
  ((windows.find? (·.Covers moment)).map Tariff.ratePerKwh).getD 0

/-- The clocks that are read make no difference: the first window of the plant at the UTC time of
day, and the first of all windows on the clock of the horizon, charge what the first window of
the plant charges at its local time, in the order of the ingest. -/
def ClocksAgree (db : Site) (rows : List JoinRow) (plant : Plant) (asset : Asset) (t horizonOffset : Int) : Prop :=
  firstCharge (db.allActive (some plant.id)) t =
      firstCharge (db.windowsOf rows asset.id) (t + plant.offset) ∧
    firstCharge (db.allActive none) (t + horizonOffset) =
      firstCharge (db.windowsOf rows asset.id) (t + plant.offset)

instance (db : Site) (rows : List JoinRow) (plant : Plant) (asset : Asset) (t horizonOffset : Int) :
    Decidable (ClocksAgree db rows plant asset t horizonOffset) :=
  inferInstanceAs (Decidable (_ ∧ _))

section
variable {db : Site} {plant : Plant} {line : Line} {asset : Asset} {rows : List JoinRow}

theorem rateAt_eq (windows : List Tariff) (moment : Int) : rateAt windows moment = firstCharge windows moment := by
  unfold rateAt firstCharge
  cases windows.find? (·.Covers moment) <;> rfl

theorem charged_rateAt (windows : List Tariff) (moment : Int) :
    Charged windows moment (rateAt windows moment) := by
  unfold rateAt
  split
  · rename_i w hw
    exact .inl ⟨w, List.mem_of_find?_eq_some hw,
      of_decide_eq_true (List.find?_some (p := fun w => decide (Tariff.Covers w moment)) hw), rfl⟩
  · rename_i hnone
    refine .inr ⟨fun w hw hcovers => ?_, rfl⟩
    exact List.find?_eq_none.mp hnone w hw (decide_eq_true hcovers)

theorem charged_perm {windows windows' : List Tariff} {moment : Int} {rate : Rat} (h : windows.Perm windows') :
    Charged windows moment rate ↔ Charged windows' moment rate := by
  unfold Charged
  simp only [h.mem_iff]

theorem ingest_rate (h : Stands db plant line asset) (hrows : rows.Perm db.join) (t : Int) :
    (tariffRate ((db.loadTariffs rows).get? asset.id) t).getD 0 =
      rateAt (db.windowsOf rows asset.id) (t + plant.offset) := by
  rw [get?_loadTariffs db (timezone_of_asset h hrows)]
  split
  · rename_i hnone
    rw [hnone]
    rfl
  · simp only [tariffRate]
    split
    · rfl
    · rename_i hzero
      exact (not_not.mp hzero).symm

theorem whatIf_rate (h : Stands db plant line asset) (t : Int) :
    (db.whatIfTariff asset t).getD 0 = rateAt (db.allActive (some plant.id)) t := by
  have hline : db.lines.find asset.lineId = some line := Table.find_iff.mpr ⟨h.hasLine, h.onLine.symm⟩
  have hplant : db.plants.find line.plantId = some plant := Table.find_iff.mpr ⟨h.hasPlant, h.inPlant.symm⟩
  unfold whatIfTariff
  rw [hline, Option.bind_some, hplant]
  dsimp only
  split
  · rename_i hnone
    rw [List.isEmpty_iff.mp hnone]
    rfl
  · by_cases hzero : rateAt (db.allActive (some plant.id)) t = 0
    · rw [hzero]
      rfl
    · rw [Option.filter_some, if_pos (decide_eq_true hzero), Option.getD_some]

theorem slot_rate {horizonStart : Int} (offset : Int) {nSlots slot : Nat} (h : slot < nSlots) :
    Maintenance.Optimiser.tariff (db.tariffPerSlot offset horizonStart nSlots) slot =
      rateAt (db.allActive none) (Maintenance.slotTime horizonStart slot + offset) := by
  unfold tariffPerSlot Maintenance.Optimiser.tariff
  dsimp only
  split
  · rename_i hnone
    rw [List.isEmpty_iff.mp hnone]
    rfl
  · have hlast : min slot (nSlots - 1) = slot := by omega
    have hnth : (List.range nSlots)[slot]? = some slot := List.getElem?_range h
    rw [List.length_map, List.length_range, hlast, List.getD_eq_getElem?_getD, List.getElem?_map, hnth]
    rfl

end

end Site

/-- A plant five and a half hours ahead of UTC, with a rate for the day and one for the night. -/
def indianPlant : Site where
  plants := ⟨[⟨1, 19800000000⟩], List.nodup_singleton _⟩
  lines := ⟨[⟨2, 1⟩], List.nodup_singleton _⟩
  assets := ⟨[⟨3, 2⟩], List.nodup_singleton _⟩
  tariffs := ⟨[⟨4, 1, .ofHour 6, .ofHour 22, 8, [0, 1, 2, 3, 4, 5, 6]⟩,
    ⟨5, 1, .ofHour 22, .ofHour 6, 5, [0, 1, 2, 3, 4, 5, 6]⟩],
    List.nodup_cons.mpr ⟨fun h => absurd (List.mem_singleton.mp h) (by decide), List.nodup_singleton _⟩⟩

end TwinVoice.Analytics
