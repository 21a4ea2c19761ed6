import TwinVoice.Analytics.Kpis
import TwinVoice.Analytics.Shifts
import TwinVoice.Lib.Dict

/-! # The KPI rollup

The beat starts `rollup_kpis` at fixed minutes. A run computes the KPIs of the
period that is current when it starts, over the whole period and from what is
on record by then, and overwrites the rows stored under the start of the
period. So the rows that stay are those of the last run before the period is
over, and they tell of the whole period only if nothing has happened since. -/

namespace TwinVoice.Analytics

open TwinVoice.Lib Timeline

/-! ## The task and its schedule -/

/-- The periods that the beat asks for. -/
inductive Period
  | day | shift
  deriving DecidableEq

/-- `beat_schedule`: every hour at five past, and at six, fourteen and twenty-two. -/
def Scheduled : Period → Int → Prop
  | .day, t => t % 3600000000 = 300000000
  | .shift, t => clockOf t ∈ [TimeOfDay.ofHour 6, .ofHour 14, .ofHour 22]

/-- What a plant's periods depend on: its shifts in their order and its offset from UTC. -/
structure Calendar where
  shifts : List ShiftRow
  offset : Int

/-- `_period_bounds`. -/
def Calendar.periodBounds (c : Calendar) : Period → Int → Int × Int
  | .day, now => calendarDay c.offset (now + c.offset)
  | .shift, now => shiftBounds c.shifts c.offset now

/-- The rows of one scope and kind of period, by the start of the period and the code. -/
abbrev KpiValues := Dict (Int × String) KpiResult

section
variable (h : History) (scope : Scope) (c : Calendar) (p : Period)

/-- What a run at `now` computes. -/
def computedAt (now : Int) : List KpiResult :=
  (h.before now).kpis scope (c.periodBounds p now).1 (c.periodBounds p now).2

/-- A run: `rollup` over the current period, with `upsert_many`. -/
def rollup (values : KpiValues) (now : Int) : KpiValues :=
  (computedAt h scope c p now).foldl (fun d k => d.set ((c.periodBounds p now).1, k.code) k) values

def stored (runs : List Int) : KpiValues := runs.foldl (rollup h scope c p) []

end

/-- The runs that have been executed at `now`: all that were due since some time, in order. -/
structure Executed (p : Period) (since now : Int) (runs : List Int) : Prop where
  ordered : runs.Pairwise (· < ·)
  due : ∀ r, r ∈ runs ↔ Scheduled p r ∧ since ≤ r ∧ r < now

/-! ## Periods -/

theorem calendarDay_covers (offset now : Int) :
    (calendarDay offset (now + offset)).1 ≤ now ∧ now < (calendarDay offset (now + offset)).2 := by
  have hsplit := combine_dayOf_clockOf (now + offset)
  have hnonneg := (clockOf (now + offset)).nonneg
  have hlt := (clockOf (now + offset)).lt_day
  simp only [combine, calendarDay, midnight] at *
  omega

theorem latest_covers {s : Shift} {offset now : Int} (h : s.OnHours (clockOf (now + offset))) :
    ((s.latest (dayOf (now + offset)) (clockOf (now + offset))).bounds offset).1 ≤ now ∧
      now < ((s.latest (dayOf (now + offset)) (clockOf (now + offset))).bounds offset).2 := by
  have hsplit := combine_dayOf_clockOf (now + offset)
  generalize clockOf (now + offset) = clock at *
  generalize dayOf (now + offset) = today at *
  have hcovers : (s.latest today clock).start ≤ combine today clock ∧
      combine today clock < (s.latest today clock).stop := by
    unfold Shift.latest
    by_cases hover : s.CarriesOver clock
    · rw [if_pos hover]
      exact (covers_yesterday s today clock).mpr hover
    · rw [if_neg hover]
      exact (covers_today s today clock).mpr (h.2.resolve_left hover)
  simp only [Occurrence.bounds]
  omega

/-- The current period is current. -/
theorem periodBounds_covers (c : Calendar) (p : Period) (now : Int) :
    (c.periodBounds p now).1 ≤ now ∧ now < (c.periodBounds p now).2 := by
  cases p with
  | day => exact calendarDay_covers c.offset now
  | shift =>
    rw [Calendar.periodBounds, shiftBounds_eq]
    dsimp only
    split
    · rename_i s hfind
      have hon := List.find?_some hfind
      exact latest_covers (of_decide_eq_true hon).2
    · exact calendarDay_covers c.offset now

/-! ## What the KPIs depend on -/

namespace History

variable {h h' : History} {scope : Scope} {start stop stop' : Int}

/-- Whether the machine is in a state of some kind, by the last event. -/
def In (h : History) (kind : MachineState → Prop) (t : Int) : Prop :=
  ∃ e, inForce StateEvent.time h.events t = some e ∧ kind e.state

theorem ordered_stateEvents (h : History) (start stop : Int) : Ordered StateEvent.time (h.stateEvents start stop) := by
  refine List.pairwise_append.mpr ⟨?_, h.ordered.filter _, ?_⟩
  · cases (h.events.filter fun e => e.time < start).getLast? <;> simp
  · intro x hx y hy
    have hearly := List.mem_of_getLast? (Option.mem_toList.mp hx)
    have hxt := of_decide_eq_true (List.mem_filter.mp hearly).2
    have hyt := (of_decide_eq_true (List.mem_filter.mp hy).2).1
    exact hxt.le.trans hyt

/-- The time in states of a kind is told by the instants at which the machine is in one. -/
theorem timeIn_congr {kind : MachineState → Prop} [DecidablePred kind]
    (hin : ∀ t, (start ≤ t ∧ t < stop) ∧ h.In kind t ↔ (start ≤ t ∧ t < stop') ∧ h'.In kind t) :
    timeIn kind (h.durations start stop) = timeIn kind (h'.durations start stop') := by
  unfold durations
  rw [timeIn_durationsFromEvents (h.ordered_stateEvents start stop),
    timeIn_durationsFromEvents (h'.ordered_stateEvents start stop')]
  congr 2
  ext t
  have hmem : ∀ (h : History) (stop : Int),
      t ∈ instants StateEvent.time start stop (fun e => kind e.state) (h.stateEvents start stop) ↔
        (start ≤ t ∧ t < stop) ∧ h.In kind t := by
    intro h stop
    rw [mem_instants]
    refine and_congr_right fun ht => ?_
    rw [stateEvents, inForce_carried StateEvent.time h.ordered ht.1 ht.2]
    rfl
  rw [hmem, hmem]
  exact hin t

/-- The KPIs of a period are told by its times, its rows and the idle energy. -/
theorem kpis_congr
    (hrun : runTime (h.durations start stop) = runTime (h'.durations start stop'))
    (hplanned : plannedTime (h.durations start stop) = plannedTime (h'.durations start stop'))
    (hproduced : h.produced start stop = h'.produced start stop')
    (hbreakdowns : h.breakdowns start stop = h'.breakdowns start stop')
    (hrepaired : h.repaired start stop = h'.repaired start stop')
    (hmetered : h.metered start stop = h'.metered start stop')
    (hidle : h.idleEnergyKwh start stop = h'.idleEnergyKwh start stop') :
    h.kpis scope start stop = h'.kpis scope start stop' := by
  unfold kpis computeAll availability goodCount rejectCount repairTimeS energyKwh cost peakKw
  rw [hrun, hplanned, hproduced, hbreakdowns, hrepaired, hmetered, hidle]

/-! ## Which rows there are -/

theorem codes_kpis (h : History) (scope : Scope) (start stop : Int) :
    (h.kpis scope start stop).map KpiResult.code =
      ["availability", "performance", "quality", "oee", "mtbf", "mttr", "idle_energy_share", "peak_demand"] ++
        if 0 < h.goodCount start stop then ["energy_per_unit"] else [] := by
  unfold kpis
  rw [List.map_append, codes_computeAll, codes_energyResults]
  rfl

theorem nodup_codes (h : History) (scope : Scope) (start stop : Int) :
    ((h.kpis scope start stop).map KpiResult.code).Nodup := by
  rw [codes_kpis]
  split <;> decide

/-- More units are on record later, so no row goes missing. -/
theorem codes_subset (h : History) (scope : Scope) (start : Int) {stop : Int} (stop' : Int) {r r' : Int}
    (hle : r' ≤ r) (hstop : r ≤ stop) :
    ((h.before r').kpis scope start stop').map KpiResult.code ⊆
      ((h.before r).kpis scope start stop).map KpiResult.code := by
  have hgood : (h.before r').goodCount start stop' ≤ (h.before r).goodCount start stop := by
    refine List.Sublist.sum_le_sum (List.Sublist.map _ ?_) fun _ _ => Nat.zero_le _
    unfold produced before
    dsimp only
    rw [List.filter_filter, List.filter_filter]
    refine List.monotone_filter_right _ ?_
    intro x hx
    simp only [Bool.and_eq_true, decide_eq_true_eq] at *
    omega
  rw [codes_kpis, codes_kpis]
  by_cases hpos : 0 < (h.before r').goodCount start stop'
  · rw [if_pos hpos, if_pos (hpos.trans_le hgood)]
    exact List.Subset.refl _
  · rw [if_neg hpos, List.append_nil]
    exact List.subset_append_left _ _

end History

/-! ## What is stored -/

section
variable {h : History} {scope : Scope} {c : Calendar} {p : Period} {start stop : Int}

theorem get?_rollup (values : KpiValues) (now start : Int) (code : String) :
    (rollup h scope c p values now).get? (start, code) =
      if (c.periodBounds p now).1 = start then
        ((computedAt h scope c p now).find? (·.code = code)).or (values.get? (start, code))
      else values.get? (start, code) := by
  have hnodup : ((computedAt h scope c p now).map
      fun k => ((c.periodBounds p now).1, k.code)).Nodup := by
    have hcodes := (History.nodup_codes (h.before now) scope (c.periodBounds p now).1 (c.periodBounds p now).2).map
      (Prod.mk_right_injective (c.periodBounds p now).1)
    rwa [List.map_map] at hcodes
  rw [rollup, Dict.get?_foldl_set (κ := Int × String) hnodup]
  by_cases hstart : (c.periodBounds p now).1 = start
  · simp [hstart]
  · have hnone : (computedAt h scope c p now).find?
        (fun k => ((c.periodBounds p now).1, k.code) = (start, code)) = none :=
      List.find?_eq_none.mpr fun k _ hk => hstart (Prod.mk.inj (of_decide_eq_true hk)).1
    rw [hnone, if_neg hstart, Option.none_or]

/-- Runs of periods with other starts leave the rows of a period alone. -/
theorem get?_of_other_starts {runs : List Int} (values : KpiValues) (code : String)
    (hother : ∀ r ∈ runs, (c.periodBounds p r).1 ≠ start) :
    (runs.foldl (rollup h scope c p) values).get? (start, code) = values.get? (start, code) := by
  induction runs generalizing values with
  | nil => rfl
  | cons r rs ih =>
    rw [List.foldl_cons, ih _ fun x hx => hother x (List.mem_cons_of_mem r hx), get?_rollup,
      if_neg (hother r List.mem_cons_self)]

/-- A row that no run has computed is not there. -/
theorem get?_of_none {runs : List Int} {values : KpiValues} {code : String}
    (hvalues : values.get? (start, code) = none)
    (hnone : ∀ r ∈ runs, (c.periodBounds p r).1 = start → (computedAt h scope c p r).find? (·.code = code) = none) :
    (runs.foldl (rollup h scope c p) values).get? (start, code) = none := by
  induction runs generalizing values with
  | nil => exact hvalues
  | cons r rs ih =>
    rw [List.foldl_cons]
    refine ih ?_ fun x hx => hnone x (List.mem_cons_of_mem r hx)
    rw [get?_rollup]
    split
    · rename_i hstart
      rw [hnone r List.mem_cons_self hstart, hvalues]
      rfl
    · exact hvalues

/-- The rows under a start are those that the last run for it has computed. -/
theorem stored_eq_last {since now : Int} {runs : List Int} (hexecuted : Executed p since now runs) {r : Int}
    (hr : r ∈ runs) (hlast : ∀ r' ∈ runs, r < r' → (c.periodBounds p r').1 ≠ (c.periodBounds p r).1)
    (code : String) :
    (stored h scope c p runs).get? ((c.periodBounds p r).1, code) =
      (computedAt h scope c p r).find? (·.code = code) := by
  obtain ⟨earlier, later, rfl⟩ := List.append_of_mem hr
  obtain ⟨-, hlater, hbetween⟩ := List.pairwise_append.mp hexecuted.ordered
  have hother : ∀ r' ∈ later, (c.periodBounds p r').1 ≠ (c.periodBounds p r).1 := by
    intro r' hr'
    have hmem : r' ∈ earlier ++ r :: later := List.mem_append_right _ (List.mem_cons_of_mem r hr')
    exact hlast r' hmem ((List.pairwise_cons.mp hlater).1 r' hr')
  rw [stored, List.foldl_append, List.foldl_cons, get?_of_other_starts _ _ hother, get?_rollup, if_pos rfl]
  cases hfind : (computedAt h scope c p r).find? (·.code = code) with
  | some k => rfl
  | none =>
    -- a row of an earlier run would have its code among those of this run
    rw [Option.none_or]
    refine get?_of_none rfl ?_
    intro r' hr' hstart
    refine List.find?_eq_none.mpr fun k hk hcode => ?_
    have hle : r' ≤ r := (hbetween r' hr' r List.mem_cons_self).le
    have hcodes := h.codes_subset scope (c.periodBounds p r).1 (c.periodBounds p r').2 hle
      (periodBounds_covers c p r).2.le
    rw [computedAt, hstart] at hk
    obtain ⟨k', hk', hsame⟩ := List.mem_map.mp (hcodes (List.mem_map_of_mem hk))
    have hne := List.find?_eq_none.mp hfind k' hk'
    rw [hsame] at hne
    exact hne hcode

/-! ## When the rows are right -/

/-- Nothing happens from a run to the end of a period that the rows of the period should tell of. -/
structure History.Settled (h : History) (start stop r : Int) : Prop where
  running : ∀ t, r ≤ t → t < stop → (h.In (· = .running) t ↔ (h.before r).In (· = .running) r)
  planned : ∀ t, r ≤ t → t < stop → (h.In (· ≠ .maintenance) t ↔ (h.before r).In (· ≠ .maintenance) r)
  breakdowns : ∀ e ∈ h.events, e.state = .down → e.causeCode = some "breakdown" → r ≤ e.time → stop ≤ e.time
  production : ∀ x ∈ h.production, r ≤ x.time → stop ≤ x.time
  energy : ∀ x ∈ h.energy, r ≤ x.time → stop ≤ x.time
  repairs : ∀ w ∈ h.repairs, start ≤ w.actualEnd → w.actualEnd < stop → w.closed < r

/-- At a run no time is counted from it on. -/
structure History.Uncounted (h : History) (r stop : Int) : Prop where
  state : ¬ (h.before r).In (· ≠ .maintenance) r
  repairs : ∀ w ∈ h.repairs, w.closed < r → r ≤ w.actualEnd → stop ≤ w.actualEnd

/-- A run is due during the period, none that is due later up to now has its start, and nothing
happens from it to the end of the period. -/
def RolledUp (h : History) (c : Calendar) (p : Period) (now start stop : Int) : Prop :=
  ∃ r, Scheduled p r ∧ c.periodBounds p r = (start, stop) ∧
    (∀ r', Scheduled p r' → r < r' → r' < now → (c.periodBounds p r').1 ≠ start) ∧ h.Settled start stop r

/-- The rows of a period are its KPIs. -/
def Whole (h : History) (scope : Scope) (c : Calendar) (p : Period) (runs : List Int) (start stop : Int) : Prop :=
  ∀ code, (stored h scope c p runs).get? (start, code) = (h.kpis scope start stop).find? (·.code = code)

/-- The rows that a run writes are the KPIs of the part of the period that is over. -/
def Elapsed (h : History) (scope : Scope) (c : Calendar) (p : Period) (r : Int) : Prop :=
  computedAt h scope c p r = (h.before r).kpis scope (c.periodBounds p r).1 r

namespace History

theorem in_before {kind : MachineState → Prop} {r t : Int} (ht : t < r) :
    (h.before r).In kind t ↔ h.In kind t := by
  unfold In before
  rw [inForce_filter StateEvent.time fun e _ hle => decide_eq_true (lt_of_le_of_lt hle ht)]

/-- No event is on record from an instant on, so the last one stays. -/
theorem in_before_of_le {kind : MachineState → Prop} {r t : Int} (ht : r ≤ t) :
    (h.before r).In kind t ↔ (h.before r).In kind r := by
  have hold : ∀ e ∈ (h.before r).events, e.time ≤ r := fun e he =>
    (of_decide_eq_true (List.mem_filter.mp he).2).le
  unfold In
  rw [inForce_eq_getLast StateEvent.time hold,
    inForce_eq_getLast StateEvent.time fun e he => (hold e he).trans ht]

theorem filter_before {ρ : Type} {xs : List ρ} {old p : ρ → Bool} (h : ∀ x ∈ xs, p x = true → old x = true) :
    (xs.filter old).filter p = xs.filter p := by
  rw [List.filter_filter]
  refine List.filter_congr fun x hx => ?_
  cases hp : p x with
  | false => rfl
  | true => simp [h x hx hp]

theorem timeIn_before {kind : MachineState → Prop} [DecidablePred kind] {r : Int}
    (hsteady : ∀ t, r ≤ t → t < stop → (h.In kind t ↔ (h.before r).In kind r)) :
    timeIn kind ((h.before r).durations start stop) = timeIn kind (h.durations start stop) := by
  refine timeIn_congr fun t => and_congr_right fun ht => ?_
  by_cases hr : t < r
  · exact in_before hr
  · exact (in_before_of_le (not_lt.mp hr)).trans (hsteady t (not_lt.mp hr) ht.2).symm

/-- A reading is idle by the events up to it. -/
theorem idleEnergyKwh_before {r : Int} (hmetered : (h.before r).metered start stop = h.metered start stop)
    (hold : ∀ e ∈ h.metered start stop, e.time < r) :
    (h.before r).idleEnergyKwh start stop = h.idleEnergyKwh start stop := by
  unfold idleEnergyKwh
  rw [hmetered]
  congr 2
  refine List.filter_congr fun e he => ?_
  have hstate : (h.before r).stateOf e = h.stateOf e := by
    unfold stateOf before
    dsimp only
    rw [filter_before]
    intro x _ hx
    have hle := (of_decide_eq_true hx).2
    exact decide_eq_true (lt_of_le_of_lt hle (hold e he))
  rw [hstate]

/-- What a run computes is the KPIs of the whole period if nothing happens after it. -/
theorem kpis_before {r : Int} (hsettled : h.Settled start stop r) :
    (h.before r).kpis scope start stop = h.kpis scope start stop := by
  have hold : ∀ e ∈ h.metered start stop, e.time < r := by
    intro e he
    obtain ⟨hmem, hin⟩ := List.mem_filter.mp he
    by_contra hr
    exact absurd (of_decide_eq_true hin).2 (not_lt.mpr (hsettled.energy e hmem (not_lt.mp hr)))
  have hmetered : (h.before r).metered start stop = h.metered start stop := by
    refine filter_before fun e he hin => decide_eq_true ?_
    exact hold e (List.mem_filter.mpr ⟨he, hin⟩)
  refine kpis_congr (timeIn_before hsettled.running) (timeIn_before hsettled.planned) ?_ ?_ ?_ hmetered
    (idleEnergyKwh_before hmetered hold)
  · refine filter_before fun x hx hin => decide_eq_true ?_
    by_contra hr
    exact absurd (of_decide_eq_true hin).2 (not_lt.mpr (hsettled.production x hx (not_lt.mp hr)))
  · refine filter_before fun e he hin => decide_eq_true ?_
    obtain ⟨-, hstop, hdown, hcause⟩ := of_decide_eq_true hin
    by_contra hr
    exact absurd hstop (not_lt.mpr (hsettled.breakdowns e he hdown hcause (not_lt.mp hr)))
  · refine filter_before fun w hw hin => decide_eq_true ?_
    obtain ⟨hstart, hstop⟩ := of_decide_eq_true hin
    exact hsettled.repairs w hw hstart hstop

/-- In a history that ends at an instant, a period counts no more than its part up to there. -/
theorem kpis_elapsed {r : Int} (huncounted : h.Uncounted r stop) (hr : r ≤ stop) :
    (h.before r).kpis scope start stop = (h.before r).kpis scope start r := by
  have hfilter : ∀ {ρ : Type} (time : ρ → Int) (xs : List ρ), (∀ x ∈ xs, time x < stop → time x < r) →
      (xs.filter fun x => start ≤ time x ∧ time x < stop) = xs.filter fun x => start ≤ time x ∧ time x < r := by
    intro ρ time xs hxs
    refine List.filter_congr fun x hx => decide_eq_decide.mpr (and_congr_right fun _ => ?_)
    exact ⟨hxs x hx, fun hlt => hlt.trans_le hr⟩
  have htime : ∀ (kind : MachineState → Prop) [DecidablePred kind], ¬ (h.before r).In kind r →
      timeIn kind ((h.before r).durations start stop) = timeIn kind ((h.before r).durations start r) := by
    intro kind _ hnot
    refine timeIn_congr fun t => ⟨fun ⟨ht, hin⟩ => ⟨⟨ht.1, ?_⟩, hin⟩, fun ⟨ht, hin⟩ => ⟨⟨ht.1, ht.2.trans_le hr⟩, hin⟩⟩
    by_contra hlate
    exact hnot ((in_before_of_le (not_lt.mp hlate)).mp hin)
  have hrunning : ¬ (h.before r).In (· = .running) r := by
    intro ⟨e, he, hstate⟩
    exact huncounted.state ⟨e, he, by rw [hstate]; decide⟩
  have hmetered : (h.before r).metered start stop = (h.before r).metered start r :=
    hfilter EnergyReading.time _ fun x hx _ => of_decide_eq_true (List.mem_filter.mp hx).2
  refine kpis_congr (htime _ hrunning) (htime _ huncounted.state) ?_ ?_ ?_ hmetered ?_
  · exact hfilter ProductionCount.time _ fun x hx _ => of_decide_eq_true (List.mem_filter.mp hx).2
  · refine List.filter_congr fun e he => decide_eq_decide.mpr (and_congr_right fun _ => and_congr_left fun _ => ?_)
    have hlt := of_decide_eq_true (List.mem_filter.mp he).2
    exact ⟨fun _ => hlt, fun _ => hlt.trans_le hr⟩
  · refine hfilter Repair.actualEnd _ fun w hw hlt => ?_
    obtain ⟨hmem, hclosed⟩ := List.mem_filter.mp hw
    by_contra hge
    exact absurd hlt (not_lt.mpr (huncounted.repairs w hmem (of_decide_eq_true hclosed) (not_lt.mp hge)))
  · unfold idleEnergyKwh
    rw [hmetered]

end History

/-- Once a period is over its rows are its KPIs if nothing has happened since its last run, and
the rows of a run tell of no later time if no time is counted from it on. -/
theorem rollup_faithful {since now : Int} {runs : List Int} (hexecuted : Executed p since now runs) :
    (∀ start stop, since ≤ start → stop ≤ now → RolledUp h c p now start stop → Whole h scope c p runs start stop) ∧
      ∀ r ∈ runs, h.Uncounted r (c.periodBounds p r).2 → Elapsed h scope c p r := by
  constructor
  · intro start stop hsince hnow ⟨r, hdue, hbounds, hlast, hsettled⟩ code
    have hcovers := periodBounds_covers c p r
    have hstart : (c.periodBounds p r).1 = start := congrArg Prod.fst hbounds
    have hstop : (c.periodBounds p r).2 = stop := congrArg Prod.snd hbounds
    subst hstart hstop
    have hr : r ∈ runs := (hexecuted.due r).mpr ⟨hdue, hsince.trans hcovers.1, hcovers.2.trans_le hnow⟩
    rw [stored_eq_last hexecuted hr ?_ code, computedAt, History.kpis_before hsettled]
    intro r' hr' hlt
    obtain ⟨hdue', -, hnow'⟩ := (hexecuted.due r').mp hr'
    exact hlast r' hdue' hlt hnow'
  · intro r _ huncounted
    exact History.kpis_elapsed huncounted (periodBounds_covers c p r).2.le

end

/-! ## A day -/

def hour : Int := 3600000000

/-- The runs of the first day. -/
def hourly : List Int := (List.range 24).map fun i : Nat => hour * i + 300000000

theorem hourly_executed : Executed .day 0 day hourly where
  ordered := by decide
  due r := by
    have hmem : r ∈ hourly ↔ ∃ i : Nat, i < 24 ∧ 3600000000 * (i : Int) + 300000000 = r := by
      simp only [hourly, List.mem_map, List.mem_range, hour]
    have hday : day = 24 * 3600000000 := by decide
    rw [hmem, hday]
    show _ ↔ r % 3600000000 = 300000000 ∧ 0 ≤ r ∧ r < 24 * 3600000000
    constructor
    · intro ⟨i, hi, hr⟩
      omega
    · intro ⟨hdue, hsince, hnow⟩
      exact ⟨(r / 3600000000).toNat, by omega, by omega⟩

/-- A machine that goes down half an hour before midnight. -/
def downAtNight : History where
  events := [⟨0, 1, .running, none⟩, ⟨23 * hour + hour / 2, 1, .down, some "breakdown"⟩]
  ordered := List.pairwise_pair.mpr (by decide)
  production := []
  energy := []
  repairs := []

instance (h : History) (scope : Scope) (c : Calendar) (p : Period) (r : Int) : Decidable (Elapsed h scope c p r) :=
  inferInstanceAs (Decidable (_ = _))

/-- After its first run the row says that the machine has run for a day, and at the end of the day
that it has not been down. -/
theorem day_is_counted_ahead :
    let scope : Scope := ⟨none, "EUR"⟩
    let c : Calendar := ⟨[], 0⟩
    let whole : KpiResult := ⟨"availability", 100, [("run_time_s", .number 86400), ("planned_time_s", .number 86400)]⟩
    Executed .day 0 day hourly ∧
      ((computedAt downAtNight scope c .day 300000000).head? = some whole ∧
        ¬ Elapsed downAtNight scope c .day 300000000) ∧
      (stored downAtNight scope c .day hourly).get? (0, "availability") = some whole ∧
      (downAtNight.kpis scope 0 day).find? (·.code = "availability") = some ⟨"availability", 97917 / 1000,
        [("run_time_s", .number 84600), ("planned_time_s", .number 86400)]⟩ ∧
      ¬ Whole downAtNight scope c .day hourly 0 day := by
  intro scope c whole
  have hstored : (stored downAtNight scope c .day hourly).get? (0, "availability") = some whole := by
    decide +kernel
  have hkpis : (downAtNight.kpis scope 0 day).find? (·.code = "availability") = some ⟨"availability", 97917 / 1000,
      [("run_time_s", .number 84600), ("planned_time_s", .number 86400)]⟩ := by
    decide +kernel
  refine ⟨hourly_executed, by decide +kernel, hstored, hkpis, ?_⟩
  intro hwhole
  have hsame := hwhole "availability"
  rw [hstored, hkpis] at hsame
  revert hsame
  decide +kernel

/-- A machine in maintenance. -/
def maintained : History where
  events := [⟨-1, 1, .maintenance, none⟩]
  ordered := List.pairwise_singleton _ _
  production := []
  energy := []
  repairs := []

theorem maintained_in (r t : Int) (hr : 0 ≤ r) (ht : 0 ≤ t) (kind : MachineState → Prop) :
    (maintained.In kind t ↔ kind .maintenance) ∧ ((maintained.before r).In kind t ↔ kind .maintenance) := by
  have hforce : inForce StateEvent.time maintained.events t = some ⟨-1, 1, .maintenance, none⟩ :=
    if_pos (by show (-1 : Int) ≤ t; omega)
  have hbefore : (maintained.before r).events = maintained.events := by
    refine List.filter_eq_self.mpr fun e he => decide_eq_true ?_
    rw [List.mem_singleton.mp he]
    show (-1 : Int) < r
    omega
  unfold History.In
  rw [hbefore, hforce]
  simp

/-- A day in maintenance is rolled up as it is. -/
theorem maintained_day_is_whole :
    Whole maintained ⟨none, "EUR"⟩ ⟨[], 0⟩ .day hourly 0 day ∧
      Elapsed maintained ⟨none, "EUR"⟩ ⟨[], 0⟩ .day 300000000 := by
  refine ⟨(rollup_faithful hourly_executed).1 0 day (le_refl 0) (le_refl day) ?_,
    (rollup_faithful hourly_executed).2 300000000 (by decide) ?_⟩
  · have hdue : Scheduled .day (23 * hour + 300000000) := by
      show (23 * hour + 300000000) % 3600000000 = 300000000
      decide
    refine ⟨23 * hour + 300000000, hdue, by decide, ?_, ?_⟩
    · intro r' hdue hlt hnow
      simp only [Scheduled, hour, day] at hdue hlt hnow
      omega
    · have hr : 0 ≤ 23 * hour + 300000000 := by decide
      have hsteady : ∀ kind : MachineState → Prop, ∀ t, 23 * hour + 300000000 ≤ t → t < day →
          (maintained.In kind t ↔ (maintained.before (23 * hour + 300000000)).In kind (23 * hour + 300000000)) := by
        intro kind t ht _
        exact (maintained_in _ t hr (hr.trans ht) kind).1.trans (maintained_in _ _ hr hr kind).2.symm
      exact ⟨hsteady _, hsteady _, by decide, by decide, by decide, by decide⟩
  · refine ⟨?_, by decide⟩
    rw [(maintained_in 300000000 300000000 (by decide) (by decide) _).2]
    exact fun h => h rfl

end TwinVoice.Analytics
