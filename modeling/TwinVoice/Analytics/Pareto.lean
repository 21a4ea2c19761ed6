import Mathlib.Data.Rat.Floor
import TwinVoice.Analytics.Kpis
import TwinVoice.Lib.Rounding
import TwinVoice.Lib.Grouping

/-! # The Pareto of downtime

`downtime_pareto` adds the unplanned durations up by cause and lists the ten
longest, and the service reports the sum of the listed seconds as the total.
The rows are about all of the downtime: their seconds, and the shares, which
are shares of the sum over all causes. The total is not. -/

namespace TwinVoice.Analytics

open TwinVoice.Lib

/-- A `StateDuration`, its length in seconds. -/
structure StateSeconds where
  state : MachineState
  seconds : Rat
  causeCode : Option String
  deriving DecidableEq

def StateDuration.inSeconds (d : StateDuration) : StateSeconds := ⟨d.state, Analytics.inSeconds d.length, d.causeCode⟩

/-- `cause_code or "unclassified"`. -/
def StateSeconds.cause (d : StateSeconds) : String :=
  match d.causeCode with
  | none => "unclassified"
  | some "" => "unclassified"
  | some code => code

/-- The durations that are not passed over. -/
def unplanned (durations : List StateSeconds) : List StateSeconds :=
  durations.filter fun d => d.state ∈ unplannedStates

/-- `by_cause`. -/
def byCause (durations : List StateSeconds) : Dict String Rat :=
  (unplanned durations).foldl (fun byCause d => byCause.add d.cause d.seconds) []

structure ParetoRow where
  causeCode : String
  seconds : Rat
  share : Rat
  cumulativeShare : Rat
  deriving DecidableEq

/-- `round(seconds / total, 4) if total else 0.0`. -/
def shareOf (total seconds : Rat) : Rat := if total ≠ 0 then Rounding.roundTo 4 (seconds / total) else 0

/-- The loop over the causes that are listed. -/
def paretoRows (total : Rat) : Rat → List (String × Rat) → List ParetoRow
  | _, [] => []
  | cumulative, (cause, seconds) :: rows =>
    { causeCode := cause
      seconds := Rounding.roundTo 1 seconds
      share := shareOf total seconds
      cumulativeShare := shareOf total (cumulative + seconds) } ::
      paretoRows total (cumulative + seconds) rows

/-- The causes by their seconds, descending. -/
def ranked (durations : List StateSeconds) : List (String × Rat) :=
  (byCause durations).insertionSort fun c c' => c'.2 ≤ c.2

/-- `downtime_pareto`. -/
def downtimePareto (durations : List StateSeconds) (topN : Nat) : List ParetoRow :=
  paretoRows ((byCause durations).map Prod.snd).sum 0 ((ranked durations).take topN)

/-- What the service answers, besides the scope asked for. -/
structure DowntimeAnswer where
  totalSeconds : Rat
  rows : List ParetoRow
  deriving DecidableEq

/-- `KpiService.downtime_pareto`, from the durations in the period. -/
def downtimeAnswer (durations : List StateSeconds) : DowntimeAnswer :=
  let rows := downtimePareto durations 10
  { totalSeconds := Rounding.roundTo 1 (rows.map ParetoRow.seconds).sum
    rows := rows }

/-! ## What is expected of it -/

/-- The causes of unplanned durations. -/
def causes (durations : List StateSeconds) : List String := ((unplanned durations).map StateSeconds.cause).dedup

/-- The sum of all unplanned durations of a cause. -/
def causeSeconds (durations : List StateSeconds) (cause : String) : Rat :=
  (((unplanned durations).filter fun d => d.cause = cause).map StateSeconds.seconds).sum

/-- All unplanned downtime. -/
def unplannedSeconds (durations : List StateSeconds) : Rat := ((unplanned durations).map StateSeconds.seconds).sum

/-- The answer accounts for all unplanned downtime: the rows, and the total up to the rounding of each cause. -/
structure AccountsFor (answer : DowntimeAnswer) (durations : List StateSeconds) : Prop where
  descending : answer.rows.Pairwise fun r r' => r'.seconds ≤ r.seconds
  seconds : ∀ r ∈ answer.rows, r.seconds = Rounding.roundTo 1 (causeSeconds durations r.causeCode)
  nodup : (answer.rows.map ParetoRow.causeCode).Nodup
  cumulative : answer.rows.Pairwise fun r r' => r.cumulativeShare ≤ r'.cumulativeShare
  le_one : ∀ r ∈ answer.rows, r.cumulativeShare ≤ 1
  total : answer.totalSeconds = ((causes durations).map fun c => Rounding.roundTo 1 (causeSeconds durations c)).sum

/-! ## What the rows are -/

section
variable (durations : List StateSeconds)

theorem ranked_perm :
    (ranked durations).Perm ((causes durations).map fun c => (c, causeSeconds durations c)) :=
  (List.perm_insertionSort _ _).trans (Dict.totals_perm StateSeconds.cause StateSeconds.seconds (unplanned durations))

theorem ranked_byCause : (ranked durations).Perm (byCause durations) := List.perm_insertionSort _ _

theorem ranked_descending : (ranked durations).Pairwise fun c c' => c'.2 ≤ c.2 := List.pairwise_insertionSort _ _

theorem sum_byCause : ((byCause durations).map Prod.snd).sum = unplannedSeconds durations :=
  Dict.sum_totals StateSeconds.cause StateSeconds.seconds (unplanned durations)

theorem mem_ranked {durations : List StateSeconds} {c : String × Rat} (h : c ∈ ranked durations) :
    c.2 = causeSeconds durations c.1 := by
  obtain ⟨cause, -, rfl⟩ := List.mem_map.mp ((ranked_perm durations).mem_iff.mp h)
  rfl

theorem ranked_nodup : ((ranked durations).map Prod.fst).Nodup := by
  have hperm := (ranked_perm durations).map Prod.fst
  rw [List.map_map] at hperm
  refine hperm.nodup_iff.mpr ?_
  exact (List.map_id _).symm ▸ List.nodup_dedup _

end

section
variable (total cumulative : Rat) (rows : List (String × Rat))

@[simp] theorem map_causeCode_paretoRows :
    (paretoRows total cumulative rows).map ParetoRow.causeCode = rows.map Prod.fst := by
  induction rows generalizing cumulative with
  | nil => rfl
  | cons c rows ih => rw [paretoRows, List.map_cons, List.map_cons, ih]

@[simp] theorem map_seconds_paretoRows :
    (paretoRows total cumulative rows).map ParetoRow.seconds = rows.map fun c => Rounding.roundTo 1 c.2 := by
  induction rows generalizing cumulative with
  | nil => rfl
  | cons c rows ih => rw [paretoRows, List.map_cons, List.map_cons, ih]

/-- A row has the name and the rounded seconds of one of the causes. -/
theorem mem_paretoRows {total cumulative : Rat} {rows : List (String × Rat)} {r : ParetoRow}
    (h : r ∈ paretoRows total cumulative rows) :
    ∃ c ∈ rows, r.causeCode = c.1 ∧ r.seconds = Rounding.roundTo 1 c.2 := by
  induction rows generalizing cumulative with
  | nil => cases h
  | cons c rows ih =>
    rw [paretoRows] at h
    rcases List.mem_cons.mp h with rfl | h
    · exact ⟨c, List.mem_cons_self, rfl, rfl⟩
    · obtain ⟨c', hc', hr⟩ := ih h
      exact ⟨c', List.mem_cons_of_mem _ hc', hr⟩

theorem shareOf_mono {total x y : Rat} (htotal : 0 ≤ total) (h : x ≤ y) : shareOf total x ≤ shareOf total y := by
  unfold shareOf
  split
  · exact Rounding.roundTo_mono 4 (div_le_div_of_nonneg_right h htotal)
  · exact le_refl _

theorem shareOf_le_one {total x : Rat} (htotal : 0 ≤ total) (h : x ≤ total) : shareOf total x ≤ 1 := by
  refine (shareOf_mono htotal h).trans ?_
  unfold shareOf
  split
  · rename_i hne
    rw [div_self hne]
    exact (Rounding.roundTo_intCast (K := Rat) 4 1).le
  · exact zero_le_one

/-- Each cumulative share is that of a sum between what came before and all of the rows. -/
theorem cumulativeShare_paretoRows {total cumulative : Rat} {rows : List (String × Rat)} (h : ∀ c ∈ rows, 0 ≤ c.2)
    {r : ParetoRow} (hr : r ∈ paretoRows total cumulative rows) :
    ∃ x, r.cumulativeShare = shareOf total x ∧ cumulative ≤ x ∧ x ≤ cumulative + (rows.map Prod.snd).sum := by
  induction rows generalizing cumulative with
  | nil => cases hr
  | cons c rows ih =>
    obtain ⟨hc, hrows⟩ := List.forall_mem_cons.mp h
    have hrest : 0 ≤ (rows.map Prod.snd).sum := List.sum_nonneg (List.forall_mem_map.mpr hrows)
    rw [paretoRows] at hr
    rw [List.map_cons, List.sum_cons]
    rcases List.mem_cons.mp hr with rfl | hr
    · exact ⟨cumulative + c.2, rfl, by linarith, by linarith⟩
    · obtain ⟨x, hshare, hlow, hhigh⟩ := ih hrows hr
      exact ⟨x, hshare, by linarith, by linarith⟩

theorem paretoRows_cumulative {total cumulative : Rat} {rows : List (String × Rat)} (htotal : 0 ≤ total)
    (h : ∀ c ∈ rows, 0 ≤ c.2) :
    (paretoRows total cumulative rows).Pairwise fun r r' => r.cumulativeShare ≤ r'.cumulativeShare := by
  induction rows generalizing cumulative with
  | nil => exact List.Pairwise.nil
  | cons c rows ih =>
    obtain ⟨hc, hrows⟩ := List.forall_mem_cons.mp h
    rw [paretoRows]
    refine List.pairwise_cons.mpr ⟨?_, ih hrows⟩
    intro r hr
    obtain ⟨x, hshare, hlow, -⟩ := cumulativeShare_paretoRows hrows hr
    rw [hshare]
    exact shareOf_mono htotal hlow

end

/-! ## What they account for -/

section
variable {durations : List StateSeconds}

theorem causeSeconds_nonneg (h : ∀ d ∈ durations, 0 ≤ d.seconds) (cause : String) : 0 ≤ causeSeconds durations cause := by
  refine List.sum_nonneg (List.forall_mem_map.mpr ?_)
  intro d hd
  exact h d (List.mem_filter.mp (List.mem_filter.mp hd).1).1

theorem unplannedSeconds_nonneg (h : ∀ d ∈ durations, 0 ≤ d.seconds) : 0 ≤ unplannedSeconds durations := by
  refine List.sum_nonneg (List.forall_mem_map.mpr ?_)
  intro d hd
  exact h d (List.mem_filter.mp hd).1

theorem ranked_nonneg (h : ∀ d ∈ durations, 0 ≤ d.seconds) {c : String × Rat} (hc : c ∈ ranked durations) : 0 ≤ c.2 :=
  mem_ranked hc ▸ causeSeconds_nonneg h c.1

/-- However many causes there are, the rows are about all of the downtime. -/
theorem downtimePareto_accounts (h : ∀ d ∈ durations, 0 ≤ d.seconds) (topN : Nat) :
    (downtimePareto durations topN).Pairwise (fun r r' => r'.seconds ≤ r.seconds) ∧
    (∀ r ∈ downtimePareto durations topN, r.seconds = Rounding.roundTo 1 (causeSeconds durations r.causeCode)) ∧
    ((downtimePareto durations topN).map ParetoRow.causeCode).Nodup ∧
    (downtimePareto durations topN).Pairwise (fun r r' => r.cumulativeShare ≤ r'.cumulativeShare) ∧
    ∀ r ∈ downtimePareto durations topN, r.cumulativeShare ≤ 1 := by
  have hnonneg : ∀ c ∈ (ranked durations).take topN, 0 ≤ c.2 := fun c hc => ranked_nonneg h (List.mem_of_mem_take hc)
  have htotal : 0 ≤ ((byCause durations).map Prod.snd).sum := sum_byCause durations ▸ unplannedSeconds_nonneg h
  refine ⟨?_, ?_, ?_, paretoRows_cumulative htotal hnonneg, ?_⟩
  · rw [downtimePareto, ← List.pairwise_map (f := ParetoRow.seconds) (R := fun s s' => s' ≤ s), map_seconds_paretoRows,
      List.pairwise_map]
    exact ((ranked_descending durations).sublist (List.take_sublist _ _)).imp (Rounding.roundTo_mono 1)
  · intro r hr
    obtain ⟨c, hc, hcause, hseconds⟩ := mem_paretoRows hr
    rw [hseconds, hcause, mem_ranked (List.mem_of_mem_take hc)]
  · rw [downtimePareto, map_causeCode_paretoRows]
    exact (ranked_nodup durations).sublist ((List.take_sublist _ _).map _)
  · intro r hr
    obtain ⟨x, hshare, -, hle⟩ := cumulativeShare_paretoRows hnonneg hr
    rw [hshare]
    refine shareOf_le_one htotal (hle.trans ?_)
    have hrest : 0 ≤ (((ranked durations).drop topN).map Prod.snd).sum :=
      List.sum_nonneg (List.forall_mem_map.mpr fun c hc => ranked_nonneg h (List.mem_of_mem_drop hc))
    rw [← ((ranked_byCause durations).map Prod.snd).sum_eq, ← List.take_append_drop topN (ranked durations), List.map_append,
      List.sum_append, List.take_append_drop]
    linarith

/-- The causes whose seconds do not round to nothing. -/
def weighty (durations : List StateSeconds) : List String :=
  (causes durations).filter fun c => 1 / 20 < causeSeconds durations c

theorem totalSeconds_eq_iff (h : ∀ d ∈ durations, 0 ≤ d.seconds) :
    (downtimeAnswer durations).totalSeconds =
        ((causes durations).map fun c => Rounding.roundTo 1 (causeSeconds durations c)).sum ↔
      (weighty durations).length ≤ 10 := by
  have hall : ((causes durations).map fun c => Rounding.roundTo 1 (causeSeconds durations c)).sum =
      ((ranked durations).map fun c => Rounding.roundTo 1 c.2).sum := by
    rw [((ranked_perm durations).map fun c => Rounding.roundTo 1 c.2).sum_eq, List.map_map]
    rfl
  have htotal : (downtimeAnswer durations).totalSeconds =
      (((ranked durations).take 10).map fun c => Rounding.roundTo 1 c.2).sum := by
    have hrounded := Rounding.roundTo_sum 1 (((ranked durations).take 10).map Prod.snd)
    rw [List.map_map] at hrounded
    rw [downtimeAnswer, downtimePareto, map_seconds_paretoRows]
    exact hrounded
  have hweighty : (weighty durations).length = ((ranked durations).filter fun c => 1 / 20 < c.2).length := by
    rw [((ranked_perm durations).filter fun c => decide (1 / 20 < c.2)).length_eq, List.filter_map, List.length_map]
    rfl
  have hzero : ∀ c ∈ ranked durations, Rounding.roundTo 1 c.2 = 0 ↔ decide (1 / 20 < c.2) = false := by
    intro c hc
    rw [Rounding.roundTo_eq_zero, abs_of_nonneg (ranked_nonneg h hc), decide_eq_false_iff_not, not_lt]
    norm_num
  rw [hall, htotal, hweighty, ← forall_drop_iff (ranked_descending durations) (p := fun c => decide (1 / 20 < c.2))]
  · have hsplit : ((ranked durations).map fun c => Rounding.roundTo 1 c.2).sum =
        (((ranked durations).take 10).map fun c => Rounding.roundTo 1 c.2).sum +
          (((ranked durations).drop 10).map fun c => Rounding.roundTo 1 c.2).sum := by
      rw [← List.sum_append, ← List.map_append, List.take_append_drop]
    have hnonneg : ∀ s ∈ ((ranked durations).drop 10).map fun c => Rounding.roundTo 1 c.2, 0 ≤ s :=
      List.forall_mem_map.mpr fun c hc => Rounding.roundTo_nonneg (ranked_nonneg h (List.mem_of_mem_drop hc))
    have hnothing : (((ranked durations).drop 10).map fun c => Rounding.roundTo 1 c.2).sum = 0 ↔
        ∀ s ∈ ((ranked durations).drop 10).map fun c => Rounding.roundTo 1 c.2, s = 0 :=
      ⟨fun hsum s hs => List.all_zero_of_le_zero_le_of_sum_eq_zero hnonneg hsum hs, List.sum_eq_zero⟩
    rw [hsplit, left_eq_add, hnothing, List.forall_mem_map]
    exact forall₂_congr fun c hc => hzero c (List.mem_of_mem_drop hc)
  · intro c c' hle hc'
    exact decide_eq_true ((of_decide_eq_true hc').trans_le hle)

/-- Durations that come from state changes are positive. -/
theorem seconds_nonneg {events : List StateRow} {start stop : Instant} {d : StateSeconds}
    (h : d ∈ (durationsFromEvents events start stop).map StateDuration.inSeconds) : 0 ≤ d.seconds := by
  obtain ⟨duration, hduration, rfl⟩ := List.mem_map.mp h
  obtain ⟨part, hpart, rfl⟩ := List.mem_map.mp hduration
  have hpos : (0 : Rat) ≤ (part.2 : Rat) := by exact_mod_cast (Timeline.spans_pos StateRow.time hpart).le
  exact div_nonneg hpos (by norm_num)

/-- The answer accounts for all unplanned downtime exactly as long as no more than ten causes come to
more than a twentieth of a second. -/
theorem downtimeAnswer_accounts_iff (h : ∀ d ∈ durations, 0 ≤ d.seconds) :
    AccountsFor (downtimeAnswer durations) durations ↔ (weighty durations).length ≤ 10 := by
  rw [← totalSeconds_eq_iff h]
  refine ⟨AccountsFor.total, fun htotal => ?_⟩
  obtain ⟨hdescending, hseconds, hnodup, hcumulative, hle⟩ := downtimePareto_accounts h 10
  exact ⟨hdescending, hseconds, hnodup, hcumulative, hle, htotal⟩

end

/-- A minute down at a changeover, and running after it. -/
def changeover : List StateSeconds :=
  (durationsFromEvents [⟨seconds 60, .running, none⟩, ⟨0, .down, some "setup"⟩] 0 (seconds 600)).map StateDuration.inSeconds

theorem changeover_accounted :
    AccountsFor (downtimeAnswer changeover) changeover ↔ (weighty changeover).length ≤ 10 :=
  downtimeAnswer_accounts_iff fun _ => seconds_nonneg

/-- A period with a minute of downtime for each of eleven causes. -/
def elevenStops : List StateSeconds :=
  ["tool_change", "breakdown", "material", "setup", "power", "operator", "quality", "coolant", "sensor", "jam",
    "hydraulic"].map fun code => ⟨.down, 60, some code⟩

/-- Of eleven minutes of downtime ten are reported. -/
theorem eleventh_cause_unreported : ¬ AccountsFor (downtimeAnswer elevenStops) elevenStops :=
  fun h => absurd h.total (by decide +kernel)

end TwinVoice.Analytics
