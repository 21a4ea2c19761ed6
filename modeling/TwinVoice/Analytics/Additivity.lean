import Mathlib.Combinatorics.Enumerative.DoubleCounting
import TwinVoice.Analytics.Oee

/-! # When the time in state adds up over assets

At an instant the folded events count the state of one asset, the one whose
event is the latest, while the sum over the assets counts every asset in the
state. So the fold never has more, and the two agree exactly when at every
instant at most that one asset is in the state. -/

namespace TwinVoice.Analytics

open TwinVoice.Lib TwinVoice.Lib.Timeline

variable {events : Table StateEvent} {assetIds : Finset Uuid} {start stop : Instant}

/-- Of the events of the assets up to an instant of the period, the rows hold one as late. -/
theorem row_as_late (answer : StateEvents events assetIds start stop) {t : Instant}
    (hstart : start ≤ t) (hstop : t < stop) {e : StateEvent} (he : e ∈ events.rows)
    (ha : e.assetId ∈ assetIds) (ht : e.time ≤ t) :
    ∃ x ∈ answer.rows, e.time ≤ x.time ∧ x.time ≤ t := by
  by_cases hin : start ≤ e.time
  · refine ⟨e, answer.perm.mem_iff.mpr (List.mem_append_right _ ?_), le_refl _, ht⟩
    exact Table.mem_select.mpr ⟨he, by simpa [ha, hin] using lt_of_le_of_lt ht hstop⟩
  · have hbefore : e ∈ before events assetIds start :=
      Table.mem_select.mpr ⟨he, by simpa [ha] using hin⟩
    obtain ⟨c, hc, hle⟩ := answer.latest e hbefore
    have hcmem := (Table.mem_select.mp (answer.carried_mem c hc)).2
    simp only [Bool.decide_and, Bool.and_eq_true, decide_eq_true_eq] at hcmem
    refine ⟨c, answer.perm.mem_iff.mpr (List.mem_append_left _ ?_), hle, hcmem.2.le.trans hstart⟩
    rw [hc]
    exact List.mem_singleton_self c

theorem rows_sound (answer : StateEvents events assetIds start stop) {e : StateEvent}
    (he : e ∈ answer.rows) : e ∈ events.rows ∧ e.assetId ∈ assetIds := by
  rcases List.mem_append.mp (answer.perm.mem_iff.mp he) with hc | hin
  · have hmem := Table.mem_select.mp (answer.carried_mem e (Option.mem_toList.mp hc))
    simp only [Bool.decide_and, Bool.and_eq_true, decide_eq_true_eq] at hmem
    exact ⟨hmem.1, hmem.2.1⟩
  · have hmem := Table.mem_select.mp hin
    simp only [Bool.decide_and, Bool.and_eq_true, decide_eq_true_eq] at hmem
    exact ⟨hmem.1, hmem.2.1⟩

theorem stateAt_some {a : Uuid} {t : Instant} {s : MachineState} (h : stateAt events a t = some s) :
    ∃ e ∈ events.rows, e.assetId = a ∧ e.time ≤ t ∧ e.state = s ∧
      ∀ x ∈ events.rows, x.assetId = a → x.time ≤ t → x.time ≤ e.time := by
  obtain ⟨e, he, rfl⟩ := Option.map_eq_some_iff.mp h
  obtain ⟨hmem, hmax⟩ := newest_spec he
  obtain ⟨hrow, hp⟩ := Table.mem_select.mp hmem
  simp only [Bool.decide_and, Bool.and_eq_true, decide_eq_true_eq] at hp
  refine ⟨e, hrow, hp.1, hp.2, rfl, fun x hx ha ht => hmax x ?_⟩
  exact Table.mem_select.mpr ⟨hx, by simp [ha, ht]⟩

/-- No two events of one asset have one time, so its state is the one of any latest event. -/
theorem stateAt_eq {e : StateEvent} {t : Instant} (he : e ∈ events.rows) (ht : e.time ≤ t)
    (hmax : ∀ x ∈ events.rows, x.assetId = e.assetId → x.time ≤ t → x.time ≤ e.time) :
    stateAt events e.assetId t = some e.state := by
  unfold stateAt
  cases hm : newest StateEvent.time (events.select fun x => x.assetId = e.assetId ∧ x.time ≤ t) with
  | none =>
    have hmem : e ∈ events.select fun x => x.assetId = e.assetId ∧ x.time ≤ t :=
      Table.mem_select.mpr ⟨he, by simp [ht]⟩
    rw [newest_eq_none.mp hm] at hmem
    cases hmem
  | some m =>
    obtain ⟨hmmem, hmmax⟩ := newest_spec hm
    obtain ⟨hmrow, hp⟩ := Table.mem_select.mp hmmem
    simp only [Bool.decide_and, Bool.and_eq_true, decide_eq_true_eq] at hp
    have hle := hmmax e (Table.mem_select.mpr ⟨he, by simp [ht]⟩)
    have hkey : Keyed.key m = Keyed.key e :=
      Prod.ext (le_antisymm (hmax m hmrow hp.1 hp.2) hle) hp.1
    rw [List.inj_on_of_nodup_map events.keys hmrow he hkey]
    rfl

/-- The row in force has set the state of its own asset. -/
theorem stateAt_inForce (answer : StateEvents events assetIds start stop) {t : Instant}
    (hstart : start ≤ t) (hstop : t < stop) {e : StateEvent}
    (h : inForce StateEvent.time answer.rows t = some e) :
    e.assetId ∈ assetIds ∧ stateAt events e.assetId t = some e.state := by
  obtain ⟨hmem, ht⟩ := inForce_mem StateEvent.time h
  obtain ⟨hrow, ha⟩ := rows_sound answer hmem
  refine ⟨ha, stateAt_eq hrow ht fun x hx hxa hxt => ?_⟩
  obtain ⟨y, hy, hxy, hyt⟩ := row_as_late answer hstart hstop hx (hxa ▸ ha) hxt
  exact hxy.trans (inForce_latest StateEvent.time answer.ordered h y hy hyt)

/-- The assets in a state at an instant. -/
def assetsIn (events : Table StateEvent) (assetIds : Finset Uuid) (s : MachineState) (t : Instant) :
    Finset Uuid :=
  assetIds.filter fun a => stateAt events a t = some s

theorem sum_ownTime (s : MachineState) :
    ∑ a ∈ assetIds, ownTime events a start stop s =
      ((∑ t ∈ period start stop, (assetsIn events assetIds s t).card : ℕ) : ℤ) := by
  unfold ownTime assetsIn
  rw [← Nat.cast_sum]
  exact congrArg _ (Finset.sum_card_bipartiteAbove_eq_sum_card_bipartiteBelow
    (fun a t => stateAt events a t = some s))

/-- The fold counts an instant at most once, and only for an asset in the state. -/
theorem counted_le (answer : StateEvents events assetIds start stop) (s : MachineState) {t : Instant}
    (hstart : start ≤ t) (hstop : t < stop) :
    (if t ∈ instants StateEvent.time start stop (fun e => e.state = s) answer.rows then 1 else 0) ≤
      (assetsIn events assetIds s t).card := by
  split
  · rename_i hmem
    obtain ⟨-, e, he, hs⟩ := (mem_instants StateEvent.time).mp hmem
    obtain ⟨ha, hstate⟩ := stateAt_inForce answer hstart hstop he
    exact Finset.card_pos.mpr ⟨e.assetId, Finset.mem_filter.mpr ⟨ha, hs ▸ hstate⟩⟩
  · exact Nat.zero_le _

/-- The two counts of an instant agree when no other asset is in the state. -/
theorem counted_eq_iff (answer : StateEvents events assetIds start stop) (s : MachineState)
    {t : Instant} (hstart : start ≤ t) (hstop : t < stop) :
    (if t ∈ instants StateEvent.time start stop (fun e => e.state = s) answer.rows then 1 else 0) =
        (assetsIn events assetIds s t).card ↔
      ∀ a ∈ assetIds, stateAt events a t = some s → latestAsset answer t = some a := by
  constructor
  · intro heq a ha hstate
    have hin : a ∈ assetsIn events assetIds s t := Finset.mem_filter.mpr ⟨ha, hstate⟩
    have hpos : 0 < (assetsIn events assetIds s t).card := Finset.card_pos.mpr ⟨a, hin⟩
    by_cases hmem : t ∈ instants StateEvent.time start stop (fun e => e.state = s) answer.rows
    · rw [if_pos hmem] at heq
      obtain ⟨-, e, he, hs⟩ := (mem_instants StateEvent.time).mp hmem
      obtain ⟨hea, hestate⟩ := stateAt_inForce answer hstart hstop he
      have hein : e.assetId ∈ assetsIn events assetIds s t :=
        Finset.mem_filter.mpr ⟨hea, hs ▸ hestate⟩
      have hsame : e.assetId = a := Finset.card_le_one.mp heq.ge _ hein _ hin
      rw [latestAsset, he, Option.map_some, hsame]
    · rw [if_neg hmem] at heq
      omega
  · intro honly
    refine le_antisymm (counted_le answer s hstart hstop) ?_
    by_cases hempty : (assetsIn events assetIds s t).card = 0
    · rw [hempty]
      exact Nat.zero_le _
    obtain ⟨a, hin⟩ := Finset.card_pos.mp (Nat.pos_of_ne_zero hempty)
    obtain ⟨ha, hstate⟩ := Finset.mem_filter.mp hin
    obtain ⟨e, he, hea⟩ := Option.map_eq_some_iff.mp (honly a ha hstate)
    have hestate := (stateAt_inForce answer hstart hstop he).2
    rw [hea, hstate] at hestate
    have hmem : t ∈ instants StateEvent.time start stop (fun e => e.state = s) answer.rows :=
      (mem_instants StateEvent.time).mpr ⟨⟨hstart, hstop⟩, e, he, (Option.some.inj hestate).symm⟩
    rw [if_pos hmem]
    refine Finset.card_le_one.mpr fun b hb c hc => ?_
    obtain ⟨hb, hbstate⟩ := Finset.mem_filter.mp hb
    obtain ⟨hc, hcstate⟩ := Finset.mem_filter.mp hc
    exact Option.some.inj ((honly b hb hbstate).symm.trans (honly c hc hcstate))

/-- One state adds up when at every instant only the latest asset is in it. -/
theorem timeIn_eq_sum_iff (answer : StateEvents events assetIds start stop) (s : MachineState) :
    timeIn (· = s) (durationsFromEvents (answer.rows.map StateEvent.row) start stop) =
        ∑ a ∈ assetIds, ownTime events a start stop s ↔
      ∀ t, start ≤ t → t < stop → ∀ a ∈ assetIds, stateAt events a t = some s →
        latestAsset answer t = some a := by
  have hcount : (instants StateEvent.time start stop (fun e => e.state = s) answer.rows).card =
      ∑ t ∈ period start stop,
        if t ∈ instants StateEvent.time start stop (fun e => e.state = s) answer.rows then 1 else 0 := by
    rw [← Finset.card_filter]
    congr 1
    ext t
    rw [Finset.mem_filter]
    exact ⟨fun h => ⟨mem_period.mpr ((mem_instants StateEvent.time).mp h).1, h⟩, fun h => h.2⟩
  rw [timeIn_durationsFromEvents answer.ordered, sum_ownTime, Nat.cast_inj, hcount, Finset.sum_eq_sum_iff_of_le fun t ht =>
    counted_le answer s (mem_period.mp ht).1 (mem_period.mp ht).2]
  constructor
  · intro h t hstart hstop
    exact (counted_eq_iff answer s hstart hstop).mp (h t (mem_period.mpr ⟨hstart, hstop⟩))
  · intro h t ht
    obtain ⟨hstart, hstop⟩ := mem_period.mp ht
    exact (counted_eq_iff answer s hstart hstop).mpr (h t hstart hstop)

/-- Since every event of another asset of the scope so far, this one has had a later event. -/
def Leads (events : Table StateEvent) (assetIds : Finset Uuid) (a : Uuid) (t : Instant) : Prop :=
  ∀ e ∈ events.rows, e.assetId ∈ assetIds → e.assetId ≠ a → e.time ≤ t →
    ∃ later ∈ events.rows, later.assetId = a ∧ e.time < later.time ∧ later.time ≤ t

theorem latestAsset_of_leads (answer : StateEvents events assetIds start stop) {t : Instant}
    (hstart : start ≤ t) (hstop : t < stop) {a : Uuid} (ha : a ∈ assetIds) {s : MachineState}
    (hstate : stateAt events a t = some s) (hleads : Leads events assetIds a t) :
    latestAsset answer t = some a := by
  obtain ⟨m, hm, rfl, hmt, -, -⟩ := stateAt_some hstate
  cases hforce : inForce StateEvent.time answer.rows t with
  | none =>
    obtain ⟨y, hy, -, hyt⟩ := row_as_late answer hstart hstop hm ha hmt
    exact absurd ((inForce_eq_none StateEvent.time).mp hforce y hy) (not_lt.mpr hyt)
  | some x =>
    rw [latestAsset, hforce, Option.map_some]
    by_contra hne
    obtain ⟨hx, hxt⟩ := inForce_mem StateEvent.time hforce
    obtain ⟨hxrow, hxa⟩ := rows_sound answer hx
    -- an event after the row in force would have a row as late, and that one would be in force
    obtain ⟨l, hl, hla, hlt, hlle⟩ := hleads x hxrow hxa (fun h => hne (congrArg some h)) hxt
    obtain ⟨y, hy, hly, hyt⟩ := row_as_late answer hstart hstop hl (hla ▸ ha) hlle
    have hyx := inForce_latest StateEvent.time answer.ordered hforce y hy hyt
    exact absurd (hlt.trans_le (hly.trans hyx)) (lt_irrefl _)

/-- The order of the times in which, of events of one time, those of `a` come first. -/
def behind (a : Uuid) (e : StateEvent) : Int := 2 * e.time + if e.assetId = a then 0 else 1

theorem double_le {u v i j : Int} (h : 2 * u + i ≤ 2 * v + j) (hi : 0 ≤ i) (hj : j ≤ 1) : u ≤ v := by
  omega

theorem double_lt {u v : Int} (h : 2 * u + 1 ≤ 2 * v + 0) : u < v := by omega

theorem time_le_of_behind {a : Uuid} {e e' : StateEvent} (h : behind a e ≤ behind a e') :
    e.time ≤ e'.time :=
  double_le h (by split <;> decide) (by split <;> decide)

/-- What the queries return when events of `a` lose every tie. -/
def answerAgainst (a : Uuid) (events : Table StateEvent) (assetIds : Finset Uuid)
    (start stop : Instant) : StateEvents events assetIds start stop where
  rows := ((newest (behind a) (before events assetIds start)).toList ++
    inPeriod events assetIds start stop).insertionSort fun e e' => behind a e ≤ behind a e'
  carried := newest (behind a) (before events assetIds start)
  latest e he := by
    cases hc : newest (behind a) (before events assetIds start) with
    | none => rw [newest_eq_none.mp hc] at he; cases he
    | some c => exact ⟨c, rfl, time_le_of_behind ((newest_spec hc).2 e he)⟩
  carried_mem _ hc := newest_mem hc
  perm := List.perm_insertionSort _ _
  ordered := (List.pairwise_insertionSort _ _).imp time_le_of_behind

/-- If another asset has an event as late, the rows may put that one last. -/
theorem leads_of_latestAsset {t : Instant} (hstart : start ≤ t) (hstop : t < stop) {a : Uuid}
    (hlatest : latestAsset (answerAgainst a events assetIds start stop) t = some a) :
    Leads events assetIds a t := by
  obtain ⟨x, hforce, hxa⟩ := Option.map_eq_some_iff.mp hlatest
  obtain ⟨hx, hxt⟩ := inForce_mem StateEvent.time hforce
  obtain ⟨hxrow, -⟩ := rows_sound _ hx
  intro e he hea hne het
  refine ⟨x, hxrow, hxa, ?_, hxt⟩
  have hsorted : (answerAgainst a events assetIds start stop).rows.Pairwise
      fun e e' => behind a e ≤ behind a e' := List.pairwise_insertionSort _ _
  have hlast : ∀ y ∈ (answerAgainst a events assetIds start stop).rows, y.time ≤ t →
      behind a y ≤ behind a x := by
    intro y hy hyt
    rcases inForce_last StateEvent.time hsorted hforce y hy hyt with rfl | hle
    · exact le_refl _
    · exact hle
  have hle : behind a e ≤ behind a x := by
    by_cases hin : start ≤ e.time
    · refine hlast e ((answerAgainst a events assetIds start stop).perm.mem_iff.mpr
        (List.mem_append_right _ (Table.mem_select.mpr ⟨he, ?_⟩))) het
      simpa [hea, hin] using lt_of_le_of_lt het hstop
    · have hbefore : e ∈ before events assetIds start :=
        Table.mem_select.mpr ⟨he, by simpa [hea] using hin⟩
      cases hc : newest (behind a) (before events assetIds start) with
      | none => rw [newest_eq_none.mp hc] at hbefore; cases hbefore
      | some c =>
        have hcmem := (Table.mem_select.mp (newest_mem hc)).2
        simp only [Bool.decide_and, Bool.and_eq_true, decide_eq_true_eq] at hcmem
        refine ((newest_spec hc).2 e hbefore).trans (hlast c ?_ (hcmem.2.le.trans hstart))
        refine (answerAgainst a events assetIds start stop).perm.mem_iff.mpr
          (List.mem_append_left _ (Option.mem_toList.mpr hc))
  unfold behind at hle
  rw [if_neg hne, if_pos hxa] at hle
  exact double_lt hle

theorem timeIn_of_leads (answer : StateEvents events assetIds start stop) {s : MachineState}
    (hleads : ∀ t, start ≤ t → t < stop → ∀ a ∈ assetIds, stateAt events a t = some s →
      Leads events assetIds a t) :
    timeIn (· = s) (durationsFromEvents (answer.rows.map StateEvent.row) start stop) =
      ∑ a ∈ assetIds, ownTime events a start stop s := by
  refine (timeIn_eq_sum_iff answer s).mpr fun t hstart hstop a ha hstate => ?_
  exact latestAsset_of_leads answer hstart hstop ha hstate (hleads t hstart hstop a ha hstate)

/-- The time in every state that a KPI counts is the sum over the assets, in
whatever order the rows of one time come, exactly when an asset in such a state
always has the latest event of the scope. -/
theorem additive_iff (counted : MachineState → Prop) :
    (∀ answer : StateEvents events assetIds start stop, ∀ s, counted s →
      timeIn (· = s) (durationsFromEvents (answer.rows.map StateEvent.row) start stop) =
        ∑ a ∈ assetIds, ownTime events a start stop s) ↔
      ∀ t, start ≤ t → t < stop → ∀ a ∈ assetIds, ∀ s, counted s →
        stateAt events a t = some s → Leads events assetIds a t := by
  constructor
  · intro hadd t hstart hstop a ha s hs hstate
    have honly := (timeIn_eq_sum_iff (answerAgainst a events assetIds start stop) s).mp
      (hadd _ s hs)
    exact leads_of_latestAsset hstart hstop (honly t hstart hstop a ha hstate)
  · intro hleads answer s hs
    exact timeIn_of_leads answer fun t hstart hstop a ha =>
      hleads t hstart hstop a ha s hs

/-- Two machines that have been running since before the period. -/
def twoRunning : Table StateEvent :=
  ⟨[⟨-5, 1, .running, none⟩, ⟨-3, 2, .running, none⟩], by decide⟩

theorem two_running_count_once : ¬ ∀ answer : StateEvents twoRunning {1, 2} 0 10,
    ∀ s, s ≠ MachineState.maintenance →
      timeIn (· = s) (durationsFromEvents (answer.rows.map StateEvent.row) 0 10) =
        ∑ a ∈ ({1, 2} : Finset Uuid), ownTime twoRunning a 0 10 s := by
  intro h
  have hrun := h (stateEvents twoRunning {1, 2} 0 10) .running (by decide)
  have hfold : timeIn (· = .running) (durationsFromEvents
      ((stateEvents twoRunning {1, 2} 0 10).rows.map StateEvent.row) 0 10) = 10 := by decide
  have hsum : ∑ a ∈ ({1, 2} : Finset Uuid), ownTime twoRunning a 0 10 .running = 20 := by decide
  rw [hfold, hsum] at hrun
  cases hrun

/-- For one asset the three times are those it spends in the states they count. -/
theorem kpi_times_one_asset {a : Uuid} (answer : StateEvents events {a} start stop) :
    let durations := durationsFromEvents (answer.rows.map StateEvent.row) start stop
    runTime durations = ownTime events a start stop .running ∧
      plannedTime durations =
        ∑ s ∈ {.running, .idle, .down, .unknown}, ownTime events a start stop s ∧
      downtime durations = ∑ s ∈ {.down, .idle, .unknown}, ownTime events a start stop s := by
  intro durations
  have own : ∀ s, timeIn (· = s) durations = ownTime events a start stop s := by
    intro s
    rw [timeIn_of_leads answer, Finset.sum_singleton]
    intro t _ _ b hb _ e _ he hne _
    exact absurd ((Finset.mem_singleton.mp he).trans (Finset.mem_singleton.mp hb).symm) hne
  refine ⟨own .running, ?_, ?_⟩
  · rw [plannedTime_eq]
    exact Finset.sum_congr rfl fun s _ => own s
  · rw [downtime_eq]
    exact Finset.sum_congr rfl fun s _ => own s

end TwinVoice.Analytics
