import Mathlib.Algebra.BigOperators.Group.Finset.Piecewise
import Mathlib.Algebra.Order.BigOperators.Group.Finset
import Mathlib.Data.List.Sort
import TwinVoice.Basic
import TwinVoice.Lib.Table
import TwinVoice.Lib.Timeline

/-! # Time in state

`state_events` loads the state changes of a set of assets and
`durations_from_events` turns them into durations, as if they were those of
one machine. The seconds that come out of it for a line or a plant are the sum
over its assets only as long as no two assets count at once. -/

namespace TwinVoice.Analytics

open TwinVoice.Lib TwinVoice.Lib.Timeline

inductive MachineState
  | running | idle | down | maintenance | unknown
  deriving DecidableEq

/-- A row of `asset_state_events`, with the primary key `(time, asset_id)`. -/
structure StateEvent where
  time : Instant
  assetId : Uuid
  state : MachineState
  causeCode : Option String
  deriving DecidableEq

instance : Keyed StateEvent (Instant × Uuid) := ⟨fun e => (e.time, e.assetId)⟩

/-- A row of a query result: `time, state, cause_code`. -/
structure StateRow where
  time : Instant
  state : MachineState
  causeCode : Option String

def StateEvent.row (e : StateEvent) : StateRow := ⟨e.time, e.state, e.causeCode⟩

structure StateDuration where
  state : MachineState
  length : Duration
  causeCode : Option String

/-- `durations_from_events`. -/
def durationsFromEvents (events : List StateRow) (periodStart periodEnd : Instant) :
    List StateDuration :=
  (spans StateRow.time periodStart periodEnd
    (events.insertionSort fun e e' => e.time ≤ e'.time)).map fun part =>
      ⟨part.1.state, part.2, part.1.causeCode⟩

/-- The time that a KPI takes into account for states of some kind. -/
def timeIn (p : MachineState → Prop) [DecidablePred p] (durations : List StateDuration) : Duration :=
  ((durations.filter fun d => p d.state).map StateDuration.length).sum

def runTime (durations : List StateDuration) : Duration := timeIn (· = .running) durations

def plannedTime (durations : List StateDuration) : Duration := timeIn (· ≠ .maintenance) durations

/-- `UNPLANNED_STATES`. -/
def unplannedStates : List MachineState := [.down, .idle, .unknown]

def downtime (durations : List StateDuration) : Duration := timeIn (· ∈ unplannedStates) durations

theorem timeIn_cons (p : MachineState → Prop) [DecidablePred p] (d : StateDuration)
    (ds : List StateDuration) :
    timeIn p (d :: ds) = (if p d.state then d.length else 0) + timeIn p ds := by
  unfold timeIn
  rw [List.filter_cons]
  by_cases h : p d.state
  · simp [h]
  · simp [h]

/-- The time in states of a kind is made up of the times in each of them. -/
theorem timeIn_eq_sum (kinds : Finset MachineState) (ds : List StateDuration) :
    timeIn (· ∈ kinds) ds = ∑ s ∈ kinds, timeIn (· = s) ds := by
  induction ds with
  | nil => exact (Finset.sum_eq_zero fun _ _ => rfl).symm
  | cons d ds ih =>
    rw [timeIn_cons, ih]
    simp only [timeIn_cons, Finset.sum_add_distrib, Finset.sum_ite_eq]

theorem plannedTime_eq (ds : List StateDuration) :
    plannedTime ds = ∑ s ∈ {.running, .idle, .down, .unknown}, timeIn (· = s) ds := by
  rw [← timeIn_eq_sum]
  unfold plannedTime timeIn
  congr 3
  funext d
  cases d.state <;> rfl

theorem downtime_eq (ds : List StateDuration) :
    downtime ds = ∑ s ∈ {.down, .idle, .unknown}, timeIn (· = s) ds := by
  rw [← timeIn_eq_sum]
  rfl

/-- The fold over state changes in order counts the instants at which one of the kind is in force. -/
theorem timeIn_durationsFromEvents {rows : List StateEvent} (h : Ordered StateEvent.time rows)
    (start stop : Instant) (p : MachineState → Prop) [DecidablePred p] :
    timeIn p (durationsFromEvents (rows.map StateEvent.row) start stop) =
      (instants StateEvent.time start stop (fun e => p e.state) rows).card := by
  have hsorted : (rows.map StateEvent.row).insertionSort (fun e e' => e.time ≤ e'.time) =
      rows.map StateEvent.row :=
    List.Pairwise.insertionSort_eq (List.pairwise_map.mpr h)
  rw [← total_spans StateEvent.time (fun e : StateEvent => p e.state) h]
  unfold timeIn durationsFromEvents total
  rw [hsorted, spans_map, List.map_map, List.filter_map, List.map_map]
  rfl

/-- The events of these assets inside the period. -/
def inPeriod (events : Table StateEvent) (assetIds : Finset Uuid) (start stop : Instant) :
    List StateEvent :=
  events.select fun e => e.assetId ∈ assetIds ∧ start ≤ e.time ∧ e.time < stop

/-- The events of these assets before the period. -/
def before (events : Table StateEvent) (assetIds : Finset Uuid) (start : Instant) : List StateEvent :=
  events.select fun e => e.assetId ∈ assetIds ∧ e.time < start

/-- What the two queries of `state_events` may return: the events in the period
and one latest event from before it, in the order of their times. -/
structure StateEvents (events : Table StateEvent) (assetIds : Finset Uuid) (start stop : Instant) where
  rows : List StateEvent
  carried : Option StateEvent
  latest : ∀ e ∈ before events assetIds start, ∃ c, carried = some c ∧ e.time ≤ c.time
  carried_mem : ∀ c, carried = some c → c ∈ before events assetIds start
  perm : rows.Perm (carried.toList ++ inPeriod events assetIds start stop)
  ordered : Ordered StateEvent.time rows

/-- `state_events`, where rows of one time come in table order. -/
def stateEvents (events : Table StateEvent) (assetIds : Finset Uuid) (start stop : Instant) :
    StateEvents events assetIds start stop where
  rows := ((newest StateEvent.time (before events assetIds start)).toList ++
    inPeriod events assetIds start stop).insertionSort fun e e' => e.time ≤ e'.time
  carried := newest StateEvent.time (before events assetIds start)
  latest e he := by
    cases hc : newest StateEvent.time (before events assetIds start) with
    | none => rw [newest_eq_none.mp hc] at he; cases he
    | some c => exact ⟨c, rfl, (newest_spec hc).2 e he⟩
  carried_mem _ hc := newest_mem hc
  perm := List.perm_insertionSort _ _
  ordered := List.pairwise_insertionSort _ _

/-- The state that an asset's own latest event has set. -/
def stateAt (events : Table StateEvent) (assetId : Uuid) (t : Instant) : Option MachineState :=
  (newest StateEvent.time (events.select fun e => e.assetId = assetId ∧ e.time ≤ t)).map StateEvent.state

/-- The time that an asset spends in a state during the period. -/
def ownTime (events : Table StateEvent) (assetId : Uuid) (start stop : Instant) (s : MachineState) :
    Duration :=
  ((period start stop).filter fun t => stateAt events assetId t = some s).card

/-- The asset whose event is the last so far among the rows. -/
def latestAsset {events : Table StateEvent} {assetIds : Finset Uuid} {start stop : Instant}
    (answer : StateEvents events assetIds start stop) (t : Instant) : Option Uuid :=
  (inForce StateEvent.time answer.rows t).map StateEvent.assetId

end TwinVoice.Analytics

/-! ## What the durations measure

`durations_from_events` sorts the state changes of one machine and pairs each
with the next. Nothing is asked of the list that it gets: the durations of a
state add up to the instants of the period at which the latest change so far
has set that state, the last listed one where several have one time. -/

namespace TwinVoice.Analytics

open TwinVoice.Lib TwinVoice.Lib.Timeline

/-- The state that the latest of the changes up to an instant has set. -/
def stateSince (events : List StateRow) (t : Instant) : Option MachineState :=
  (latest StateRow.time events t).map StateRow.state

example : stateSince [⟨0, .down, none⟩, ⟨5, .running, none⟩, ⟨0, .idle, none⟩] 3 = some .idle := by decide

/-- The length of the period from the first of the changes on. -/
def observed (events : List StateRow) (periodStart periodEnd : Instant) : Duration :=
  match (events.map StateRow.time).min? with
  | none => 0
  | some first => max 0 (periodEnd - max periodStart first)

/-- The seconds of some kind are the instants at which a state of the kind is in force. -/
theorem timeIn_eq_card (events : List StateRow) (periodStart periodEnd : Instant)
    (p : MachineState → Prop) [DecidablePred p] :
    timeIn p (durationsFromEvents events periodStart periodEnd) =
      ((period periodStart periodEnd).filter fun t => (stateSince events t).any fun s => p s).card := by
  have hsorted : Ordered StateRow.time (events.insertionSort fun e e' => e.time ≤ e'.time) :=
    List.pairwise_insertionSort _ _
  have hinstants : instants StateRow.time periodStart periodEnd (fun e => p e.state)
      (events.insertionSort fun e e' => e.time ≤ e'.time) =
        (period periodStart periodEnd).filter fun t => (stateSince events t).any fun s => p s := by
    refine Finset.filter_congr fun t _ => ?_
    rw [inForce_insertionSort, stateSince, Option.any_map]
  rw [← hinstants, ← total_spans StateRow.time (fun e => p e.state) hsorted]
  unfold timeIn durationsFromEvents total
  rw [List.filter_map, List.map_map]
  rfl

theorem stateSince_isSome {events : List StateRow} {t : Instant} :
    (stateSince events t).isSome ↔ ∃ e ∈ events, e.time ≤ t := by
  rw [stateSince, Option.isSome_map, ← inForce_insertionSort]
  constructor
  · intro h
    obtain ⟨e, he⟩ := Option.isSome_iff_exists.mp h
    obtain ⟨hmem, het⟩ := inForce_mem StateRow.time he
    exact ⟨e, (List.mem_insertionSort _).mp hmem, het⟩
  · rintro ⟨e, he, het⟩
    refine Option.isSome_iff_ne_none.mpr fun hnone => ?_
    exact absurd het (not_le.mpr ((inForce_eq_none StateRow.time).mp hnone e ((List.mem_insertionSort _).mpr he)))

/-- Before the first change the machine has no state, from it on it has one. -/
theorem card_known (events : List StateRow) (periodStart periodEnd : Instant) :
    (((period periodStart periodEnd).filter fun t => (stateSince events t).isSome).card : ℤ) =
      observed events periodStart periodEnd := by
  unfold observed
  cases hfirst : (events.map StateRow.time).min? with
  | none =>
    have hnil : events = [] := by simpa using hfirst
    have hunknown : ∀ t ∈ period periodStart periodEnd, ¬ (stateSince events t).isSome := by
      simp [stateSince_isSome, hnil]
    rw [Finset.filter_false_of_mem hunknown]
    rfl
  | some first =>
    obtain ⟨hmem, hle⟩ := List.min?_eq_some_iff.mp hfirst
    obtain ⟨e, he, rfl⟩ := List.mem_map.mp hmem
    have hperiod : ((period periodStart periodEnd).filter fun t => (stateSince events t).isSome) =
        period (max periodStart e.time) periodEnd := by
      ext t
      rw [Finset.mem_filter, stateSince_isSome, mem_period, mem_period]
      constructor
      · rintro ⟨⟨hstart, hend⟩, x, hx, hxt⟩
        exact ⟨max_le hstart ((hle x.time (List.mem_map_of_mem hx)).trans hxt), hend⟩
      · rintro ⟨hstart, hend⟩
        exact ⟨⟨(le_max_left _ _).trans hstart, hend⟩, e, he, (le_max_right _ _).trans hstart⟩
    rw [hperiod, card_period, Int.toNat_eq_max]
    exact max_comm _ _

theorem sum_lengths (durations : List StateDuration) :
    (durations.map StateDuration.length).sum = timeIn (fun _ => True) durations := by
  simp [timeIn]

/-- The durations of each state measure the instants at which that state is in force, and
together they are as long as the period from the first change on. -/
theorem durationsFromEvents_measure (events : List StateRow) (periodStart periodEnd : Instant) :
    (∀ s, timeIn (· = s) (durationsFromEvents events periodStart periodEnd) =
      ((period periodStart periodEnd).filter fun t => stateSince events t = some s).card) ∧
    ((durationsFromEvents events periodStart periodEnd).map StateDuration.length).sum =
      observed events periodStart periodEnd := by
  constructor
  · intro s
    have hsame : ∀ t ∈ period periodStart periodEnd,
        ((stateSince events t).any fun s' => s' = s) = true ↔ stateSince events t = some s := by
      intro t _
      cases stateSince events t <;> simp
    rw [timeIn_eq_card, Finset.filter_congr hsame]
  · have hknown : ∀ t ∈ period periodStart periodEnd,
        ((stateSince events t).any fun _ => True) = true ↔ (stateSince events t).isSome = true := by
      intro t _
      cases stateSince events t <;> simp
    rw [sum_lengths, timeIn_eq_card, Finset.filter_congr hknown, card_known]

end TwinVoice.Analytics
