import TwinVoice.Analytics.Kpis
import TwinVoice.Ingest.States

/-! # Breakdowns

MTBF divides by the number of `DOWN` events with the cause `breakdown`. The
ingest consumer writes the only state events that there are, and it leaves the
cause empty: every entry into `DOWN` has its event, and none is counted. -/

namespace TwinVoice.Analytics

open TwinVoice.Lib TwinVoice.Lib.Transition TwinVoice.Ingest.States

def machineState : AssetState → MachineState
  | .running => .running
  | .idle => .idle
  | .down => .down
  | .maintenance => .maintenance
  | .unknown => .unknown

/-- The row as a query finds it: the consumer sets no `cause_code`. -/
def stateEvent (e : AssetStateEvent) : StateEvent := ⟨e.time, e.assetId, machineState e.state, none⟩

/-- What is on record of the state changes of some assets. -/
def history (log : StateLog) (assetIds : List Uuid) : History where
  events := ((log.select fun e => e.assetId ∈ assetIds).map stateEvent).insertionSort fun e e' => e.time ≤ e'.time
  ordered := List.pairwise_insertionSort _ _
  production := []
  energy := []
  repairs := []

/-- `breakdowns`. -/
def breakdownCount (log : StateLog) (assetIds : List Uuid) (start stop : Instant) : Nat :=
  ((history log assetIds).breakdowns start stop).length

/-! ## Going down -/

/-- The valid state of the asset that is read, and when. -/
def readOf (asset : Uuid) : Ingest.States.Event → Option (Instant × AssetState)
  | .reading a text now _ => if a = asset then (AssetState.ofText? text).map fun st => (now, st) else none
  | .refresh _ | .restart _ => none

/-- The times at which `DOWN` follows another state. -/
def entries (last : Option AssetState) : List (Instant × AssetState) → List Instant
  | [] => []
  | (now, st) :: rest =>
    if st = .down ∧ last ≠ some .down then now :: entries (some st) rest else entries (some st) rest

def stateAfter (last : Option AssetState) (reads : List (Instant × AssetState)) : Option AssetState :=
  (reads.getLast?.map Prod.snd).or last

theorem entries_concat (last : Option AssetState) (reads : List (Instant × AssetState)) (now : Instant) (st : AssetState) :
    entries last (reads ++ [(now, st)]) =
      entries last reads ++ if st = .down ∧ stateAfter last reads ≠ some .down then [now] else [] := by
  induction reads generalizing last with
  | nil =>
    have hafter : stateAfter last [] = last := rfl
    rw [hafter]
    rfl
  | cons read rest ih =>
    obtain ⟨now', st'⟩ := read
    have hafter : stateAfter last ((now', st') :: rest) = stateAfter (some st') rest := by
      unfold stateAfter
      rw [List.getLast?_cons]
      cases rest.getLast? <;> rfl
    rw [List.cons_append, entries, ih, entries, hafter]
    split <;> rfl

theorem stateAfter_concat (last : Option AssetState) (reads : List (Instant × AssetState)) (now : Instant)
    (st : AssetState) : stateAfter last (reads ++ [(now, st)]) = some st := by
  simp [stateAfter]

/-- The times at which the machine states that are ingested have the asset go down. -/
def wentDown (asset : Uuid) (start : Recorder) (es : List Ingest.States.Event) : List Instant :=
  entries (start.latestState asset) (es.filterMap (readOf asset))

/-! ## The events -/

/-- The database works. -/
def Works : Ingest.States.Event → Prop
  | .reading _ _ _ works | .refresh works | .restart works => works = true

def downRows (asset : Uuid) (log : StateLog) : List Instant :=
  (log.rows.filter fun e => e.assetId = asset ∧ e.state = .down).map AssetStateEvent.time

def Loaded (r : Recorder) : Prop := ∀ a, r.lastState.get? a = r.latestState a

theorem breakdownCount_eq (log : StateLog) (assetIds : List Uuid) (start stop : Instant) :
    breakdownCount log assetIds start stop = 0 := by
  unfold breakdownCount History.breakdowns
  rw [List.length_eq_zero_iff, List.filter_eq_nil_iff]
  intro e he
  obtain ⟨x, -, rfl⟩ := List.mem_map.mp ((List.mem_insertionSort _).mp he)
  simp [stateEvent]

/-- What a run with a working database has made of the table. -/
structure Followed (asset : Uuid) (start : Recorder) (es : List Ingest.States.Event) (r : Recorder) : Prop where
  loaded : Loaded r
  latest : r.latestState asset = stateAfter (start.latestState asset) (es.filterMap (readOf asset))
  rows : downRows asset r.log = downRows asset start.log ++ wentDown asset start es

theorem Followed.keep {asset : Uuid} {start r s : Recorder} {es : List Ingest.States.Event}
    {e : Ingest.States.Event} (h : Followed asset start es r) (hlog : s.log = r.log) (hloaded : Loaded s)
    (hread : readOf asset e = none) : Followed asset start (es ++ [e]) s := by
  have hreads : (es ++ [e]).filterMap (readOf asset) = es.filterMap (readOf asset) := by simp [hread]
  refine ⟨hloaded, ?_, ?_⟩
  · rw [hreads, ← h.latest, Recorder.latestState, hlog]
    rfl
  · rw [wentDown, hreads, hlog]
    exact h.rows

/-- A reading of the asset in the state that it is in. -/
theorem Followed.repeat {asset : Uuid} {start r s : Recorder} {es : List Ingest.States.Event}
    {e : Ingest.States.Event} {now : Instant} {st : AssetState} (h : Followed asset start es r) (hlog : s.log = r.log)
    (hloaded : Loaded s) (hread : readOf asset e = some (now, st)) (hsame : r.latestState asset = some st) :
    Followed asset start (es ++ [e]) s := by
  have hreads : (es ++ [e]).filterMap (readOf asset) = es.filterMap (readOf asset) ++ [(now, st)] := by simp [hread]
  refine ⟨hloaded, ?_, ?_⟩
  · rw [hreads, stateAfter_concat, ← hsame, Recorder.latestState, hlog]
    rfl
  · rw [wentDown, hreads, entries_concat, ← h.latest, hsame, if_neg fun hdown => hdown.2 (by rw [hdown.1]),
      List.append_nil, hlog]
    exact h.rows

theorem loaded_changeState {r : Recorder} (h : Loaded r) (a : Uuid) (st : AssetState) {now : Instant}
    (hnow : r.clock < now) : Loaded (r.changeState a st now true hnow) := by
  intro x
  have hcached : (r.changeState a st now true hnow).lastState.get? x =
      if a = x then some st else r.lastState.get? x := Dict.get?_set _ _ _ _
  rw [hcached]
  by_cases hx : a = x
  · subst hx
    have hstored : (r.changeState a st now true hnow).latestState a = some st :=
      StateLog.latestState_add (r.past_at hnow)
    rw [if_pos rfl, hstored]
  · have hstored : (r.changeState a st now true hnow).latestState x = r.latestState x :=
      StateLog.latestState_add_of_ne (r.past_at hnow) hx
    rw [if_neg hx, hstored, h x]

theorem downRows_changeState (r : Recorder) (asset a : Uuid) (st : AssetState) {now : Instant} (hnow : r.clock < now) :
    downRows asset (r.changeState a st now true hnow).log =
      downRows asset r.log ++ if a = asset ∧ st = .down then [now] else [] := by
  have hrows : (r.changeState a st now true hnow).log.rows = r.log.rows ++ [(⟨now, a, st, "simulator"⟩ : AssetStateEvent)] :=
    StateLog.rows_add (e := ⟨now, a, st, "simulator"⟩) (r.past_at hnow)
  rw [downRows, hrows, List.filter_append, List.map_append]
  by_cases hdown : a = asset ∧ st = .down
  · simp [hdown, downRows]
  · have hnone : [(⟨now, a, st, "simulator"⟩ : AssetStateEvent)].filter
        (fun e => decide (e.assetId = asset ∧ e.state = .down)) = [] := by simp [hdown]
    rw [hnone, if_neg hdown]
    rfl

/-- A reading of an asset in another state than it was in has its event. -/
theorem Followed.change {asset a : Uuid} {start r : Recorder} {es : List Ingest.States.Event}
    {e : Ingest.States.Event} {now : Instant} {st : AssetState} (h : Followed asset start es r) (hnow : r.clock < now)
    (hread : readOf asset e = if a = asset then some (now, st) else none) (hother : r.latestState a ≠ some st) :
    Followed asset start (es ++ [e]) (r.changeState a st now true hnow) := by
  have hloaded := loaded_changeState h.loaded a st hnow
  by_cases ha : a = asset
  · subst ha
    rw [if_pos rfl] at hread
    have hreads : (es ++ [e]).filterMap (readOf a) = es.filterMap (readOf a) ++ [(now, st)] := by simp [hread]
    have hentry : (st = .down ∧ r.latestState a ≠ some .down) ↔ a = a ∧ st = .down :=
      ⟨fun hdown => ⟨rfl, hdown.1⟩, fun hdown => ⟨hdown.2, hdown.2 ▸ hother⟩⟩
    refine ⟨hloaded, ?_, ?_⟩
    · rw [hreads, stateAfter_concat]
      exact StateLog.latestState_add (r.past_at hnow)
    · rw [wentDown, hreads, entries_concat, ← h.latest, downRows_changeState, h.rows, wentDown, List.append_assoc]
      simp only [hentry]
  · rw [if_neg ha] at hread
    have hreads : (es ++ [e]).filterMap (readOf asset) = es.filterMap (readOf asset) := by simp [hread]
    refine ⟨hloaded, ?_, ?_⟩
    · rw [hreads, ← h.latest]
      exact StateLog.latestState_add_of_ne (r.past_at hnow) ha
    · rw [wentDown, hreads, downRows_changeState, if_neg fun hdown => ha hdown.1, List.append_nil]
      exact h.rows

theorem followed_step {asset : Uuid} {start r s : Recorder} {es : List Ingest.States.Event}
    {e : Ingest.States.Event} (h : Followed asset start es r) (hworks : Works e) (hstep : step r e = some s) :
    Followed asset start (es ++ [e]) s := by
  cases e with
  | refresh works =>
    obtain rfl : works = true := hworks
    cases hstep
    refine h.keep (by unfold Recorder.refreshCaches; split <;> rfl) (fun a => ?_) rfl
    unfold Recorder.refreshCaches
    split
    · exact StateLog.get?_loadLastStates r.log a
    · exact h.loaded a
  | restart works =>
    obtain rfl : works = true := hworks
    cases hstep
    exact h.keep rfl (StateLog.get?_loadLastStates r.log) rfl
  | reading a text now works =>
    obtain rfl : works = true := hworks
    obtain ⟨hnow, rfl⟩ := of_step_reading hstep
    have hread : readOf asset (.reading a text now true) =
        if a = asset then (AssetState.ofText? text).map fun st => (now, st) else none := rfl
    unfold Recorder.handleStateChange
    cases htext : AssetState.ofText? text with
    | none => exact h.keep rfl h.loaded (by rw [hread, htext, Option.map_none, ite_self])
    | some st =>
      rw [htext, Option.map_some] at hread
      by_cases hcached : r.lastState.get? a = some st
      · simp only [hcached, if_true]
        by_cases ha : a = asset
        · subst ha
          exact h.repeat rfl h.loaded (by rw [hread, if_pos rfl]) ((h.loaded a).symm.trans hcached)
        · exact h.keep rfl h.loaded (by rw [hread, if_neg ha])
      · simp only [hcached, if_false]
        exact h.change hnow hread fun hlatest => hcached ((h.loaded a).trans hlatest)

/-- Every entry into `DOWN` has its event, as long as the database works. -/
theorem downRows_of_run {start r : Recorder} {es : List Ingest.States.Event} (hloaded : Loaded start)
    (hrun : Run (Fires step) start es r) (hworks : ∀ e ∈ es, Works e) (asset : Uuid) :
    downRows asset r.log = downRows asset start.log ++ wentDown asset start es := by
  refine Followed.rows (Run.invariant (fun es r => (∀ e ∈ es, Works e) → Followed asset start es r) ?_ ?_ hrun hworks)
  · exact fun _ => ⟨hloaded, rfl, (List.append_nil _).symm⟩
  · intro es r e s ih hstep hworks
    exact followed_step (ih fun f hf => hworks f (List.mem_append_left _ hf)) (hworks e (by simp)) hstep

/-- The number of breakdowns is the number of times that the asset went down in
the period exactly if it never did: what is counted is always nothing, though
the entries themselves are on record as long as the database works. -/
theorem breakdowns_counted_iff {start r : Recorder} {es : List Ingest.States.Event}
    (hrun : Run (Fires step) start es r) (asset : Uuid) (from_ until_ : Instant) :
    (breakdownCount r.log [asset] from_ until_ =
        ((wentDown asset start es).filter fun t => from_ ≤ t ∧ t < until_).length ↔
      ∀ t ∈ wentDown asset start es, ¬(from_ ≤ t ∧ t < until_)) ∧
    (Loaded start → (∀ e ∈ es, Works e) →
      downRows asset r.log = downRows asset start.log ++ wentDown asset start es) := by
  refine ⟨?_, fun hloaded hworks => downRows_of_run hloaded hrun hworks asset⟩
  rw [breakdownCount_eq, eq_comm, List.length_eq_zero_iff, List.filter_eq_nil_iff]
  simp only [decide_eq_true_iff]

/-! The press runs, goes down and runs again. -/

def stop : List Ingest.States.Event :=
  [.restart true, .reading 4 "DOWN" 10 true, .reading 4 "RUNNING" 20 true]

theorem stop_runs : ∃ r, Run (Fires step) press stop r := by
  have hreplays : (replay step press stop).isSome := by decide
  obtain ⟨r, hr⟩ := Option.isSome_iff_exists.mp hreplays
  exact ⟨r, run_of_replay hr⟩

theorem breakdowns_counted_later : ∃ r, Run (Fires step) press stop r ∧
    breakdownCount r.log [4] 20 30 = ((wentDown 4 press stop).filter fun t => 20 ≤ t ∧ t < 30).length := by
  obtain ⟨r, hr⟩ := stop_runs
  exact ⟨r, hr, (breakdowns_counted_iff hr 4 20 30).1.mpr (by decide)⟩

theorem breakdown_uncounted : ¬ ∀ start es r, Run (Fires step) start es r → ∀ asset from_ until_,
    breakdownCount r.log [asset] from_ until_ =
      ((wentDown asset start es).filter fun t => from_ ≤ t ∧ t < until_).length := by
  intro h
  obtain ⟨r, hr⟩ := stop_runs
  have hcount := h press stop r hr 4 0 30
  rw [breakdownCount_eq] at hcount
  exact absurd hcount (by decide)

end TwinVoice.Analytics
