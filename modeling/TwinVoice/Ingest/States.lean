import TwinVoice.Basic
import TwinVoice.Lib.Dict
import TwinVoice.Lib.Table
import TwinVoice.Lib.Transition

/-! # The state-event log

The ingest consumer stores an event when a machine changes state, and keeps
the state last seen in memory so as not to store one twice. The memory is
written before the insert: after an insert that fails, readings of the same
state find it there and store nothing. -/

namespace TwinVoice.Ingest.States

open TwinVoice.Lib TwinVoice.Lib.Transition

/-- `VALID_STATES`, which are also the `ASSET_STATES` the table's check allows. -/
inductive AssetState
  | running | idle | down | maintenance | unknown
  deriving DecidableEq

namespace AssetState

def text : AssetState → String
  | running => "RUNNING"
  | idle => "IDLE"
  | down => "DOWN"
  | maintenance => "MAINTENANCE"
  | unknown => "UNKNOWN"

/-- The valid state that a reading's text names, if there is one. -/
def ofText? (s : String) : Option AssetState :=
  [running, idle, down, maintenance, unknown].find? (·.text == s)

@[simp] theorem ofText?_text (st : AssetState) : ofText? st.text = some st := by
  cases st <;> decide

end AssetState

/-- A row of `asset_state_events`. -/
structure AssetStateEvent where
  time : Instant
  assetId : Uuid
  state : AssetState
  source : String
  deriving DecidableEq

instance : Keyed AssetStateEvent (Instant × Uuid) := ⟨fun e => (e.time, e.assetId)⟩

abbrev StateLog := Table AssetStateEvent

namespace StateLog

/-- The asset's newest event. -/
def latest (log : StateLog) (asset : Uuid) : Option AssetStateEvent :=
  newest (·.time) (log.select (·.assetId == asset))

def latestState (log : StateLog) (asset : Uuid) : Option AssetState :=
  (log.latest asset).map (·.state)

/-- `session.add(event)` and `session.commit()`, on a database that works or does not. -/
def add (log : StateLog) (e : AssetStateEvent) (works : Bool) : StateLog :=
  if works then (log.insert e).getD log else log

/-- `_load_last_states`: the newest state of every asset that has events. -/
def loadLastStates (log : StateLog) : Dict Uuid AssetState :=
  Dict.ofKeys (log.rows.map (·.assetId)) log.latestState

theorem mem_add {log : StateLog} {e x : AssetStateEvent} {works : Bool}
    (h : x ∈ (log.add e works).rows) : x ∈ log.rows ∨ x = e := by
  unfold add at h
  split at h
  · cases hinsert : log.insert e with
    | none =>
      rw [hinsert] at h
      exact .inl h
    | some log' =>
      rw [hinsert] at h
      have hrows : x ∈ log'.rows := h
      rw [Table.rows_insert hinsert] at hrows
      simpa using hrows
  · exact .inl h

/-- An event later than all those stored has a free key. -/
theorem rows_add {log : StateLog} {e : AssetStateEvent} (h : ∀ x ∈ log.rows, x.time < e.time) :
    (log.add e true).rows = log.rows ++ [e] := by
  have hfree : log.find (Keyed.key e) = none := by
    rw [Table.find_eq_none]
    rintro hused
    obtain ⟨x, hx, hkey⟩ := List.mem_map.mp hused
    have htime : x.time = e.time := congrArg Prod.fst hkey
    exact absurd htime (Int.ne_of_lt (h x hx))
  obtain ⟨log', hinsert⟩ := Option.isSome_iff_exists.mp (Table.insert_isSome.mpr hfree)
  rw [add, if_pos rfl, hinsert]
  exact Table.rows_insert hinsert

theorem latestState_add {log : StateLog} {e : AssetStateEvent} (h : ∀ x ∈ log.rows, x.time < e.time) :
    (log.add e true).latestState e.assetId = some e.state := by
  have hnewest : (log.add e true).latest e.assetId = some e := by
    rw [latest, Table.select, rows_add h, List.filter_append]
    have hlast : [e].filter (·.assetId == e.assetId) = [e] := by simp
    rw [hlast]
    exact newest_append fun x hx => h x (List.mem_filter.mp hx).1
  rw [latestState, hnewest]
  rfl

theorem latestState_add_of_ne {log : StateLog} {e : AssetStateEvent} {works : Bool} {asset : Uuid}
    (h : ∀ x ∈ log.rows, x.time < e.time) (hne : e.assetId ≠ asset) :
    (log.add e works).latestState asset = log.latestState asset := by
  cases works with
  | false => rfl
  | true =>
    have hnone : [e].filter (·.assetId == asset) = [] := by simp [hne]
    rw [latestState, latest, Table.select, rows_add h, List.filter_append, hnone, List.append_nil]
    rfl

/-- What is loaded for an asset is its newest state. -/
theorem get?_loadLastStates (log : StateLog) (asset : Uuid) :
    log.loadLastStates.get? asset = log.latestState asset := by
  rw [loadLastStates, Dict.get?_ofKeys]
  split
  · rfl
  · rename_i habsent
    have hnone : log.select (·.assetId == asset) = [] := by
      refine List.filter_eq_nil_iff.mpr fun x hx => ?_
      have hne : x.assetId ≠ asset := fun he => habsent (he ▸ List.mem_map_of_mem hx)
      simpa using hne
    rw [latestState, latest, hnone]
    rfl

end StateLog

/-! ## The consumer -/

/-- What of the consumer decides on state events: `_last_state`, the table and
the clock, which no stored event is ahead of. -/
structure Recorder where
  lastState : Dict Uuid AssetState
  log : StateLog
  clock : Instant
  past : ∀ e ∈ log.rows, e.time ≤ clock

namespace Recorder

/-- A consumer that has not been started, on a database that holds `log`. -/
def create (log : StateLog) (clock : Instant) (past : ∀ e ∈ log.rows, e.time ≤ clock) : Recorder :=
  ⟨[], log, clock, past⟩

def latestState (r : Recorder) (asset : Uuid) : Option AssetState := r.log.latestState asset

theorem past_at (r : Recorder) {now : Instant} (h : r.clock < now) : ∀ e ∈ r.log.rows, e.time < now :=
  fun e he => Int.lt_of_le_of_lt (r.past e he) h

/-- The time is `now`. -/
def tick (r : Recorder) (now : Instant) (h : r.clock < now) : Recorder :=
  ⟨r.lastState, r.log, now, fun e he => Int.le_of_lt (r.past_at h e he)⟩

def changeState (r : Recorder) (asset : Uuid) (st : AssetState) (now : Instant) (works : Bool)
    (h : r.clock < now) : Recorder :=
  ⟨r.lastState.set asset st, r.log.add ⟨now, asset, st, "simulator"⟩ works, now, by
    intro e he
    rcases StateLog.mem_add he with hold | hnew
    · exact Int.le_of_lt (r.past_at h e hold)
    · exact Int.le_of_eq (congrArg AssetStateEvent.time hnew)⟩

/-- `_handle_state_change`. A failed insert is logged by `_on_message`; the cache is kept. -/
def handleStateChange (r : Recorder) (asset : Uuid) (state : String) (now : Instant) (works : Bool)
    (h : r.clock < now) : Recorder :=
  match AssetState.ofText? state with
  | none => r.tick now h
  | some st =>
    if r.lastState.get? asset = some st then r.tick now h else r.changeState asset st now works h

/-- The part of `_refresh_caches` that loads the last states. -/
def refreshCaches (r : Recorder) (works : Bool) : Recorder :=
  if works ∧ r.lastState = [] then { r with lastState := r.log.loadLastStates } else r

end Recorder

/-- What happens to the consumer; `works` says whether the database does. -/
inductive Event
  | reading (asset : Uuid) (state : String) (now : Instant) (works : Bool)
  | refresh (works : Bool)
  /-- a new process, whose `start` refreshes the caches -/
  | restart (works : Bool)

/-- Time passes from one message to the next. -/
def step (r : Recorder) : Event → Option Recorder
  | .reading asset state now works =>
    if h : r.clock < now then some (r.handleStateChange asset state now works h) else none
  | .refresh works => some (r.refreshCaches works)
  | .restart works => some ((Recorder.create r.log r.clock r.past).refreshCaches works)

theorem of_step_reading {r s : Recorder} {asset : Uuid} {text : String} {now : Instant} {works : Bool}
    (h : step r (.reading asset text now works) = some s) :
    ∃ hnow : r.clock < now, s = r.handleStateChange asset text now works hnow := by
  simp only [step] at h
  split at h
  · rename_i hnow
    cases h
    exact ⟨hnow, rfl⟩
  · cases h

namespace Recorder

/-- The cache holds for the asset a state that its newest event is not. -/
def ahead (r : Recorder) (asset : Uuid) (st : AssetState) : Prop :=
  r.lastState.get? asset = some st ∧ r.latestState asset ≠ some st

theorem not_ahead_of_loaded {r : Recorder} (h : r.lastState = [] ∨ r.lastState = r.log.loadLastStates)
    (asset : Uuid) (st : AssetState) : ¬r.ahead asset st := by
  rintro ⟨hcached, hstored⟩
  rcases h with hempty | hloaded
  · rw [hempty] at hcached
    cases hcached
  · rw [hloaded, StateLog.get?_loadLastStates] at hcached
    exact hstored hcached

/-- Of the asset itself: the log moves with the cache unless the insert fails. -/
theorem ahead_changeState (r : Recorder) (asset : Uuid) (st st' : AssetState) {now : Instant} (works : Bool)
    (h : r.clock < now) : (r.changeState asset st now works h).ahead asset st' ↔
      works = false ∧ st' = st ∧ r.latestState asset ≠ some st := by
  have hcached : (r.changeState asset st now works h).lastState.get? asset = some st := by
    rw [changeState, Dict.get?_set, if_pos rfl]
  cases works with
  | true =>
    have hstored : (r.changeState asset st now true h).latestState asset = some st :=
      StateLog.latestState_add (r.past_at h)
    simp only [ahead, hcached, hstored]
    simp
  | false =>
    have hstored : (r.changeState asset st now false h).latestState asset = r.latestState asset := rfl
    simp only [ahead, hcached, hstored]
    grind

theorem ahead_changeState_of_ne (r : Recorder) {asset other : Uuid} (st st' : AssetState) {now : Instant}
    (works : Bool) (h : r.clock < now) (hne : asset ≠ other) :
    (r.changeState asset st now works h).ahead other st' ↔ r.ahead other st' := by
  have hcached : (r.changeState asset st now works h).lastState.get? other = r.lastState.get? other := by
    rw [changeState, Dict.get?_set, if_neg hne]
  have hstored : (r.changeState asset st now works h).latestState other = r.latestState other :=
    StateLog.latestState_add_of_ne (r.past_at h) hne
  rw [ahead, hcached, hstored, ahead]

end Recorder

/-- The event is no restart and reads the asset in no other valid state. -/
def Unchanged (asset : Uuid) (st : AssetState) : Event → Prop
  | .reading a text _ _ => a = asset → AssetState.ofText? text = none ∨ AssetState.ofText? text = some st
  | .refresh _ => True
  | .restart _ => False

/-- The event reads the asset in the state while the database fails. -/
def ReadFailing (asset : Uuid) (st : AssetState) : Event → Prop
  | .reading a text _ works => a = asset ∧ AssetState.ofText? text = some st ∧ works = false
  | _ => False

theorem ahead_handleStateChange (r : Recorder) (a : Uuid) (text : String) {now : Instant} (works : Bool)
    (h : r.clock < now) (asset : Uuid) (st : AssetState) :
    (r.handleStateChange a text now works h).ahead asset st ↔
      (ReadFailing asset st (.reading a text now works) ∧ r.latestState asset ≠ some st) ∨
        (r.ahead asset st ∧ Unchanged asset st (.reading a text now works)) := by
  simp only [ReadFailing, Unchanged]
  unfold Recorder.handleStateChange
  cases htext : AssetState.ofText? text with
  | none =>
    have htick : (r.tick now h).ahead asset st ↔ r.ahead asset st := Iff.rfl
    simp [htick]
  | some st' =>
    by_cases hcached : r.lastState.get? a = some st'
    · -- a repeat: nothing is written, and a state the cache is ahead in is the one read
      have htick : (r.tick now h).ahead asset st ↔ r.ahead asset st := Iff.rfl
      simp only [hcached, if_true, htick]
      unfold Recorder.ahead
      grind
    · simp only [hcached, if_false]
      by_cases ha : a = asset
      · subst ha
        have hnot : ¬(r.ahead a st ∧ st' = st) := by
          rintro ⟨hahead, rfl⟩
          exact hcached hahead.1
        rw [Recorder.ahead_changeState]
        grind
      · rw [Recorder.ahead_changeState_of_ne r st' st works h ha]
        simp [ha]

/-- The cache gets ahead of the log by a failed insert only, and stays ahead
until the asset is read in another state or the consumer is restarted. -/
theorem ahead_step {r s : Recorder} {e : Event} (hstep : step r e = some s) (asset : Uuid)
    (st : AssetState) : s.ahead asset st ↔
      (ReadFailing asset st e ∧ r.latestState asset ≠ some st) ∨ (r.ahead asset st ∧ Unchanged asset st e) := by
  cases e with
  | reading a text now works =>
    obtain ⟨hnow, rfl⟩ := of_step_reading hstep
    exact ahead_handleStateChange r a text works hnow asset st
  | refresh works =>
    cases hstep
    simp only [ReadFailing, Unchanged, false_and, false_or, and_true]
    unfold Recorder.refreshCaches
    split
    · rename_i hloads
      have hbefore := Recorder.not_ahead_of_loaded (.inl hloads.2) asset st
      have hafter : ¬Recorder.ahead { r with lastState := r.log.loadLastStates } asset st :=
        Recorder.not_ahead_of_loaded (.inr rfl) asset st
      simp only [hbefore, hafter]
    · rfl
  | restart works =>
    cases hstep
    simp only [ReadFailing, Unchanged, false_and, and_false, or_false, iff_false]
    refine Recorder.not_ahead_of_loaded ?_ asset st
    unfold Recorder.refreshCaches
    split
    · exact .inr rfl
    · exact .inl rfl

/-! ## Runs -/

/-- An earlier reading of the state met a failing database while the newest
event of the asset was another, and nothing since has read the asset in
another state or restarted the consumer. -/
def Lost (start : Recorder) (es : List Event) (asset : Uuid) (st : AssetState) : Prop :=
  ∃ before e after m, es = before ++ e :: after ∧ replay step start before = some m ∧
    ReadFailing asset st e ∧ m.latestState asset ≠ some st ∧ ∀ f ∈ after, Unchanged asset st f

theorem lost_snoc {start r : Recorder} {es : List Event} (hrun : Run (Fires step) start es r) (e : Event)
    (asset : Uuid) (st : AssetState) : Lost start (es ++ [e]) asset st ↔
      (ReadFailing asset st e ∧ r.latestState asset ≠ some st) ∨
        (Lost start es asset st ∧ Unchanged asset st e) := by
  constructor
  · rintro ⟨before, f, after, m, hes, hm, hfailing, hlatest, hafter⟩
    cases List.eq_nil_or_concat after with
    | inl hnil =>
      subst hnil
      obtain ⟨rfl, hlast⟩ := List.append_inj' hes rfl
      cases hlast
      rw [replay_of_run hrun] at hm
      cases hm
      exact .inl ⟨hfailing, hlatest⟩
    | inr hconcat =>
      obtain ⟨after', l, rfl⟩ := hconcat
      rw [List.concat_eq_append, ← List.cons_append, ← List.append_assoc] at hes
      obtain ⟨rfl, hlast⟩ := List.append_inj' hes rfl
      cases hlast
      refine .inr ⟨⟨before, f, after', m, rfl, hm, hfailing, hlatest, ?_⟩, hafter e (by simp)⟩
      intro g hg
      exact hafter g (by simp [hg])
  · rintro (⟨hfailing, hlatest⟩ | ⟨⟨before, f, after, m, rfl, hm, hfailing, hlatest, hafter⟩, hunchanged⟩)
    · exact ⟨es, e, [], r, rfl, replay_of_run hrun, hfailing, hlatest, by simp⟩
    · refine ⟨before, f, after ++ [e], m, by simp, hm, hfailing, hlatest, ?_⟩
      intro g hg
      rcases List.mem_append.mp hg with hold | hnew
      · exact hafter g hold
      · exact List.mem_singleton.mp hnew ▸ hunchanged

theorem ahead_iff_lost {start r : Recorder} {es : List Event} (hstart : start.lastState = [])
    (hrun : Run (Fires step) start es r) (asset : Uuid) (st : AssetState) :
    r.ahead asset st ↔ Lost start es asset st := by
  induction hrun with
  | nil =>
    have hnot := Recorder.not_ahead_of_loaded (.inl hstart) asset st
    have hnone : ¬Lost start [] asset st := by
      rintro ⟨before, e, after, m, hes, -⟩
      simp at hes
    simp only [hnot, hnone]
  | snoc hinit hstep ih => rw [ahead_step hstep, lost_snoc hinit, ih]

/-- After a reading the cache holds the state. -/
theorem cached_of_reading {r s : Recorder} {asset : Uuid} {st : AssetState} {now : Instant} {works : Bool}
    (hread : step r (.reading asset st.text now works) = some s) : s.lastState.get? asset = some st := by
  obtain ⟨hnow, rfl⟩ := of_step_reading hread
  unfold Recorder.handleStateChange
  rw [AssetState.ofText?_text]
  by_cases hcached : r.lastState.get? asset = some st
  · simp only [hcached, if_true]
    exact hcached
  · simp only [hcached, if_false]
    rw [Recorder.changeState, Dict.get?_set, if_pos rfl]

/-- After a reading that finds the database working, the newest event of the
asset is the state just read, unless the insert at which the asset changed to
that state was lost. -/
theorem latest_follows_reading {start r s : Recorder} {es : List Event} {asset : Uuid} {st : AssetState}
    {now : Instant} (hstart : start.lastState = []) (hrun : Run (Fires step) start es r)
    (hread : step r (.reading asset st.text now true) = some s) :
    s.latestState asset = some st ↔ ¬Lost start es asset st := by
  have hahead : s.ahead asset st ↔ r.ahead asset st := by
    rw [ahead_step hread]
    simp [ReadFailing, Unchanged]
  rw [← ahead_iff_lost hstart hrun, ← hahead, Recorder.ahead]
  simp [cached_of_reading hread]

/-- A press goes down while the database fails; the next reading says the same. -/
def outage : List Event := [.restart true, .reading 4 "DOWN" 10 false]

def pressLog : StateLog := ⟨[⟨0, 4, .running, "simulator"⟩], by decide⟩

def press : Recorder := .create pressLog 5 (by decide)

theorem latest_follows_reading_recovers : ∃ r s, Run (Fires step) press outage r ∧
    step r (.reading 4 AssetState.idle.text 20 true) = some s ∧
    (s.latestState 4 = some .idle ↔ ¬Lost press outage 4 .idle) := by
  have hfires : ((replay step press outage).bind
      (step · (.reading 4 AssetState.idle.text 20 true))).isSome := by decide
  obtain ⟨s, hs⟩ := Option.isSome_iff_exists.mp hfires
  obtain ⟨r, hr, hread⟩ := Option.bind_eq_some_iff.mp hs
  exact ⟨r, s, run_of_replay hr, hread, latest_follows_reading rfl (run_of_replay hr) hread⟩

theorem repeat_after_failure_is_lost : ¬∀ (start r s : Recorder) (es : List Event) (asset : Uuid)
    (st : AssetState) (now : Instant), start.lastState = [] → Run (Fires step) start es r →
    step r (.reading asset st.text now true) = some s → s.latestState asset = some st := by
  intro h
  have hstored : ((replay step press outage).bind (step · (.reading 4 AssetState.down.text 20 true))).map
      (·.latestState 4) = some (some .running) := by decide
  obtain ⟨s, hs, hlatest⟩ := Option.map_eq_some_iff.mp hstored
  obtain ⟨r, hr, hread⟩ := Option.bind_eq_some_iff.mp hs
  have hclaimed := h press r s outage 4 .down 20 rfl (run_of_replay hr) hread
  rw [hlatest] at hclaimed
  cases hclaimed

end TwinVoice.Ingest.States
