import TwinVoice.Basic
import TwinVoice.Lib.Table
import TwinVoice.Lib.Transition
import Mathlib.Data.Rat.Floor

/-! # Alarms

Two writers share the table: the ingest consumer raises alarms, one open at a
time for each rule and machine, and the service moves them between their
states at an operator's request. The consumer takes a shelved alarm for a
closed one, and the service unshelves an alarm without looking for another
that was raised meanwhile, or whether it had been cleared. -/

namespace TwinVoice.Telemetry

open TwinVoice.Lib TwinVoice.Lib.Transition

inductive AlarmStatus
  | active | acknowledged | shelved | cleared
  deriving DecidableEq

/-- A row of `alarms`. -/
structure Alarm where
  id : Uuid
  raisedAt : Instant
  clearedAt : Option Instant
  assetId : Uuid
  sensorId : Option Uuid
  ruleId : Option Uuid
  severity : String
  title : String
  message : String
  value : Option Rat
  threshold : Option Rat
  status : AlarmStatus
  acknowledgedBy : Option Uuid
  acknowledgedAt : Option Instant
  assignedTo : Option Uuid
  shelvedUntil : Option Instant
  deriving DecidableEq

instance : Keyed Alarm Uuid := ⟨Alarm.id⟩

/-- What the consumer counts as open. -/
def Alarm.open (a : Alarm) : Prop := a.status = .active ∨ a.status = .acknowledged

instance (a : Alarm) : Decidable a.open := inferInstanceAs (Decidable (_ ∨ _))

inductive AlarmActionType
  | ack | assign | comment | shelve | unshelve | clear
  deriving DecidableEq

/-- The body of a request. -/
structure AlarmActionCreate where
  action : AlarmActionType
  note : Option String
  assignedTo : Option Uuid
  shelveHours : Option Rat

/-- A row of `alarm_actions`. -/
structure AlarmAction where
  alarmId : Uuid
  action : AlarmActionType
  note : Option String

/-- What an alarm engine reports of a violated rule. -/
structure AlarmData where
  ruleId : Uuid
  assetId : Uuid
  sensorId : Uuid
  severity : String
  title : String
  message : String
  value : Rat
  threshold : Rat

structure Store where
  alarms : Table Alarm
  actions : List AlarmAction

/-! ## The consumer -/

/-- `active_for_rule_and_asset`. -/
def activeForRuleAndAsset (s : Store) (ruleId assetId : Uuid) : Option Alarm :=
  s.alarms.rows.find? fun a => a.ruleId = some ruleId ∧ a.assetId = assetId ∧ a.open

/-- The row that `Alarm(**alarm_data)` stores, with the table's defaults. -/
def AlarmData.row (d : AlarmData) (id : Uuid) (now : Instant) : Alarm where
  id
  raisedAt := now
  clearedAt := none
  assetId := d.assetId
  sensorId := some d.sensorId
  ruleId := some d.ruleId
  severity := d.severity
  title := d.title
  message := d.message
  value := some d.value
  threshold := some d.threshold
  status := .active
  acknowledgedBy := none
  acknowledgedAt := none
  assignedTo := none
  shelvedUntil := none

/-- `_raise_alarm`; an insert that the database refuses is rolled back. -/
def raiseAlarm (s : Store) (d : AlarmData) (id : Uuid) (now : Instant) : Store :=
  match activeForRuleAndAsset s d.ruleId d.assetId with
  | some _ => s
  | none =>
    match s.alarms.insert (d.row id now) with
    | some alarms => { s with alarms }
    | none => s

/-! ## The service -/

/-- `timedelta(hours=h)`: microseconds, half to even. -/
def hours (h : Rat) : Duration :=
  let us := h * 3600000000
  let below := us.floor
  if us - below < 1 / 2 then below
  else if 1 / 2 < us - below then below + 1
  else if below % 2 = 0 then below
  else below + 1

/-- The branches of `perform_action`. -/
def Alarm.perform (a : Alarm) (data : AlarmActionCreate) (now : Instant) : Except Problem Alarm :=
  match data.action with
  | .ack =>
    if a.status = .active then
      .ok { a with status := .acknowledged, acknowledgedBy := none, acknowledgedAt := some now }
    else .error (.unprocessable "Can only acknowledge active alarms")
  | .assign =>
    match data.assignedTo with
    | none => .error (.unprocessable "assigned_to required for assign action")
    | some user => .ok { a with assignedTo := some user }
  | .comment => .ok a
  | .shelve =>
    -- `data.shelve_hours or 4`
    let length := (data.shelveHours.filter (· ≠ 0)).getD 4
    .ok { a with status := .shelved, shelvedUntil := some (now + hours length) }
  | .unshelve =>
    .ok { a with
      status := if a.acknowledgedAt.isSome then .acknowledged else .active
      shelvedUntil := none }
  | .clear => .ok { a with status := .cleared, clearedAt := some now }

/-- `perform_action`: a request that raises leaves the store as it was. -/
def performAction (uuidText : Uuid → String) (s : Store) (alarmId : Uuid) (data : AlarmActionCreate)
    (now : Instant) : Except Problem (Alarm × Store) :=
  match s.alarms.find alarmId with
  | none => .error (.notFound ("Alarm " ++ uuidText alarmId ++ " not found"))
  | some alarm => do
    let alarm' ← alarm.perform data now
    return (alarm', ⟨s.alarms.put alarm', s.actions ++ [⟨alarm'.id, data.action, data.note⟩]⟩)

/-- The `UPDATE` of `bulk_ack`, and how many rows it changed. -/
def bulkAck (s : Store) (alarmIds : List Uuid) (actorId : Uuid) (now : Instant) : Nat × Store :=
  let hit (a : Alarm) : Bool := a.id ∈ alarmIds ∧ a.status = .active
  ((s.alarms.select hit).length,
    { s with
      alarms := s.alarms.update hit
        (fun a => { a with
          status := .acknowledged
          acknowledgedBy := some actorId
          acknowledgedAt := some now })
        (fun _ => rfl) })

/-! ## Runs of both -/

inductive Event
  | raised (d : AlarmData) (id : Uuid) (now : Instant)
  | perform (alarmId : Uuid) (data : AlarmActionCreate) (now : Instant)
  | bulkAck (alarmIds : List Uuid) (actorId : Uuid) (now : Instant)

def step (uuidText : Uuid → String) (s : Store) : Event → Store
  | .raised d id now => raiseAlarm s d id now
  | .perform alarmId data now =>
    match performAction uuidText s alarmId data now with
    | .ok (_, s') => s'
    | .error _ => s
  | .bulkAck alarmIds actorId now => (bulkAck s alarmIds actorId now).2

/-! ## What is to hold -/

/-- Both were raised by one rule for one machine. -/
def Alarm.sameSource (a b : Alarm) : Prop :=
  a.ruleId.isSome ∧ a.ruleId = b.ruleId ∧ a.assetId = b.assetId

instance (a b : Alarm) : Decidable (a.sameSource b) := inferInstanceAs (Decidable (_ ∧ _ ∧ _))

namespace Store

/-- Of the alarms that a rule has raised for a machine at most one is open. -/
def unique (s : Store) : Prop :=
  ∀ a ∈ s.alarms.rows, ∀ b ∈ s.alarms.rows, a.sameSource b → a.open → b.open → a.id = b.id

def final (s : Store) : Prop := ∀ a ∈ s.alarms.rows, a.clearedAt.isSome → a.status = .cleared

end Store

structure Sound (s : Store) : Prop where
  unique : s.unique
  final : s.final

/-- No alarm is shelved or unshelved after it was cleared, and none is reopened
by `unshelve` while another that its rule raised for the machine is open. -/
def Uncontested (s : Store) : Event → Prop
  | .perform alarmId data _ => ∀ a ∈ s.alarms.find alarmId,
      (data.action = .shelve ∨ data.action = .unshelve → a.clearedAt = none) ∧
        (data.action = .unshelve → ¬a.open →
          ∀ b ∈ s.alarms.rows, a.id ≠ b.id → a.sameSource b → ¬b.open)
  | _ => True

instance (s : Store) : ∀ e, Decidable (Uncontested s e)
  | .perform .. => inferInstanceAs (Decidable (∀ a ∈ s.alarms.find _, _))
  | .raised .. | .bulkAck .. => .isTrue trivial

/-! ## One request -/

section Perform
variable {a a' : Alarm} {data : AlarmActionCreate} {now : Instant}

/-- The assignments of `perform_action`, branch by branch. -/
inductive Performed (now : Instant) (data : AlarmActionCreate) (a : Alarm) : Alarm → Prop
  | acked : data.action = .ack → a.status = .active → Performed now data a
      { a with status := .acknowledged, acknowledgedBy := none, acknowledgedAt := some now }
  | assigned {user} : data.action = .assign → Performed now data a { a with assignedTo := some user }
  | commented : data.action = .comment → Performed now data a a
  | shelved {till} : data.action = .shelve → Performed now data a
      { a with status := .shelved, shelvedUntil := some till }
  | unshelved {status} : data.action = .unshelve → status = .active ∨ status = .acknowledged →
      Performed now data a { a with status, shelvedUntil := none }
  | cleared : data.action = .clear → Performed now data a
      { a with status := .cleared, clearedAt := some now }

theorem performed_of_perform (h : a.perform data now = .ok a') : Performed now data a a' := by
  unfold Alarm.perform at h
  split at h
  · rename_i haction
    split at h
    · cases h
      exact .acked haction ‹_›
    · cases h
  · rename_i haction
    split at h
    · cases h
    · cases h
      exact .assigned haction
  · cases h
    exact .commented ‹_›
  · cases h
    exact .shelved ‹_›
  · cases h
    refine .unshelved ‹_› ?_
    split
    · exact .inr rfl
    · exact .inl rfl
  · cases h
    exact .cleared ‹_›

theorem Performed.id_eq (h : Performed now data a a') : a'.id = a.id := by
  cases h <;> rfl

theorem Performed.sameSource_iff (h : Performed now data a a') (b : Alarm) :
    a'.sameSource b ↔ a.sameSource b := by
  cases h <;> rfl

/-- Only `unshelve` opens an alarm. -/
theorem Performed.open_or (h : Performed now data a a') (hopen : a'.open) :
    a.open ∨ data.action = .unshelve := by
  cases h with
  | acked _ hactive => exact .inl (.inl hactive)
  | unshelved haction _ => exact .inr haction
  | shelved _ => rcases hopen with h | h <;> cases h
  | cleared _ => rcases hopen with h | h <;> cases h
  | assigned _ => exact .inl hopen
  | commented _ => exact .inl hopen

/-- No branch resets `cleared_at`. -/
theorem Performed.clearedAt_isSome (h : Performed now data a a') (hcleared : a.clearedAt.isSome) :
    a'.clearedAt.isSome := by
  cases h <;> first | exact hcleared | rfl

theorem Performed.final (h : Performed now data a a') (hfinal : a.clearedAt.isSome → a.status = .cleared)
    (hkept : data.action = .shelve ∨ data.action = .unshelve → a.clearedAt = none)
    (hcleared : a'.clearedAt.isSome) : a'.status = .cleared := by
  cases h with
  | acked _ hactive =>
    have := hfinal hcleared
    rw [hactive] at this
    cases this
  | shelved haction =>
    have hnone : a.clearedAt = none := hkept (.inl haction)
    have hsome : a.clearedAt.isSome := hcleared
    rw [hnone] at hsome
    cases hsome
  | unshelved haction _ =>
    have hnone : a.clearedAt = none := hkept (.inr haction)
    have hsome : a.clearedAt.isSome := hcleared
    rw [hnone] at hsome
    cases hsome
  | assigned _ => exact hfinal hcleared
  | commented _ => exact hfinal hcleared
  | cleared _ => rfl

theorem perform_unshelve (a : Alarm) (now : Instant) (haction : data.action = .unshelve) :
    ∃ a', a.perform data now = .ok a' ∧ a'.clearedAt = a.clearedAt ∧ a'.open := by
  simp only [Alarm.perform, haction]
  refine ⟨_, rfl, rfl, ?_⟩
  unfold Alarm.open
  dsimp only
  split
  · exact .inr rfl
  · exact .inl rfl

theorem perform_shelve (a : Alarm) (now : Instant) (haction : data.action = .shelve) :
    ∃ a', a.perform data now = .ok a' ∧ a'.clearedAt = a.clearedAt ∧ a'.status = .shelved := by
  simp only [Alarm.perform, haction]
  exact ⟨_, rfl, rfl, rfl⟩

theorem Alarm.open.ne_cleared {a : Alarm} (h : a.open) : a.status ≠ .cleared := by
  rcases h with h | h <;> rw [h] <;> simp

end Perform

/-! ## One step -/

/-- What a step does to the table. -/
inductive Changed (s : Store) : Event → Table Alarm → Prop
  | kept {e} : Changed s e s.alarms
  | raised {d id now alarms} : activeForRuleAndAsset s d.ruleId d.assetId = none →
      s.alarms.insert (d.row id now) = some alarms → Changed s (.raised d id now) alarms
  | performed {alarmId data now a a'} : s.alarms.find alarmId = some a → Performed now data a a' →
      Changed s (.perform alarmId data now) (s.alarms.put a')
  | acked {alarmIds actorId now} :
      Changed s (.bulkAck alarmIds actorId now) (bulkAck s alarmIds actorId now).2.alarms

section Step
variable {s : Store} {e : Event} (uuidText : Uuid → String)

theorem step_performed {alarmId : Uuid} {data : AlarmActionCreate} {now : Instant} {a a' : Alarm}
    (hfind : s.alarms.find alarmId = some a) (hperform : a.perform data now = .ok a') :
    (step uuidText s (.perform alarmId data now)).alarms = s.alarms.put a' := by
  simp only [step, performAction, hfind, hperform]
  rfl

theorem changed_step (s : Store) (e : Event) : Changed s e (step uuidText s e).alarms := by
  cases e with
  | raised d id now =>
    simp only [step, raiseAlarm]
    split
    · exact .kept
    · split
      · exact .raised ‹_› ‹_›
      · exact .kept
  | perform alarmId data now =>
    cases hfind : s.alarms.find alarmId with
    | none =>
      simp only [step, performAction, hfind]
      exact .kept
    | some a =>
      cases hperform : a.perform data now with
      | error p =>
        simp only [step, performAction, hfind, hperform]
        exact .kept
      | ok a' =>
        rw [step_performed uuidText hfind hperform]
        exact .performed hfind (performed_of_perform hperform)
  | bulkAck alarmIds actorId now => exact .acked

/-- Each row after a bulk acknowledgement is one from before, of the same
source, open only if that was and cleared if that was. -/
theorem mem_bulkAck {alarmIds : List Uuid} {actorId : Uuid} {now : Instant} {b : Alarm}
    (h : b ∈ (bulkAck s alarmIds actorId now).2.alarms.rows) : ∃ a ∈ s.alarms.rows,
      b.id = a.id ∧ (b.ruleId = a.ruleId ∧ b.assetId = a.assetId) ∧ (b.open → a.open) ∧
        b.clearedAt = a.clearedAt ∧ (a.status = .cleared → b.status = .cleared) := by
  obtain ⟨a, ha, rfl⟩ := List.mem_map.mp h
  refine ⟨a, ha, ?_⟩
  split
  · rename_i hhit
    have hactive : a.status = .active := (of_decide_eq_true hhit).2
    refine ⟨rfl, ⟨rfl, rfl⟩, fun _ => .inl hactive, rfl, fun hcleared => ?_⟩
    rw [hactive] at hcleared
    cases hcleared
  · exact ⟨rfl, ⟨rfl, rfl⟩, id, rfl, id⟩

theorem not_open_of_none {ruleId assetId : Uuid} (h : activeForRuleAndAsset s ruleId assetId = none)
    {a : Alarm} (ha : a ∈ s.alarms.rows) (hrule : a.ruleId = some ruleId) (hasset : a.assetId = assetId) :
    ¬a.open := by
  have hnone := List.find?_eq_none.mp h a ha
  simpa [hrule, hasset] using hnone

end Step

/-! ## What every step keeps -/

section Keeps
variable {s : Store} {e : Event} {alarms : Table Alarm}

theorem unique_of_changed (h : Sound s) (hok : Uncontested s e) (hchanged : Changed s e alarms)
    (actions : List AlarmAction) : Store.unique ⟨alarms, actions⟩ := by
  intro x hx y hy hsource hxo hyo
  cases hchanged with
  | kept => exact h.unique x hx y hy hsource hxo hyo
  | @raised d id now _ hnone hinsert =>
    have hrows := Table.rows_insert hinsert
    have hx : x ∈ s.alarms.rows ++ [d.row id now] := hrows ▸ hx
    have hy : y ∈ s.alarms.rows ++ [d.row id now] := hrows ▸ hy
    rw [List.mem_append, List.mem_singleton] at hx hy
    obtain ⟨hrule, hrules, hassets⟩ := hsource
    rcases hx with hx | rfl <;> rcases hy with hy | rfl
    · exact h.unique x hx y hy ⟨hrule, hrules, hassets⟩ hxo hyo
    · exact absurd hxo (not_open_of_none hnone hx hrules hassets)
    · exact absurd hyo (not_open_of_none hnone hy hrules.symm hassets.symm)
    · rfl
  | @performed alarmId data now a a' hfind hperformed =>
    have ha := Table.mem_of_find hfind
    have hid := hperformed.id_eq
    -- the row that was changed against another one
    have hother : ∀ z ∈ s.alarms.rows, z.id ≠ a'.id → a.sameSource z → a'.open → ¬z.open := by
      intro z hz hne hsame ho hzo
      rw [hid] at hne
      rcases hperformed.open_or ho with hopen | hunshelve
      · exact hne (h.unique a ha z hz hsame hopen hzo).symm
      · by_cases hopen : a.open
        · exact hne (h.unique a ha z hz hsame hopen hzo).symm
        · exact (hok a hfind).2 hunshelve hopen z hz (Ne.symm hne) hsame hzo
    rcases Table.mem_put hx with rfl | ⟨hxs, hxne⟩ <;> rcases Table.mem_put hy with rfl | ⟨hys, hyne⟩
    · rfl
    · exact absurd hyo (hother y hys hyne ((hperformed.sameSource_iff y).mp hsource) hxo)
    · obtain ⟨hrule, hrules, hassets⟩ := hsource
      have hsame : y.sameSource x := ⟨hrules ▸ hrule, hrules.symm, hassets.symm⟩
      exact absurd hxo (hother x hxs hxne ((hperformed.sameSource_iff x).mp hsame) hyo)
    · exact h.unique x hxs y hys hsource hxo hyo
  | acked =>
    obtain ⟨a, ha, hxid, ⟨hxrule, hxasset⟩, hxopen, -⟩ := mem_bulkAck hx
    obtain ⟨b, hb, hyid, ⟨hyrule, hyasset⟩, hyopen, -⟩ := mem_bulkAck hy
    obtain ⟨hrule, hrules, hassets⟩ := hsource
    rw [hxrule, hyrule] at hrules
    rw [hxasset, hyasset] at hassets
    rw [hxid, hyid]
    exact h.unique a ha b hb ⟨hxrule ▸ hrule, hrules, hassets⟩ (hxopen hxo) (hyopen hyo)

theorem final_of_changed (h : Sound s) (hok : Uncontested s e) (hchanged : Changed s e alarms)
    (actions : List AlarmAction) : Store.final ⟨alarms, actions⟩ := by
  intro x hx hcleared
  cases hchanged with
  | kept => exact h.final x hx hcleared
  | @raised d id now _ hnone hinsert =>
    have hx : x ∈ s.alarms.rows ++ [d.row id now] := Table.rows_insert hinsert ▸ hx
    rcases List.mem_append.mp hx with hx | hx
    · exact h.final x hx hcleared
    · rw [List.mem_singleton.mp hx] at hcleared
      cases hcleared
  | @performed alarmId data now a a' hfind hperformed =>
    rcases Table.mem_put hx with rfl | ⟨hx, -⟩
    · exact hperformed.final (h.final a (Table.mem_of_find hfind)) (hok a hfind).1 hcleared
    · exact h.final x hx hcleared
  | acked =>
    obtain ⟨a, ha, -, -, -, hat, hstatus⟩ := mem_bulkAck hx
    rw [hat] at hcleared
    exact hstatus (h.final a ha hcleared)

/-- `cleared_at` is set once and for all. -/
theorem clearedAt_of_changed (hchanged : Changed s e alarms) {k : Uuid} {a : Alarm}
    (hfind : s.alarms.find k = some a) (hcleared : a.clearedAt.isSome) :
    ∃ b, alarms.find k = some b ∧ b.clearedAt.isSome := by
  cases hchanged with
  | kept => exact ⟨a, hfind, hcleared⟩
  | @raised d id now _ hnone hinsert =>
    rw [Table.find_insert hinsert]
    split
    · rename_i hkey
      have hfresh := Table.fresh_of_insert hinsert
      rw [hkey, hfind] at hfresh
      cases hfresh
    · exact ⟨a, hfind, hcleared⟩
  | @performed alarmId data now c c' hfind' hperformed =>
    rw [Table.find_put]
    split
    · rename_i hkey
      have hid : c'.id = c.id := hperformed.id_eq
      have hc : c.id = alarmId := Table.key_of_find hfind'
      have hkey : c'.id = k := hkey
      obtain rfl : alarmId = k := hc.symm.trans (hid.symm.trans hkey)
      rw [hfind'] at hfind
      cases hfind
      exact ⟨c', by rw [hfind']; rfl, hperformed.clearedAt_isSome hcleared⟩
    · exact ⟨a, hfind, hcleared⟩
  | acked =>
    rw [bulkAck, Table.find_update, hfind]
    refine ⟨_, rfl, ?_⟩
    dsimp only
    split <;> exact hcleared

theorem Sound.step (h : Sound s) (hok : Uncontested s e) (uuidText : Uuid → String) :
    Sound (step uuidText s e) :=
  ⟨unique_of_changed h hok (changed_step uuidText s e) _,
    final_of_changed h hok (changed_step uuidText s e) _⟩

/-- A request for the alarm `a` that leaves the store sound moves it to `cleared`
if it had been cleared, and opens it only if no other of its source is open. -/
theorem Sound.of_perform (uuidText : Uuid → String) {alarmId : Uuid} {data : AlarmActionCreate}
    {now : Instant} {a a' : Alarm} (hafter : Sound (Telemetry.step uuidText s (.perform alarmId data now)))
    (hfind : s.alarms.find alarmId = some a) (hperform : a.perform data now = .ok a') :
    (a'.clearedAt.isSome → a'.status = .cleared) ∧
      (a'.open → ∀ b ∈ s.alarms.rows, a.id ≠ b.id → a.sameSource b → ¬b.open) := by
  have hperformed := performed_of_perform hperform
  have halarms := step_performed uuidText hfind hperform
  have ha' : a' ∈ (s.alarms.put a').rows := Table.mem_put_self (Table.mem_of_find hfind) hperformed.id_eq.symm
  refine ⟨hafter.final a' (halarms ▸ ha'), fun ho b hb hne hsame hbo => ?_⟩
  have hne' : b.id ≠ a'.id := fun he => hne (hperformed.id_eq.symm.trans he.symm)
  have hb' : b ∈ (s.alarms.put a').rows := Table.mem_put_of_ne hb hne'
  have hsame' : a'.sameSource b := (hperformed.sameSource_iff b).mpr hsame
  exact hne' (hafter.unique a' (halarms ▸ ha') b (halarms ▸ hb') hsame' ho hbo).symm

/-- The steps that keep a sound store sound are those that meet the condition. -/
theorem sound_step_iff (uuidText : Uuid → String) (h : Sound s) :
    Sound (Telemetry.step uuidText s e) ↔ Uncontested s e := by
  refine ⟨fun hafter => ?_, fun hok => h.step hok uuidText⟩
  cases e with
  | raised d id now => trivial
  | bulkAck alarmIds actorId now => trivial
  | perform alarmId data now =>
    intro a hfind
    refine ⟨?_, fun haction _ => ?_⟩
    · intro haction
      rcases haction with haction | haction
      · obtain ⟨a', hperform, hat, hstatus⟩ := perform_shelve a now haction
        have hfinal := (hafter.of_perform uuidText hfind hperform).1
        rw [hat, hstatus] at hfinal
        simpa using hfinal
      · obtain ⟨a', hperform, hat, hopen⟩ := perform_unshelve a now haction
        have hfinal := (hafter.of_perform uuidText hfind hperform).1
        rw [hat] at hfinal
        simpa [hopen.ne_cleared] using hfinal
    · obtain ⟨a', hperform, -, hopen⟩ := perform_unshelve a now haction
      exact (hafter.of_perform uuidText hfind hperform).2 hopen

end Keeps

/-! ## Runs -/

section Runs
variable (uuidText : Uuid → String)

/-- The operations of both writers, one after another. -/
def Steps (s : Store) (e : Event) (t : Store) : Prop := t = step uuidText s e

theorem sound_of_run {start s : Store} {es : List Event} (h : Sound start)
    (hrun : Run (Guarded (Steps uuidText) Uncontested) start es s) : Sound s := by
  refine hrun.guarded h ?_
  intro t e u ht hok hstep
  exact hstep ▸ ht.step hok uuidText

theorem clearedAt_of_run {s t : Store} {es : List Event} {k : Uuid} {a : Alarm}
    (hrun : Run (Steps uuidText) s es t) (hfind : s.alarms.find k = some a)
    (hcleared : a.clearedAt.isSome) : ∃ b, t.alarms.find k = some b ∧ b.clearedAt.isSome := by
  refine hrun.invariant (fun _ t => ∃ b, t.alarms.find k = some b ∧ b.clearedAt.isSome)
    ⟨a, hfind, hcleared⟩ ?_
  rintro _ t e u ⟨b, hb, hbc⟩ rfl
  exact clearedAt_of_changed (changed_step uuidText t e) hb hbc

/-- In every run whose steps are uncontested there is at every moment at most
one open alarm for each rule and machine, and an alarm that is cleared at some
moment is in state `cleared` at every later one. -/
theorem alarms_unique_and_final {start s : Store} {es : List Event} (h : Sound start)
    (hrun : Run (Guarded (Steps uuidText) Uncontested) start es s) :
    s.unique ∧ ∀ fs t, Run (Guarded (Steps uuidText) Uncontested) s fs t →
      ∀ a ∈ s.alarms.rows, a.clearedAt.isSome →
        ∃ b, t.alarms.find a.id = some b ∧ b.status = .cleared := by
  have hs := sound_of_run uuidText h hrun
  refine ⟨hs.unique, fun fs t hlater a ha hcleared => ?_⟩
  have hsteps : Run (Steps uuidText) s fs t := hlater.mono fun _ _ _ hstep => hstep.2
  obtain ⟨b, hb, hbc⟩ := clearedAt_of_run uuidText hsteps (Table.find_iff.mpr ⟨ha, rfl⟩) hcleared
  exact ⟨b, hb, (sound_of_run uuidText hs hlater).final b (Table.mem_of_find hb) hbc⟩

end Runs

/-! ## A spindle alarm -/

def noAlarms : Store := ⟨.empty, []⟩

theorem noAlarms_sound : Sound noAlarms := ⟨by simp [Store.unique, noAlarms, Table.empty],
  by simp [Store.final, noAlarms, Table.empty]⟩

/-- The vibration rule of a spindle is violated. -/
def vibration : AlarmData :=
  ⟨7, 4, 3, "serious", "spindle.vib_rms above threshold", "spindle.vib_rms = 9.30 (above 7.1)", 93 / 10, 71 / 10⟩

def request (action : AlarmActionType) : AlarmActionCreate := ⟨action, none, none, none⟩

/-- Raised and cleared, then raised again. -/
theorem alarms_unique_and_final_cleared : ∃ s t,
    Run (Guarded (Steps toString) Uncontested) noAlarms
      [.raised vibration 1 0, .perform 1 (request .clear) 10] s ∧
    Run (Guarded (Steps toString) Uncontested) s [.raised vibration 2 20] t ∧
    s.unique ∧ ∃ b, t.alarms.find 1 = some b ∧ b.status = .cleared := by
  let s := step toString (step toString noAlarms (.raised vibration 1 0)) (.perform 1 (request .clear) 10)
  have hcleared : Run (Guarded (Steps toString) Uncontested) noAlarms
      [.raised vibration 1 0, .perform 1 (request .clear) 10] s :=
    Run.cons ⟨trivial, rfl⟩ (Run.cons ⟨by decide, rfl⟩ .nil)
  have hagain : Run (Guarded (Steps toString) Uncontested) s [.raised vibration 2 20]
      (step toString s (.raised vibration 2 20)) := Run.cons ⟨trivial, rfl⟩ .nil
  obtain ⟨a, ha, hid, hat⟩ : ∃ a ∈ s.alarms.rows, a.id = 1 ∧ a.clearedAt.isSome := by decide
  obtain ⟨hunique, hfinal⟩ := alarms_unique_and_final toString noAlarms_sound hcleared
  exact ⟨s, _, hcleared, hagain, hunique, hid ▸ hfinal _ _ hagain a ha hat⟩

/-- Shelved, raised again and unshelved: two are open. Cleared and unshelved: it is open again. -/
theorem unshelve_breaks_both :
    (¬∀ (start s : Store) (es : List Event), Sound start → Run (Steps toString) start es s → s.unique) ∧
      ¬∀ (start s : Store) (es : List Event), Sound start → Run (Steps toString) start es s → s.final := by
  refine ⟨fun h => ?_, fun h => ?_⟩
  · let s := step toString (step toString (step toString (step toString noAlarms
      (.raised vibration 1 0)) (.perform 1 (request .shelve) 10)) (.raised vibration 2 20))
      (.perform 1 (request .unshelve) 30)
    have hrun : Run (Steps toString) noAlarms [.raised vibration 1 0, .perform 1 (request .shelve) 10,
        .raised vibration 2 20, .perform 1 (request .unshelve) 30] s :=
      Run.cons rfl (Run.cons rfl (Run.cons rfl (Run.cons rfl .nil)))
    have htwo : ¬s.unique := by
      unfold Store.unique
      decide
    exact htwo (h noAlarms s _ noAlarms_sound hrun)
  · let s := step toString (step toString (step toString noAlarms (.raised vibration 1 0))
      (.perform 1 (request .clear) 10)) (.perform 1 (request .unshelve) 20)
    have hrun : Run (Steps toString) noAlarms [.raised vibration 1 0, .perform 1 (request .clear) 10,
        .perform 1 (request .unshelve) 20] s :=
      Run.cons rfl (Run.cons rfl (Run.cons rfl .nil))
    have hreopened : ¬s.final := by
      unfold Store.final
      decide
    exact hreopened (h noAlarms s _ noAlarms_sound hrun)

end TwinVoice.Telemetry
