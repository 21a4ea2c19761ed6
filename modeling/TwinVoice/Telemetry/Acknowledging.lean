import TwinVoice.Telemetry.Alarms

/-! # Acknowledging one by one and together

`perform_action` acknowledges one alarm and enters that into its history, but
not who it was; `bulk_ack` is one `UPDATE` that names the user and enters
nothing. Both pass over the alarms that are not active. -/

namespace TwinVoice.Telemetry

open TwinVoice.Lib

/-- A request to acknowledge an alarm, and when it is served. -/
structure Acknowledgement where
  alarmId : Uuid
  note : Option String
  assignedTo : Option Uuid
  shelveHours : Option Rat
  now : Instant

def Acknowledgement.data (ack : Acknowledgement) : AlarmActionCreate :=
  ⟨.ack, ack.note, ack.assignedTo, ack.shelveHours⟩

/-- `perform_action` for each of the requests; one that is refused changes nothing. -/
def acknowledgeEach (uuidText : Uuid → String) (s : Store) (acks : List Acknowledgement) : Store :=
  acks.foldl (fun s ack => step uuidText s (.perform ack.alarmId ack.data ack.now)) s

def Store.history (s : Store) (alarmId : Uuid) : List AlarmAction := s.actions.filter fun action => action.alarmId = alarmId

/-- What the store says of an alarm. -/
def Store.view (s : Store) (alarmId : Uuid) : Option Alarm × List AlarmAction := (s.alarms.find alarmId, s.history alarmId)

/-- The state of acknowledgement: the status, who it was and whether there is a time. -/
structure SameState (a b : Alarm) : Prop where
  status : a.status = b.status
  acknowledgedBy : a.acknowledgedBy = b.acknowledgedBy
  acknowledgedAt : a.acknowledgedAt.isSome = b.acknowledgedAt.isSome

/-- The alarms of the set that are active come to the same state and history, and no other changes. -/
structure Agrees (s : Store) (alarmIds : List Uuid) (bulk each : Store) : Prop where
  state : ∀ a ∈ s.alarms.rows, a.id ∈ alarmIds → a.status = .active →
    ∃ b ∈ bulk.alarms.find a.id, ∃ c ∈ each.alarms.find a.id, SameState b c
  history : ∀ a ∈ s.alarms.rows, a.id ∈ alarmIds → a.status = .active → bulk.history a.id = each.history a.id
  others : ∀ id, (∀ a ∈ s.alarms.find id, id ∈ alarmIds → a.status ≠ .active) → bulk.view id = s.view id

/-! ## One by one -/

section Each
variable (uuidText : Uuid → String) {s : Store} {ack : Acknowledgement} {id : Uuid} {a : Alarm}

/-- An alarm after `perform_action` has acknowledged it. -/
def Alarm.acked (a : Alarm) (now : Instant) : Alarm :=
  { a with status := .acknowledged, acknowledgedBy := none, acknowledgedAt := some now }

theorem step_acknowledges (hfind : s.alarms.find ack.alarmId = some a) (hactive : a.status = .active) :
    step uuidText s (.perform ack.alarmId ack.data ack.now) =
      ⟨s.alarms.put (a.acked ack.now), s.actions ++ [⟨ack.alarmId, .ack, ack.note⟩]⟩ := by
  have hid : (a.acked ack.now).id = ack.alarmId := Table.key_of_find hfind
  have hperform : a.perform ack.data ack.now = .ok (a.acked ack.now) := if_pos hactive
  simp only [step, performAction, hfind, hperform]
  change Store.mk _ (s.actions ++ [⟨(a.acked ack.now).id, .ack, ack.note⟩]) = _
  rw [hid]

theorem step_refuses (h : ∀ a ∈ s.alarms.find ack.alarmId, a.status ≠ .active) :
    step uuidText s (.perform ack.alarmId ack.data ack.now) = s := by
  cases hfind : s.alarms.find ack.alarmId with
  | none => simp only [step, performAction, hfind]
  | some a =>
    have hperform : a.perform ack.data ack.now = .error (.unprocessable "Can only acknowledge active alarms") :=
      if_neg (h a hfind)
    simp only [step, performAction, hfind, hperform]
    rfl

theorem view_acknowledged (hfind : s.alarms.find ack.alarmId = some a) (hactive : a.status = .active) :
    (step uuidText s (.perform ack.alarmId ack.data ack.now)).view ack.alarmId =
      (some (a.acked ack.now), s.history ack.alarmId ++ [⟨ack.alarmId, .ack, ack.note⟩]) := by
  have hid : a.id = ack.alarmId := Table.key_of_find hfind
  have hkey : Keyed.key (a.acked ack.now) = ack.alarmId := hid
  rw [step_acknowledges uuidText hfind hactive, Store.view, Table.find_put, if_pos hkey, hfind]
  simp [Store.history]

theorem view_others (h : ∀ a ∈ s.alarms.find id, ack.alarmId = id → a.status ≠ .active) :
    (step uuidText s (.perform ack.alarmId ack.data ack.now)).view id = s.view id := by
  by_cases hrefused : ∀ a ∈ s.alarms.find ack.alarmId, a.status ≠ .active
  · rw [step_refuses uuidText hrefused]
  · simp only [not_forall, not_not] at hrefused
    obtain ⟨a, hfind, hactive⟩ := hrefused
    have hne : ack.alarmId ≠ id := fun heq => h a (heq ▸ hfind) heq hactive
    have hkey : Keyed.key (a.acked ack.now) ≠ id := fun hkey => hne ((Table.key_of_find hfind).symm.trans hkey)
    rw [step_acknowledges uuidText hfind hactive, Store.view, Table.find_put, if_neg hkey]
    simp [Store.history, Store.view, hne]

variable {acks : List Acknowledgement}

theorem view_each_of_not (h : ∀ a ∈ s.alarms.find id, id ∈ acks.map Acknowledgement.alarmId → a.status ≠ .active) :
    (acknowledgeEach uuidText s acks).view id = s.view id := by
  induction acks generalizing s with
  | nil => rfl
  | cons ack acks ih =>
    have hstep : (step uuidText s (.perform ack.alarmId ack.data ack.now)).view id = s.view id :=
      view_others uuidText fun a ha heq => h a ha (by simp [heq])
    refine (ih fun a ha hmem => ?_).trans hstep
    have hfind : (step uuidText s (.perform ack.alarmId ack.data ack.now)).alarms.find id = s.alarms.find id :=
      congrArg Prod.fst hstep
    exact h a (hfind ▸ ha) (List.mem_cons_of_mem _ hmem)

/-- An active alarm is acknowledged by the first request for it, and the others for it are refused. -/
theorem view_each_of_active (hfind : s.alarms.find id = some a) (hactive : a.status = .active)
    (hmem : id ∈ acks.map Acknowledgement.alarmId) : ∃ ack ∈ acks, (acknowledgeEach uuidText s acks).view id =
      (some (a.acked ack.now), s.history id ++ [⟨id, .ack, ack.note⟩]) := by
  induction acks generalizing s with
  | nil => cases hmem
  | cons ack acks ih =>
    by_cases heq : ack.alarmId = id
    · subst heq
      have hstep := view_acknowledged uuidText hfind hactive
      refine ⟨ack, List.mem_cons_self, ?_⟩
      rw [acknowledgeEach, List.foldl_cons]
      refine (view_each_of_not uuidText fun b hb _ => ?_).trans hstep
      have hafter : (step uuidText s (.perform ack.alarmId ack.data ack.now)).alarms.find ack.alarmId =
        some (a.acked ack.now) := congrArg Prod.fst hstep
      cases hafter.symm.trans hb
      exact nofun
    · have hstep : (step uuidText s (.perform ack.alarmId ack.data ack.now)).view id = s.view id :=
        view_others uuidText fun _ _ h => absurd h heq
      have hrest : id ∈ acks.map Acknowledgement.alarmId := (List.mem_cons.mp hmem).resolve_left (Ne.symm heq)
      obtain ⟨later, hlater, hview⟩ := ih ((congrArg Prod.fst hstep).trans hfind) hrest
      refine ⟨later, List.mem_cons_of_mem _ hlater, hview.trans ?_⟩
      rw [show (step uuidText s (.perform ack.alarmId ack.data ack.now)).history id = s.history id from
        congrArg Prod.snd hstep]

end Each

/-! ## Together -/

section Bulk
variable {s : Store} {alarmIds : List Uuid} {actorId : Uuid} {now : Instant} {id : Uuid} {a : Alarm}

theorem find_bulkAck (hfind : s.alarms.find id = some a) (hactive : a.status = .active) (hmem : id ∈ alarmIds) :
    (bulkAck s alarmIds actorId now).2.alarms.find id =
      some { a with status := .acknowledged, acknowledgedBy := some actorId, acknowledgedAt := some now } := by
  have hid : a.id = id := Table.key_of_find hfind
  rw [bulkAck, Table.find_update, hfind]
  simp [hid, hmem, hactive]

theorem view_bulkAck_of_not (h : ∀ a ∈ s.alarms.find id, id ∈ alarmIds → a.status ≠ .active) :
    (bulkAck s alarmIds actorId now).2.view id = s.view id := by
  refine Prod.ext ?_ rfl
  change (bulkAck s alarmIds actorId now).2.alarms.find id = s.alarms.find id
  rw [bulkAck, Table.find_update]
  cases hfind : s.alarms.find id with
  | none => rfl
  | some a =>
    have hid : a.id = id := Table.key_of_find hfind
    have hnot := h a hfind
    simp only [Option.map_some, hid]
    rw [if_neg (by simpa using hnot)]

end Bulk

/-! ## Whether they agree -/

section
variable (uuidText : Uuid → String) {s : Store} {acks : List Acknowledgement} (actorId : Uuid) (now : Instant)

/-- Either way the alarm is acknowledged and has a time, but only together has it a name. -/
theorem acknowledged_both {a : Alarm} (ha : a ∈ s.alarms.rows) (hmem : a.id ∈ acks.map Acknowledgement.alarmId)
    (hactive : a.status = .active) :
    ∃ b ∈ (bulkAck s (acks.map Acknowledgement.alarmId) actorId now).2.alarms.find a.id,
      ∃ c ∈ (acknowledgeEach uuidText s acks).alarms.find a.id,
        (b.status = .acknowledged ∧ b.acknowledgedAt.isSome ∧ b.acknowledgedBy = some actorId) ∧
          c.status = .acknowledged ∧ c.acknowledgedAt.isSome ∧ c.acknowledgedBy = none := by
  have hfind : s.alarms.find a.id = some a := Table.find_iff.mpr ⟨ha, rfl⟩
  obtain ⟨ack, -, hview⟩ := view_each_of_active uuidText hfind hactive hmem
  exact ⟨_, find_bulkAck hfind hactive hmem, _, congrArg Prod.fst hview, ⟨rfl, rfl, rfl⟩, rfl, rfl, rfl⟩

/-- Only one by one has it an entry in its history. -/
theorem not_agrees_of_active {a : Alarm} (ha : a ∈ s.alarms.rows) (hmem : a.id ∈ acks.map Acknowledgement.alarmId)
    (hactive : a.status = .active) :
    ¬ Agrees s (acks.map Acknowledgement.alarmId) (bulkAck s (acks.map Acknowledgement.alarmId) actorId now).2
      (acknowledgeEach uuidText s acks) := by
  intro h
  have hfind : s.alarms.find a.id = some a := Table.find_iff.mpr ⟨ha, rfl⟩
  obtain ⟨ack, -, hview⟩ := view_each_of_active uuidText hfind hactive hmem
  have hhistory : (acknowledgeEach uuidText s acks).history a.id = s.history a.id ++ [⟨a.id, .ack, ack.note⟩] :=
    congrArg Prod.snd hview
  have hsame : s.history a.id = (acknowledgeEach uuidText s acks).history a.id := h.history a ha hmem hactive
  rw [hhistory] at hsame
  exact absurd (congrArg List.length hsame) (by simp)

/-- Acknowledging a set of alarms together and one by one agree exactly if none of them is active. -/
theorem bulkAck_agrees_iff (s : Store) (acks : List Acknowledgement) :
    Agrees s (acks.map Acknowledgement.alarmId) (bulkAck s (acks.map Acknowledgement.alarmId) actorId now).2
        (acknowledgeEach uuidText s acks) ↔
      ∀ a ∈ s.alarms.rows, a.id ∈ acks.map Acknowledgement.alarmId → a.status ≠ .active := by
  constructor
  · intro h a ha hmem hactive
    exact not_agrees_of_active uuidText actorId now ha hmem hactive h
  · intro h
    exact
      { state := fun a ha hmem hactive => absurd hactive (h a ha hmem)
        history := fun a ha hmem hactive => absurd hactive (h a ha hmem)
        others := fun id hnot => view_bulkAck_of_not hnot }

end

/-- One spindle alarm, acknowledged alone or in a set of one. -/
theorem one_alarm_disagrees : ¬ ∀ (s : Store) (acks : List Acknowledgement) (actorId : Uuid) (now : Instant),
    Agrees s (acks.map Acknowledgement.alarmId) (bulkAck s (acks.map Acknowledgement.alarmId) actorId now).2
      (acknowledgeEach toString s acks) := by
  intro h
  have hraised : vibration.row 1 0 ∈ (step toString noAlarms (.raised vibration 1 0)).alarms.rows :=
    List.mem_singleton_self _
  exact not_agrees_of_active toString 9 20 hraised List.mem_cons_self rfl (h _ [⟨1, none, none, none, 10⟩] 9 20)

end TwinVoice.Telemetry
