import TwinVoice.Maintenance.Replanning

/-! # The items of a run lie in its horizon

`slot_count` is at least one, so a horizon shorter than a slot still has one,
and an order placed in it ends after the horizon does. In every other horizon
the slots that there are end by its end. -/

namespace TwinVoice.Maintenance

open TwinVoice.Lib TwinVoice.Twin

def ScheduleItem.Within (i : ScheduleItem) (start stop : Instant) : Prop := start ≤ i.startsAt ∧ i.endsAt ≤ stop

/-- The item has the slots and the technician of one of these assignments. -/
def Assigned (horizonStart : Instant) (as : List Assignment) (i : ScheduleItem) : Prop :=
  ∃ a ∈ as, i.startsAt = slotTime horizonStart a.startSlot ∧ i.endsAt = slotTime horizonStart a.endSlot ∧
    i.technicianId = a.technicianId

/-! ## The slots of a horizon -/

theorem slotTime_le_iff {horizonStart : Instant} {slot slot' : Nat} :
    slotTime horizonStart slot ≤ slotTime horizonStart slot' ↔ slot ≤ slot' := by
  rw [← not_lt, slotTime_lt_iff, not_lt]

theorem slotTime_zero (horizonStart : Instant) : slotTime horizonStart 0 = horizonStart := by
  have hscaled (start : Int) : start + ((15 * 0 : Nat) : Int) * 60 * 1000000 = start := by omega
  exact hscaled horizonStart

/-- The last slot ends by the end of the horizon. -/
theorem slotTime_slotCount_le {horizonStart horizonEnd : Instant}
    (h : minutes slotMinutes ≤ horizonEnd - horizonStart) :
    slotTime horizonStart (slotCount horizonStart horizonEnd) ≤ horizonEnd := by
  have hscaled (start stop : Int) : ((15 : Nat) : Int) * 60 * 1000000 ≤ stop - start →
      start + ((15 * max 1 ((stop - start) / (((15 : Nat) : Int) * 60 * 1000000)).toNat : Nat) : Int) * 60 * 1000000
        ≤ stop := by omega
  exact hscaled horizonStart horizonEnd h

/-- In a horizon shorter than a slot there is one, and it ends too late. -/
theorem slotCount_short {horizonStart horizonEnd : Instant}
    (h : horizonEnd - horizonStart < minutes slotMinutes) :
    slotCount horizonStart horizonEnd = 1 ∧ horizonEnd < slotTime horizonStart 1 := by
  have hscaled (start stop : Int) : stop - start < ((15 : Nat) : Int) * 60 * 1000000 →
      max 1 ((stop - start) / (((15 : Nat) : Int) * 60 * 1000000)).toNat = 1 ∧
        stop < start + ((15 * 1 : Nat) : Int) * 60 * 1000000 := by omega
  exact hscaled horizonStart horizonEnd h

/-! ## What a run persists -/

theorem rows_insertAll {items items' : Table ScheduleItem} {is : List ScheduleItem}
    (h : insertAll items is = some items') : items'.rows = items.rows ++ is := by
  induction is generalizing items with
  | nil =>
    cases h
    exact (List.append_nil _).symm
  | cons i is ih =>
    obtain ⟨t, ht, hrest⟩ := Option.bind_eq_some_iff.mp h
    rw [ih hrest, Table.rows_insert ht, List.append_assoc, List.singleton_append]

section

variable {env : Env} {P : Table ScheduleItem → Prop}

theorem items_saveOrder (o : WorkOrder) :
    Tx.Ensures (fun w => P w.items) (saveOrder env o) fun _ w => P w.items :=
  .bind (.write _ fun _ hw => hw) fun _ => ensures_flush

theorem items_placeAll (loaded : List Uuid) (schedule : Schedule) (as : List Assignment) (n : Nat) :
    Tx.Ensures (fun w => P w.items) (placeAll env loaded schedule n as) fun items w =>
      (∀ i ∈ items, Assigned schedule.horizonStart as i) ∧ P w.items := by
  induction as generalizing n with
  | nil => exact .pure _ fun _ hw => ⟨fun _ hi => absurd hi List.not_mem_nil, hw⟩
  | cons a as ih =>
    refine .bind .read fun db => .bind (.orRaise _ _) fun order => .given fun _ => ?_
    refine .bind ((items_saveOrder _).mono (fun _ hw => hw.2) fun _ _ hw => hw) fun _ =>
      .bind (ih (n + 1)) fun items => .given fun hitems => .pure _ fun w hw => ⟨?_, hw⟩
    rw [List.forall_mem_cons]
    refine ⟨⟨a, List.mem_cons_self, rfl, rfl, rfl⟩, fun i hi => ?_⟩
    obtain ⟨a', ha', hslot⟩ := hitems i hi
    exact ⟨a', List.mem_cons_of_mem _ ha', hslot⟩

theorem items_addSchedule (schedule : Schedule) :
    Tx.Ensures (fun w => P w.items) (addSchedule env schedule) fun _ w => P w.items :=
  .bind .read fun _ => .bind (.orRaise _ _) fun _ => .given fun _ =>
    .bind (.write _ fun _ hw => hw.2) fun _ => ensures_flush

theorem items_activateIfAny (request : OptimiseRequest) (result : SolveResult) (schedule : Schedule) :
    Tx.Ensures (fun w => P w.items) (activateIfAny env request result schedule) fun _ w => P w.items := by
  unfold activateIfAny
  split
  · exact .bind (.write _ fun _ hw => hw) fun _ => .bind ensures_flush fun _ =>
      .bind (.write _ fun _ hw => hw) fun _ => .bind ensures_flush fun _ => .pure _ fun _ hw => hw
  · exact .pure _ fun _ hw => hw

/-- Every item has been there before or has the slots of an assignment. -/
def ItemsFrom (old : Table ScheduleItem) (horizonStart : Instant) (as : List Assignment)
    (items : Table ScheduleItem) : Prop :=
  ∀ i ∈ items.rows, i ∈ old.rows ∨ Assigned horizonStart as i

theorem items_addItems {old : Table ScheduleItem} {horizonStart : Instant} {as : List Assignment}
    {items : List ScheduleItem} (h : ∀ i ∈ items, Assigned horizonStart as i) :
    Tx.Ensures (fun w => w.items = old) (addItems env items) fun _ w => ItemsFrom old horizonStart as w.items := by
  refine .bind .read fun db => .bind (.orRaise _ _) fun all => .given fun hinsert => .bind (.write _ ?_) fun _ =>
    ensures_flush (P := fun w => ItemsFrom old horizonStart as w.items)
  rintro w ⟨rfl, hold⟩ i hi
  rw [rows_insertAll hinsert, List.mem_append, hold] at hi
  exact hi.imp_right (h i)

theorem items_optimise (request : OptimiseRequest) (db : Store) :
    ItemsFrom db.items request.horizonStart (env.solve (schedulable db request.assetIds)
      (slotCount request.horizonStart request.horizonEnd) request.weights).assignments
      (Tx.serve (optimise env request) db).2.1.items := by
  refine Tx.Ensures.serve (P := fun w => w = db) (Q := fun w => ItemsFrom db.items request.horizonStart
    (env.solve (schedulable db request.assetIds) (slotCount request.horizonStart request.horizonEnd)
      request.weights).assignments w.items) (atomic_optimise env request) ?_ rfl fun i hi => Or.inl hi
  refine .transaction (.bind .read fun db' => .knowing (c := db' = db) (fun w hw => hw.1.trans hw.2) ?_)
  rintro rfl
  refine Tx.Ensures.mono (R := fun w => w.items = db'.items) ?_ (fun w hw => congrArg Store.items hw.2)
    fun _ _ hw => hw
  exact .bind (items_addSchedule (P := fun t => t = db'.items) _) fun _ => .bind (items_placeAll (P := fun t => t = db'.items) _ _ _ _) fun _ =>
    .given fun hitems => .bind (items_addItems hitems) fun _ =>
      .bind (items_activateIfAny (P := ItemsFrom db'.items _ _) _ _ _) fun _ => .pure _ fun _ hw => hw

end

namespace OptimiseCall

variable {assets : Assets} {c : OptimiseCall} {db : Store}

/-- An item that a run persists is in the slots that a technician takes. -/
theorem persisted_slots (hsound : c.planning.solver.Sound) {i : ScheduleItem}
    (hi : i ∈ (c.after assets db).items.rows) (hnew : i ∉ db.items.rows) :
    ∃ o t start, t ∈ c.technicians ∧ i.technicianId = some t.id ∧ Optimiser.Takes c.nSlots o t start ∧
      i.startsAt = slotTime c.request.horizonStart start ∧
      i.endsAt = slotTime c.request.horizonStart (start + o.duration) := by
  have hitems : ItemsFrom db.items c.request.horizonStart (c.result assets db).assignments
    (c.after assets db).items := items_optimise c.request db
  obtain ⟨a, ha, hstart, hstop, htechnician⟩ := (hitems i hi).resolve_left hnew
  have hplan : (c.result assets db).assignments = [] ∨ _ := result_plan hsound
  rcases hplan with hnone | ⟨p, f, hplaces, hassignments, hassigns⟩
  · rw [hnone] at ha
    cases ha
  · rw [hassignments] at ha
    obtain ⟨o, ho, rfl⟩ := List.mem_map.mp ha
    obtain ⟨t, ht, hid, htakes⟩ := hplaces.takes o ho
    have hassign := hassigns o ho
    exact ⟨o, t, p.start o.id, ht, by rw [htechnician, hassign.technician, hid], htakes,
      hassign.start ▸ hstart, hassign.stop ▸ hstop⟩

theorem within_of_slot (hsound : c.planning.solver.Sound)
    (hslot : minutes slotMinutes ≤ c.request.horizonEnd - c.request.horizonStart) {i : ScheduleItem}
    (hi : i ∈ (c.after assets db).items.rows) (hnew : i ∉ db.items.rows) :
    i.Within c.request.horizonStart c.request.horizonEnd := by
  obtain ⟨o, t, start, -, -, htakes, hstart, hstop⟩ := persisted_slots hsound hi hnew
  constructor
  · rw [hstart]
    exact (slotTime_zero _).symm.trans_le (slotTime_le_iff.mpr (Nat.zero_le _))
  · rw [hstop]
    exact (slotTime_le_iff.mpr htakes.inside).trans (slotTime_slotCount_le hslot)

theorem beyond_short (hsound : c.planning.solver.Sound)
    (hshort : c.request.horizonEnd - c.request.horizonStart < minutes slotMinutes) {i : ScheduleItem}
    (hi : i ∈ (c.after assets db).items.rows) (hnew : i ∉ db.items.rows) : c.request.horizonEnd < i.endsAt := by
  obtain ⟨o, t, start, -, -, -, -, hstop⟩ := persisted_slots hsound hi hnew
  have hpos := o.duration_pos
  rw [hstop]
  exact (slotCount_short hshort).2.trans_le (slotTime_le_iff.mpr (by omega))

end OptimiseCall

theorem run_flush {env : Env} (hquiet : ∀ w, env.refusal w = none) (s : Session Store Command) :
    (flush env).run s = (.ok (), s) := by
  unfold flush
  simp only [Tx.run_bind, Tx.run_read, Tx.andThen_ok, hquiet, Tx.run_pure]

/-- If nothing is refused, an assignment is persisted. -/
theorem optimise_persists {env : Env} {request : OptimiseRequest} {db : Store} {a : Assignment} {o : WorkOrder}
    (hquiet : ∀ w, env.refusal w = none) (hactivate : request.activate = false)
    (hschedules : db.schedules = Table.empty) (hitems : db.items = Table.empty)
    (hresult : (env.solve (schedulable db request.assetIds)
      (slotCount request.horizonStart request.horizonEnd) request.weights).assignments = [a])
    (hloaded : a.orderId ∈ (schedulable db request.assetIds).map WorkOrder.id)
    (hfind : db.orders.find a.orderId = some o) :
    (Tx.serve (optimise env request) db).2.1.items.rows ≠ [] := by
  have hflush := run_flush hquiet
  have hinsert {ρ κ : Type} [DecidableEq κ] [Keyed ρ κ] (r : ρ) :
      (Table.empty : Table ρ).insert r = some ⟨[r], List.nodup_singleton _⟩ := rfl
  unfold Tx.serve optimise Tx.transaction
  simp [hflush, addSchedule, addItems, saveOrder, placeAll, hresult, hloaded, hfind, hschedules, hitems, hinsert,
    insertAll, activateIfAny, hactivate, Store.putOrder]

/-! An order of a quarter of an hour, placed in a horizon of any length. -/

def quarterOrder : WorkOrder := { bearing with estDurationMin := some 15 }

def quarterStore : Store := { emptyStore with orders := ⟨[quarterOrder], by decide⟩ }

def quarterIn (r : OptimiseRequest) : OptimiseCall where
  env := office 20 1
  planning := onePlanner 0
  request :=
    { horizonStart := r.horizonStart, horizonEnd := r.horizonEnd, activate := false, horizon := r.horizon,
      month := r.month }

/-- Without a calendar it does not matter when the horizon starts. -/
theorem technicianInputs_free {p : Planning} (h : p.availability = []) (start start' : Instant) (nSlots : Nat) :
    technicianInputs p start nSlots = technicianInputs p start' nSlots := by
  refine List.map_congr_left fun t _ => ?_
  simp [technicianInput, windowsOf, h]

theorem quarter_assigned (start : Instant) :
    ∃ a, ((onePlanner 0).solve lineOfTwo start 1 [quarterOrder] {}).assignments = [a] ∧ a.orderId = 7 := by
  have horder : orderInput lineOfTwo (onePlanner 0) start 1 = orderInput lineOfTwo (onePlanner 0) 0 1 := rfl
  have htariff : tariffPerSlot (onePlanner 0) start 1 = tariffPerSlot (onePlanner 0) 0 1 := rfl
  have hsame : (onePlanner 0).solve lineOfTwo start 1 [quarterOrder] {} =
      (onePlanner 0).solve lineOfTwo 0 1 [quarterOrder] {} := by
    unfold Planning.solve
    rw [technicianInputs_free rfl start 0, horder, htariff]
  rw [hsame]
  exact ⟨_, rfl, rfl⟩

theorem quarterIn_persists (r : OptimiseRequest) (h : slotCount r.horizonStart r.horizonEnd = 1) :
    ((quarterIn r).after lineOfTwo quarterStore).items.rows ≠ [] := by
  obtain ⟨a, ha, hid⟩ := quarter_assigned r.horizonStart
  have hloaded : schedulable quarterStore [] = [quarterOrder] := rfl
  unfold OptimiseCall.after
  refine optimise_persists (a := a) (o := quarterOrder) (fun _ => rfl) rfl rfl rfl ?_ ?_ ?_
  · show ((onePlanner 0).solve lineOfTwo r.horizonStart (slotCount r.horizonStart r.horizonEnd)
      (schedulable quarterStore []) {}).assignments = [a]
    rw [h, hloaded]
    exact ha
  · show a.orderId ∈ (schedulable quarterStore []).map WorkOrder.id
    rw [hloaded, hid]
    exact List.mem_singleton_self _
  · rw [hid]
    rfl

/-- Whatever the orders, the technicians and the solver, what a run persists
lies in its horizon: exactly if the horizon is no shorter than a slot. In a
shorter one every item that is persisted ends too late. -/
theorem persisted_within_iff (r : OptimiseRequest) :
    ((∀ assets (c : OptimiseCall) db, c.request.horizonStart = r.horizonStart →
        c.request.horizonEnd = r.horizonEnd → c.planning.solver.Sound →
        ∀ i ∈ (c.after assets db).items.rows, i ∉ db.items.rows → i.Within r.horizonStart r.horizonEnd) ↔
      minutes slotMinutes ≤ r.horizonEnd - r.horizonStart) ∧
    (∀ assets (c : OptimiseCall) db, c.request.horizonStart = r.horizonStart →
      c.request.horizonEnd = r.horizonEnd → c.planning.solver.Sound →
      r.horizonEnd - r.horizonStart < minutes slotMinutes →
      ∀ i ∈ (c.after assets db).items.rows, i ∉ db.items.rows → r.horizonEnd < i.endsAt) := by
  constructor
  · constructor
    · intro h
      by_contra hshort
      have hslots := (slotCount_short (not_le.mp hshort)).1
      obtain ⟨i, hi⟩ := List.exists_mem_of_ne_nil _ (quarterIn_persists r hslots)
      have hwithin := h lineOfTwo (quarterIn r) quarterStore rfl rfl (CpModel.guess_sound _) i hi List.not_mem_nil
      have hbeyond := OptimiseCall.beyond_short (c := quarterIn r) (CpModel.guess_sound _) (not_le.mp hshort) hi
        List.not_mem_nil
      exact absurd hwithin.2 (not_le.mpr hbeyond)
    · intro hslot assets c db hstart hstop hsound i hi hnew
      rw [← hstart, ← hstop] at hslot ⊢
      exact OptimiseCall.within_of_slot hsound hslot hi hnew
  · intro assets c db hstart hstop hsound hshort i hi hnew
    rw [← hstart, ← hstop] at hshort
    rw [← hstop]
    exact OptimiseCall.beyond_short hsound hshort hi hnew

/-- A horizon of five minutes, and a quarter of an hour planned in it. -/
theorem short_horizon_overrun : ¬ ∀ assets (c : OptimiseCall) db, c.planning.solver.Sound →
    ∀ i ∈ (c.after assets db).items.rows, i ∉ db.items.rows →
      i.Within c.request.horizonStart c.request.horizonEnd := by
  intro h
  obtain ⟨i, hi⟩ := List.exists_mem_of_ne_nil _
    (quarterIn_persists { horizonStart := 0, horizonEnd := minutes 5 } (by decide))
  have hwithin := h lineOfTwo (quarterIn { horizonStart := 0, horizonEnd := minutes 5 }) quarterStore
    (CpModel.guess_sound _) i hi List.not_mem_nil
  have hbeyond := OptimiseCall.beyond_short (CpModel.guess_sound _) (by decide) hi List.not_mem_nil
  exact absurd hwithin.2 (not_le.mpr hbeyond)

end TwinVoice.Maintenance
