import Mathlib.Algebra.Order.BigOperators.Group.List
import TwinVoice.Analytics.Kpis
import TwinVoice.Maintenance.Closure
import TwinVoice.Maintenance.Lifecycle

/-! # Repair times

`close_order` takes the actual start from the request, the row, the plan or the
clock, whichever comes first, and the actual end from the request or the clock.
Nothing compares the two, and `repairs` sums their difference into MTTR. The
times are in order exactly when the close is timely. -/

namespace TwinVoice.Maintenance

open TwinVoice.Lib TwinVoice.Lib.Transition TwinVoice.Twin TwinVoice.Analytics

/-- The start that a close finds before it falls back on the clock. -/
def WorkOrderClose.knownStart (data : WorkOrderClose) (o : WorkOrder) : Option Instant :=
  (data.actualStart.or o.actualStart).or o.plannedStart

/-- The work has begun by the end of it; without a start, the end is not in the past. -/
def WorkOrderClose.Timely (data : WorkOrderClose) (now : Instant) (o : WorkOrder) : Prop :=
  match data.knownStart o with
  | some start => start ≤ data.actualEnd.getD now
  | none => ∀ stop ∈ data.actualEnd, now ≤ stop

def WorkOrder.TimesOrdered (o : WorkOrder) : Prop :=
  ∀ s ∈ o.actualStart, ∀ e ∈ o.actualEnd, s ≤ e

/-- `actual_end - actual_start` of an order that ended in the period. -/
def WorkOrder.repairIn (o : WorkOrder) (start stop : Instant) : Option Duration :=
  match o.actualStart, o.actualEnd with
  | some s, some e => if start ≤ e ∧ e < stop then some (e - s) else none
  | _, _ => none

/-- The durations that `repairs` sums. -/
def Store.repaired (db : Store) (assetIds : List Uuid) (start stop : Instant) : List Duration :=
  (db.orders.select fun o => o.assetId ∈ assetIds ∧ o.status = .closed ∧ o.deletedAt = none).filterMap
    fun o => o.repairIn start stop

/-- `repairs`: the seconds and the number of the repairs. -/
def Store.repairs (db : Store) (assetIds : List Uuid) (start stop : Instant) : Rat × Nat :=
  (((db.repaired assetIds start stop).map inSeconds).sum, (db.repaired assetIds start stop).length)

/-- The MTTR of a period. -/
def Store.meanTimeToRepair (db : Store) (assetIds : List Uuid) (start stop : Instant) : KpiResult :=
  mttr (db.repairs assetIds start stop).1 (db.repairs assetIds start stop).2

/-- Closing an order that can be closed is timely. -/
def TimelyClose (db : Store) (r : Request) : Prop :=
  match r.call with
  | .close _ id data => ∀ o, db.liveOrder id = some o → o.status ∉ terminalStatuses →
      data.Timely r.env.now o
  | _ => True

/-- The order has the times that its close has taken. -/
theorem closed_timesOrdered (data : WorkOrderClose) (env : Env) (o : WorkOrder) :
    (data.closed env o).TimesOrdered ↔ data.Timely env.now o := by
  unfold WorkOrder.TimesOrdered WorkOrderClose.Timely WorkOrderClose.closed WorkOrderClose.knownStart
  simp only [Option.mem_def, Option.some.injEq, forall_eq']
  cases (data.actualStart.or o.actualStart).or o.plannedStart with
  | some start => rfl
  | none =>
    cases data.actualEnd with
    | some stop => simp
    | none => simp

theorem WorkOrder.repairIn_nonneg {o : WorkOrder} (h : o.TimesOrdered) {start stop : Instant}
    {d : Duration} (hd : o.repairIn start stop = some d) : 0 ≤ d := by
  unfold WorkOrder.repairIn at hd
  cases hs : o.actualStart with
  | none => simp [hs] at hd
  | some s =>
    cases he : o.actualEnd with
    | none => simp [hs, he] at hd
    | some e =>
      have horder := h s hs e he
      simp only [hs, he, Option.ite_none_right_eq_some, Option.some.injEq] at hd
      exact hd.2 ▸ Int.sub_nonneg_of_le horder

/-! ## What the requests keep -/

def AllOrdered (db : Store) : Prop := ∀ o ∈ db.orders.rows, o.TimesOrdered

theorem repaired_nonneg {db : Store} (h : AllOrdered db) (assetIds : List Uuid) (start stop : Instant) :
    ∀ d ∈ db.repaired assetIds start stop, 0 ≤ d := by
  intro d hd
  obtain ⟨o, ho, hrepair⟩ := List.mem_filterMap.mp hd
  exact WorkOrder.repairIn_nonneg (h o (Table.mem_select.mp ho).1) hrepair

section Keeps

variable {env : Env}

theorem ensures_saveOrder {o : WorkOrder} (h : o.TimesOrdered) :
    Tx.Ensures AllOrdered (saveOrder env o) fun _ => AllOrdered := by
  refine .bind (.write _ fun w hw x hx => ?_) fun _ => ensures_flush
  rcases Table.mem_put hx with rfl | ⟨hold, -⟩
  · rw [WorkOrder.stamped_eq]
    exact h
  · exact hw x hold

/-! No request but a close sets the actual times of an order. -/

theorem ensures_addOrder {o : WorkOrder} (h : o.TimesOrdered) :
    Tx.Ensures AllOrdered (addOrder env o) fun _ => AllOrdered := by
  refine .bind .read fun db => .bind (.orRaise _ _) fun orders => .given fun hinsert =>
    .bind (.write _ ?_) fun _ => ensures_flush
  rintro w ⟨rfl, hw⟩ x hx
  rcases List.mem_append.mp (Table.rows_insert hinsert ▸ hx) with hold | hnew
  · exact hw x hold
  · rw [List.mem_singleton.mp hnew]
    exact h

theorem ensures_addTasks (tasks : List WorkOrderTask) :
    Tx.Ensures AllOrdered (addTasks env tasks) fun _ => AllOrdered := by
  unfold addTasks
  split
  · exact .pure _ fun _ hw => hw
  · exact .bind (.write _ fun w hw => hw) fun _ => ensures_flush

theorem ensures_createOrder (actor : Option CurrentUser) (data : WorkOrderCreate) :
    Tx.Ensures AllOrdered (createOrder env actor data) fun _ => AllOrdered := by
  have hnew : (data.order env actor).TimesOrdered := fun s hs => by cases hs
  exact .transaction (.bind (.raiseIf _ _) fun _ => .given fun _ => .bind (ensures_addOrder hnew) fun _ =>
    .bind (ensures_addTasks _) fun _ => .pure _ fun _ hw => hw)

theorem ensures_updateOrder (id : Uuid) (data : WorkOrderUpdate) :
    Tx.Ensures AllOrdered (updateOrder env id data) fun _ => AllOrdered := by
  refine .transaction (.bind .read fun db => ?_)
  cases hcheck : updateCheck env db id data with
  | error failure => exact .raise _
  | ok o =>
    dsimp only
    cases happly : data.apply o with
    | error reason => exact .raise _
    | ok edited =>
      obtain ⟨priority, title, status, parts, -, hrow⟩ := apply_eq happly
      have hfind := (updateCheck_ok hcheck).1
      refine .knowing (c := o.TimesOrdered) ?_ fun horder => ?_
      · rintro w ⟨rfl, hw⟩
        exact hw o (Table.mem_of_find hfind)
      · have hedited : edited.TimesOrdered := by
          rw [hrow]
          exact horder
        exact .bind ((ensures_saveOrder hedited).mono (fun _ hw => hw.2) fun _ _ hw => hw) fun _ =>
          .pure _ fun _ hw => hw

theorem ensures_closeOrder (actor : CurrentUser) (id : Uuid) (data : WorkOrderClose) :
    Tx.Ensures (fun w => AllOrdered w ∧ TimelyClose w ⟨env, .close actor id data⟩)
      (closeOrder env actor id data) fun _ => AllOrdered := by
  refine .transaction (.bind ensures_orderOr404 fun o => .bind (.raiseIf _ _) fun _ => .given fun hclosed =>
    .bind (.raiseIf _ _) fun _ => .given fun hcancelled => .bind (Q := fun _ => AllOrdered) ?_ fun _ =>
    .bind (Q := fun _ => AllOrdered) ?_ fun _ => .pure _ fun _ hw => hw)
  · intro s t u hs hrun
    obtain ⟨hlive, hall, htimely⟩ := hs
    have hstatus : o.status ∉ terminalStatuses := by simp [terminalStatuses, hclosed, hcancelled]
    have horder := (closed_timesOrdered data env o).mpr (htimely o hlive hstatus)
    exact ensures_saveOrder horder hall hrun
  · intro s t u hs hrun
    rw [resetIfAsked_ok hrun]
    exact hs

theorem ensures_placeAll (loaded : List Uuid) (schedule : Schedule) (as : List Assignment) (n : Nat) :
    Tx.Ensures AllOrdered (placeAll env loaded schedule n as) fun _ => AllOrdered := by
  induction as generalizing n with
  | nil => exact .pure _ fun _ hw => hw
  | cons a as ih =>
    refine .bind .read fun db => .bind (.orRaise _ _) fun order => .given fun hloaded => ?_
    have hfind : db.orders.find a.orderId = some order := by
      split at hloaded
      · exact hloaded
      · cases hloaded
    refine .knowing (c := order.TimesOrdered) ?_ fun horder => ?_
    · rintro w ⟨rfl, hw⟩
      exact hw order (Table.mem_of_find hfind)
    · have hplaced : (order.placed (a.item (env.newItemIds n) schedule)).TimesOrdered := horder
      exact .bind ((ensures_saveOrder hplaced).mono (fun _ hw => hw.2) fun _ _ hw => hw) fun _ =>
        .bind (ih (n + 1)) fun _ => .pure _ fun _ hw => hw

/-- A piece that writes to other tables. -/
theorem ensures_of_orders {α : Type} {m : OrderTx α}
    (h : ∀ s t a, m.run s = (.ok a, t) → t.work.orders = s.work.orders) :
    Tx.Ensures AllOrdered m fun _ => AllOrdered := by
  intro s t a hs hrun o ho
  rw [h s t a hrun] at ho
  exact hs o ho

theorem ensures_optimise (request : OptimiseRequest) :
    Tx.Ensures AllOrdered (optimise env request) fun _ => AllOrdered :=
  .transaction (.bind .read fun _ => .bind
    ((ensures_of_orders fun _ _ _ => addSchedule_orders).mono (fun _ hw => hw.2) fun _ _ hw => hw) fun _ =>
      .bind (ensures_placeAll _ _ _ _) fun _ => .bind (ensures_of_orders fun _ _ _ => addItems_orders) fun _ =>
        .bind (ensures_of_orders fun _ _ _ => activateIfAny_orders) fun _ => .pure _ fun _ hw => hw)

theorem ensures_patchItem (scheduleId itemId : Uuid) (data : ScheduleItemPatch) :
    Tx.Ensures AllOrdered (patchItem env scheduleId itemId data) fun _ => AllOrdered := by
  refine .transaction (.bind .read fun db => ?_)
  cases hcheck : patchCheck env db scheduleId itemId data with
  | error failure => exact .raise _
  | ok item =>
    dsimp only
    refine .bind (Q := fun _ w => (∀ o, db.orders.find item.workOrderId = some o → o.TimesOrdered) ∧
      AllOrdered w) ?_ fun _ => .given fun horders => .bind (Q := fun _ => AllOrdered) ?_ fun _ => .pure _ fun _ hw => hw
    · refine .bind (.write _ ?_) fun _ => ensures_flush
      rintro w ⟨rfl, hw⟩
      exact ⟨fun o ho => hw o (Table.mem_of_find ho), hw⟩
    · unfold moveOrder
      cases ho : db.orders.find item.workOrderId with
      | none => exact .pure _ fun _ hw => hw
      | some o => exact ensures_saveOrder (horders o ho)

end Keeps

/-- As long as every close is timely, no order ends before it starts. -/
theorem allOrdered_of_timely {start db : Store} {es : List Request} (hstart : AllOrdered start)
    (h : Run (Guarded Step TimelyClose) start es db) : AllOrdered db := by
  refine Run.invariant (fun _ => AllOrdered) hstart ?_ h
  rintro _ db₁ ⟨env, call⟩ _ hall ⟨htimely, rfl⟩
  cases call with
  | create actor data => exact (ensures_createOrder actor data).serve (atomic_createOrder env actor data) hall hall
  | update id data => exact (ensures_updateOrder id data).serve (atomic_updateOrder env id data) hall hall
  | close actor id data =>
    exact (ensures_closeOrder actor id data).serve (.transaction (drafts_closeAndReset env actor id data))
      ⟨hall, htimely⟩ hall
  | optimise request => exact (ensures_optimise request).serve (atomic_optimise env request) hall hall
  | patch scheduleId itemId data =>
    exact (ensures_patchItem scheduleId itemId data).serve (atomic_patchItem env scheduleId itemId data) hall hall

/-- What a close that goes through answers and leaves in the table. -/
theorem closeOrder_ok {env : Env} {actor : CurrentUser} {id : Uuid} {data : WorkOrderClose} {db : Store}
    {o o' : WorkOrder} (hlive : db.liveOrder id = some o)
    (h : (Tx.serve (closeOrder env actor id data) db).1 = .ok o') :
    o' = data.closed env o ∧ (Tx.serve (closeOrder env actor id data) db).2.1.orders =
      (db.putOrder env.txStart (data.closed env o)).orders := by
  obtain ⟨s, hrun, hafter⟩ := Tx.serve_answered h
  obtain ⟨x, s₁, hget, h₁⟩ := Tx.bind_ok hrun
  obtain ⟨hx, rfl⟩ := orderOr404_ok hget
  obtain rfl : o = x := Option.some.inj (hlive.symm.trans hx)
  obtain ⟨_, s₂, hdone, h₂⟩ := Tx.bind_ok h₁
  obtain ⟨-, rfl⟩ := Tx.raiseIf_ok hdone
  obtain ⟨_, s₃, hgone, h₃⟩ := Tx.bind_ok h₂
  obtain ⟨-, rfl⟩ := Tx.raiseIf_ok hgone
  obtain ⟨_, s₄, hsave, h₄⟩ := Tx.bind_ok h₃
  obtain ⟨rfl, -⟩ := saveOrder_ok hsave
  obtain ⟨_, s₅, hreset, h₅⟩ := Tx.bind_ok h₄
  obtain ⟨rfl, rfl⟩ := Tx.pure_ok h₅
  refine ⟨rfl, ?_⟩
  show (Tx.serve (Tx.transaction (closeAndReset env actor id data)) db).2.1.orders = _
  rw [hafter, resetIfAsked_ok hreset]

/-- After a close that is not timely, the repairs of its asset count a negative time. -/
theorem repaired_closed {env : Env} {id : Uuid} {data : WorkOrderClose} {db : Store} {o : WorkOrder}
    (hlive : db.liveOrder id = some o)
    (h : ∀ assetIds start stop, ∀ d ∈ (db.putOrder env.txStart (data.closed env o)).repaired assetIds start stop,
      0 ≤ d) : data.Timely env.now o := by
  obtain ⟨hfind, hkept⟩ := liveOrder_some hlive
  have hid : o.id = id := Table.key_of_find hfind
  have hrow := find_putOrder (data.closed env o) (hid ▸ hfind : db.orders.find o.id = some o) env.txStart o.id
  rw [if_pos (show (data.closed env o).id = o.id from rfl), WorkOrder.stamped_eq] at hrow
  rw [← closed_timesOrdered]
  intro s hs e he
  have hduration : (e - s) ∈ (db.putOrder env.txStart (data.closed env o)).repaired [o.assetId] e (e + 1) := by
    refine List.mem_filterMap.mpr ⟨_, Table.mem_select.mpr ⟨Table.mem_of_find hrow, ?_⟩, ?_⟩
    · simp [WorkOrderClose.closed, hkept]
    · unfold WorkOrder.repairIn
      simp [Option.mem_def.mp hs, Option.mem_def.mp he]
  exact Int.sub_nonneg.mp (h _ _ _ _ hduration)

theorem roundTo_nonneg {q : Rat} (h : 0 ≤ q) (digits : Nat) : 0 ≤ roundTo digits q := by
  unfold roundTo
  rw [if_neg (not_lt.mpr h)]
  positivity

theorem repairs_nonneg {db : Store} (h : AllOrdered db) (assetIds : List Uuid) (start stop : Instant) :
    0 ≤ (db.repairs assetIds start stop).1 := by
  refine List.sum_nonneg fun q hq => ?_
  obtain ⟨d, hd, rfl⟩ := List.mem_map.mp hq
  have hd₀ : (0 : Rat) ≤ d := by exact_mod_cast repaired_nonneg h assetIds start stop d hd
  unfold inSeconds
  positivity

theorem mttr_nonneg {q : Rat} (h : 0 ≤ q) (n : Nat) : 0 ≤ (mttr q n).value := by
  unfold mttr
  split
  · exact le_rfl
  · exact roundTo_nonneg (by positivity) 3

/-- A close that goes through leaves the order with both times, in order exactly
when it is timely; and as long as every close is, no repair counts a negative
time. -/
theorem closing_times_iff (db : Store) :
    (∀ env actor id data o o', db.liveOrder id = some o →
      (Tx.serve (closeOrder env actor id data) db).1 = .ok o' →
      o'.actualStart.isSome ∧ o'.actualEnd.isSome ∧ (o'.TimesOrdered ↔ data.Timely env.now o) ∧
      (AllOrdered db → ((∀ assetIds start stop,
        ∀ d ∈ (Tx.serve (closeOrder env actor id data) db).2.1.repaired assetIds start stop, 0 ≤ d) ↔
          data.Timely env.now o))) ∧
    (∀ start es, AllOrdered start → Run (Guarded Step TimelyClose) start es db →
      ∀ assetIds start stop, (∀ d ∈ db.repaired assetIds start stop, 0 ≤ d) ∧
        0 ≤ (db.meanTimeToRepair assetIds start stop).value) := by
  constructor
  · intro env actor id data o o' hlive hok
    obtain ⟨rfl, hafter⟩ := closeOrder_ok hlive hok
    have htimes := closed_timesOrdered data env o
    have hrepaired assetIds start stop :
        (Tx.serve (closeOrder env actor id data) db).2.1.repaired assetIds start stop =
          (db.putOrder env.txStart (data.closed env o)).repaired assetIds start stop := by
      unfold Store.repaired
      rw [hafter]
    refine ⟨rfl, rfl, htimes, fun hbefore => ⟨fun h => ?_, fun htimely => ?_⟩⟩
    · simp only [hrepaired] at h
      exact repaired_closed hlive h
    · refine repaired_nonneg ((ensures_closeOrder actor id data).serve
        (.transaction (drafts_closeAndReset env actor id data)) ⟨hbefore, fun x hx _ => ?_⟩ hbefore)
      obtain rfl : o = x := Option.some.inj (hlive.symm.trans hx)
      exact htimely
  · intro first es hfirst hrun assetIds start stop
    have hall := allOrdered_of_timely hfirst hrun
    exact ⟨repaired_nonneg hall assetIds start stop, mttr_nonneg (repairs_nonneg hall assetIds start stop) _⟩

/-! The order of the small plant, closed after five microseconds: without a
plan, and with one that has it start in an hour. -/

def plannedOrder : WorkOrderCreate :=
  { newOrder with plannedStart := some (minutes 60), ordered := by simp [Ordered, newOrder] }

def createPlanned7 : Request := ⟨office 7 0, .create none plannedOrder⟩

theorem closing_times_of_order7 :
    (closing.closed (office 0 5) (newOrder.order (office 7 0) none)).TimesOrdered ∧
      0 ≤ ((close7.after (create7.after emptyStore)).meanTimeToRepair [1] 0 (minutes 1)).value := by
  have htimely : closing.Timely 5 (newOrder.order (office 7 0) none) := by
    simp [WorkOrderClose.Timely, WorkOrderClose.knownStart, closing, newOrder, WorkOrderCreate.order]
  refine ⟨((closing_times_iff (create7.after emptyStore)).1 (office 0 5) planner 7 closing _ _ rfl rfl).2.2.1.mpr
    htimely, ((closing_times_iff _).2 emptyStore ([create7] ++ [close7]) ?_ (.snoc (.snoc .nil ⟨?_, rfl⟩) ⟨?_, rfl⟩)
      [1] 0 (minutes 1)).2⟩
  · exact fun o ho => absurd ho List.not_mem_nil
  · trivial
  · intro o ho _
    obtain rfl : newOrder.order (office 7 0) none = o := Option.some.inj ho
    exact htimely

theorem closed_before_plan :
    (¬ ∀ env actor id data db o', (Tx.serve (closeOrder env actor id data) db).1 = .ok o' → o'.TimesOrdered) ∧
      ((close7.after (createPlanned7.after emptyStore)).repairs [1] 0 (minutes 1)).1 < 0 := by
  constructor
  · intro h
    have hordered : (closing.closed (office 0 5) (plannedOrder.order (office 7 0) none)).TimesOrdered :=
      h (office 0 5) planner 7 closing (createPlanned7.after emptyStore) _ rfl
    exact absurd (hordered (minutes 60) rfl 5 rfl) (by decide)
  · decide +kernel

end TwinVoice.Maintenance
