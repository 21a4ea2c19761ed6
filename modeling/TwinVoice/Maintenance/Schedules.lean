import Mathlib.Data.List.Sort
import TwinVoice.Maintenance.WorkOrders

/-! # The schedule service

`ScheduleService`: a run of the optimiser, which writes its plan to the orders
it has placed, and the drag of one item of a plan, which writes the new slot to
the item's order. The report of conflicts that a drag returns is left out: it
reads the plan after the commit. -/

namespace TwinVoice.Maintenance

open TwinVoice.Lib TwinVoice.Twin

/-! ## Optimising -/

/-- `SLOT_MINUTES`. -/
def slotMinutes : Nat := 15

def slotCount (horizonStart horizonEnd : Instant) : Nat :=
  max 1 ((horizonEnd - horizonStart) / minutes slotMinutes).toNat

def slotTime (horizonStart : Instant) (slot : Nat) : Instant :=
  horizonStart + minutes (slotMinutes * slot)

def WorkOrder.schedulable (o : WorkOrder) : Bool :=
  o.deletedAt = none ∧ (o.status = .«open» ∨ o.status = .scheduled)

/-- Orders the optimiser may place: open or already scheduled, never started or closed. -/
def schedulable (db : Store) (assetIds : List Uuid) : List WorkOrder :=
  (db.orders.select fun o => o.schedulable && (assetIds = [] ∨ o.assetId ∈ assetIds)).insertionSort
    fun o o' => o.priority < o'.priority ∨ o.priority = o'.priority ∧ o.createdAt ≤ o'.createdAt

def addSchedule (env : Env) (schedule : Schedule) : OrderTx Unit := do
  let db ← Tx.read
  let schedules ← Tx.orRaise (db.schedules.insert schedule) (.crash "IntegrityError: schedules_pkey")
  Tx.write fun db => { db with schedules := schedules }
  flush env

def OptimiseRequest.schedule (request : OptimiseRequest) (env : Env) (result : SolveResult) :
    Schedule where
  id := env.newId
  createdAt := env.txStart
  horizonStart := request.horizonStart
  horizonEnd := request.horizonEnd
  objective := request.weights
  solverStatus := some result.status
  solveMs := some result.solveMs
  objectiveValue := result.objectiveValue
  isActive := false

def Assignment.item (a : Assignment) (id : Uuid) (schedule : Schedule) : ScheduleItem where
  id := id
  scheduleId := schedule.id
  workOrderId := a.orderId
  technicianId := a.technicianId
  startsAt := slotTime schedule.horizonStart a.startSlot
  endsAt := slotTime schedule.horizonStart a.endSlot
  riskBefore := some a.riskBefore
  energyCost := some a.energyCost
  manuallyAdjusted := false

/-- The order with the slot of an item. -/
def WorkOrder.inSlot (o : WorkOrder) (item : ScheduleItem) : WorkOrder :=
  { o with
    plannedStart := some item.startsAt
    plannedEnd := some item.endsAt
    technicianId := item.technicianId
    riskBeforeSlot := item.riskBefore }

def WorkOrder.placed (o : WorkOrder) (item : ScheduleItem) : WorkOrder :=
  { o.inSlot item with status := if o.status = .«open» then .scheduled else o.status }

/-- The loop over the assignments; only orders that were loaded can be written to. -/
def placeAll (env : Env) (loaded : List Uuid) (schedule : Schedule) :
    Nat → List Assignment → OrderTx (List ScheduleItem)
  | _, [] => pure []
  | n, a :: rest => do
    let item := a.item (env.newItemIds n) schedule
    let db ← Tx.read
    let order ← Tx.orRaise (if a.orderId ∈ loaded then db.orders.find a.orderId else none)
      (.crash "KeyError")
    saveOrder env (order.placed item)
    let items ← placeAll env loaded schedule (n + 1) rest
    return item :: items

def insertAll (items : Table ScheduleItem) : List ScheduleItem → Option (Table ScheduleItem)
  | [] => some items
  | i :: is => (items.insert i).bind fun t => insertAll t is

def addItems (env : Env) (items : List ScheduleItem) : OrderTx Unit := do
  let db ← Tx.read
  let all ← Tx.orRaise (insertAll db.items items) (.crash "IntegrityError: schedule_items_pkey")
  Tx.write fun db => { db with items := all }
  flush env

def deactivateOthers (schedules : Table Schedule) (id : Uuid) : Table Schedule :=
  schedules.update (fun s => s.isActive && s.id != id) (fun s => { s with isActive := false })
    fun _ => rfl

/-- Deactivate the previous plan first: a partial-unique index allows only one active row. -/
def activate (env : Env) (schedule : Schedule) : OrderTx Schedule := do
  Tx.write fun db => { db with schedules := deactivateOthers db.schedules schedule.id }
  flush env
  let active := { schedule with isActive := true }
  Tx.write fun db => { db with schedules := db.schedules.put active }
  flush env
  return active

/-- An empty plan never replaces the active one. -/
def activateIfAny (env : Env) (request : OptimiseRequest) (result : SolveResult) (schedule : Schedule) :
    OrderTx Schedule :=
  if request.activate ∧ result.assignments ≠ [] then activate env schedule else pure schedule

/-- The plan, its items and the orders that found no place. -/
structure OptimiseOut where
  schedule : Schedule
  items : List ScheduleItem
  unscheduled : List Uuid

def optimise (env : Env) (request : OptimiseRequest) : OrderTx OptimiseOut := Tx.transaction do
  let db ← Tx.read
  let orders := schedulable db request.assetIds
  let result := env.solve orders (slotCount request.horizonStart request.horizonEnd) request.weights
  let schedule := request.schedule env result
  addSchedule env schedule
  let items ← placeAll env (orders.map WorkOrder.id) schedule 0 result.assignments
  addItems env items
  let stored ← activateIfAny env request result schedule
  return ⟨stored, items, result.unscheduled⟩

/-! ## Dragging an item -/

/-- The slot that a drag asks for: a new start alone keeps the length. -/
def ScheduleItemPatch.slot (data : ScheduleItemPatch) (item : ScheduleItem) : Instant × Instant :=
  let startsAt := data.startsAt.getD item.startsAt
  match data.startsAt, data.endsAt with
  | some _, none => (startsAt, startsAt + (item.endsAt - item.startsAt))
  | _, endsAt => (startsAt, endsAt.getD item.endsAt)

/-- Every check that `patch_item` makes, in its order. -/
def patchCheck (env : Env) (db : Store) (scheduleId itemId : Uuid) (data : ScheduleItemPatch) :
    Except Failure ScheduleItem :=
  match db.schedules.find scheduleId with
  | none => .error (.problem (.notFound ("Schedule " ++ env.uuidText scheduleId ++ " not found")))
  | some schedule =>
    match (db.items.find itemId).filter fun i => i.scheduleId = scheduleId with
    | none => .error (.problem (.notFound ("Schedule item " ++ env.uuidText itemId ++
        " not found in schedule " ++ env.uuidText scheduleId)))
    | some item =>
      let slot := data.slot item
      if slot.2 ≤ slot.1 then .error (.problem (.unprocessable "ends_at must be after starts_at"))
      else if ¬ (schedule.horizonStart ≤ slot.1 ∧ slot.2 ≤ schedule.horizonEnd) then
        .error (.problem (.unprocessable "The new slot falls outside the schedule horizon"))
      else if technicianKnown env data.technicianId then .ok item
      else .error (technicianNotFound env data.technicianId)

/-- The item after the drag; its risk is scored anew for the order it belongs to. -/
def ScheduleItemPatch.moved (data : ScheduleItemPatch) (env : Env) (order : Option WorkOrder)
    (item : ScheduleItem) : ScheduleItem :=
  { item with
    startsAt := (data.slot item).1
    endsAt := (data.slot item).2
    technicianId := data.technicianId.or item.technicianId
    manuallyAdjusted := true
    riskBefore := match order with
      | some o => some (env.riskAt o (data.slot item).1)
      | none => item.riskBefore }

def saveItem (env : Env) (item : ScheduleItem) : OrderTx Unit := do
  Tx.write fun db => { db with items := db.items.put item }
  flush env

def moveOrder (env : Env) (order : Option WorkOrder) (moved : ScheduleItem) : OrderTx Unit :=
  match order with
  | some o => saveOrder env (o.inSlot moved)
  | none => pure ()

def patchItem (env : Env) (scheduleId itemId : Uuid) (data : ScheduleItemPatch) :
    OrderTx ScheduleItem := Tx.transaction do
  let db ← Tx.read
  match patchCheck env db scheduleId itemId data with
  | .error failure => Tx.raise failure
  | .ok item => do
    let order := db.orders.find item.workOrderId
    let moved := data.moved env order item
    saveItem env moved
    moveOrder env order moved
    return moved

end TwinVoice.Maintenance
