import TwinVoice.Maintenance.Model

/-! # The work order service

`WorkOrderService`: creating, editing and closing an order. Closing goes
through the command gateway after the row is flushed and before the commit. -/

namespace TwinVoice.Maintenance

open TwinVoice.Lib TwinVoice.Twin

/-- `session.flush()`: the constraints of the schema are checked. -/
def flush (env : Env) : OrderTx Unit := do
  let db ← Tx.read
  match env.refusal db with
  | none => pure ()
  | some reason => Tx.raise (.crash reason)

/-- An `UPDATE` is issued only when a column differs, and it sets `updated_at`. -/
def WorkOrder.stamped (o : WorkOrder) (old : Option WorkOrder) (txStart : Instant) : WorkOrder :=
  if old = some o then o else { o with updatedAt := txStart }

def Store.putOrder (db : Store) (txStart : Instant) (o : WorkOrder) : Store :=
  { db with orders := db.orders.put (o.stamped (db.orders.find o.id) txStart) }

/-- `self.repo.update(order, values)` for the row with the values set. -/
def saveOrder (env : Env) (o : WorkOrder) : OrderTx Unit := do
  Tx.write fun db => db.putOrder env.txStart o
  flush env

/-- `get` of the repository, which skips deleted rows. -/
def Store.liveOrder (db : Store) (id : Uuid) : Option WorkOrder :=
  (db.orders.find id).filter fun o => o.deletedAt = none

def orderNotFound (env : Env) (id : Uuid) : Failure :=
  .problem (.notFound ("Work order " ++ env.uuidText id ++ " not found"))

def orderOr404 (env : Env) (id : Uuid) : OrderTx WorkOrder := do
  let db ← Tx.read
  Tx.orRaise (db.liveOrder id) (orderNotFound env id)

/-! ## Creating -/

def WorkOrderCreate.order (data : WorkOrderCreate) (env : Env) (actor : Option CurrentUser) :
    WorkOrder where
  id := env.newId
  number := env.newNumber
  assetId := data.assetId
  componentId := data.componentId
  type := data.type
  priority := data.priority
  title := data.title
  description := data.description
  failureModeId := data.failureModeId
  predictionId := data.predictionId
  explanationId := data.explanationId
  status := .«open»
  plannedStart := data.plannedStart
  plannedEnd := data.plannedEnd
  actualStart := none
  actualEnd := none
  technicianId := data.technicianId
  parts := data.parts
  estDurationMin := data.estDurationMin
  estCost := data.estCost
  riskBeforeSlot := none
  createdBy := actor.map CurrentUser.userId
  createdVia := data.createdVia
  outcome := none
  predictionWasCorrect := none
  createdAt := env.txStart
  updatedAt := env.txStart
  deletedAt := none

def WorkOrderTaskSpec.task (spec : WorkOrderTaskSpec) (order : WorkOrder) : WorkOrderTask :=
  ⟨order.id, spec.sequence, spec.description, false⟩

def addOrder (env : Env) (o : WorkOrder) : OrderTx Unit := do
  let db ← Tx.read
  let orders ← Tx.orRaise (db.orders.insert o) (.crash "IntegrityError: work_orders_pkey")
  Tx.write fun db => { db with orders := orders }
  flush env

def addTasks (env : Env) (tasks : List WorkOrderTask) : OrderTx Unit :=
  if tasks = [] then pure ()
  else do
    Tx.write fun db => { db with tasks := db.tasks ++ tasks }
    flush env

def createOrder (env : Env) (actor : Option CurrentUser) (data : WorkOrderCreate) :
    OrderTx WorkOrder := Tx.transaction do
  Tx.raiseIf (env.assets.find data.assetId = none)
    (.problem (.notFound ("Asset " ++ env.uuidText data.assetId ++ " not found")))
  let order := data.order env actor
  addOrder env order
  addTasks env (data.tasks.map fun spec => spec.task order)
  return order

/-! ## Editing -/

/-- A column without `NOT NULL`. -/
def Sent.nullable {α : Type} (s : Sent α) (old : Option α) : Option α := s.getD old

/-- A column with `NOT NULL`: an explicit null is refused when it is flushed. -/
def Sent.required {α : Type} (s : Sent α) (column : String) (old : α) : Except String α :=
  match s with
  | none => .ok old
  | some (some a) => .ok a
  | some none => .error ("NotNullViolation: " ++ column)

/-- The row with the values that are set. -/
def WorkOrderUpdate.apply (data : WorkOrderUpdate) (o : WorkOrder) : Except String WorkOrder := do
  let priority ← data.priority.required "priority" o.priority
  let title ← data.title.required "title" o.title
  let status ← data.status.required "status" o.status
  let parts ← data.parts.required "parts" o.parts
  return { o with
    priority := priority
    title := title
    description := data.description.nullable o.description
    status := status
    plannedStart := data.plannedStart.nullable o.plannedStart
    plannedEnd := data.plannedEnd.nullable o.plannedEnd
    technicianId := data.technicianId.nullable o.technicianId
    parts := parts
    estDurationMin := data.estDurationMin.nullable o.estDurationMin
    estCost := data.estCost.nullable o.estCost }

def technicianKnown (env : Env) (id : Option Uuid) : Bool :=
  match id with
  | none => true
  | some t => (env.technicians.find t).isSome

def technicianNotFound (env : Env) (id : Option Uuid) : Failure :=
  .problem (.notFound ("Technician " ++ (id.elim "" env.uuidText) ++ " not found"))

/-- Every check that `update_order` makes, in its order. -/
def updateCheck (env : Env) (db : Store) (id : Uuid) (data : WorkOrderUpdate) :
    Except Failure WorkOrder :=
  match db.liveOrder id with
  | none => .error (orderNotFound env id)
  | some order =>
    if order.status ∈ terminalStatuses then
      .error (.problem (.conflict ("Work order " ++ toString order.number ++ " is " ++
        order.status.name ++ " and can no longer be edited")))
    else if ¬ Ordered (data.plannedStart.nullable order.plannedStart)
        (data.plannedEnd.nullable order.plannedEnd) then
      .error (.problem (.unprocessable "planned_end must be after planned_start"))
    else if technicianKnown env data.technicianId.join then .ok order
    else .error (technicianNotFound env data.technicianId.join)

def updateOrder (env : Env) (id : Uuid) (data : WorkOrderUpdate) : OrderTx WorkOrder := Tx.transaction do
  let db ← Tx.read
  match updateCheck env db id data with
  | .error failure => Tx.raise failure
  | .ok order =>
    match data.apply order with
    | .error reason => Tx.raise (.crash reason)
    | .ok edited => do
      saveOrder env edited
      return edited

/-! ## Closing -/

/-- The row as `close_order` sets it. -/
def WorkOrderClose.closed (data : WorkOrderClose) (env : Env) (o : WorkOrder) : WorkOrder :=
  { o with
    status := .closed
    outcome := some data.outcome
    actualStart := some (((data.actualStart.or o.actualStart).or o.plannedStart).getD env.now)
    actualEnd := some (data.actualEnd.getD env.now)
    predictionWasCorrect := data.predictionWasCorrect }

/-- `{"component_id": str(order.component_id) if order.component_id else None}`. -/
def resetParams (env : Env) (order : WorkOrder) : Params :=
  [("component_id", match order.componentId with | some id => .text (env.uuidText id) | none => .null)]

def resetCommand (env : Env) (actor : CurrentUser) (assetCode : String) (order : WorkOrder) : Command where
  id := env.newCommand
  assetCode := assetCode
  command := "maintenance_reset"
  params := resetParams env order
  issuedBy := actor.sub
  tier := "T3"

/-- `reply.get('error') or reply['status']`. -/
def rejection (env : Env) (ack : Params) (status : Value) : String :=
  match (ack.truthy? "error").getD status with
  | .text s => s
  | v => env.str v

def resetDamage (env : Env) (channel : Channel) (assetCode : String) (order : WorkOrder)
    (actor : CurrentUser) : OrderTx Unit := do
  let (_, reply) ← execute channel (resetCommand env actor assetCode order) (seconds 5)
  match reply with
  | none => pure ()
  | some ack =>
    match ackStatus ack with
    | none => pure ()
    | some status =>
      if status = .text "accepted" then pure ()
      else Tx.raise (.problem (.badGateway
        ("Simulator rejected maintenance reset: " ++ rejection env ack status)))

/-- Without a channel, or without the asset, no command goes out. -/
def resetIfAsked (env : Env) (actor : CurrentUser) (data : WorkOrderClose) (order : WorkOrder) :
    OrderTx Unit :=
  if data.resetDamage then
    match env.commands, env.assets.find order.assetId with
    | some channel, some asset => resetDamage env channel asset.code order actor
    | _, _ => pure ()
  else pure ()

/-- All of `close_order` up to the commit. -/
def closeAndReset (env : Env) (actor : CurrentUser) (id : Uuid) (data : WorkOrderClose) :
    OrderTx WorkOrder := do
  let order ← orderOr404 env id
  Tx.raiseIf (order.status = .closed)
    (.problem (.conflict ("Work order " ++ toString order.number ++ " is already closed")))
  Tx.raiseIf (order.status = .cancelled) (.problem (.conflict ("Work order " ++
    toString order.number ++ " was cancelled and cannot be closed")))
  let closed := data.closed env order
  saveOrder env closed
  resetIfAsked env actor data closed
  return closed

def closeOrder (env : Env) (actor : CurrentUser) (id : Uuid) (data : WorkOrderClose) :
    OrderTx WorkOrder :=
  Tx.transaction (closeAndReset env actor id data)

end TwinVoice.Maintenance
