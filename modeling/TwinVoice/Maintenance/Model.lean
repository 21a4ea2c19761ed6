import TwinVoice.Lib.Table
import TwinVoice.Twin.Gateway

/-! # The data of maintenance scheduling

The rows of `work_orders`, `work_order_tasks`, `schedules` and
`schedule_items`, the payloads that the schemas admit, and what a request
brings along. A payload carries the proofs of the checks that its schema has
made. Audit rows are left out. -/

namespace TwinVoice.Maintenance

open TwinVoice.Lib TwinVoice.Twin

inductive WorkOrderType
  | corrective | preventive | predictive
  deriving DecidableEq

inductive WorkOrderStatus
  | «open» | scheduled | inProgress | closed | cancelled
  deriving DecidableEq

def WorkOrderStatus.name : WorkOrderStatus → String
  | .«open» => "open"
  | .scheduled => "scheduled"
  | .inProgress => "in_progress"
  | .closed => "closed"
  | .cancelled => "cancelled"

/-- `TERMINAL_STATUSES`. -/
def terminalStatuses : List WorkOrderStatus := [.closed, .cancelled]

inductive CreatedVia
  | ui | voice | chat | auto
  deriving DecidableEq

structure WorkOrder where
  id : Uuid
  number : Nat
  assetId : Uuid
  componentId : Option Uuid
  type : WorkOrderType
  priority : Nat
  title : String
  description : Option String
  failureModeId : Option Uuid
  predictionId : Option Uuid
  explanationId : Option Uuid
  status : WorkOrderStatus
  plannedStart : Option Instant
  plannedEnd : Option Instant
  actualStart : Option Instant
  actualEnd : Option Instant
  technicianId : Option Uuid
  parts : List Params
  estDurationMin : Option Nat
  estCost : Option Rat
  riskBeforeSlot : Option Rat
  createdBy : Option Uuid
  createdVia : CreatedVia
  outcome : Option String
  predictionWasCorrect : Option Bool
  createdAt : Instant
  updatedAt : Instant
  deletedAt : Option Instant
  deriving DecidableEq

instance : Keyed WorkOrder Uuid := ⟨WorkOrder.id⟩

structure WorkOrderTask where
  workOrderId : Uuid
  sequence : Nat
  description : String
  done : Bool

structure ObjectiveWeights where
  downtimeCost : Rat := 1
  failureRisk : Rat := 1
  energyCost : Rat := 1

structure Schedule where
  id : Uuid
  createdAt : Instant
  horizonStart : Instant
  horizonEnd : Instant
  objective : ObjectiveWeights
  solverStatus : Option String
  solveMs : Option Nat
  objectiveValue : Option Rat
  isActive : Bool

instance : Keyed Schedule Uuid := ⟨Schedule.id⟩

structure ScheduleItem where
  id : Uuid
  scheduleId : Uuid
  workOrderId : Uuid
  technicianId : Option Uuid
  startsAt : Instant
  endsAt : Instant
  riskBefore : Option Rat
  energyCost : Option Rat
  manuallyAdjusted : Bool

instance : Keyed ScheduleItem Uuid := ⟨ScheduleItem.id⟩

structure Store where
  orders : Table WorkOrder
  tasks : List WorkOrderTask
  schedules : Table Schedule
  items : Table ScheduleItem

structure Asset where
  id : Uuid
  code : String

instance : Keyed Asset Uuid := ⟨Asset.id⟩

structure Technician where
  id : Uuid

instance : Keyed Technician Uuid := ⟨Technician.id⟩

/-! ## Payloads -/

/-- If both ends of a slot are given, they are in order. -/
def Ordered (start stop : Option Instant) : Prop :=
  ∀ s ∈ start, ∀ e ∈ stop, s < e

instance (start stop : Option Instant) : Decidable (Ordered start stop) := by
  unfold Ordered
  infer_instance

structure WorkOrderTaskSpec where
  sequence : Nat
  description : String
  positive : 1 ≤ sequence
  length : 1 ≤ description.length ∧ description.length ≤ 500

structure WorkOrderCreate where
  assetId : Uuid
  componentId : Option Uuid := none
  type : WorkOrderType := .corrective
  priority : Nat := 3
  title : String
  description : Option String := none
  failureModeId : Option Uuid := none
  predictionId : Option Uuid := none
  explanationId : Option Uuid := none
  plannedStart : Option Instant := none
  plannedEnd : Option Instant := none
  technicianId : Option Uuid := none
  parts : List Params := []
  estDurationMin : Option Nat := none
  estCost : Option Rat := none
  tasks : List WorkOrderTaskSpec := []
  createdVia : CreatedVia := .ui
  priorityRange : 1 ≤ priority ∧ priority ≤ 5 := by decide
  titleLength : 1 ≤ title.length ∧ title.length ≤ 200 := by decide
  descriptionLength : ∀ d ∈ description, d.length ≤ 4000 := by simp
  durationRange : ∀ n ∈ estDurationMin, 1 ≤ n ∧ n ≤ 10080 := by simp
  costRange : ∀ c ∈ estCost, 0 ≤ c := by simp
  ordered : Ordered plannedStart plannedEnd := by simp [Ordered]

/-- A field of a partial update: not set, set to null, or set to a value. -/
abbrev Sent (α : Type) := Option (Option α)

structure WorkOrderUpdate where
  priority : Sent Nat := none
  title : Sent String := none
  description : Sent String := none
  status : Sent WorkOrderStatus := none
  plannedStart : Sent Instant := none
  plannedEnd : Sent Instant := none
  technicianId : Sent Uuid := none
  parts : Sent (List Params) := none
  estDurationMin : Sent Nat := none
  estCost : Sent Rat := none
  priorityRange : ∀ n ∈ priority.join, 1 ≤ n ∧ n ≤ 5 := by simp
  titleLength : ∀ t ∈ title.join, 1 ≤ t.length ∧ t.length ≤ 200 := by simp
  descriptionLength : ∀ d ∈ description.join, d.length ≤ 4000 := by simp
  durationRange : ∀ n ∈ estDurationMin.join, 1 ≤ n ∧ n ≤ 10080 := by simp
  costRange : ∀ c ∈ estCost.join, 0 ≤ c := by simp

structure WorkOrderClose where
  outcome : String
  actualStart : Option Instant := none
  actualEnd : Option Instant := none
  predictionWasCorrect : Option Bool := none
  resetDamage : Bool := true
  outcomeLength : 1 ≤ outcome.length ∧ outcome.length ≤ 4000 := by decide

structure OptimiseRequest where
  horizonStart : Instant
  horizonEnd : Instant
  weights : ObjectiveWeights := {}
  assetIds : List Uuid := []
  activate : Bool := true
  horizon : horizonStart < horizonEnd := by decide
  month : (horizonEnd - horizonStart) / (24 * 60 * minutes 1) ≤ 31 := by decide

/-- A Gantt drag: a new slot or another technician. -/
structure ScheduleItemPatch where
  startsAt : Option Instant := none
  endsAt : Option Instant := none
  technicianId : Option Uuid := none
  ordered : Ordered startsAt endsAt := by simp [Ordered]

/-! ## The environment of a request -/

structure Assignment where
  orderId : Uuid
  technicianId : Option Uuid
  startSlot : Nat
  endSlot : Nat
  riskBefore : Rat
  energyCost : Rat

structure SolveResult where
  status : String
  assignments : List Assignment
  objectiveValue : Option Rat
  solveMs : Nat
  unscheduled : List Uuid

/-- The acting user; `userId` is what `ensure_user` returns for them. -/
structure CurrentUser where
  sub : String
  userId : Uuid

/-- What a request finds besides the rows it works on: the clock and the
server's `now()`, the registry, the constraints of the schema, the ids that are
generated, the command channel if the service has one, the risk model and the
solver. -/
structure Env where
  now : Instant
  txStart : Instant
  uuidText : Uuid → String
  str : Value → String
  assets : Table Asset
  technicians : Table Technician
  refusal : Store → Option String
  newId : Uuid
  newNumber : Nat
  newItemIds : Nat → Uuid
  newCommand : Uuid
  commands : Option Channel
  riskAt : WorkOrder → Instant → Rat
  solve : List WorkOrder → Nat → ObjectiveWeights → SolveResult

abbrev OrderTx := Tx Store Command Failure

end TwinVoice.Maintenance
