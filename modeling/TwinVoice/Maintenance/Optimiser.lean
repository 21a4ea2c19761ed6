import TwinVoice.Lib.CpModel
import TwinVoice.Lib.FloatFormat
import TwinVoice.Maintenance.Schedules

/-! # The optimiser

`optimiser.solve`: work orders and technicians become a constraint model over
slots of 15 minutes, and what the solver answers becomes assignments. The
variables bear the ids of orders and technicians, which are distinct in one
call. Costs are exact numbers, and the time that the solver took is given. -/

namespace TwinVoice.Maintenance.Optimiser

open TwinVoice.Lib TwinVoice.Lib.CpModel

structure OrderInput where
  id : Uuid
  assetId : Uuid
  lineId : Uuid
  durationMin : Nat
  priority : Nat
  requiredSkills : List String := []
  downtimeCostPerHour : Rat := 0
  failureCost : Rat := 0
  riskBySlot : List Rat := []
  energyKw : Rat := 0
  deriving DecidableEq

structure TechnicianInput where
  id : Uuid
  skills : List String := []
  hourlyCost : Rat := 0
  availableSlots : List Bool := []

/-- `COST_SCALE`. -/
def costScale : Rat := 100

/-! ## What an order needs -/

/-- `max(1, -(-duration_min // SLOT_MINUTES))`. -/
def OrderInput.duration (o : OrderInput) : Nat :=
  (max 1 (-(-(o.durationMin : Int) / (slotMinutes : Int)))).toNat

/-- `_can_do`. -/
def canDo (t : TechnicianInput) (o : OrderInput) : Bool :=
  o.requiredSkills = [] ∨ ∃ skill ∈ o.requiredSkills, skill ∈ t.skills

/-- `_available`; without a calendar a technician always is. -/
def available (t : TechnicianInput) (slot : Nat) : Bool :=
  t.availableSlots = [] ∨ t.availableSlots.getD slot false

/-- The technician is free for the whole duration. -/
def freeAt (t : TechnicianInput) (o : OrderInput) (slot : Nat) : Bool :=
  (List.range o.duration).all fun k => available t (slot + k)

/-- `_tariff`. -/
def tariff (tariffPerSlot : List Rat) (slot : Nat) : Rat :=
  tariffPerSlot.getD (min slot (tariffPerSlot.length - 1)) 0

/-! ## The model -/

/-- The boolean variables: who does an order, and whether it starts at a slot. -/
inductive Flag
  | assign (order technician : Uuid)
  | startsAt (order : Uuid) (slot : Nat)
  deriving DecidableEq

section
variable (orders : List OrderInput) (technicians : List TechnicianInput) (nSlots : Nat)

def fitting : List OrderInput := orders.filter fun o => o.duration ≤ nSlots

def eligible (o : OrderInput) : List TechnicianInput := technicians.filter fun t => canDo t o

/-- The keys of `starts`. -/
def starts : List Uuid := (fitting orders nSlots).map OrderInput.id

/-- The keys of `assigned`. -/
def assigned : List (Uuid × Uuid) :=
  (fitting orders nSlots).flatMap fun o => (eligible technicians o).map fun t => (o.id, t.id)

/-- An order may only start where its technician is free for its whole duration. -/
def startsWhereFree (o : OrderInput) (t : TechnicianInput) : List (Constraint Uuid Flag) :=
  ((List.range (nSlots - o.duration + 1)).filter fun slot => !freeAt t o slot).map fun (slot : Nat) =>
    .neIf (.pos (.assign o.id t.id)) o.id slot

/-- The first loop over the orders. -/
def placement (o : OrderInput) : List (Constraint Uuid Flag) :=
  if o.duration ≤ nSlots then
    .bounds o.id 0 (nSlots - o.duration) ::
      match eligible technicians o with
      | [] => []
      | ts => ts.flatMap (startsWhereFree nSlots o) ++ [.exactlyOne (ts.map fun t => .assign o.id t.id)]
  else []

def schedulable : List OrderInput :=
  orders.filter fun o => o.id ∈ starts orders nSlots ∧
    ∃ t ∈ technicians, (o.id, t.id) ∈ assigned orders technicians nSlots

def unscheduled : List Uuid :=
  (orders.filter fun o => o ∉ schedulable orders technicians nSlots).map OrderInput.id

/-- One order at a time per technician. -/
def technicianOverlap (t : TechnicianInput) : List (Constraint Uuid Flag) :=
  match (schedulable orders technicians nSlots).filter fun o =>
      (o.id, t.id) ∈ assigned orders technicians nSlots with
  | [] => []
  | os => [.noOverlap (os.map fun o => ⟨o.id, o.duration, some (.assign o.id t.id)⟩)]

/-- And per production line. -/
def lineOverlap (lineId : Uuid) : List (Constraint Uuid Flag) :=
  let os := (schedulable orders technicians nSlots).filter fun o => o.lineId = lineId
  if 1 < os.length then [.noOverlap (os.map fun o => ⟨o.id, o.duration, none⟩)] else []

/-- One indicator per start slot. -/
def indicators (o : OrderInput) : List (Constraint Uuid Flag) :=
  (List.range (nSlots - o.duration + 1)).flatMap fun (slot : Nat) =>
    [.eqIf (.pos (.startsAt o.id slot)) o.id slot, .neIf (.neg (.startsAt o.id slot)) o.id slot]

/-- Everything that is posted. -/
def posted : List (Constraint Uuid Flag) :=
  orders.flatMap (placement technicians nSlots) ++
    technicians.flatMap (technicianOverlap orders technicians nSlots) ++
    ((schedulable orders technicians nSlots).map OrderInput.lineId).dedup.flatMap
      (lineOverlap orders technicians nSlots) ++
    (schedulable orders technicians nSlots).flatMap (indicators nSlots)

/-! ## The objective -/

variable (tariffPerSlot : List Rat) (weights : ObjectiveWeights)

/-- Python's `int` of a number. -/
def truncate (q : Rat) : Int := if q < 0 then -⌊-q⌋ else ⌊q⌋

/-- A term with a coefficient that is not zero. -/
def term (cost : Int) (x : Uuid ⊕ Flag) : Objective Uuid Flag := if cost = 0 then [] else [(cost, x)]

/-- The energy that an order takes from a slot on. -/
def energy (o : OrderInput) (slot : Nat) : Rat :=
  ((List.range o.duration).map fun k =>
    o.energyKw * (slotMinutes / 60) * tariff tariffPerSlot (slot + k)).sum

def waitPenalty (o : OrderInput) : Int :=
  truncate (weights.downtimeCost * o.downtimeCostPerHour * (6 - o.priority) * costScale)

def slotCost (o : OrderInput) (slot : Nat) : Int :=
  truncate ((weights.failureRisk * o.riskBySlot.getD slot 0 * o.failureCost +
    weights.energyCost * energy tariffPerSlot o slot) * costScale)

def labourCost (o : OrderInput) (t : TechnicianInput) : Int :=
  truncate (t.hourlyCost * (o.duration * slotMinutes / 60) * costScale)

/-- What one order adds; labour counts wherever it is paid. -/
def objectiveOf (o : OrderInput) : Objective Uuid Flag :=
  term (waitPenalty weights o) (.inl o.id) ++
    (List.range (nSlots - o.duration + 1)).flatMap (fun slot =>
      term (slotCost tariffPerSlot weights o slot) (.inr (.startsAt o.id slot))) ++
    (technicians.filter fun t => (o.id, t.id) ∈ assigned orders technicians nSlots ∧ t.hourlyCost ≠ 0).map
      fun t => (labourCost o t, .inr (.assign o.id t.id))

def model : CpModel.Model Uuid Flag where
  constraints := posted orders technicians nSlots
  objective := (schedulable orders technicians nSlots).flatMap
    (objectiveOf orders technicians nSlots tariffPerSlot weights)

/-! ## The result -/

/-- `round(q, 2)`. -/
def roundCents (q : Rat) : Rat :=
  if q < 0 then -(roundToEven (-q * 100).toNNRat / 100) else roundToEven (q * 100).toNNRat / 100

/-- The first technician whose literal is true. -/
def technicianOf (values : Valuation Uuid Flag) (order : Uuid) : Option TechnicianInput :=
  technicians.find? fun t =>
    (order, t.id) ∈ assigned orders technicians nSlots ∧ values.bool (.assign order t.id) = true

def startOf (values : Valuation Uuid Flag) (order : Uuid) : Nat := (values.int order).toNat

def assignmentOf (values : Valuation Uuid Flag) (o : OrderInput) : Assignment where
  orderId := o.id
  technicianId := (technicianOf orders technicians nSlots values o.id).map TechnicianInput.id
  startSlot := startOf values o.id
  endSlot := startOf values o.id + o.duration
  riskBefore := o.riskBySlot.getD (startOf values o.id) 0
  energyCost := roundCents (energy tariffPerSlot o (startOf values o.id))

/-- A result without assignments. -/
def noneScheduled (status : String) (solveMs : Nat) : SolveResult where
  status := status
  assignments := []
  objectiveValue := none
  solveMs := solveMs
  unscheduled := orders.map OrderInput.id

/-- `solve`. -/
def solve (solver : Solver Uuid Flag) (solveMs : Nat) : SolveResult :=
  if orders = [] then ⟨"OPTIMAL", [], some 0, 0, []⟩
  else if technicians.isEmpty then noneScheduled orders "INFEASIBLE" solveMs
  else
    let m := model orders technicians nSlots tariffPerSlot weights
    let answer := solver m
    if answer.status.solved then
      { status := answer.status.name
        assignments := (schedulable orders technicians nSlots).map
          (assignmentOf orders technicians nSlots tariffPerSlot answer.values)
        objectiveValue := some (if m.objective.isEmpty then 0 else answer.objectiveValue / costScale)
        solveMs := solveMs
        unscheduled := unscheduled orders technicians nSlots }
    else noneScheduled orders answer.status.name solveMs

end

end TwinVoice.Maintenance.Optimiser
