import TwinVoice.Maintenance.Solve

/-! # What the optimiser is given

`_order_input`, `_technician_input` and `_tariff_per_slot` of the schedule
service: the orders, the technicians with their calendars as slots, and the
rate of every slot. The risk model and the tariffs are given. -/

namespace TwinVoice.Maintenance

open TwinVoice.Lib TwinVoice.Lib.CpModel

def defaultDurationMin : Nat := 120

def defaultDowntimeCostPerHour : Rat := 5000

def defaultFailureCost : Rat := 200000

structure AssetRow where
  lineId : Uuid
  ratedPowerKw : Option Rat

/-- `session.get(Asset, id)`. -/
abbrev Assets := Uuid → Option AssetRow

structure TechnicianRow where
  id : Uuid
  code : String
  skills : Option (List String)
  hourlyCost : Option Rat
  deletedAt : Option Instant

instance : Keyed TechnicianRow Uuid := ⟨TechnicianRow.id⟩

inductive AvailabilityKind
  | available | leave | training
  deriving DecidableEq

structure TechnicianAvailability where
  technicianId : Uuid
  startsAt : Instant
  endsAt : Instant
  kind : AvailabilityKind

/-- What one call of `optimise` finds besides the orders and their assets: the
technicians and their windows, the risk of an order before an instant, the
rates if there are tariffs, and the solver with the time it takes. -/
structure Planning where
  technicians : Table TechnicianRow
  availability : List TechnicianAvailability
  riskBefore : WorkOrder → Instant → Rat
  rateAt : Option (Instant → Rat)
  solver : Solver Uuid Optimiser.Flag
  solveMs : Nat

/-- Orders on one line block each other; without an asset an order blocks its own. -/
def WorkOrder.lineIn (o : WorkOrder) (assets : Assets) : Uuid :=
  ((assets o.assetId).map AssetRow.lineId).getD o.assetId

section
variable (assets : Assets) (p : Planning) (horizonStart : Instant) (nSlots : Nat)

def orderInput (o : WorkOrder) : Optimiser.OrderInput where
  id := o.id
  assetId := o.assetId
  lineId := o.lineIn assets
  durationMin := (o.estDurationMin.filter (· ≠ 0)).getD defaultDurationMin
  priority := o.priority
  requiredSkills := []
  downtimeCostPerHour := defaultDowntimeCostPerHour
  failureCost := (o.estCost.filter (· ≠ 0)).getD defaultFailureCost
  riskBySlot := (List.range nSlots).map fun slot => p.riskBefore o (slotTime horizonStart slot)
  energyKw := ((assets o.assetId).bind AssetRow.ratedPowerKw).getD 0

/-- `TechnicianRepository.availability`. -/
def windowsOf (technician : Uuid) (start stop : Instant) : List TechnicianAvailability :=
  (p.availability.filter fun w => w.technicianId = technician ∧ start < w.endsAt ∧ w.startsAt < stop).insertionSort
    fun w w' => w.startsAt ≤ w'.startsAt

/-- The loop over the slots of one window. -/
def mark (value : Bool) (slots : List Bool) (w : TechnicianAvailability) : List Bool :=
  slots.mapIdx fun slot old =>
    if w.startsAt ≤ slotTime horizonStart slot ∧ slotTime horizonStart slot < w.endsAt then value else old

/-- Leave and training windows are subtracted after availability, so an overlapping leave wins. -/
def slotsOf (windows : List TechnicianAvailability) : List Bool :=
  (windows.filter (·.kind ≠ .available)).foldl (mark horizonStart false)
    ((windows.filter (·.kind = .available)).foldl (mark horizonStart true) (List.replicate nSlots false))

def technicianInput (t : TechnicianRow) : Optimiser.TechnicianInput :=
  let windows := windowsOf p t.id horizonStart (slotTime horizonStart nSlots)
  { id := t.id
    skills := t.skills.getD []
    hourlyCost := t.hourlyCost.getD 0
    availableSlots := if windows.isEmpty then [] else slotsOf horizonStart nSlots windows }

/-- `TechnicianRepository.all`. -/
def allTechnicians : List TechnicianRow :=
  (p.technicians.select fun t => t.deletedAt = none).insertionSort fun t t' => t.code ≤ t'.code

def technicianInputs : List Optimiser.TechnicianInput :=
  (allTechnicians p).map (technicianInput p horizonStart nSlots)

def tariffPerSlot : List Rat :=
  match p.rateAt with
  | none => []
  | some rate => (List.range nSlots).map fun slot => rate (slotTime horizonStart slot)

/-- `optimiser.solve` as the service calls it. -/
def Planning.solve (orders : List WorkOrder) (weights : ObjectiveWeights) : SolveResult :=
  Optimiser.solve (orders.map (orderInput assets p horizonStart nSlots)) (technicianInputs p horizonStart nSlots)
    nSlots (tariffPerSlot p horizonStart nSlots) weights p.solver p.solveMs

end

end TwinVoice.Maintenance
