import TwinVoice.Maintenance.Availability
import TwinVoice.Voice.Service

/-! # Two answers about a technician's time

`_validate` asks the same two tables as the optimiser whether a technician is
available at an instant, but it knows nothing of leave, and it takes a roster
for unmaintained if it is empty, not if it says nothing about the horizon. -/

namespace TwinVoice.Voice

open TwinVoice.Lib TwinVoice.Lib.Intervals TwinVoice.Maintenance

/-- The kind as the column has it. -/
def kindText : AvailabilityKind → String
  | .available => "available"
  | .leave => "leave"
  | .training => "training"

theorem kindText_eq_available {kind : AvailabilityKind} : kindText kind = "available" ↔ kind = .available := by
  cases kind <;> decide

variable {W : Type}

/-- The registry with the technicians and the windows that the optimiser is given. -/
def inRegistry (p : Planning) (reg : Registry W) : Registry W :=
  { reg with
    technicians := p.technicians.rows.map fun t => ⟨t.id, t.deletedAt⟩
    availability := p.availability.map fun w => ⟨w.technicianId, kindText w.kind, w.startsAt, w.endsAt⟩ }

/-- What `_validate` takes a technician for who has not been deleted. -/
theorem technicianAvailable_iff (p : Planning) (reg : Registry W) {t : TechnicianRow} (ht : t ∈ allTechnicians p)
    (x : Instant) :
    (inRegistry p reg).technicianAvailable t.id x = true ↔ OnDuty p t.id x ∨ recorded p t.id = [] := by
  obtain ⟨hrow, hlive⟩ := Table.mem_select.mp ((List.mem_insertionSort _).mp ht)
  have hlive : t.deletedAt = none := by simpa using hlive
  have hfind : (inRegistry p reg).technicians.find? (fun x => x.id = t.id) = some ⟨t.id, t.deletedAt⟩ := by
    have hkey : p.technicians.rows.find? (fun r => r.id == t.id) = some t := Table.find_iff.mpr ⟨hrow, rfl⟩
    unfold inRegistry
    rw [List.find?_map]
    simp only [Function.comp_def, ← beq_iff_eq (α := Uuid), Bool.decide_eq_true, hkey, Option.map_some]
  have hrows : (inRegistry p reg).availability.filter (fun a => a.technicianId = t.id) =
      (recorded p t.id).map fun w => ⟨w.technicianId, kindText w.kind, w.startsAt, w.endsAt⟩ := by
    unfold inRegistry recorded
    rw [List.filter_map]
    rfl
  unfold Registry.technicianAvailable
  rw [hfind]
  simp only [hlive, ne_eq, not_true_eq_false, if_false, hrows, Bool.or_eq_true, List.isEmpty_iff, List.map_eq_nil_iff,
    List.any_map, List.any_eq_true, Function.comp_apply, decide_eq_true_iff, kindText_eq_available]
  refine or_congr_left ?_
  unfold OnDuty Covered dutyWindows
  simp only [List.mem_filter, decide_eq_true_iff, and_assoc]

/-- The two answers for an instant at which a slot of the horizon starts agree:
exactly if nothing is recorded of the technician, or something is that overlaps
the horizon, and they are not both on duty and away. -/
theorem availability_agrees_iff (p : Planning) (reg : Registry W) {t : TechnicianRow} (ht : t ∈ allTechnicians p)
    (horizonStart : Instant) {nSlots slot : Nat} (h : slot < nSlots) :
    (inRegistry p reg).technicianAvailable t.id (slotTime horizonStart slot) =
        Optimiser.available (technicianInput p horizonStart nSlots t) slot ↔
      (recorded p t.id ≠ [] → Rostered p t.id horizonStart nSlots ∧
        ¬(OnDuty p t.id (slotTime horizonStart slot) ∧ Away p t.id (slotTime horizonStart slot))) := by
  rw [Bool.eq_iff_iff, technicianAvailable_iff p reg ht, available_iff p t h]
  have hduty : OnDuty p t.id (slotTime horizonStart slot) → Rostered p t.id horizonStart nSlots := rostered_of_onDuty h
  have hrecorded : Rostered p t.id horizonStart nSlots → recorded p t.id ≠ [] := by
    rintro ⟨w, hw, -⟩ hnone
    rw [hnone] at hw
    cases hw
  tauto

/-! The technician who is on leave in the second half of the first hour, asked
for at the full hour and at half past. -/

def noRegistry : Registry Unit := ⟨[], [], [], [], [], ()⟩

def tech2 : TechnicianRow := ⟨2, "T-01", none, none, none⟩

theorem tech2_listed : tech2 ∈ allTechnicians (awayFrom (minutes 30)).planning := List.mem_singleton_self _

theorem availability_agrees_at_hour :
    (inRegistry (awayFrom (minutes 30)).planning noRegistry).technicianAvailable tech2.id (slotTime 0 0) =
      Optimiser.available (technicianInput (awayFrom (minutes 30)).planning 0 16 tech2) 0 :=
  (availability_agrees_iff _ noRegistry tech2_listed 0 (by decide)).mpr (by decide)

theorem availability_differs_on_leave : ¬ ∀ (p : Planning) (reg : Registry Unit), ∀ t ∈ allTechnicians p,
    ∀ horizonStart nSlots slot, slot < nSlots →
      (inRegistry p reg).technicianAvailable t.id (slotTime horizonStart slot) =
        Optimiser.available (technicianInput p horizonStart nSlots t) slot := by
  intro h
  exact absurd (h (awayFrom (minutes 30)).planning noRegistry tech2 tech2_listed 0 16 2 (by decide)) (by decide)

end TwinVoice.Voice
