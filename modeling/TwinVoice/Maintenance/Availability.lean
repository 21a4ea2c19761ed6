import TwinVoice.Lib.Timeline
import TwinVoice.Maintenance.Horizon

/-! # What a technician's slots say about the calendar

`_technician_input` looks at the windows at the start of every slot, so a slot
tells the truth about all of its instants exactly if no window comes or goes
inside it in the wrong way. And it looks only at windows that overlap the
horizon: without one the technician counts as always available. -/

namespace TwinVoice.Maintenance

open TwinVoice.Lib TwinVoice.Lib.Intervals

/-- The `range` constraint of the table. -/
def Planning.Ranged (p : Planning) : Prop := ∀ w ∈ p.availability, w.startsAt < w.endsAt

section
variable (p : Planning) (technician : Uuid)

/-- All rows of a technician. -/
def recorded : List TechnicianAvailability := p.availability.filter fun w => w.technicianId = technician

def dutyWindows : List TechnicianAvailability := (recorded p technician).filter (·.kind = .available)

/-- Leave and training. -/
def awayWindows : List TechnicianAvailability := (recorded p technician).filter (·.kind ≠ .available)

def OnDuty (x : Instant) : Prop :=
  Covered TechnicianAvailability.startsAt TechnicianAvailability.endsAt (dutyWindows p technician) x

def Away (x : Instant) : Prop :=
  Covered TechnicianAvailability.startsAt TechnicianAvailability.endsAt (awayWindows p technician) x

/-- Some window of the technician overlaps the horizon. -/
def Rostered (horizonStart : Instant) (nSlots : Nat) : Prop :=
  ∃ w ∈ recorded p technician, horizonStart < w.endsAt ∧ w.startsAt < slotTime horizonStart nSlots

instance decidableOnDuty (x : Instant) : Decidable (OnDuty p technician x) := inferInstanceAs (Decidable (Covered ..))

instance decidableAway (x : Instant) : Decidable (Away p technician x) := inferInstanceAs (Decidable (Covered ..))

instance decidableRostered (horizonStart : Instant) (nSlots : Nat) :
    Decidable (Rostered p technician horizonStart nSlots) := inferInstanceAs (Decidable (∃ w ∈ _, _))

end

/-! ## The slots -/

theorem mem_recorded {p : Planning} {technician : Uuid} {w : TechnicianAvailability} :
    w ∈ recorded p technician ↔ w ∈ p.availability ∧ w.technicianId = technician := by
  simp [recorded]

theorem mem_windowsOf {p : Planning} {technician : Uuid} {start stop : Instant} {w : TechnicianAvailability} :
    w ∈ windowsOf p technician start stop ↔
      w ∈ recorded p technician ∧ start < w.endsAt ∧ w.startsAt < stop := by
  unfold windowsOf
  rw [List.mem_insertionSort, List.mem_filter, mem_recorded]
  simp [and_assoc]

/-- The windows of one kind are gone through one by one. -/
theorem getElem?_foldl_mark (horizonStart : Instant) (value : Bool) (ws : List TechnicianAvailability)
    (slots : List Bool) (slot : Nat) :
    (ws.foldl (mark horizonStart value) slots)[slot]? = slots[slot]?.map fun old =>
      if ∃ w ∈ ws, w.startsAt ≤ slotTime horizonStart slot ∧ slotTime horizonStart slot < w.endsAt then value
      else old := by
  induction ws generalizing slots with
  | nil => simp
  | cons w ws ih =>
    rw [List.foldl_cons, ih, mark, List.getElem?_mapIdx, Option.map_map]
    congr 1
    funext old
    by_cases hw : w.startsAt ≤ slotTime horizonStart slot ∧ slotTime horizonStart slot < w.endsAt
    · simp [hw]
    · simp [hw]

theorem getElem?_slotsOf {horizonStart : Instant} {nSlots slot : Nat} (h : slot < nSlots)
    (ws : List TechnicianAvailability) :
    (slotsOf horizonStart nSlots ws)[slot]? = some (decide
      (Covered TechnicianAvailability.startsAt TechnicianAvailability.endsAt (ws.filter (·.kind = .available))
          (slotTime horizonStart slot) ∧
        ¬Covered TechnicianAvailability.startsAt TechnicianAvailability.endsAt (ws.filter (·.kind ≠ .available))
          (slotTime horizonStart slot))) := by
  unfold slotsOf Covered
  rw [getElem?_foldl_mark, getElem?_foldl_mark, List.getElem?_replicate, if_pos h, Option.map_some, Option.map_some,
    Option.some.injEq]
  split
  · rename_i haway
    exact (decide_eq_false fun hfree => hfree.2 haway).symm
  · rename_i haway
    split
    · rename_i hduty
      exact (decide_eq_true ⟨hduty, haway⟩).symm
    · rename_i hduty
      exact (decide_eq_false fun hfree => hduty hfree.1).symm

/-- A window that covers a slot of the horizon overlaps the horizon. -/
theorem covered_windowsOf (p : Planning) (technician : Uuid) (q : TechnicianAvailability → Bool)
    {horizonStart : Instant} {nSlots slot : Nat} (h : slot < nSlots) :
    Covered TechnicianAvailability.startsAt TechnicianAvailability.endsAt
        ((windowsOf p technician horizonStart (slotTime horizonStart nSlots)).filter q) (slotTime horizonStart slot) ↔
      Covered TechnicianAvailability.startsAt TechnicianAvailability.endsAt ((recorded p technician).filter q)
        (slotTime horizonStart slot) := by
  have hfirst : horizonStart ≤ slotTime horizonStart slot :=
    (slotTime_zero _).symm.trans_le (slotTime_le_iff.mpr (Nat.zero_le slot))
  have hlast : slotTime horizonStart slot < slotTime horizonStart nSlots := slotTime_lt_iff.mpr h
  unfold Covered
  simp only [List.mem_filter, mem_windowsOf]
  constructor
  · rintro ⟨w, ⟨⟨hw, -, -⟩, hq⟩, hcovers⟩
    exact ⟨w, ⟨hw, hq⟩, hcovers⟩
  · rintro ⟨w, ⟨hw, hq⟩, hlo, hhi⟩
    exact ⟨w, ⟨⟨hw, hfirst.trans_lt hhi, hlo.trans_lt hlast⟩, hq⟩, hlo, hhi⟩

/-- What the optimiser takes a technician for in a slot. -/
theorem available_iff (p : Planning) (t : TechnicianRow) {horizonStart : Instant} {nSlots slot : Nat}
    (h : slot < nSlots) :
    Optimiser.available (technicianInput p horizonStart nSlots t) slot = true ↔
      (Rostered p t.id horizonStart nSlots →
        OnDuty p t.id (slotTime horizonStart slot) ∧ ¬Away p t.id (slotTime horizonStart slot)) := by
  have hrostered : Rostered p t.id horizonStart nSlots ↔
      windowsOf p t.id horizonStart (slotTime horizonStart nSlots) ≠ [] := by
    rw [ne_eq, List.eq_nil_iff_forall_not_mem, not_forall_not]
    exact exists_congr fun w => mem_windowsOf.symm
  have hslot : (slotsOf horizonStart nSlots _)[slot]? = _ :=
    getElem?_slotsOf h (windowsOf p t.id horizonStart (slotTime horizonStart nSlots))
  simp only [covered_windowsOf p t.id _ h] at hslot
  rw [hrostered]
  unfold Optimiser.available technicianInput
  by_cases hnone : windowsOf p t.id horizonStart (slotTime horizonStart nSlots) = []
  · simp [hnone]
  · have hsome : slotsOf horizonStart nSlots (windowsOf p t.id horizonStart (slotTime horizonStart nSlots)) ≠ [] := by
      intro hempty
      rw [hempty] at hslot
      cases hslot
    simp only [List.isEmpty_iff, hnone, if_false, hsome, List.getD_eq_getElem?_getD, hslot, Option.getD_some,
      false_or, decide_eq_true_iff, ne_eq, not_false_eq_true, true_imp_iff]
    rfl

/-! ## Whole slots -/

/-- A slot in which the technician is taken for available is one in which they
are on duty, and not away, all the time. -/
def SlotsHold (p : Planning) (t : TechnicianRow) (horizonStart : Instant) (nSlots : Nat) : Prop :=
  ∀ slot < nSlots, Optimiser.available (technicianInput p horizonStart nSlots t) slot = true →
    ∀ x, slotTime horizonStart slot ≤ x → x < slotTime horizonStart (slot + 1) →
      OnDuty p t.id x ∧ ¬Away p t.id x

/-- Duty does not end before the slot without another duty window going on
there, and no leave or training begins after the slot has. -/
def SteadyIn (p : Planning) (technician : Uuid) (horizonStart : Instant) (slot : Nat) : Prop :=
  (∀ w ∈ dutyWindows p technician, slotTime horizonStart slot < w.endsAt →
    w.endsAt < slotTime horizonStart (slot + 1) → OnDuty p technician w.endsAt) ∧
  (∀ w ∈ awayWindows p technician, slotTime horizonStart slot < w.startsAt →
    slotTime horizonStart (slot + 1) ≤ w.startsAt)

instance decidableSteadyIn (p : Planning) (technician : Uuid) (horizonStart : Instant) (slot : Nat) :
    Decidable (SteadyIn p technician horizonStart slot) := inferInstanceAs (Decidable (_ ∧ _))

/-- Some window overlaps the horizon, and every slot at whose start the
technician is on duty and not away is steady. -/
def KeepsToSlots (p : Planning) (technician : Uuid) (horizonStart : Instant) (nSlots : Nat) : Prop :=
  Rostered p technician horizonStart nSlots ∧ ∀ slot < nSlots,
    OnDuty p technician (slotTime horizonStart slot) → ¬Away p technician (slotTime horizonStart slot) →
      SteadyIn p technician horizonStart slot

instance decidableKeepsToSlots (p : Planning) (technician : Uuid) (horizonStart : Instant) (nSlots : Nat) :
    Decidable (KeepsToSlots p technician horizonStart nSlots) := inferInstanceAs (Decidable (_ ∧ _))

theorem slot_holds_iff {p : Planning} (hrange : p.Ranged) (technician : Uuid) (horizonStart : Instant) (slot : Nat) :
    (∀ x, slotTime horizonStart slot ≤ x → x < slotTime horizonStart (slot + 1) →
      OnDuty p technician x ∧ ¬Away p technician x) ↔
    (OnDuty p technician (slotTime horizonStart slot) ∧ ¬Away p technician (slotTime horizonStart slot)) ∧
      SteadyIn p technician horizonStart slot := by
  have hlt : slotTime horizonStart slot < slotTime horizonStart (slot + 1) := slotTime_lt_iff.mpr slot.lt_succ_self
  have hduty : (∀ x, slotTime horizonStart slot ≤ x → x < slotTime horizonStart (slot + 1) → OnDuty p technician x) ↔ _ :=
    covered_throughout_iff hlt
  have haway : (∀ x, slotTime horizonStart slot ≤ x → x < slotTime horizonStart (slot + 1) → ¬Away p technician x) ↔ _ :=
    free_throughout_iff hlt fun w hw => hrange w (mem_recorded.mp (List.mem_filter.mp hw).1).1
  constructor
  · intro h
    obtain ⟨hon, hends⟩ := hduty.mp fun x hlo hhi => (h x hlo hhi).1
    obtain ⟨hoff, hstarts⟩ := haway.mp fun x hlo hhi => (h x hlo hhi).2
    exact ⟨⟨hon, hoff⟩, hends, hstarts⟩
  · rintro ⟨⟨hon, hoff⟩, hends, hstarts⟩ x hlo hhi
    exact ⟨hduty.mpr ⟨hon, hends⟩ x hlo hhi, haway.mpr ⟨hoff, hstarts⟩ x hlo hhi⟩

/-- In a horizon without windows of the technician they are not on duty. -/
theorem rostered_of_onDuty {p : Planning} {technician : Uuid} {horizonStart : Instant} {nSlots slot : Nat}
    (h : slot < nSlots) (hduty : OnDuty p technician (slotTime horizonStart slot)) :
    Rostered p technician horizonStart nSlots := by
  obtain ⟨w, hw, hlo, hhi⟩ := hduty
  have hfirst : horizonStart ≤ slotTime horizonStart slot :=
    (slotTime_zero _).symm.trans_le (slotTime_le_iff.mpr (Nat.zero_le slot))
  exact ⟨w, (List.mem_filter.mp hw).1, hfirst.trans_lt hhi, hlo.trans_lt (slotTime_lt_iff.mpr h)⟩

theorem slotsHold_iff {p : Planning} (hrange : p.Ranged) (t : TechnicianRow) (horizonStart : Instant) {nSlots : Nat}
    (hsome : 0 < nSlots) : SlotsHold p t horizonStart nSlots ↔ KeepsToSlots p t.id horizonStart nSlots := by
  unfold SlotsHold KeepsToSlots
  constructor
  · intro h
    have hrostered : Rostered p t.id horizonStart nSlots := by
      by_contra hnone
      have hfirst := h 0 hsome ((available_iff p t hsome).mpr fun hrostered => absurd hrostered hnone)
      exact hnone (rostered_of_onDuty hsome (hfirst _ le_rfl (slotTime_lt_iff.mpr Nat.zero_lt_one)).1)
    refine ⟨hrostered, fun slot hslot hon hoff => ?_⟩
    exact ((slot_holds_iff hrange t.id horizonStart slot).mp
      (h slot hslot ((available_iff p t hslot).mpr fun _ => ⟨hon, hoff⟩))).2
  · rintro ⟨hrostered, h⟩ slot hslot havailable
    obtain ⟨hon, hoff⟩ := (available_iff p t hslot).mp havailable hrostered
    exact (slot_holds_iff hrange t.id horizonStart slot).mpr ⟨⟨hon, hoff⟩, h slot hslot hon hoff⟩

/-! ## What is scheduled -/

/-- The slot that an instant of a run of slots lies in. -/
theorem exists_slot {horizonStart x : Instant} {first n : Nat} (hlo : slotTime horizonStart first ≤ x)
    (hhi : x < slotTime horizonStart (first + n)) : ∃ slot, first ≤ slot ∧ slot < first + n ∧
      slotTime horizonStart slot ≤ x ∧ x < slotTime horizonStart (slot + 1) := by
  have hscaled (s y : Int) (lo : s + ((15 * first : Nat) : Int) * 60 * 1000000 ≤ y)
      (hi : y < s + ((15 * (first + n) : Nat) : Int) * 60 * 1000000) :
      first ≤ ((y - s) / 900000000).toNat ∧ ((y - s) / 900000000).toNat < first + n ∧
        s + ((15 * ((y - s) / 900000000).toNat : Nat) : Int) * 60 * 1000000 ≤ y ∧
        y < s + ((15 * (((y - s) / 900000000).toNat + 1) : Nat) : Int) * 60 * 1000000 := by omega
  exact ⟨_, hscaled horizonStart x hlo hhi⟩

namespace OptimiseCall

variable {assets : Assets} {c : OptimiseCall} {db : Store}

theorem nSlots_pos : 0 < c.nSlots := by
  unfold nSlots slotCount
  omega

/-- No item is planned for a technician who is away. -/
theorem persisted_not_away (hrange : c.planning.Ranged) (hsound : c.planning.solver.Sound)
    (hkeeps : ∀ t ∈ allTechnicians c.planning, recorded c.planning t.id ≠ [] →
      KeepsToSlots c.planning t.id c.request.horizonStart c.nSlots)
    {i : ScheduleItem} (hi : i ∈ (c.after assets db).items.rows) (hnew : i ∉ db.items.rows) {technician : Uuid}
    (htechnician : i.technicianId = some technician) {x : Instant} (hlo : i.startsAt ≤ x) (hhi : x < i.endsAt) :
    ¬Away c.planning technician x := by
  obtain ⟨o, t, start, ht, hid, htakes, hstart, hstop⟩ := persisted_slots hsound hi hnew
  obtain ⟨row, hrow, rfl⟩ := List.mem_map.mp ht
  obtain rfl : technician = row.id := Option.some.inj (htechnician.symm.trans hid)
  by_cases hrecorded : recorded c.planning row.id = []
  · rintro ⟨w, hw, -⟩
    rw [awayWindows, hrecorded] at hw
    cases hw
  · obtain ⟨slot, hfirst, hlast, hslo, hshi⟩ := exists_slot (hstart ▸ hlo) (hstop ▸ hhi)
    have hinside : slot < c.nSlots := hlast.trans_le htakes.inside
    have hslots := (slotsHold_iff hrange row c.request.horizonStart nSlots_pos).mpr (hkeeps row hrow hrecorded)
    exact (hslots slot hinside (htakes.available hfirst hlast) x hslo hshi).2

end OptimiseCall

/-- Of a technician with recorded windows the slots hold what they say exactly
if the windows keep to slots; and as long as all do, no order is ever planned
for a technician who is on leave or in training. -/
theorem slots_hold_iff (c : OptimiseCall) (hrange : c.planning.Ranged) :
    (∀ t, recorded c.planning t.id ≠ [] → (SlotsHold c.planning t c.request.horizonStart c.nSlots ↔
      KeepsToSlots c.planning t.id c.request.horizonStart c.nSlots)) ∧
    (∀ assets db, c.planning.solver.Sound →
      (∀ t ∈ allTechnicians c.planning, recorded c.planning t.id ≠ [] →
        KeepsToSlots c.planning t.id c.request.horizonStart c.nSlots) →
      ∀ i ∈ (c.after assets db).items.rows, i ∉ db.items.rows → ∀ technician, i.technicianId = some technician →
        ∀ x, i.startsAt ≤ x → x < i.endsAt → ¬Away c.planning technician x) :=
  ⟨fun t _ => slotsHold_iff hrange t _ OptimiseCall.nSlots_pos,
    fun _ _ hsound hkeeps _ hi hnew _ htechnician _ hlo hhi =>
      OptimiseCall.persisted_not_away hrange hsound hkeeps hi hnew htechnician hlo hhi⟩

/-! One technician on duty for four hours, and on leave from some time in the
first hour to the end of it. -/

def awayFrom (start : Instant) : OptimiseCall where
  env := office 20 1
  planning :=
    { onePlanner 0 with
      availability := [⟨2, 0, minutes 240, .available⟩, ⟨2, start, minutes 60, .leave⟩] }
  request := (optimiseFor [] 0 0).request

theorem awayFrom_ranged {start : Instant} (h : start < minutes 60) : (awayFrom start).planning.Ranged := by
  unfold Planning.Ranged awayFrom
  simp only [List.forall_mem_cons]
  exact ⟨by decide, h, fun w hw => by cases hw⟩

theorem slots_hold_halfPast :
    SlotsHold (awayFrom (minutes 30)).planning ⟨2, "T-01", none, none, none⟩ 0 (awayFrom (minutes 30)).nSlots ∧
    ((awayFrom (minutes 30)).after lineOfTwo quarterStore).items.rows.all fun i =>
      ¬(i.technicianId = some 2 ∧ i.startsAt ≤ minutes 40 ∧ minutes 40 < i.endsAt) := by
  have hranged : (awayFrom (minutes 30)).planning.Ranged := awayFrom_ranged (by decide)
  constructor
  · exact ((slots_hold_iff (awayFrom (minutes 30)) hranged).1 ⟨2, "T-01", none, none, none⟩ (by decide)).mpr (by decide)
  · rw [List.all_eq_true]
    intro i hi
    rw [decide_eq_true_iff]
    rintro ⟨htechnician, hlo, hhi⟩
    exact (slots_hold_iff (awayFrom (minutes 30)) hranged).2 lineOfTwo quarterStore (CpModel.guess_sound _) (by decide)
      i hi List.not_mem_nil 2 htechnician (minutes 40) hlo hhi (by decide)

/-- Leave from five past on: the first slot counts as free, and the order gets it. -/
theorem leave_inside_slot :
    (¬ ∀ c : OptimiseCall, c.planning.Ranged → ∀ t, recorded c.planning t.id ≠ [] →
      SlotsHold c.planning t c.request.horizonStart c.nSlots) ∧
    ((awayFrom (minutes 5)).after lineOfTwo quarterStore).items.rows.any fun i =>
      i.technicianId = some 2 ∧ i.startsAt ≤ minutes 10 ∧ minutes 10 < i.endsAt ∧
        Away (awayFrom (minutes 5)).planning 2 (minutes 10) := by
  constructor
  · intro h
    have hholds := h (awayFrom (minutes 5)) (awayFrom_ranged (by decide)) ⟨2, "T-01", none, none, none⟩ (by decide)
      0 (by decide) (by decide) (minutes 10) (by decide) (by decide)
    exact absurd (show Away (awayFrom (minutes 5)).planning 2 (minutes 10) by decide) hholds.2
  · rfl

end TwinVoice.Maintenance
