import Mathlib.Algebra.Order.Floor.Semiring
import Mathlib.Data.List.Dedup
import TwinVoice.Maintenance.Optimiser

/-! # Placements

What the constraints of the optimiser come to: a start and a technician for
every order that passes the filter, in a run of slots where the technician is
free, and no two orders at a time on one line or with one technician. The
posted model has a solution exactly if there is such a placement. -/

namespace TwinVoice.Maintenance.Optimiser

open TwinVoice.Lib TwinVoice.Lib.CpModel

/-! ## Placements -/

/-- The ids of one call are keys. -/
structure Distinct (orders : List OrderInput) (technicians : List TechnicianInput) : Prop where
  orders : (orders.map OrderInput.id).Nodup
  technicians : (technicians.map TechnicianInput.id).Nodup

/-- The technician can do the order from the slot on. -/
structure Takes (nSlots : Nat) (o : OrderInput) (t : TechnicianInput) (start : Nat) : Prop where
  skilled : canDo t o = true
  inside : start + o.duration ≤ nSlots
  free : freeAt t o start = true

theorem Takes.available {nSlots : Nat} {o : OrderInput} {t : TechnicianInput} {start slot : Nat}
    (h : Takes nSlots o t start) (hlo : start ≤ slot) (hhi : slot < start + o.duration) :
    available t slot = true := by
  have hfree := List.all_eq_true.mp h.free (slot - start) (List.mem_range.mpr (by omega))
  rwa [Nat.add_sub_cancel' hlo] at hfree

/-- A start and a technician for every order. -/
structure Plan where
  start : Uuid → Nat
  technician : Uuid → Uuid

/-- The one is over when the other starts. -/
def Plan.Apart (p : Plan) (o o' : OrderInput) : Prop :=
  p.start o.id + o.duration ≤ p.start o'.id ∨ p.start o'.id + o'.duration ≤ p.start o.id

structure Plan.Places (p : Plan) (technicians : List TechnicianInput) (nSlots : Nat) (orders : List OrderInput) :
    Prop where
  takes : ∀ o ∈ orders, ∃ t ∈ technicians, t.id = p.technician o.id ∧ Takes nSlots o t (p.start o.id)
  technicians : orders.Pairwise fun o o' => p.technician o.id = p.technician o'.id → p.Apart o o'
  lines : orders.Pairwise fun o o' => o.lineId = o'.lineId → p.Apart o o'

/-- The orders can all be placed at once. -/
def Placeable (technicians : List TechnicianInput) (nSlots : Nat) (orders : List OrderInput) : Prop :=
  ∃ p : Plan, p.Places technicians nSlots orders

/-- The order is no longer than the horizon and somebody can do it. -/
def candidate (technicians : List TechnicianInput) (nSlots : Nat) (o : OrderInput) : Bool :=
  o.duration ≤ nSlots ∧ ∃ t ∈ technicians, canDo t o = true

theorem OrderInput.duration_pos (o : OrderInput) : 0 < o.duration := by
  unfold duration
  omega

/-- The duration in slots, rounded up. -/
theorem OrderInput.duration_eq {o : OrderInput} (h : 0 < o.durationMin) :
    o.duration = ⌈(o.durationMin : ℚ) / slotMinutes⌉₊ := by
  have hlo : slotMinutes * (o.duration - 1) < o.durationMin := by
    unfold duration slotMinutes
    omega
  have hhi : o.durationMin ≤ slotMinutes * o.duration := by
    unfold duration slotMinutes
    omega
  have hslot : (0 : ℚ) < slotMinutes := by norm_num [slotMinutes]
  refine ((Nat.ceil_eq_iff o.duration_pos.ne').mpr ⟨?_, ?_⟩).symm
  · rw [lt_div_iff₀ hslot, mul_comm]
    exact_mod_cast hlo
  · rw [div_le_iff₀ hslot, mul_comm]
    exact_mod_cast hhi

section
variable {orders : List OrderInput} {technicians : List TechnicianInput} {nSlots : Nat}

/-! ## The dictionaries -/

theorem Distinct.order_eq {o o' : OrderInput} (hids : Distinct orders technicians) (ho : o ∈ orders)
    (ho' : o' ∈ orders) (h : o.id = o'.id) : o = o' :=
  List.inj_on_of_nodup_map hids.orders ho ho' h

theorem Distinct.technician_eq {t t' : TechnicianInput} (hids : Distinct orders technicians)
    (ht : t ∈ technicians) (ht' : t' ∈ technicians) (h : t.id = t'.id) : t = t' :=
  List.inj_on_of_nodup_map hids.technicians ht ht' h

theorem mem_eligible {o : OrderInput} {t : TechnicianInput} :
    t ∈ eligible technicians o ↔ t ∈ technicians ∧ canDo t o = true := by
  simp [eligible]

theorem mem_starts (hids : Distinct orders technicians) {o : OrderInput} (ho : o ∈ orders) :
    o.id ∈ starts orders nSlots ↔ o.duration ≤ nSlots := by
  simp only [starts, fitting, List.mem_map, List.mem_filter, decide_eq_true_eq]
  constructor
  · rintro ⟨o', ⟨ho', hfits⟩, hid⟩
    rwa [hids.order_eq ho ho' hid.symm]
  · exact fun hfits => ⟨o, ⟨ho, hfits⟩, rfl⟩

theorem mem_assigned (hids : Distinct orders technicians) {o : OrderInput} (ho : o ∈ orders)
    {t : TechnicianInput} (ht : t ∈ technicians) :
    (o.id, t.id) ∈ assigned orders technicians nSlots ↔ o.duration ≤ nSlots ∧ canDo t o = true := by
  simp only [assigned, fitting, List.mem_flatMap, List.mem_filter, List.mem_map, decide_eq_true_eq,
    Prod.mk.injEq, mem_eligible]
  constructor
  · rintro ⟨o', ⟨ho', hfits⟩, t', ⟨ht', hcan⟩, hid, htid⟩
    obtain rfl := hids.order_eq ho ho' hid.symm
    obtain rfl := hids.technician_eq ht ht' htid.symm
    exact ⟨hfits, hcan⟩
  · rintro ⟨hfits, hcan⟩
    exact ⟨o, ⟨ho, hfits⟩, t, ⟨ht, hcan⟩, rfl, rfl⟩

/-- The filter that `schedulable` is. -/
theorem schedulable_eq (hids : Distinct orders technicians) :
    schedulable orders technicians nSlots = orders.filter (candidate technicians nSlots) := by
  refine List.filter_congr fun o ho => ?_
  rw [candidate, decide_eq_decide, mem_starts hids ho]
  refine and_congr_right fun hfits => ?_
  constructor
  · rintro ⟨t, ht, hmem⟩
    exact ⟨t, ht, ((mem_assigned hids ho ht).mp hmem).2⟩
  · rintro ⟨t, ht, hcan⟩
    exact ⟨t, ht, (mem_assigned hids ho ht).mpr ⟨hfits, hcan⟩⟩

theorem mem_schedulable (hids : Distinct orders technicians) {o : OrderInput} :
    o ∈ schedulable orders technicians nSlots ↔
      o ∈ orders ∧ o.duration ≤ nSlots ∧ ∃ t ∈ technicians, canDo t o = true := by
  rw [schedulable_eq hids, List.mem_filter, candidate, decide_eq_true_eq]

/-! ## What the constraints say -/

variable {v : Valuation Uuid Flag}

theorem startsWhereFree_iff {o : OrderInput} {t : TechnicianInput} (hlo : 0 ≤ v.int o.id)
    (hhi : v.int o.id ≤ nSlots - o.duration) :
    Satisfies v (startsWhereFree nSlots o t) ↔
      (v.bool (.assign o.id t.id) = true → freeAt t o (startOf v o.id) = true) := by
  have hstart : ((startOf v o.id : Nat) : Int) = v.int o.id := Int.toNat_of_nonneg hlo
  constructor
  · intro h hassigned
    by_contra hbusy
    have hmem : .neIf (.pos (.assign o.id t.id)) o.id (startOf v o.id) ∈ startsWhereFree nSlots o t :=
      List.mem_map.mpr ⟨_, List.mem_filter.mpr ⟨List.mem_range.mpr (by omega), by simpa using hbusy⟩, rfl⟩
    exact h _ hmem hassigned hstart.symm
  · intro h c hc
    obtain ⟨slot, hslot, rfl⟩ := List.mem_map.mp hc
    have hbusy := (List.mem_filter.mp hslot).2
    intro hassigned hequal
    have hfree := h hassigned
    rw [startOf, hequal, Int.toNat_natCast] at hfree
    simp [hfree] at hbusy

/-- Of an order that fits and that somebody can do. -/
theorem placement_iff {o : OrderInput} (hfits : o.duration ≤ nSlots)
    (hsome : ∃ t ∈ technicians, canDo t o = true) :
    Satisfies v (placement technicians nSlots o) ↔
      (0 ≤ v.int o.id ∧ v.int o.id ≤ nSlots - o.duration) ∧
        (∀ t ∈ eligible technicians o, v.bool (.assign o.id t.id) = true →
          freeAt t o (startOf v o.id) = true) ∧
        (eligible technicians o).countP (fun t => v.bool (.assign o.id t.id)) = 1 := by
  have hplacement : placement technicians nSlots o =
      .bounds o.id 0 (nSlots - o.duration) :: ((eligible technicians o).flatMap (startsWhereFree nSlots o) ++
        [.exactlyOne ((eligible technicians o).map fun t => .assign o.id t.id)]) := by
    unfold placement
    rw [if_pos hfits]
    split
    · rename_i hnone
      obtain ⟨t, ht, hcan⟩ := hsome
      exact absurd (mem_eligible.mpr ⟨ht, hcan⟩) (by simp [hnone])
    · rfl
  rw [hplacement, satisfies_cons, satisfies_append, satisfies_flatMap]
  refine and_congr_right fun ⟨hlo, hhi⟩ => and_congr (forall₂_congr fun t _ => startsWhereFree_iff hlo hhi) ?_
  simp only [Satisfies, List.forall_mem_singleton, Constraint.Holds, List.countP_map, Function.comp_def]

theorem technicianOverlap_iff {t : TechnicianInput} :
    Satisfies v (technicianOverlap orders technicians nSlots t) ↔
      (schedulable orders technicians nSlots).Pairwise fun o o' =>
        (o.id, t.id) ∈ assigned orders technicians nSlots → (o'.id, t.id) ∈ assigned orders technicians nSlots →
        v.bool (.assign o.id t.id) = true → v.bool (.assign o'.id t.id) = true →
        v.int o.id + o.duration ≤ v.int o'.id ∨ v.int o'.id + o'.duration ≤ v.int o.id := by
  have hoverlap : Satisfies v (technicianOverlap orders technicians nSlots t) ↔
      (((schedulable orders technicians nSlots).filter fun o =>
        (o.id, t.id) ∈ assigned orders technicians nSlots).map fun o =>
          (⟨o.id, o.duration, some (.assign o.id t.id)⟩ : Interval Uuid Flag)).Pairwise (Interval.Apart v) := by
    unfold technicianOverlap
    split
    · rename_i hnone
      simp [hnone, Satisfies]
    · simp [Satisfies, Constraint.Holds]
  rw [hoverlap, List.pairwise_map, List.pairwise_filter]
  simp [Interval.Apart, Interval.Present, Interval.Before]

theorem lineOverlap_iff :
    (∀ l ∈ ((schedulable orders technicians nSlots).map OrderInput.lineId).dedup,
      Satisfies v (lineOverlap orders technicians nSlots l)) ↔
      (schedulable orders technicians nSlots).Pairwise fun o o' => o.lineId = o'.lineId →
        v.int o.id + o.duration ≤ v.int o'.id ∨ v.int o'.id + o'.duration ≤ v.int o.id := by
  have hline (l : Uuid) : Satisfies v (lineOverlap orders technicians nSlots l) ↔
      (schedulable orders technicians nSlots).Pairwise fun o o' => o.lineId = l → o'.lineId = l →
        v.int o.id + o.duration ≤ v.int o'.id ∨ v.int o'.id + o'.duration ≤ v.int o.id := by
    have hoverlap : Satisfies v (lineOverlap orders technicians nSlots l) ↔
        (((schedulable orders technicians nSlots).filter fun o => o.lineId = l).map fun o =>
          (⟨o.id, o.duration, none⟩ : Interval Uuid Flag)).Pairwise (Interval.Apart v) := by
      simp only [lineOverlap]
      split
      · simp [Satisfies, Constraint.Holds]
      · rename_i hshort
        refine iff_of_true (by simp [Satisfies]) ?_
        rcases hos : (schedulable orders technicians nSlots).filter (fun o => o.lineId = l) with - | ⟨o, - | ⟨o', os⟩⟩
        · rw [hos]
          exact .nil
        · rw [hos]
          exact List.pairwise_singleton _ _
        · rw [hos] at hshort
          simp at hshort
    rw [hoverlap, List.pairwise_map, List.pairwise_filter]
    simp [Interval.Apart, Interval.Present, Interval.Before]
  simp only [hline]
  constructor
  · intro h
    rw [List.pairwise_iff_forall_sublist]
    intro o o' hpair hsame
    have ho : o ∈ schedulable orders technicians nSlots := hpair.subset List.mem_cons_self
    exact List.pairwise_iff_forall_sublist.mp (h _ (List.mem_dedup.mpr (List.mem_map_of_mem ho))) hpair rfl
      hsame.symm
  · intro h l _
    exact h.imp fun hapart hl hl' => hapart (hl.trans hl'.symm)

/-! ## From a solution to a placement -/

/-- What the result reads off the values. -/
def planOf (orders : List OrderInput) (technicians : List TechnicianInput) (nSlots : Nat)
    (v : Valuation Uuid Flag) : Plan where
  start := startOf v
  technician := fun order => ((technicianOf orders technicians nSlots v order).map TechnicianInput.id).getD 0

/-- The chosen technician takes the order from the chosen slot on. -/
theorem technicianOf_takes (hids : Distinct orders technicians)
    (h : Satisfies v (posted orders technicians nSlots)) {o : OrderInput}
    (ho : o ∈ schedulable orders technicians nSlots) :
    0 ≤ v.int o.id ∧ ∃ t ∈ technicians, technicianOf orders technicians nSlots v o.id = some t ∧
      v.bool (.assign o.id t.id) = true ∧ Takes nSlots o t (startOf v o.id) := by
  obtain ⟨hmem, hfits, hsome⟩ := (mem_schedulable hids).mp ho
  simp only [posted, satisfies_append, satisfies_flatMap] at h
  obtain ⟨⟨hlo, hhi⟩, hfree, hone⟩ := (placement_iff hfits hsome).mp (h.1.1.1 o hmem)
  obtain ⟨t, ht, hassigned⟩ := List.countP_pos_iff.mp (hone.symm ▸ Nat.one_pos)
  obtain ⟨ht, hcan⟩ := mem_eligible.mp ht
  have hfound : (technicianOf orders technicians nSlots v o.id).isSome := by
    rw [technicianOf, List.find?_isSome]
    exact ⟨t, ht, decide_eq_true ⟨(mem_assigned hids hmem ht).mpr ⟨hfits, hcan⟩, hassigned⟩⟩
  obtain ⟨t', ht'⟩ := Option.isSome_iff_exists.mp hfound
  have hmem' : t' ∈ technicians := List.mem_of_find?_eq_some ht'
  have hchosen := List.find?_some ht'
  rw [decide_eq_true_eq] at hchosen
  have hcan' := ((mem_assigned hids hmem hmem').mp hchosen.1).2
  refine ⟨hlo, t', hmem', ht', hchosen.2, hcan', ?_, hfree t' (mem_eligible.mpr ⟨hmem', hcan'⟩) hchosen.2⟩
  have hstart : ((startOf v o.id : Nat) : Int) = v.int o.id := Int.toNat_of_nonneg hlo
  omega

theorem places_of_satisfies (hids : Distinct orders technicians)
    (h : Satisfies v (posted orders technicians nSlots)) :
    (planOf orders technicians nSlots v).Places technicians nSlots (schedulable orders technicians nSlots) := by
  have hchosen := fun o ho => technicianOf_takes hids h (o := o) ho
  simp only [posted, satisfies_append, satisfies_flatMap] at h
  obtain ⟨⟨⟨-, htechnicians⟩, hlines⟩, -⟩ := h
  have hstart (o : OrderInput) (ho : o ∈ schedulable orders technicians nSlots) :
      (((planOf orders technicians nSlots v).start o.id : Nat) : Int) = v.int o.id :=
    Int.toNat_of_nonneg (hchosen o ho).1
  have hapart {o o' : OrderInput} (ho : o ∈ schedulable orders technicians nSlots)
      (ho' : o' ∈ schedulable orders technicians nSlots)
      (h : v.int o.id + o.duration ≤ v.int o'.id ∨ v.int o'.id + o'.duration ≤ v.int o.id) :
      (planOf orders technicians nSlots v).Apart o o' := by
    have := hstart o ho
    have := hstart o' ho'
    unfold Plan.Apart
    omega
  refine ⟨?_, ?_, ?_⟩
  · intro o ho
    obtain ⟨-, t, ht, hfound, -, htakes⟩ := hchosen o ho
    exact ⟨t, ht, by simp [planOf, hfound], htakes⟩
  · rw [List.pairwise_iff_forall_sublist]
    intro o o' hpair hsame
    have ho : o ∈ schedulable orders technicians nSlots := hpair.subset (by simp)
    have ho' : o' ∈ schedulable orders technicians nSlots := hpair.subset (by simp)
    obtain ⟨-, t, ht, hfound, hassigned, htakes⟩ := hchosen o ho
    obtain ⟨-, t', ht', hfound', hassigned', htakes'⟩ := hchosen o' ho'
    simp only [planOf, hfound, hfound', Option.map_some, Option.getD_some] at hsame
    obtain rfl := hids.technician_eq ht ht' hsame
    have hmem := (mem_schedulable hids).mp ho
    have hmem' := (mem_schedulable hids).mp ho'
    exact hapart ho ho' (List.pairwise_iff_forall_sublist.mp (technicianOverlap_iff.mp (htechnicians t ht)) hpair
      ((mem_assigned hids hmem.1 ht).mpr ⟨hmem.2.1, htakes.skilled⟩)
      ((mem_assigned hids hmem'.1 ht).mpr ⟨hmem'.2.1, htakes'.skilled⟩) hassigned hassigned')
  · rw [List.pairwise_iff_forall_sublist]
    intro o o' hpair hsame
    exact hapart (hpair.subset (by simp)) (hpair.subset (by simp))
      (List.pairwise_iff_forall_sublist.mp (lineOverlap_iff.mp hlines) hpair hsame)

/-! ## From a placement to a solution -/

/-- An order that is not placed has a variable all the same, if it fits. -/
def Plan.startIn (p : Plan) (placed : List OrderInput) (order : Uuid) : Nat :=
  if order ∈ placed.map OrderInput.id then p.start order else 0

def Plan.valuation (p : Plan) (placed : List OrderInput) : Valuation Uuid Flag where
  int order := p.startIn placed order
  bool
    | .assign order technician => p.technician order = technician
    | .startsAt order slot => p.startIn placed order = slot

variable {p : Plan}

theorem Plan.startIn_of_mem {placed : List OrderInput} {o : OrderInput} (ho : o ∈ placed) :
    p.startIn placed o.id = p.start o.id := if_pos (List.mem_map_of_mem ho)

theorem satisfies_placement (hids : Distinct orders technicians)
    (h : p.Places technicians nSlots (schedulable orders technicians nSlots)) {o : OrderInput} (ho : o ∈ orders) :
    Satisfies (p.valuation (schedulable orders technicians nSlots)) (placement technicians nSlots o) := by
  by_cases hfits : o.duration ≤ nSlots
  · by_cases hsome : ∃ t ∈ technicians, canDo t o = true
    · have hmem := (mem_schedulable hids).mpr ⟨ho, hfits, hsome⟩
      have hstart : p.startIn (schedulable orders technicians nSlots) o.id = p.start o.id :=
        Plan.startIn_of_mem hmem
      obtain ⟨t, ht, hid, htakes⟩ := h.takes o hmem
      have hinside := htakes.inside
      refine (placement_iff hfits hsome).mpr ⟨?_, ?_, ?_⟩
      · simp only [Plan.valuation, hstart]
        omega
      · intro t' ht' hassigned
        obtain ⟨ht', -⟩ := mem_eligible.mp ht'
        have hsame : p.technician o.id = t'.id := of_decide_eq_true hassigned
        obtain rfl := hids.technician_eq ht ht' (hid.trans hsame)
        simpa [startOf, Plan.valuation, hstart] using htakes.free
      · have hkeys : ((eligible technicians o).map TechnicianInput.id).Nodup :=
          hids.technicians.sublist (List.filter_sublist.map _)
        have hmem : p.technician o.id ∈ (eligible technicians o).map TechnicianInput.id :=
          hid ▸ List.mem_map_of_mem (mem_eligible.mpr ⟨ht, htakes.skilled⟩)
        rw [← List.count_eq_one_of_mem hkeys hmem, List.count, List.countP_map]
        congr 1
        funext t'
        rw [Bool.eq_iff_iff]
        simp only [Plan.valuation, Function.comp_apply, beq_iff_eq, decide_eq_true_eq]
        exact eq_comm
    · have hnone : eligible technicians o = [] := by
        rw [eligible, List.filter_eq_nil_iff]
        exact fun t ht hcan => hsome ⟨t, ht, hcan⟩
      have hstart : p.startIn (schedulable orders technicians nSlots) o.id = 0 := by
        refine if_neg fun hmem => ?_
        obtain ⟨o', ho', hid⟩ := List.mem_map.mp hmem
        obtain ⟨hmem', -, hsome'⟩ := (mem_schedulable hids).mp ho'
        exact hsome (hids.order_eq hmem' ho hid ▸ hsome')
      simp only [placement, if_pos hfits, hnone, satisfies_cons, Constraint.Holds, Plan.valuation, hstart]
      refine ⟨by omega, fun _ hc => by cases hc⟩
  · simp [placement, hfits, Satisfies]

theorem satisfies_of_places (hids : Distinct orders technicians)
    (h : p.Places technicians nSlots (schedulable orders technicians nSlots)) :
    Satisfies (p.valuation (schedulable orders technicians nSlots)) (posted orders technicians nSlots) := by
  simp only [posted, satisfies_append, satisfies_flatMap]
  have hapart {o o' : OrderInput} (ho : o ∈ schedulable orders technicians nSlots)
      (ho' : o' ∈ schedulable orders technicians nSlots) (h : p.Apart o o') :
      let v := p.valuation (schedulable orders technicians nSlots)
      v.int o.id + o.duration ≤ v.int o'.id ∨ v.int o'.id + o'.duration ≤ v.int o.id := by
    simp only [Plan.valuation, Plan.startIn_of_mem ho, Plan.startIn_of_mem ho']
    unfold Plan.Apart at h
    omega
  refine ⟨⟨⟨fun o ho => satisfies_placement hids h ho, fun t _ => technicianOverlap_iff.mpr ?_⟩,
    lineOverlap_iff.mpr ?_⟩, fun o _ => ?_⟩
  · rw [List.pairwise_iff_forall_sublist]
    intro o o' hpair _ _ hassigned hassigned'
    have hsame : p.technician o.id = p.technician o'.id :=
      (of_decide_eq_true hassigned).trans (of_decide_eq_true hassigned').symm
    exact hapart (hpair.subset (by simp)) (hpair.subset (by simp))
      (List.pairwise_iff_forall_sublist.mp h.technicians hpair hsame)
  · rw [List.pairwise_iff_forall_sublist]
    intro o o' hpair hsame
    exact hapart (hpair.subset (by simp)) (hpair.subset (by simp))
      (List.pairwise_iff_forall_sublist.mp h.lines hpair hsame)
  · intro c hc
    obtain ⟨slot, -, hc⟩ := List.mem_flatMap.mp hc
    simp only [List.mem_cons, List.not_mem_nil, or_false] at hc
    rcases hc with rfl | rfl
    · intro hstarts
      have hslot : p.startIn (schedulable orders technicians nSlots) o.id = slot := of_decide_eq_true hstarts
      simp only [Plan.valuation, hslot]
    · intro hstarts hslot
      have hother : ¬p.startIn (schedulable orders technicians nSlots) o.id = slot := of_decide_eq_false hstarts
      exact hother (Int.natCast_inj.mp hslot)

/-- The posted model has a solution exactly if the orders that pass the filter
can all be placed. -/
theorem satisfiable_iff (hids : Distinct orders technicians) :
    (∃ v, Satisfies v (posted orders technicians nSlots)) ↔
      Placeable technicians nSlots (orders.filter (candidate technicians nSlots)) := by
  rw [← schedulable_eq hids]
  exact ⟨fun ⟨_, h⟩ => ⟨_, places_of_satisfies hids h⟩, fun ⟨_, h⟩ => ⟨_, satisfies_of_places hids h⟩⟩

end

end TwinVoice.Maintenance.Optimiser
