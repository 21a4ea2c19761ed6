import Mathlib.Data.List.Pairwise
import TwinVoice.Maintenance.Placement

/-! # What a solve comes to

With a solver that answers with solutions only, the assignments are a placement
of the orders they are about, and all others are reported. With one that finds
a solution whenever there is one, a solve places every order that passes the
filter, or none at all if they cannot all be placed at once. -/

namespace TwinVoice.Maintenance.Optimiser

open TwinVoice.Lib TwinVoice.Lib.CpModel

section
variable {orders : List OrderInput} {technicians : List TechnicianInput} {nSlots : Nat}
  {tariffPerSlot : List Rat} {weights : ObjectiveWeights} {solver : Solver Uuid Flag} {solveMs : Nat}

/-- Either nothing is assigned, or the solver has a solution and every order
that passes the filter is. -/
theorem solve_cases (orders : List OrderInput) (technicians : List TechnicianInput) (nSlots : Nat)
    (tariffPerSlot : List Rat) (weights : ObjectiveWeights) (solver : Solver Uuid Flag) (solveMs : Nat) :
    let r := solve orders technicians nSlots tariffPerSlot weights solver solveMs
    let m := model orders technicians nSlots tariffPerSlot weights
    (r.assignments = [] ∧ r.unscheduled = orders.map OrderInput.id ∧
      (orders = [] ∨ technicians = [] ∨ (solver m).status.solved = false)) ∨
    ((solver m).status.solved = true ∧ r.unscheduled = unscheduled orders technicians nSlots ∧
      r.assignments = (schedulable orders technicians nSlots).map
        (assignmentOf orders technicians nSlots tariffPerSlot (solver m).values)) := by
  dsimp only
  unfold solve
  by_cases horders : orders = []
  · rw [if_pos horders, horders]
    exact .inl ⟨rfl, rfl, .inl rfl⟩
  · rw [if_neg horders]
    by_cases htechnicians : technicians.isEmpty = true
    · rw [if_pos htechnicians]
      exact .inl ⟨rfl, rfl, .inr (.inl (List.isEmpty_iff.mp htechnicians))⟩
    · rw [if_neg htechnicians]
      dsimp only
      by_cases hsolved : (solver (model orders technicians nSlots tariffPerSlot weights)).status.solved = true
      · rw [if_pos hsolved]
        exact .inr ⟨hsolved, rfl, rfl⟩
      · rw [if_neg hsolved]
        exact .inl ⟨rfl, rfl, .inr (.inr (Bool.eq_false_iff.mpr hsolved))⟩

/-- Every order is assigned once or reported. -/
theorem solve_partition : let r := solve orders technicians nSlots tariffPerSlot weights solver solveMs
    (r.assignments.map Assignment.orderId ++ r.unscheduled).Perm (orders.map OrderInput.id) := by
  intro r
  rcases solve_cases orders technicians nSlots tariffPerSlot weights solver solveMs with
    ⟨hnone, hall, -⟩ | ⟨-, hunscheduled, hassignments⟩
  · rw [hnone, hall]
    exact .refl _
  · rw [hassignments, hunscheduled, List.map_map, unscheduled]
    have hkept : schedulable orders technicians nSlots =
        orders.filter fun o => o ∈ schedulable orders technicians nSlots := by
      conv_lhs => unfold schedulable
      exact List.filter_congr fun o ho => by simp [schedulable, ho]
    have horders : Assignment.orderId ∘ assignmentOf orders technicians nSlots tariffPerSlot
        (solver (model orders technicians nSlots tariffPerSlot weights)).values = OrderInput.id := rfl
    rw [horders, ← List.map_append]
    conv_lhs => arg 2; arg 1; rw [hkept]
    have hperm := List.filter_append_perm (fun o => decide (o ∈ schedulable orders technicians nSlots)) orders
    simpa only [decide_not] using hperm.map OrderInput.id

/-- The assignment says what the plan says of the order. -/
structure Plan.Assigns (p : Plan) (o : OrderInput) (a : Assignment) : Prop where
  order : a.orderId = o.id
  start : a.startSlot = p.start o.id
  stop : a.endSlot = p.start o.id + o.duration
  technician : a.technicianId = some (p.technician o.id)

/-- If anything is assigned, the assignments are a placement of all the orders
that pass the filter. -/
theorem solve_plan (hsolver : solver.Sound) (hids : Distinct orders technicians) :
    let r := solve orders technicians nSlots tariffPerSlot weights solver solveMs
    r.assignments = [] ∨ ∃ (p : Plan) (f : OrderInput → Assignment),
      p.Places technicians nSlots (orders.filter (candidate technicians nSlots)) ∧
      r.assignments = (orders.filter (candidate technicians nSlots)).map f ∧
      ∀ o ∈ orders.filter (candidate technicians nSlots), p.Assigns o (f o) := by
  intro r
  rcases solve_cases orders technicians nSlots tariffPerSlot weights solver solveMs with
    ⟨hnone, -, -⟩ | ⟨hsolved, -, hassignments⟩
  · exact .inl hnone
  · have hsatisfies := hsolver _ hsolved
    rw [← schedulable_eq hids]
    refine .inr ⟨_, _, places_of_satisfies hids hsatisfies, hassignments, fun o ho => ⟨rfl, rfl, rfl, ?_⟩⟩
    obtain ⟨-, t, -, hfound, -, -⟩ := technicianOf_takes hids hsatisfies ho
    simp only [assignmentOf, planOf, hfound, Option.map_some, Option.getD_some]

/-- No two orders that are placed are at a time with one technician or on one line. -/
theorem Plan.Places.apart {p : Plan} {placed : List OrderInput} (h : p.Places technicians nSlots placed)
    {o o' : OrderInput} (ho : o ∈ placed) (ho' : o' ∈ placed) (hne : o.id ≠ o'.id)
    (hshared : p.technician o.id = p.technician o'.id ∨ o.lineId = o'.lineId) : p.Apart o o' := by
  have hdistinct : o ≠ o' := fun h => hne (congrArg OrderInput.id h)
  rcases hshared with hsame | hline
  · have : Std.Symm fun o o' : OrderInput => p.technician o.id = p.technician o'.id → p.Apart o o' :=
      ⟨fun _ _ hapart hsame => (hapart hsame.symm).symm⟩
    exact h.technicians.forall ho ho' hdistinct hsame
  · have : Std.Symm fun o o' : OrderInput => o.lineId = o'.lineId → p.Apart o o' :=
      ⟨fun _ _ hapart hline => (hapart hline.symm).symm⟩
    exact h.lines.forall ho ho' hdistinct hline

/-- The orders of two assignments are on one line. -/
def SameLine (orders : List OrderInput) (a b : Assignment) : Prop :=
  ∃ o ∈ orders, ∃ o' ∈ orders, o.id = a.orderId ∧ o'.id = b.orderId ∧ o.lineId = o'.lineId

/-- The one is over when the other starts. -/
def Disjoint (a b : Assignment) : Prop := a.endSlot ≤ b.startSlot ∨ b.endSlot ≤ a.startSlot

/-- Every order that is assigned has, inside the horizon, the slots it takes and
one technician for them, and no two are at a time with one technician or on one line. -/
theorem solve_sound (hsolver : solver.Sound) (hids : Distinct orders technicians)
    (hpos : ∀ o ∈ orders, 0 < o.durationMin) :
    let r := solve orders technicians nSlots tariffPerSlot weights solver solveMs
    (r.assignments.map Assignment.orderId ++ r.unscheduled).Perm (orders.map OrderInput.id) ∧
    (∀ a ∈ r.assignments, ∃ o ∈ orders, o.id = a.orderId ∧ a.endSlot ≤ nSlots ∧
      a.endSlot = a.startSlot + ⌈(o.durationMin : ℚ) / slotMinutes⌉₊ ∧
      ∃ t ∈ technicians, a.technicianId = some t.id ∧ canDo t o = true ∧
        ∀ slot, a.startSlot ≤ slot → slot < a.endSlot → available t slot = true) ∧
    r.assignments.Pairwise fun a b => a.technicianId = b.technicianId ∨ SameLine orders a b → Disjoint a b := by
  intro r
  refine ⟨solve_partition, ?_⟩
  rcases solve_plan hsolver hids with hnone | ⟨p, f, hplaces, hassignments, hassigns⟩
  · have hr : r.assignments = [] := hnone
    simp [hr]
  · have hr : r.assignments = _ := hassignments
    rw [hr, List.pairwise_map, List.pairwise_iff_forall_sublist]
    constructor
    · intro a ha
      obtain ⟨o, ho, rfl⟩ := List.mem_map.mp ha
      obtain ⟨t, ht, hid, htakes⟩ := hplaces.takes o ho
      obtain ⟨horder, hstart, hstop, htechnician⟩ := hassigns o ho
      have hmem := (List.mem_filter.mp ho).1
      refine ⟨o, hmem, horder.symm, hstop ▸ htakes.inside, ?_, t, ht, hid ▸ htechnician, htakes.skilled, ?_⟩
      · rw [hstop, hstart, o.duration_eq (hpos o hmem)]
      · exact fun slot hlo hhi => htakes.available (hstart ▸ hlo) (hstop ▸ hhi)
    · intro o o' hpair hshared
      have ho : o ∈ orders.filter (candidate technicians nSlots) := hpair.subset (by simp)
      have ho' : o' ∈ orders.filter (candidate technicians nSlots) := hpair.subset (by simp)
      obtain ⟨horder, hstart, hstop, htechnician⟩ := hassigns o ho
      obtain ⟨horder', hstart', hstop', htechnician'⟩ := hassigns o' ho'
      rw [Disjoint, hstart, hstop, hstart', hstop']
      rcases hshared with hsame | ⟨x, hx, x', hx', hid, hid', hline⟩
      · rw [htechnician, htechnician'] at hsame
        exact List.pairwise_iff_forall_sublist.mp hplaces.technicians hpair (Option.some.inj hsame)
      · obtain rfl := hids.order_eq hx (List.mem_filter.mp ho).1 (hid.trans horder)
        obtain rfl := hids.order_eq hx' (List.mem_filter.mp ho').1 (hid'.trans horder')
        exact List.pairwise_iff_forall_sublist.mp hplaces.lines hpair hline

/-! ## Orders that cannot be placed -/

theorem Placeable.single {S : List OrderInput} (h : Placeable technicians nSlots S) {o : OrderInput} (ho : o ∈ S) :
    Placeable technicians nSlots [o] := by
  obtain ⟨p, hp⟩ := h
  exact ⟨p, by simpa using hp.takes o ho, List.pairwise_singleton _ _, List.pairwise_singleton _ _⟩

theorem Placeable.candidate {o : OrderInput} (h : Placeable technicians nSlots [o]) :
    candidate technicians nSlots o = true := by
  obtain ⟨p, hp⟩ := h
  obtain ⟨t, ht, -, htakes⟩ := hp.takes o List.mem_cons_self
  have hinside := htakes.inside
  exact decide_eq_true ⟨by omega, t, ht, htakes.skilled⟩

/-- Something is assigned if some order passes the filter and all that do can be
placed at once. -/
theorem assigned_iff (hsound : solver.Sound) (hcomplete : solver.Complete) (hids : Distinct orders technicians) :
    (solve orders technicians nSlots tariffPerSlot weights solver solveMs).assignments ≠ [] ↔
      orders.filter (candidate technicians nSlots) ≠ [] ∧
        Placeable technicians nSlots (orders.filter (candidate technicians nSlots)) := by
  have hsolved := Solver.solved_iff hsound hcomplete (model orders technicians nSlots tariffPerSlot weights)
  rw [show (model orders technicians nSlots tariffPerSlot weights).constraints =
    posted orders technicians nSlots from rfl, satisfiable_iff hids] at hsolved
  rcases solve_cases orders technicians nSlots tariffPerSlot weights solver solveMs with
    ⟨hnone, -, hwhy⟩ | ⟨hyes, -, hassignments⟩
  · rw [hnone]
    refine iff_of_false (fun h => h rfl) fun ⟨hsome, hplaceable⟩ => ?_
    rcases hwhy with rfl | rfl | hno
    · exact hsome rfl
    · exact hsome (List.filter_eq_nil_iff.mpr fun o _ => by simp [Optimiser.candidate])
    · rw [hsolved.mpr hplaceable] at hno
      cases hno
  · rw [hassignments, schedulable_eq hids]
    exact ⟨fun h => ⟨fun hnil => h (by rw [hnil, List.map_nil]), hsolved.mp hyes⟩,
      fun h hnil => h.1 (List.map_eq_nil_iff.mp hnil)⟩

/-- An order that cannot be placed leaves the rest a place exactly if it does
not pass the filter: all that pass it are placed, or none is. -/
theorem placeable_survive_iff (hsound : solver.Sound) (hcomplete : solver.Complete)
    (hids : Distinct orders technicians) :
    let r := solve orders technicians nSlots tariffPerSlot weights solver solveMs
    ((∃ S : List OrderInput, S ≠ [] ∧ S ⊆ orders ∧ Placeable technicians nSlots S) →
      r.assignments ≠ [] ∧
        (r.assignments.map Assignment.orderId ++ r.unscheduled).Perm (orders.map OrderInput.id)) ↔
    (∀ o ∈ orders, ¬Placeable technicians nSlots [o]) ∨
      Placeable technicians nSlots (orders.filter (candidate technicians nSlots)) := by
  intro r
  constructor
  · intro h
    by_cases hsome : ∃ o ∈ orders, Placeable technicians nSlots [o]
    · obtain ⟨o, ho, hplaceable⟩ := hsome
      have hassigned := (h ⟨[o], by simp, by simpa using ho, hplaceable⟩).1
      exact .inr ((assigned_iff hsound hcomplete hids).mp hassigned).2
    · exact .inl fun o ho hplaceable => hsome ⟨o, ho, hplaceable⟩
  · rintro h ⟨S, hne, hsub, hplaceable⟩
    obtain ⟨o, ho⟩ := List.exists_mem_of_ne_nil S hne
    have hsingle := hplaceable.single ho
    have hall := h.resolve_left fun hnone => hnone o (hsub ho) hsingle
    have hmem : o ∈ orders.filter (candidate technicians nSlots) :=
      List.mem_filter.mpr ⟨hsub ho, hsingle.candidate⟩
    exact ⟨(assigned_iff hsound hcomplete hids).mpr ⟨List.ne_nil_of_mem hmem, hall⟩, solve_partition⟩

end

/-! A technician who is free in the first of four slots only, an order for
that slot, and one for an hour. -/

def morning : TechnicianInput := { id := 2, availableSlots := [true, false, false, false] }

def quick : OrderInput := { id := 7, assetId := 1, lineId := 4, durationMin := 10, priority := 3 }

def hour : OrderInput := { id := 8, assetId := 1, lineId := 4, durationMin := 60, priority := 3 }

/-- Both orders with a technician who is always free, the quick one first. -/
def queued : SolveResult :=
  solve [quick, hour] [{ id := 2 }] 8 [] {} (guess
    { int := fun order => if order = 8 then 1 else 0
      bool := fun
        | .assign _ _ => true
        | .startsAt order slot => slot = if order = 8 then 1 else 0 }) 3

theorem solve_sound_queued : queued.assignments.length = 2 ∧ queued.assignments.Pairwise fun a b =>
    a.technicianId = b.technicianId ∨ SameLine [quick, hour] a b → Disjoint a b :=
  ⟨by decide, (solve_sound (guess_sound _) ⟨by decide, by decide⟩ (by decide)).2.2⟩

theorem quick_placeable : Placeable [morning] 4 [quick] := by
  refine ⟨⟨fun _ => 0, fun _ => 2⟩, ?_, List.pairwise_singleton _ _, List.pairwise_singleton _ _⟩
  intro o ho
  obtain rfl := List.mem_singleton.mp ho
  exact ⟨morning, List.mem_singleton_self _, rfl, by decide, by decide, by decide⟩

theorem placeable_survive_quick :
    let r := solve [quick] [morning] 4 [] {} ideal 0
    ((∃ S : List OrderInput, S ≠ [] ∧ S ⊆ [quick] ∧ Placeable [morning] 4 S) →
      r.assignments ≠ [] ∧ (r.assignments.map Assignment.orderId ++ r.unscheduled).Perm [7]) ↔
    (∀ o ∈ [quick], ¬Placeable [morning] 4 [o]) ∨
      Placeable [morning] 4 ([quick].filter (candidate [morning] 4)) :=
  placeable_survive_iff ideal_sound ideal_complete ⟨by decide, by decide⟩

/-- The hour fits the horizon and the technician has the skill, but never an
hour: nothing is scheduled, the quick order neither. -/
theorem hour_unschedules_all : Placeable [morning] 4 [quick] ∧
    (solve [quick, hour] [morning] 4 [] {} ideal 0).assignments = [] := by
  refine ⟨quick_placeable, ?_⟩
  by_contra hsome
  obtain ⟨-, p, hp⟩ := (assigned_iff ideal_sound ideal_complete ⟨by decide, by decide⟩).mp hsome
  obtain ⟨t, ht, -, htakes⟩ := hp.takes hour (by decide)
  obtain rfl := List.mem_singleton.mp ht
  have hinside : p.start hour.id + 4 ≤ 4 := htakes.inside
  have hstart : p.start hour.id = 0 := by omega
  have hfree := htakes.free
  rw [hstart] at hfree
  exact absurd hfree (by decide)

end TwinVoice.Maintenance.Optimiser
