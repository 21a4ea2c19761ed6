import TwinVoice.Maintenance.Lifecycle
import TwinVoice.Maintenance.Planning

/-! # Planning again and again

One run of the optimiser keeps apart the orders that it places. It is not told
of the planned times of those that it leaves where they are: orders of other
assets, orders that have been started, orders too long for the horizon. The
plan stays free of conflicts over every sequence of runs as long as no
placement that a run admits puts an order over one of those. -/

namespace TwinVoice.Maintenance

open TwinVoice.Lib TwinVoice.Lib.Transition TwinVoice.Twin

/-! ## Conflicts -/

/-- The planned intervals have an instant in common. -/
def Overlap (o o' : WorkOrder) : Prop :=
  ∃ s ∈ o.plannedStart, ∃ e ∈ o.plannedEnd, ∃ s' ∈ o'.plannedStart, ∃ e' ∈ o'.plannedEnd, s < e' ∧ s' < e

/-- One technician, or one line. -/
def Shares (assets : Assets) (o o' : WorkOrder) : Prop :=
  (∃ t, o.technicianId = some t ∧ o'.technicianId = some t) ∨ o.lineIn assets = o'.lineIn assets

def WorkOrder.Live (o : WorkOrder) : Prop := o.status ∉ terminalStatuses

instance (o : WorkOrder) : Decidable o.Live := inferInstanceAs (Decidable (_ ∉ _))

def ConflictFree (assets : Assets) (db : Store) : Prop :=
  ∀ o ∈ db.orders.rows, ∀ o' ∈ db.orders.rows, o.id ≠ o'.id → o.Live → o'.Live → Shares assets o o' →
    ¬Overlap o o'

theorem Overlap.symm {o o' : WorkOrder} (h : Overlap o o') : Overlap o' o := by
  obtain ⟨s, hs, e, he, s', hs', e', he', h₁, h₂⟩ := h
  exact ⟨s', hs', e', he', s, hs, e, he, h₂, h₁⟩

theorem Shares.symm {assets : Assets} {o o' : WorkOrder} (h : Shares assets o o') : Shares assets o' o := by
  rcases h with ⟨t, ht, ht'⟩ | hline
  · exact .inl ⟨t, ht', ht⟩
  · exact .inr hline.symm

theorem slotTime_lt_iff {horizonStart : Instant} {slot slot' : Nat} :
    slotTime horizonStart slot < slotTime horizonStart slot' ↔ slot < slot' := by
  have hscaled (start : Int) : start + ((15 * slot : Nat) : Int) * 60 * 1000000 <
      start + ((15 * slot' : Nat) : Int) * 60 * 1000000 ↔ slot < slot' := by omega
  exact hscaled horizonStart

/-! ## What a run of the optimiser does to the orders -/

/-- The row of an order that an assignment has given a slot. -/
structure InSlot (horizonStart : Instant) (a : Assignment) (o o' : WorkOrder) : Prop where
  asset : o'.assetId = o.assetId
  start : o'.plannedStart = some (slotTime horizonStart a.startSlot)
  stop : o'.plannedEnd = some (slotTime horizonStart a.endSlot)
  technician : o'.technicianId = a.technicianId

/-- An order without an assignment is as it was. -/
theorem placeAll_find {env : Env} {loaded : List Uuid} {schedule : Schedule} {as : List Assignment} :
    ∀ {n : Nat} {items : List ScheduleItem} {s t : Session Store Command},
    (placeAll env loaded schedule n as).run s = (.ok items, t) → (as.map Assignment.orderId).Nodup → ∀ id,
    (id ∉ as.map Assignment.orderId ∧ t.work.orders.find id = s.work.orders.find id) ∨
      ∃ a ∈ as, a.orderId = id ∧ ∃ o o', s.work.orders.find id = some o ∧ t.work.orders.find id = some o' ∧
        InSlot schedule.horizonStart a o o' := by
  induction as with
  | nil =>
    intro n items s t h _ id
    rw [← (Tx.pure_ok h).2]
    exact .inl ⟨List.not_mem_nil, rfl⟩
  | cons a as ih =>
    intro n items s t h hnodup id
    obtain ⟨db, s₁, hread, h₁⟩ := Tx.bind_ok h
    obtain ⟨rfl, rfl⟩ := Tx.read_ok hread
    obtain ⟨o, s₂, horder, h₂⟩ := Tx.bind_ok h₁
    obtain ⟨hloaded, rfl⟩ := Tx.orRaise_ok horder
    obtain ⟨_, s₃, hsave, h₃⟩ := Tx.bind_ok h₂
    obtain ⟨rfl, -⟩ := saveOrder_ok hsave
    obtain ⟨_, s₄, hrest, h₄⟩ := Tx.bind_ok h₃
    obtain ⟨-, rfl⟩ := Tx.pure_ok h₄
    split at hloaded
    case isFalse => cases hloaded
    case isTrue hmem =>
    have hid : o.id = a.orderId := Table.key_of_find hloaded
    rw [List.map_cons, List.nodup_cons] at hnodup
    have hput := find_putOrder (o.placed (a.item (env.newItemIds n) schedule)) (hid ▸ hloaded) env.txStart id
    have hplacedId : (o.placed (a.item (env.newItemIds n) schedule)).id = a.orderId := hid
    rw [hplacedId] at hput
    rcases ih hrest hnodup.2 id with ⟨hlater, hfind⟩ | ⟨a', ha', hid', x, x', hx, hx', hslot⟩
    · by_cases hk : a.orderId = id
      · rw [if_pos hk] at hput
        refine .inr ⟨a, List.mem_cons_self, hk, o, _, hk ▸ hloaded, hfind.trans hput, ?_⟩
        rw [WorkOrder.stamped_eq]
        exact ⟨rfl, rfl, rfl, rfl⟩
      · rw [if_neg hk] at hput
        exact .inl ⟨by simp [hlater, Ne.symm hk], hfind.trans hput⟩
    · have hne : a.orderId ≠ id := fun h => hnodup.1 (h ▸ hid' ▸ List.mem_map_of_mem ha')
      rw [if_neg hne] at hput
      exact .inr ⟨a', List.mem_cons_of_mem _ ha', hid', x, x', hput ▸ hx, hx', hslot⟩

/-! ## One run -/

structure OptimiseCall where
  env : Env
  planning : Planning
  request : OptimiseRequest

namespace OptimiseCall

section
variable (assets : Assets) (c : OptimiseCall) (db : Store)

def nSlots : Nat := slotCount c.request.horizonStart c.request.horizonEnd

def technicians : List Optimiser.TechnicianInput :=
  technicianInputs c.planning c.request.horizonStart c.nSlots

def input (o : WorkOrder) : Optimiser.OrderInput :=
  orderInput assets c.planning c.request.horizonStart c.nSlots o

def inputs : List Optimiser.OrderInput := (schedulable db c.request.assetIds).map (c.input assets)

/-- The environment with the optimiser that the service calls. -/
def planner : Env :=
  { c.env with
    solve := fun orders nSlots weights =>
      c.planning.solve assets c.request.horizonStart nSlots orders weights }

def after : Store := (Tx.serve (optimise (c.planner assets) c.request) db).2.1

/-- The inputs of the orders that the run places, if it places any. -/
def placed : List Optimiser.OrderInput :=
  (c.inputs assets db).filter (Optimiser.candidate c.technicians c.nSlots)

/-- The run may place the order: it is loaded, no longer than the horizon, and
there is somebody for it. -/
def Places (o : WorkOrder) : Prop :=
  o ∈ schedulable db c.request.assetIds ∧
    Optimiser.candidate c.technicians c.nSlots (c.input assets o) = true

instance (o : WorkOrder) : Decidable (c.Places assets db o) := inferInstanceAs (Decidable (_ ∧ _))

/-- The row of an order as a plan places it. -/
def rowIn (p : Optimiser.Plan) (o : WorkOrder) : WorkOrder :=
  { o with
    plannedStart := some (slotTime c.request.horizonStart (p.start o.id))
    plannedEnd := some (slotTime c.request.horizonStart (p.start o.id + (c.input assets o).duration))
    technicianId := some (p.technician o.id) }

/-- What matters of a row for conflicts is as a plan has it. -/
structure AsPlanned (p : Optimiser.Plan) (o o' : WorkOrder) : Prop where
  places : c.Places assets db o
  id : o'.id = o.id
  asset : o'.assetId = o.assetId
  start : o'.plannedStart = some (slotTime c.request.horizonStart (p.start o.id))
  stop : o'.plannedEnd = some (slotTime c.request.horizonStart (p.start o.id + (c.input assets o).duration))
  technician : o'.technicianId = some (p.technician o.id)

/-- The answer of the optimiser. -/
def result : SolveResult :=
  (c.planner assets).solve (schedulable db c.request.assetIds) c.nSlots c.request.weights

/-- No placement that the constraints admit puts an order over the planned
interval of a live order that the run leaves where it is, with the technician
or on the line of that order. -/
def LeavesRoom : Prop :=
  ∀ p : Optimiser.Plan, p.Places c.technicians c.nSlots (c.placed assets db) →
    ∀ o, c.Places assets db o → ∀ x ∈ db.orders.rows, x.Live → ¬c.Places assets db x →
      Shares assets (c.rowIn assets p o) x → ¬Overlap (c.rowIn assets p o) x

end

variable {assets : Assets} {c : OptimiseCall} {db : Store}

theorem mem_loaded {o : WorkOrder} (h : o ∈ schedulable db c.request.assetIds) : o ∈ db.orders.rows :=
  (Table.mem_select.mp ((List.mem_insertionSort _).mp h)).1

/-- Two rows of the table with one id are one row. -/
theorem row_eq {o o' : WorkOrder} (ho : o ∈ db.orders.rows) (ho' : o' ∈ db.orders.rows) (h : o.id = o'.id) :
    o = o' := List.inj_on_of_nodup_map db.orders.keys ho ho' h

theorem distinct : Optimiser.Distinct (c.inputs assets db) c.technicians where
  orders := by
    have hids : (c.inputs assets db).map Optimiser.OrderInput.id =
        (schedulable db c.request.assetIds).map WorkOrder.id := by
      rw [inputs, List.map_map]
      rfl
    rw [hids, schedulable, ((List.perm_insertionSort _ _).map WorkOrder.id).nodup_iff]
    exact db.orders.keys.sublist (List.filter_sublist.map _)
  technicians := by
    have hids : c.technicians.map Optimiser.TechnicianInput.id =
        (allTechnicians c.planning).map TechnicianRow.id := by
      rw [technicians, technicianInputs, List.map_map]
      rfl
    rw [hids, allTechnicians, ((List.perm_insertionSort _ _).map TechnicianRow.id).nodup_iff]
    exact c.planning.technicians.keys.sublist (List.filter_sublist.map _)

theorem mem_placed {i : Optimiser.OrderInput} :
    i ∈ c.placed assets db ↔ ∃ o, c.Places assets db o ∧ c.input assets o = i := by
  rw [placed, List.mem_filter, inputs, List.mem_map]
  constructor
  · rintro ⟨⟨o, ho, rfl⟩, hcandidate⟩
    exact ⟨o, ⟨ho, hcandidate⟩, rfl⟩
  · rintro ⟨o, ⟨ho, hcandidate⟩, rfl⟩
    exact ⟨⟨o, ho, rfl⟩, hcandidate⟩

theorem result_plan (hsound : c.planning.solver.Sound) :
    (c.result assets db).assignments = [] ∨ ∃ (p : Optimiser.Plan) (f : Optimiser.OrderInput → Assignment),
      p.Places c.technicians c.nSlots (c.placed assets db) ∧
      (c.result assets db).assignments = (c.placed assets db).map f ∧
      ∀ i ∈ c.placed assets db, p.Assigns i (f i) :=
  Optimiser.solve_plan hsound distinct

/-- After a run every row is one from before, or the orders that the run may
place are where a placement has them and the others where they were. -/
theorem after_cases (hsound : c.planning.solver.Sound) :
    (∀ o' ∈ (c.after assets db).orders.rows, o' ∈ db.orders.rows) ∨
      ∃ p : Optimiser.Plan, p.Places c.technicians c.nSlots (c.placed assets db) ∧
        ∀ o' ∈ (c.after assets db).orders.rows, (o' ∈ db.orders.rows ∧ ¬c.Places assets db o') ∨
          ∃ o, c.AsPlanned assets db p o o' := by
  rcases optimise_orders (c.planner assets) c.request db with hsame | ⟨items, s, t, hplace, hfirst, hlast⟩
  · exact .inl fun o' ho' => hsame ▸ ho'
  · have hfind (hnodup : ((c.result assets db).assignments.map Assignment.orderId).Nodup) {o' : WorkOrder}
        (ho' : o' ∈ (c.after assets db).orders.rows) :
        (o'.id ∉ (c.result assets db).assignments.map Assignment.orderId ∧ o' ∈ db.orders.rows) ∨
          ∃ a ∈ (c.result assets db).assignments, a.orderId = o'.id ∧ ∃ o, db.orders.find o'.id = some o ∧
            InSlot c.request.horizonStart a o o' := by
      have hafter : t.work.orders.find o'.id = some o' := Table.find_iff.mpr ⟨hlast ▸ ho', rfl⟩
      rcases placeAll_find hplace hnodup o'.id with ⟨hnone, hsame⟩ | ⟨a, ha, hid, o, x, ho, hx, hslot⟩
      · rw [hafter, hfirst] at hsame
        exact .inl ⟨hnone, Table.mem_of_find hsame.symm⟩
      · rw [hafter] at hx
        obtain rfl := Option.some.inj hx
        exact .inr ⟨a, ha, hid, o, hfirst ▸ ho, hslot⟩
    have hplan : (c.result assets db).assignments = [] ∨ _ := result_plan hsound
    rcases hplan with hnone | ⟨p, f, hplaces, hassignments, hassigns⟩
    · refine .inl fun o' ho' => ?_
      rcases hfind (by rw [hnone]; exact List.nodup_nil) ho' with ⟨-, hkept⟩ | ⟨a, ha, -⟩
      · exact hkept
      · rw [hnone] at ha
        cases ha
    · have hids : (c.result assets db).assignments.map Assignment.orderId =
          (c.placed assets db).map Optimiser.OrderInput.id := by
        rw [hassignments, List.map_map]
        exact List.map_congr_left fun i hi => (hassigns i hi).order
      have hnodup : ((c.placed assets db).map Optimiser.OrderInput.id).Nodup :=
        distinct.orders.sublist (List.filter_sublist.map _)
      refine .inr ⟨p, hplaces, fun o' ho' => ?_⟩
      rcases hfind (hids ▸ hnodup) ho' with ⟨hnone, hkept⟩ | ⟨a, ha, hid, o, ho, hslot⟩
      · refine .inl ⟨hkept, fun hplaced => hnone ?_⟩
        rw [hids]
        exact List.mem_map.mpr ⟨_, mem_placed.mpr ⟨o', hplaced, rfl⟩, rfl⟩
      · rw [hassignments] at ha
        obtain ⟨i, hi, rfl⟩ := List.mem_map.mp ha
        obtain ⟨w, hw, rfl⟩ := mem_placed.mp hi
        obtain ⟨horder, hstart, hstop, htechnician⟩ := hassigns _ hi
        have hwid : w.id = o'.id := horder.symm.trans hid
        obtain rfl : w = o := row_eq (mem_loaded hw.1) (Table.mem_of_find ho) (hwid.trans (Table.key_of_find ho).symm)
        refine .inr ⟨w, hw, hwid.symm, hslot.asset, ?_, ?_, ?_⟩
        · rw [hslot.start, hstart]
          rfl
        · rw [hslot.stop, hstop]
          rfl
        · rw [hslot.technician, htechnician]
          rfl

theorem AsPlanned.line {p : Optimiser.Plan} {o o' : WorkOrder} (h : c.AsPlanned assets db p o o') :
    o'.lineIn assets = o.lineIn assets := by
  unfold WorkOrder.lineIn
  rw [h.asset]

/-- Two orders of one placement are not in conflict. -/
theorem AsPlanned.apart {p : Optimiser.Plan} {o o' x x' : WorkOrder} (h : c.AsPlanned assets db p o o')
    (h' : c.AsPlanned assets db p x x') (hplaces : p.Places c.technicians c.nSlots (c.placed assets db))
    (hne : o'.id ≠ x'.id) (hshares : Shares assets o' x') : ¬Overlap o' x' := by
  have hapart : p.Apart (c.input assets o) (c.input assets x) := by
    refine hplaces.apart (mem_placed.mpr ⟨o, h.places, rfl⟩) (mem_placed.mpr ⟨x, h'.places, rfl⟩) ?_ ?_
    · rw [h.id, h'.id] at hne
      exact hne
    · rcases hshares with ⟨t, ht, ht'⟩ | hline
      · rw [h.technician] at ht
        rw [h'.technician] at ht'
        exact .inl (Option.some.inj (ht.trans ht'.symm))
      · rw [h.line, h'.line] at hline
        exact .inr hline
  rintro ⟨s, hs, e, he, s', hs', e', he', hlt, hlt'⟩
  rw [h.start] at hs
  rw [h.stop] at he
  rw [h'.start] at hs'
  rw [h'.stop] at he'
  cases hs
  cases he
  cases hs'
  cases he'
  have hslots := slotTime_lt_iff.mp hlt
  have hslots' := slotTime_lt_iff.mp hlt'
  rcases hapart with hbefore | hafter
  · exact absurd hbefore (Nat.not_le.mpr hslots')
  · exact absurd hafter (Nat.not_le.mpr hslots)

/-- An order that has been placed and one that has stayed are not in conflict. -/
theorem AsPlanned.room {p : Optimiser.Plan} {o o' x : WorkOrder} (h : c.AsPlanned assets db p o o')
    (hplaces : p.Places c.technicians c.nSlots (c.placed assets db)) (hroom : c.LeavesRoom assets db)
    (hx : x ∈ db.orders.rows) (hlive : x.Live) (hstays : ¬c.Places assets db x) (hshares : Shares assets o' x) :
    ¬Overlap o' x := by
  have hroom := hroom p hplaces o h.places x hx hlive hstays
  have hshares' : Shares assets (c.rowIn assets p o) x := by
    rcases hshares with ⟨t, ht, ht'⟩ | hline
    · exact .inl ⟨t, h.technician.symm.trans ht, ht'⟩
    · exact .inr (h.line.symm.trans hline)
  unfold Overlap at hroom ⊢
  rw [h.start, h.stop]
  exact hroom hshares'

theorem conflictFree_after (hsound : c.planning.solver.Sound) (hroom : c.LeavesRoom assets db)
    (hfree : ConflictFree assets db) : ConflictFree assets (c.after assets db) := by
  intro o' ho' x' hx' hne hlive hlivex hshares
  have hafter : (∀ o' ∈ (c.after assets db).orders.rows, o' ∈ db.orders.rows) ∨ _ := after_cases hsound
  rcases hafter with hkept | ⟨p, hplaces, hcases⟩
  · exact hfree o' (hkept o' ho') x' (hkept x' hx') hne hlive hlivex hshares
  · rcases hcases o' ho' with ⟨ho, hstays⟩ | ⟨o, ho⟩ <;> rcases hcases x' hx' with ⟨hx, hstays'⟩ | ⟨x, hx⟩
    · exact hfree o' ho x' hx hne hlive hlivex hshares
    · exact fun hoverlap => hx.room hplaces hroom ho hlive hstays hshares.symm hoverlap.symm
    · exact ho.room hplaces hroom hx hlivex hstays' hshares
    · exact ho.apart hx hplaces hne hshares

end OptimiseCall

/-! ## Every sequence of runs -/

def PlanStep (assets : Assets) (db : Store) (c : OptimiseCall) (db' : Store) : Prop := c.after assets db = db'

/-- From a plan without conflicts, as long as every run leaves room for the
orders that it does not move, no conflict ever enters the plan. -/
theorem plan_conflictFree (assets : Assets) {start db : Store} {cs : List OptimiseCall}
    (hsound : ∀ c ∈ cs, c.planning.solver.Sound) (hstart : ConflictFree assets start)
    (h : Run (Guarded (PlanStep assets) fun db c => c.LeavesRoom assets db) start cs db) :
    ConflictFree assets db := by
  refine Run.invariant (fun cs (db : Store) => (∀ c ∈ cs, c.planning.solver.Sound) → ConflictFree assets db)
    (fun _ => hstart) ?_ h hsound
  rintro cs db₁ c db₂ ih ⟨hroom, rfl⟩ hsound
  have hfree := ih fun c' hc' => hsound c' (List.mem_append_left _ hc')
  exact OptimiseCall.conflictFree_after (hsound c (by simp)) hroom hfree

/-! Two machines on one line, an order of two hours for each, and one technician. -/

def lineOfTwo : Assets := fun asset => if asset = 1 ∨ asset = 2 then some ⟨4, none⟩ else none

def bearing : WorkOrder := newOrder.order (office 7 0) none

/-- The same for the other machine. -/
def otherBearing : WorkOrder := WorkOrderCreate.order { newOrder with assetId := 2 } (office 8 0) none

def twoOrders : Store := { emptyStore with orders := ⟨[bearing, otherBearing], by decide⟩ }

/-- The solver tries the first slot for order 7, and one of its own for order 8. -/
def onePlanner (slotOf8 : Nat) : Planning where
  technicians := ⟨[⟨2, "T-01", none, none, none⟩], by decide⟩
  availability := []
  riskBefore := fun _ _ => 0
  rateAt := none
  solver := CpModel.guess
    { int := fun order => if order = 8 then slotOf8 else 0
      bool := fun
        | .assign _ _ => true
        | .startsAt order slot => slot = if order = 8 then slotOf8 else 0 }
  solveMs := 1

def optimiseFor (assetIds : List Uuid) (slotOf8 : Nat) (newId : Uuid) : OptimiseCall where
  env := { office newId 1 with newItemIds := fun n => newId + n }
  planning := onePlanner slotOf8
  request := { horizonStart := 0, horizonEnd := minutes 240, assetIds := assetIds }

theorem twoOrders_conflictFree : ConflictFree lineOfTwo twoOrders := by
  intro o ho o' _ _ _ _ _
  rintro ⟨s, hs, -⟩
  simp only [twoOrders, List.mem_cons, List.not_mem_nil, or_false] at ho
  rcases ho with rfl | rfl <;> cases hs

/-- One run over both orders. -/
theorem plan_conflictFree_twoOrders :
    ConflictFree lineOfTwo ((optimiseFor [] 8 20).after lineOfTwo twoOrders) := by
  refine plan_conflictFree lineOfTwo ?_ twoOrders_conflictFree (Run.snoc .nil ⟨?_, rfl⟩)
  · intro c hc
    obtain rfl := List.mem_singleton.mp hc
    exact CpModel.guess_sound _
  · intro p _ o _ x hx _ hstays
    have hall : ∀ x ∈ twoOrders.orders.rows, (optimiseFor [] 8 20).Places lineOfTwo twoOrders x := by
      decide
    exact absurd (hall x hx) hstays

/-- The order in the first two hours. -/
def inFirstHours (o : WorkOrder) : WorkOrder :=
  { o with
    status := .scheduled
    plannedStart := some 0
    plannedEnd := some (minutes 120)
    technicianId := some 2
    riskBeforeSlot := some 0
    updatedAt := 1 }

theorem twoRuns_rows :
    ((optimiseFor [2] 0 30).after lineOfTwo ((optimiseFor [1] 0 20).after lineOfTwo twoOrders)).orders.rows =
      [inFirstHours bearing, inFirstHours otherBearing] := by
  rfl

/-- A run for the one machine and then one for the other: both orders get the
first two hours and the only technician. -/
theorem plan_conflict_twoRuns : ConflictFree lineOfTwo twoOrders ∧ ¬∀ cs db,
    (∀ c ∈ cs, c.planning.solver.Sound) → Run (PlanStep lineOfTwo) twoOrders cs db →
      ConflictFree lineOfTwo db := by
  refine ⟨twoOrders_conflictFree, fun h => ?_⟩
  have hrun : Run (PlanStep lineOfTwo) twoOrders ([optimiseFor [1] 0 20] ++ [optimiseFor [2] 0 30])
      ((optimiseFor [2] 0 30).after lineOfTwo ((optimiseFor [1] 0 20).after lineOfTwo twoOrders)) :=
    .snoc (.snoc .nil rfl) rfl
  have hsound : ∀ c ∈ [optimiseFor [1] 0 20] ++ [optimiseFor [2] 0 30], c.planning.solver.Sound := by
    intro c hc
    simp only [List.cons_append, List.nil_append, List.mem_cons, List.not_mem_nil, or_false] at hc
    rcases hc with rfl | rfl <;> exact CpModel.guess_sound _
  have hfree := h _ _ hsound hrun
  unfold ConflictFree at hfree
  rw [twoRuns_rows] at hfree
  exact hfree (inFirstHours bearing) (by simp) (inFirstHours otherBearing) (by simp) (by decide) (by decide) (by decide)
    (.inr rfl) ⟨_, rfl, _, rfl, _, rfl, _, rfl, by decide, by decide⟩

end TwinVoice.Maintenance
