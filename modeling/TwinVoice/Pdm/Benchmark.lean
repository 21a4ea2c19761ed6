import TwinVoice.Pdm.FeatureTable

/-! # Windows of the benchmark

`windowed` repeats the first row of each engine in front of its rows, so that
each cycle closes a window, cuts the windows with `build_features`, and joins
each with the row that it ends on. There is nothing to repeat for windows of
one row, and of nothing no table is made. -/

namespace TwinVoice.Pdm

open TwinVoice.Lib

variable {ι K : Type}

/-- The cells of a row, by column. -/
abbrev Cells (K : Type) := String → Cell K

/-- `STATS`. -/
def benchmarkStats : List String := ["mean", "std", "slope", "last", "min", "max"]

/-- `reset_index`: the labels are the places of the rows. -/
def resetIndex (columns : List String) (numeric : String → Bool) (rows : List (Cells K)) : DataFrame Nat K :=
  ⟨columns, numeric, rows.zipIdx.map fun e => ⟨e.2, e.1⟩⟩

/-- `df.loc[label]`. -/
def DataFrame.loc (df : DataFrame Nat K) (label : Nat) : Except BuildError (DataRow Nat K) :=
  match df.rows.find? (·.label = label) with
  | some row => .ok row
  | none => .error .keyError

/-- The features of a window with the cycle that it ends on, and the row of that cycle. -/
structure BenchmarkRow (K : Type) where
  features : List K
  cycle : Cell K
  stop : Cells K

structure Benchmark (K : Type) where
  columns : List String
  rows : List (BenchmarkRow K)

section
variable [Field K] [LinearOrder K]

/-- A number less than what a cell holds. -/
def Cell.minus : Cell K → Nat → Except BuildError (Cell K)
  | number x, n => .ok (.number (x - n))
  | flag b, n => .ok (.number ((if b = true then 1 else 0) - n))
  | text _, _ => .error .typeError
  | null, _ => .ok .null

/-- One engine with its first row repeated in front, at the cycles before. -/
def padUnit (columns : List String) (window : Nat) : List (DataRow ι K) → Except BuildError (List (Cells K))
  | [] => .error .indexError
  | first :: rest =>
    -- `pd.concat` of no frames.
    if window ≤ 1 then .error .valueError
    else if "cycle" ∉ columns then .error .keyError
    else do
      let pad ← (List.range (window - 1)).mapM fun i => do
        let cycle ← (first.cell "cycle").minus (window - 1 - i)
        return Function.update (Function.update first.cell "cycle" cycle) "padded" (.flag true)
      return pad ++ (first :: rest).map fun row => Function.update row.cell "padded" (.flag false)

/-- `_pad_front`. -/
def padFront (df : DataFrame ι K) (window : Nat) : Except BuildError (DataFrame Nat K) := do
  if "unit_id" ∉ df.columns then throw .keyError
  else
    let units ← (framesBy df "unit_id").mapM fun unit => padUnit df.columns window unit.2
    if units = [] then throw .valueError
    else
      return resetIndex (if "padded" ∈ df.columns then df.columns else df.columns ++ ["padded"])
        (fun c => c = "padded" ∨ df.numeric c = true) units.flatten

variable (float : String → Option K) (sqrt : K → K)

def windowed (df : DataFrame ι K) (sensors : List String) (window : Nat) : Except BuildError (Benchmark K) := do
  let padded ← padFront df window
  let features ← buildFeatureTable float sqrt padded ⟨window, 1, benchmarkStats, sensors⟩ (some "unit_id")
  let ends ← features.rows.mapM fun row => padded.loc row.1
  let kept := (features.rows.zip ends).filter fun e => e.2.cell "padded" ≠ .flag true
  return ⟨features.columns, kept.map fun e => ⟨e.1.2, e.2.cell "cycle", e.2.cell⟩⟩

/-! ## What the windows should be -/

/-- A table of engines: each row has an engine and a cycle. -/
structure EngineTable (df : DataFrame ι K) : Prop where
  hasUnit : "unit_id" ∈ df.columns
  hasCycle : "cycle" ∈ df.columns
  units : ∀ row ∈ df.rows, row.cell "unit_id" ≠ .null
  cycles : ∀ row ∈ df.rows, ∃ x, row.cell "cycle" = .number x

/-- Some columns of numbers, none of them the cycle or the mark of a padded row. -/
structure SensorsOf (df : DataFrame ι K) (sensors : List String) : Prop where
  ne_nil : sensors ≠ []
  measured : Measured float sensors df
  ne_cycle : "cycle" ∉ sensors
  ne_padded : "padded" ∉ sensors

/-- The cycle of a row. -/
def cycleOf (row : DataRow ι K) : K :=
  match row.cell "cycle" with
  | .number x => x
  | _ => 0

/-- Engine by engine, a place for each of its rows in the order of the cycles. -/
def cycleSlots (engines : List (List (DataRow ι K))) : List (List (DataRow ι K) × Nat) :=
  engines.flatMap fun rows => (List.range rows.length).map fun k => (rows, k)

def inCycleOrder (rows : List (DataRow ι K)) : List (DataRow ι K) := rows.insertionSort fun a b => cycleOf a ≤ cycleOf b

/-- The row of the benchmark for the `k`-th row of an engine: it has the cells of that row, and under
the name of each statistic of a sensor what describes the sensor over the last `window` rows. -/
def Paired (sensors columns : List String) (window : Nat) (slot : List (DataRow ι K) × Nat) (out : BenchmarkRow K) : Prop :=
  ∃ first row, slot.1.head? = some first ∧ slot.1[slot.2]? = some row ∧ (∀ c, c ≠ "padded" → out.stop c = row.cell c) ∧
    out.cycle = row.cell "cycle" ∧
    ∀ sensor ∈ sensors, ∀ stat : Stat, stat.name ∈ benchmarkStats → ∃ v xs,
      (columns.zip out.features).lookup (featureName sensor stat) = some v ∧
        (Windows.history window first slot.1 slot.2).map (fun row => (row.cell sensor).toFloat float) = xs.map some ∧
        Describes sqrt stat xs v

/-- Each row of each engine has its window, by cycles. -/
def WindowsInEngines (df : DataFrame ι K) (sensors : List String) (window : Nat) : Prop :=
  ∃ out, windowed float sqrt df sensors window = .ok out ∧
    List.Forall₂ (Paired float sqrt sensors out.columns window)
      (cycleSlots ((framesBy df "unit_id").map fun engine => inCycleOrder engine.2)) out.rows

/-! ## The padded table -/

section
omit [LinearOrder K]

/-- The cells of an engine with its first row repeated. -/
def paddedUnit (window : Nat) : List (DataRow ι K) → List (Cells K)
  | [] => []
  | first :: rest =>
    (List.range (window - 1)).map (fun i => Function.update
        (Function.update first.cell "cycle" (.number (cycleOf first - (window - 1 - i : Nat)))) "padded" (.flag true)) ++
      (first :: rest).map fun row => Function.update row.cell "padded" (.flag false)

theorem padUnit_ok {columns : List String} {window : Nat} {rows : List (DataRow ι K)} (hwindow : 2 ≤ window)
    (hcycle : "cycle" ∈ columns) (hne : rows ≠ []) (hcycles : ∀ row ∈ rows, ∃ x, row.cell "cycle" = .number x) :
    padUnit columns window rows = .ok (paddedUnit window rows) := by
  obtain ⟨first, rest, rfl⟩ := List.exists_cons_of_ne_nil hne
  obtain ⟨x, hx⟩ := hcycles first List.mem_cons_self
  have hcycleOf : cycleOf first = x := by rw [cycleOf, hx]
  have hpad : (List.range (window - 1)).mapM (fun i => do
      let cycle ← (Cell.number x).minus (window - 1 - i)
      return Function.update (Function.update first.cell "cycle" cycle) "padded" (.flag true)) =
      (.ok ((List.range (window - 1)).map fun i => Function.update
        (Function.update first.cell "cycle" (.number (x - (window - 1 - i : Nat)))) "padded" (.flag true)) :
        Except BuildError (List (Cells K))) :=
    mapM_eq_map fun i _ => rfl
  rw [padUnit, if_neg (by omega), if_neg (not_not.mpr hcycle), hx, hpad, paddedUnit, hcycleOf]
  rfl

theorem length_paddedUnit (window : Nat) {rows : List (DataRow ι K)} (hne : rows ≠ []) :
    (paddedUnit window rows).length = window - 1 + rows.length := by
  obtain ⟨first, rest, rfl⟩ := List.exists_cons_of_ne_nil hne
  simp [paddedUnit]

/-- Apart from the cycle and the mark it is the first row that is repeated. -/
theorem map_paddedUnit (window : Nat) (first : DataRow ι K) (rest : List (DataRow ι K)) {c : String} (hcycle : c ≠ "cycle")
    (hpadded : c ≠ "padded") : (paddedUnit window (first :: rest)).map (· c) =
      (List.replicate (window - 1) first ++ first :: rest).map fun row => row.cell c := by
  have hpad : ∀ i, Function.update (Function.update first.cell "cycle" (.number (cycleOf first - (window - 1 - i : Nat))))
      "padded" (.flag true) c = first.cell c := by
    intro i
    rw [Function.update_of_ne hpadded, Function.update_of_ne hcycle]
  rw [paddedUnit, List.map_append, List.map_append, List.map_map, List.map_map, List.map_replicate]
  simp only [Function.comp_def, hpad, Function.update_of_ne hpadded, List.map_const', List.length_range]

theorem cell_of_paddedUnit {window : Nat} {rows : List (DataRow ι K)} {cells : Cells K} (h : cells ∈ paddedUnit window rows)
    {c : String} (hcycle : c ≠ "cycle") (hpadded : c ≠ "padded") : ∃ row ∈ rows, cells c = row.cell c := by
  cases rows with
  | nil => cases h
  | cons first rest =>
    have hmem := List.mem_map_of_mem (f := (· c)) h
    rw [map_paddedUnit window first rest hcycle hpadded] at hmem
    obtain ⟨row, hrow, heq⟩ := List.mem_map.mp hmem
    refine ⟨row, ?_, heq.symm⟩
    refine (List.mem_append.mp hrow).elim (fun hpad => ?_) id
    exact List.eq_of_mem_replicate hpad ▸ List.mem_cons_self

theorem getElem?_paddedUnit (window : Nat) {rows : List (DataRow ι K)} (hne : rows ≠ []) (k : Nat) :
    (paddedUnit window rows)[window - 1 + k]? =
      rows[k]?.map fun row => Function.update row.cell "padded" (.flag false) := by
  obtain ⟨first, rest, rfl⟩ := List.exists_cons_of_ne_nil hne
  rw [paddedUnit, List.getElem?_append_right (by simp), List.length_map, List.length_range, Nat.add_sub_cancel_left,
    List.getElem?_map]

end

section
omit [Field K] [LinearOrder K]

/-- With labels put on the rows of all groups one after the other, each group has its rows with theirs. -/
theorem exists_labelled {κ : Type} (units : List (κ × List (Cells K))) (n : Nat) :
    ∃ labelled : List (κ × List (DataRow Nat K)),
      labelled.flatMap Prod.snd = ((units.flatMap Prod.snd).zipIdx n).map (fun e => ⟨e.2, e.1⟩) ∧
        List.Forall₂ (fun l u => l.1 = u.1 ∧ l.2.map DataRow.cell = u.2) labelled units := by
  induction units generalizing n with
  | nil => exact ⟨[], rfl, .nil⟩
  | cons u units ih =>
    obtain ⟨labelled, hrows, hcells⟩ := ih (n + u.2.length)
    refine ⟨(u.1, (u.2.zipIdx n).map fun e => ⟨e.2, e.1⟩) :: labelled, ?_, .cons ⟨rfl, ?_⟩ hcells⟩
    · rw [List.flatMap_cons, hrows, List.flatMap_cons, List.zipIdx_append, List.map_append]
    · rw [List.map_map]
      exact List.zipIdx_map_fst n u.2

theorem loc_resetIndex {columns : List String} {numeric : String → Bool} {cells : List (Cells K)} {row : DataRow Nat K}
    (h : row ∈ (resetIndex columns numeric cells).rows) : (resetIndex columns numeric cells).loc row.label = .ok row := by
  have hlabels : ((resetIndex columns numeric cells).rows.map DataRow.label).Nodup := by
    rw [resetIndex, List.map_map]
    exact (List.zipIdx_map_snd 0 cells) ▸ List.nodup_range'
  rw [DataFrame.loc, find_of_nodup hlabels h]

end

variable {df : DataFrame ι K}

omit [Field K] in
theorem rows_of_engine {engine : Cell K × List (DataRow ι K)}
    (hengine : engine ∈ framesBy df "unit_id") :
    engine.2 ≠ [] ∧ ∀ row ∈ engine.2, row ∈ df.rows ∧ (row.cell "unit_id").key = some engine.1 := by
  have hordered := Grouping.inOrder_ordered (fun row : DataRow ι K => (row.cell "unit_id").key) df.rows
  have hmembers := hordered.members engine hengine
  constructor
  · obtain ⟨row, hrow, hkey⟩ := (hordered.keys engine.1).mp (List.mem_map_of_mem hengine)
    rw [hmembers]
    exact List.ne_nil_of_mem (List.mem_filter.mpr ⟨hrow, decide_eq_true hkey⟩)
  · intro row hrow
    rw [hmembers] at hrow
    exact ⟨(List.mem_filter.mp hrow).1, of_decide_eq_true (List.mem_filter.mp hrow).2⟩

omit [Field K] in
theorem EngineTable.exists_engine (h : EngineTable df) (hne : df.rows ≠ []) : ∃ engine, engine ∈ framesBy df "unit_id" := by
  have hordered := Grouping.inOrder_ordered (fun row : DataRow ι K => (row.cell "unit_id").key) df.rows
  obtain ⟨row, rest, hrows⟩ := List.exists_cons_of_ne_nil hne
  have hrow : row ∈ df.rows := hrows ▸ List.mem_cons_self
  have hkey : (row.cell "unit_id").key = some (row.cell "unit_id") := by
    have hunit := h.units row hrow
    cases hcell : row.cell "unit_id" with
    | null => exact absurd hcell hunit
    | _ => rfl
  obtain ⟨engine, hengine, -⟩ := List.mem_map.mp ((hordered.keys _).mpr ⟨row, hrow, hkey⟩)
  exact ⟨engine, hengine⟩

/-- The columns of a padded table. -/
def paddedColumns (df : DataFrame ι K) : List String :=
  if "padded" ∈ df.columns then df.columns else df.columns ++ ["padded"]

/-- The engines of a padded table are the padded engines. -/
theorem padFront_ok (h : EngineTable df) {window : Nat} (hwindow : 2 ≤ window) (hne : df.rows ≠ []) :
    ∃ padded, padFront df window = .ok padded ∧ padded.columns = paddedColumns df ∧
      (∀ row ∈ padded.rows, padded.loc row.label = .ok row ∧
        ∃ engine ∈ framesBy df "unit_id", row.cell ∈ paddedUnit window engine.2) ∧
      List.Forall₂ (fun l engine => l.2.map DataRow.cell = paddedUnit window engine.2) (framesBy padded "unit_id")
        (framesBy df "unit_id") := by
  have hordered := Grouping.inOrder_ordered (fun row : DataRow ι K => (row.cell "unit_id").key) df.rows
  have hunits : (framesBy df "unit_id").mapM (fun unit => padUnit df.columns window unit.2) =
      .ok ((framesBy df "unit_id").map fun unit => paddedUnit window unit.2) := by
    refine mapM_eq_map fun engine hengine => padUnit_ok hwindow h.hasCycle (rows_of_engine hengine).1 fun row hrow => ?_
    exact h.cycles row ((rows_of_engine hengine).2 row hrow).1
  have hsome : (framesBy df "unit_id").map (fun unit => paddedUnit window unit.2) ≠ [] := by
    obtain ⟨engine, hengine⟩ := h.exists_engine hne
    exact List.ne_nil_of_mem (List.mem_map_of_mem hengine)
  obtain ⟨labelled, hlabelled, hcells⟩ := exists_labelled
    ((framesBy df "unit_id").map fun engine => (engine.1, paddedUnit window engine.2)) 0
  rw [List.forall₂_map_right_iff] at hcells
  dsimp only at hcells
  have hflatten : ((framesBy df "unit_id").map fun unit => paddedUnit window unit.2).flatten =
      ((framesBy df "unit_id").map fun engine => (engine.1, paddedUnit window engine.2)).flatMap Prod.snd := by
    rw [List.flatMap_map]
    rfl
  have hkeys : labelled.map Prod.fst = (framesBy df "unit_id").map Prod.fst := by
    refine List.forall₂_eq_eq_eq ▸ ?_
    rw [List.forall₂_map_left_iff, List.forall₂_map_right_iff]
    exact hcells.imp fun _ _ hl => hl.1
  have hgroups : Grouping.inOrder (fun row : DataRow Nat K => (row.cell "unit_id").key) (labelled.flatMap Prod.snd) =
      labelled := by
    refine Grouping.inOrder_flatMap (hkeys ▸ hordered.nodup) fun l hl => ?_
    obtain ⟨engine, hengine, hkey, hrows⟩ := exists_of_forall₂ hcells hl
    obtain ⟨hne, hengine⟩ := rows_of_engine hengine
    constructor
    · intro hnil
      have hlength := length_paddedUnit window hne
      rw [← hrows, hnil, List.map_nil, List.length_nil] at hlength
      omega
    · intro row hrow
      have hcell : row.cell ∈ paddedUnit window engine.2 := hrows ▸ List.mem_map_of_mem hrow
      obtain ⟨row', hrow', heq⟩ := cell_of_paddedUnit hcell (c := "unit_id") (by decide) (by decide)
      rw [hkey, ← (hengine row' hrow').2, heq]
  refine ⟨resetIndex (paddedColumns df) (fun c => c = "padded" ∨ df.numeric c = true)
    ((framesBy df "unit_id").map fun unit => paddedUnit window unit.2).flatten, ?_, rfl,
    fun row hrow => ⟨loc_resetIndex hrow, ?_⟩, ?_⟩
  · simp only [padFront, hunits, bind, Except.bind]
    rw [if_neg (not_not.mpr h.hasUnit), if_neg hsome]
    rfl
  · obtain ⟨cells, hcells, rfl⟩ := List.mem_map.mp hrow
    obtain ⟨unit, hunit, hmem⟩ := List.mem_flatten.mp (List.fst_mem_of_mem_zipIdx hcells)
    obtain ⟨engine, hengine, rfl⟩ := List.mem_map.mp hunit
    exact ⟨engine, hengine, hmem⟩
  · rw [framesBy, resetIndex, hflatten, ← hlabelled, hgroups]
    exact hcells.imp fun _ _ hl => hl.2

/-! ## One window -/

variable {float : String → Option K} {sqrt : K → K}

omit [LinearOrder K] in
/-- The readings of a sensor in a window of a padded engine are those of the last rows. -/
theorem readings_of_padded {window : Nat} (hwindow : 0 < window) {l : List (DataRow Nat K)} {first : DataRow ι K}
    {rest : List (DataRow ι K)} (hl : l.map DataRow.cell = paddedUnit window (first :: rest)) {sensor : String}
    (hcycle : sensor ≠ "cycle") (hpadded : sensor ≠ "padded") (k : Nat) :
    ((l.drop k).take window).map (fun row => (row.cell sensor).toFloat float) =
      (Windows.history window first (first :: rest) k).map fun row => (row.cell sensor).toFloat float := by
  have hcells : l.map (fun row => row.cell sensor) =
      (List.replicate (window - 1) first ++ first :: rest).map fun row => row.cell sensor := by
    rw [← map_paddedUnit window first rest hcycle hpadded, ← hl, List.map_map]
    rfl
  have hfloats := congrArg (fun cells => ((cells.drop k).take window).map (Cell.toFloat float)) hcells
  rw [← Windows.window_eq_history hwindow]
  simpa only [← List.map_drop, ← List.map_take, List.map_map, Function.comp_def] using hfloats

/-- The window that the padded table has for a row of an engine. -/
theorem paired_of_aligned {sensors columns : List String} {window : Nat} (hwindow : 2 ≤ window) (hcycle : "cycle" ∉ sensors)
    (hpadded : "padded" ∉ sensors) {padded : DataFrame Nat K} {l : List (DataRow Nat K)} {rows : List (DataRow ι K)}
    (hl : l.map DataRow.cell = paddedUnit window rows) (hloc : ∀ row ∈ l, padded.loc row.label = .ok row) {k : Nat}
    (hk : k < rows.length) {out : Nat × List K}
    (haligned : Aligned float sqrt ⟨window, 1, benchmarkStats, sensors⟩ sensors columns (l, k) out) :
    ∃ stop, padded.loc out.1 = .ok stop ∧ stop.cell "padded" = .flag false ∧
      Paired float sqrt sensors columns window (rows, k) ⟨out.2, stop.cell "cycle", stop.cell⟩ := by
  obtain ⟨first, rest, rfl⟩ := List.exists_cons_of_length_pos (Nat.zero_lt_of_lt hk)
  obtain ⟨hlabel, hfeatures⟩ := haligned
  obtain ⟨stop, hstop, hlabel⟩ := Option.map_eq_some_iff.mp hlabel
  have hcell : stop.cell = Function.update (first :: rest)[k].cell "padded" (.flag false) := by
    have hplace : k * 1 + window - 1 = window - 1 + k := by omega
    have hcells := getElem?_paddedUnit window (List.cons_ne_nil first rest) k
    rw [← hl, List.getElem?_map, ← hplace, hstop, Option.map_some, List.getElem?_eq_getElem hk, Option.map_some] at hcells
    exact Option.some.inj hcells
  have hother : ∀ c, c ≠ "padded" → stop.cell c = (first :: rest)[k].cell c := by
    intro c hc
    rw [hcell, Function.update_of_ne hc]
  have hmark : stop.cell "padded" = .flag false := by rw [hcell, Function.update_self]
  refine ⟨stop, hlabel ▸ hloc stop (List.mem_of_getElem? hstop), hmark, first, _, rfl, List.getElem?_eq_getElem hk, hother,
    hother _ (by decide), fun sensor hsensor stat hstat => ?_⟩
  have hstat : stat ∈ FeatureSpec.stats ⟨window, 1, benchmarkStats, sensors⟩ :=
    List.mem_filterMap.mpr ⟨stat.name, hstat, Stat.ofName?_name stat⟩
  obtain ⟨v, xs, hv, hxs, hdescribes⟩ := hfeatures sensor hsensor stat hstat
  refine ⟨v, xs, hv, ?_, hdescribes⟩
  rw [← hxs, ← readings_of_padded (by omega) hl (fun h => hcycle (h ▸ hsensor)) (fun h => hpadded (h ▸ hsensor))]
  simp only [Nat.mul_one]

/-! ## All windows -/

/-- A window of the padded table and the row of an engine that it is for. -/
def Closes (padded : DataFrame Nat K) (window : Nat) (slot : List (DataRow Nat K) × Nat) (slot' : List (DataRow ι K) × Nat) :
    Prop :=
  slot.2 = slot'.2 ∧ slot'.2 < slot'.1.length ∧ slot.1.map DataRow.cell = paddedUnit window slot'.1 ∧
    ∀ row ∈ slot.1, row ∈ padded.rows

omit [LinearOrder K] in
theorem closes_slots {padded : DataFrame Nat K} {window : Nat} (hwindow : 0 < window) {ls : List (List (DataRow Nat K))}
    {engines : List (List (DataRow ι K))} (hne : ∀ rows ∈ engines, rows ≠ []) (hrows : ∀ l ∈ ls, ∀ row ∈ l, row ∈ padded.rows)
    (h : List.Forall₂ (fun l rows => l.map DataRow.cell = paddedUnit window rows) ls engines) :
    List.Forall₂ (Closes padded window) (windowSlots window 1 ls) (cycleSlots engines) := by
  induction h with
  | nil => exact .nil
  | @cons l rows ls engines hl _ ih =>
    obtain ⟨hne, hnes⟩ := List.forall_mem_cons.mp hne
    obtain ⟨hrows, hrowss⟩ := List.forall_mem_cons.mp hrows
    have hcount : Windows.count window 1 l.length = rows.length := by
      have hlength := congrArg List.length hl
      rw [List.length_map, length_paddedUnit window hne] at hlength
      rw [hlength, Windows.count_padded hwindow]
    rw [windowSlots_cons, windowSlots_singleton Nat.one_pos, hcount, cycleSlots, List.flatMap_cons]
    refine List.rel_append ?_ (ih hnes hrowss)
    rw [List.forall₂_map_left_iff, List.forall₂_map_right_iff, List.forall₂_same]
    exact fun k hk => ⟨rfl, List.mem_range.mp hk, hl, hrows⟩

omit [Field K] [LinearOrder K] in
theorem mem_paddedColumns {s : String} (h : s ∈ df.columns) : s ∈ paddedColumns df := by
  unfold paddedColumns
  split
  · exact h
  · exact List.mem_append_left _ h

/-- From windows of two rows on each row of an engine has its window, in the order of the table. -/
theorem windowed_ok [IsStrictOrderedRing K] (h : EngineTable df) {sensors : List String} (hsensors : SensorsOf float df sensors)
    {window : Nat} (hwindow : 2 ≤ window) (hne : df.rows ≠ []) :
    ∃ out, windowed float sqrt df sensors window = .ok out ∧
      List.Forall₂ (Paired float sqrt sensors out.columns window) (cycleSlots ((framesBy df "unit_id").map Prod.snd))
        out.rows := by
  obtain ⟨padded, hpad, hcolumns, hrows, hgroups⟩ := padFront_ok h hwindow hne
  have hgroup : groupOf padded (some "unit_id") = some "unit_id" := by
    have hunit : "unit_id" ∈ padded.columns := hcolumns ▸ mem_paddedColumns h.hasUnit
    simp [groupOf, hunit]
  have hchosen : sensorColumns padded ⟨window, 1, benchmarkStats, sensors⟩ (groupOf padded (some "unit_id")) = sensors :=
    if_pos hsensors.ne_nil
  have hmeasured : Measured float sensors padded := by
    refine fun s hs => ⟨hcolumns ▸ mem_paddedColumns (hsensors.measured s hs).1, fun row hrow => ?_⟩
    obtain ⟨-, engine, hengine, hmem⟩ := hrows row hrow
    obtain ⟨row', hrow', heq⟩ := cell_of_paddedUnit hmem (fun heq => hsensors.ne_cycle (heq ▸ hs))
      (fun heq => hsensors.ne_padded (heq ▸ hs))
    rw [heq]
    exact (hsensors.measured s hs).2 row' ((rows_of_engine hengine).2 row' hrow').1
  have hslots : List.Forall₂ (Closes padded window) (windowSlots window 1 ((framesBy padded "unit_id").map Prod.snd))
      (cycleSlots ((framesBy df "unit_id").map Prod.snd)) := by
    refine closes_slots (by omega) (List.forall_mem_map.mpr fun engine hengine => (rows_of_engine hengine).1)
      (List.forall_mem_map.mpr fun l hl row hrow => ((rows_of_engine hl).2 row hrow).1) ?_
    rwa [List.forall₂_map_left_iff, List.forall₂_map_right_iff]
  have hfull : ∃ l ∈ frames padded (groupOf padded (some "unit_id")), window ≤ l.length := by
    obtain ⟨engine, hengine⟩ := h.exists_engine hne
    obtain ⟨l, hl, hcells⟩ := exists_of_forall₂ hgroups.flip hengine
    have hlength := congrArg List.length hcells
    have hpos := List.length_pos_iff.mpr (rows_of_engine hengine).1
    rw [List.length_map, length_paddedUnit window (rows_of_engine hengine).1] at hlength
    rw [hgroup]
    exact ⟨l.2, List.mem_map_of_mem hl, by omega⟩
  have hstats : FeatureSpec.stats ⟨window, 1, benchmarkStats, sensors⟩ ≠ [] := by
    show benchmarkStats.filterMap Stat.ofName? ≠ []
    decide +kernel
  obtain ⟨table, hbuilt, -, haligned, -⟩ := features_aligned float sqrt padded ⟨window, 1, benchmarkStats, sensors⟩
    (some "unit_id") (Nat.le_of_succ_le hwindow) (Nat.le_refl 1) hstats (hchosen.symm ▸ hmeasured) hfull
  rw [hchosen, hgroup] at haligned
  have hclosed : List.Forall₂ (fun slot (row : Nat × List K) => ∃ stop, padded.loc row.1 = .ok stop ∧
      stop.cell "padded" = .flag false ∧
      Paired float sqrt sensors table.columns window slot ⟨row.2, stop.cell "cycle", stop.cell⟩)
      (cycleSlots ((framesBy df "unit_id").map Prod.snd)) table.rows := by
    refine forall₂_comp ?_ hslots.flip haligned
    intro slot' slot row hcloses hrow
    obtain ⟨l, k⟩ := slot
    obtain ⟨rows, k'⟩ := slot'
    obtain ⟨rfl, hk, hl, hmem⟩ := hcloses
    exact paired_of_aligned hwindow hsensors.ne_cycle hsensors.ne_padded hl (fun row hrow => (hrows row (hmem row hrow)).1)
      hk hrow
  obtain ⟨ends, hends⟩ := exists_mapM (f := fun row : Nat × List K => padded.loc row.1) (l := table.rows) fun row hrow => by
    obtain ⟨_, _, stop, hstop, -⟩ := exists_of_forall₂ hclosed.flip hrow
    exact ⟨stop, hstop⟩
  have hjoined : List.Forall₂ (fun slot (e : (Nat × List K) × DataRow Nat K) => e.2.cell "padded" = .flag false ∧
      Paired float sqrt sensors table.columns window slot ⟨e.1.2, e.2.cell "cycle", e.2.cell⟩)
      (cycleSlots ((framesBy df "unit_id").map Prod.snd)) (table.rows.zip ends) := by
    refine (forall₂_zip hclosed (mapM_eq_ok_iff.mp hends)).imp fun slot e he => ?_
    obtain ⟨⟨stop, hstop, hmark, hpaired⟩, hend⟩ := he
    have heq : stop = e.2 := Except.ok.inj (hstop.symm.trans hend)
    exact heq ▸ ⟨hmark, hpaired⟩
  have hkept : (table.rows.zip ends).filter (fun e => e.2.cell "padded" ≠ .flag true) = table.rows.zip ends := by
    refine List.filter_eq_self.mpr fun e he => ?_
    obtain ⟨_, -, hmark, -⟩ := exists_of_forall₂ hjoined.flip he
    rw [hmark]
    rfl
  refine ⟨⟨table.columns, (table.rows.zip ends).map fun e => ⟨e.1.2, e.2.cell "cycle", e.2.cell⟩⟩, ?_, ?_⟩
  · simp only [windowed, hpad, hbuilt, hends, bind, Except.bind]
    rw [hkept]
    rfl
  · rw [List.forall₂_map_right_iff]
    exact hjoined.imp fun _ _ he => he.2

/-- Windows of one row, and tables of none, raise. -/
theorem of_windowed {sensors : List String} {window : Nat} {out : Benchmark K}
    (h : windowed float sqrt df sensors window = .ok out) : 2 ≤ window ∧ df.rows ≠ [] := by
  obtain ⟨padded, hpad, -⟩ := bind_eq_ok h
  unfold padFront at hpad
  split at hpad
  · cases hpad
  · obtain ⟨units, hunits, hpad⟩ := bind_eq_ok hpad
    split at hpad
    · cases hpad
    · rename_i hsome
      have hengines : framesBy df "unit_id" ≠ [] := by
        intro hnil
        rw [hnil] at hunits
        cases hunits
        exact hsome rfl
      obtain ⟨engine, hengine⟩ := List.exists_mem_of_ne_nil _ hengines
      obtain ⟨unit, hunit⟩ := exists_of_mapM hunits engine hengine
      obtain ⟨hne, hrows⟩ := rows_of_engine hengine
      obtain ⟨first, rest, hfirst⟩ := List.exists_cons_of_ne_nil hne
      have hfirstRow : first ∈ df.rows := (hrows first (hfirst ▸ List.mem_cons_self)).1
      refine ⟨?_, List.ne_nil_of_mem hfirstRow⟩
      by_contra hshort
      rw [hfirst, padUnit, if_pos (by omega)] at hunit
      cases hunit

/-! ## By cycles -/

/-- The cycles that rows of the benchmark are for. -/
theorem cycles_of_paired {sensors columns : List String} {window : Nat} {engines : List (List (DataRow ι K))}
    {out : List (BenchmarkRow K)} (h : List.Forall₂ (Paired float sqrt sensors columns window) (cycleSlots engines) out) :
    engines.flatMap (fun rows => rows.map fun row => row.cell "cycle") = out.map BenchmarkRow.cycle := by
  have hslots : ∀ rows : List (DataRow ι K), (List.range rows.length).map (fun k => (rows[k]?.map fun row => row.cell "cycle")) =
      (rows.map fun row => row.cell "cycle").map some := by
    intro rows
    refine List.ext_getElem (by simp) fun k hk _ => ?_
    have hlt : k < rows.length := by simpa using hk
    simp [hlt]
  have hcells : (cycleSlots engines).map (fun slot => slot.1[slot.2]?.map fun row => row.cell "cycle") =
      out.map fun o => some o.cycle := by
    rw [← List.forall₂_eq_eq_eq, List.forall₂_map_left_iff, List.forall₂_map_right_iff]
    refine h.imp fun slot o hpaired => ?_
    obtain ⟨_, row, -, hrow, -, hcycle, -⟩ := hpaired
    rw [hrow, hcycle, Option.map_some]
  have hflat : (cycleSlots engines).map (fun slot => slot.1[slot.2]?.map fun row => row.cell "cycle") =
      (engines.flatMap fun rows => rows.map fun row => row.cell "cycle").map some := by
    rw [cycleSlots, List.map_flatMap, List.map_flatMap]
    congr 1
    funext rows
    rw [List.map_map]
    exact hslots rows
  refine List.map_injective_iff.mpr (Option.some_injective _) ?_
  rw [← hflat, hcells, List.map_map]
  rfl

omit [Field K] [LinearOrder K] in
theorem eq_of_flatMap_eq {α β : Type} {f f' : α → List β} (hlength : ∀ a, (f a).length = (f' a).length) {l : List α}
    (h : l.flatMap f = l.flatMap f') : ∀ a ∈ l, f a = f' a := by
  induction l with
  | nil => simp
  | cons a l ih =>
    rw [List.flatMap_cons, List.flatMap_cons] at h
    obtain ⟨hfirst, hrest⟩ := List.append_inj h (hlength a)
    exact List.forall_mem_cons.mpr ⟨hfirst, ih hrest⟩

/-- Rows that are in order when their cycles are sorted were so before. -/
theorem pairwise_of_cycles {rows : List (DataRow ι K)}
    (h : ((inCycleOrder rows).map fun row => row.cell "cycle") = rows.map fun row => row.cell "cycle") :
    rows.Pairwise fun a b => cycleOf a ≤ cycleOf b := by
  have hcycles : (inCycleOrder rows).map cycleOf = rows.map cycleOf := by
    have hnumbers := congrArg (List.map fun c : Cell K => match c with | .number x => x | _ => 0) h
    rw [List.map_map, List.map_map] at hnumbers
    exact hnumbers
  have hmap := List.map_insertionSort (fun a b => cycleOf a ≤ cycleOf b) (· ≤ ·) cycleOf rows fun _ _ _ _ => Iff.rfl
  rw [inCycleOrder, hmap] at hcycles
  have hsorted := List.pairwise_insertionSort (fun a b : K => a ≤ b) (rows.map cycleOf)
  rw [hcycles] at hsorted
  exact List.pairwise_map.mp hsorted

/-- Each row of each engine has its window, with its own label, exactly where the windows have two
rows or more and the table has the rows of each engine in the order of the cycles. -/
theorem windows_in_engines_iff [IsStrictOrderedRing K] (float : String → Option K) (sqrt : K → K) (df : DataFrame ι K)
    (sensors : List String) (window : Nat) (h : EngineTable df) (hsensors : SensorsOf float df sensors) :
    WindowsInEngines float sqrt df sensors window ↔ 2 ≤ window ∧ df.rows ≠ [] ∧
      ∀ engine ∈ framesBy df "unit_id", engine.2.Pairwise fun a b => cycleOf a ≤ cycleOf b := by
  constructor
  · intro hwindows
    obtain ⟨out, hout, hpaired⟩ := hwindows
    obtain ⟨hwindow, hne⟩ := of_windowed hout
    obtain ⟨out', hout', hpaired'⟩ := windowed_ok h hsensors hwindow hne
    obtain rfl : out = out' := Except.ok.inj (hout.symm.trans hout')
    have hcycles := (cycles_of_paired hpaired).trans (cycles_of_paired hpaired').symm
    rw [List.flatMap_map, List.flatMap_map] at hcycles
    refine ⟨hwindow, hne, fun engine hengine => pairwise_of_cycles (eq_of_flatMap_eq ?_ hcycles engine hengine)⟩
    intro engine
    rw [List.length_map, List.length_map, inCycleOrder, List.length_insertionSort]
  · intro hcondition
    obtain ⟨hwindow, hne, hsorted⟩ := hcondition
    obtain ⟨out, hout, hpaired⟩ := windowed_ok h hsensors hwindow hne
    have hsame : (framesBy df "unit_id").map (fun engine => inCycleOrder engine.2) = (framesBy df "unit_id").map Prod.snd :=
      List.map_congr_left fun engine hengine => (hsorted engine hengine).insertionSort_eq
    exact ⟨out, hout, hsame.symm ▸ hpaired⟩

end

/-! ## On a table of two engines -/

/-- Three cycles of two engines, by turns. -/
def cyclesByTurns (K : Type) [Field K] : DataFrame Nat K where
  columns := ["unit_id", "cycle", "vib", "rul"]
  numeric _ := true
  rows := [0, 1, 2].map fun (i : Nat) => ⟨i, fun c =>
    if c = "unit_id" then .number (if i = 1 then 1 else 0) else .number i⟩

theorem engineTable_byTurns (K : Type) [Field K] : EngineTable (cyclesByTurns K) where
  hasUnit := by simp [cyclesByTurns]
  hasCycle := by simp [cyclesByTurns]
  units row hrow := by
    obtain ⟨i, -, rfl⟩ := List.mem_map.mp hrow
    simp
  cycles row hrow := by
    obtain ⟨i, -, rfl⟩ := List.mem_map.mp hrow
    exact ⟨i, rfl⟩

theorem sensorsOf_byTurns (K : Type) [Field K] [LinearOrder K] : SensorsOf (fun _ => none) (cyclesByTurns K) ["vib"] where
  ne_nil := List.cons_ne_nil _ _
  measured s hs := by
    rw [List.mem_singleton] at hs
    subst hs
    refine ⟨by simp [cyclesByTurns], fun row hrow => ?_⟩
    obtain ⟨i, -, rfl⟩ := List.mem_map.mp hrow
    rfl
  ne_cycle := by decide
  ne_padded := by decide

theorem sorted_byTurns (K : Type) [Field K] [LinearOrder K] [IsStrictOrderedRing K] :
    ∀ engine ∈ framesBy (cyclesByTurns K) "unit_id", engine.2.Pairwise fun a b => cycleOf a ≤ cycleOf b := by
  intro engine hengine
  rw [(Grouping.inOrder_ordered _ _).members engine hengine]
  refine List.Pairwise.filter _ (List.pairwise_map.mpr ?_)
  simp [cycleOf]

theorem windows_in_engines_byTurns : WindowsInEngines (fun _ => none) Real.sqrt (cyclesByTurns ℝ) ["vib"] 30 :=
  (windows_in_engines_iff (fun _ => none) Real.sqrt (cyclesByTurns ℝ) ["vib"] 30 (engineTable_byTurns ℝ)
    (sensorsOf_byTurns ℝ)).mpr ⟨by decide, List.cons_ne_nil _ _, sorted_byTurns ℝ⟩

/-- Windows of one row are not cut. -/
theorem no_windows_of_one_row : ¬ ∀ (df : DataFrame Nat ℝ) (sensors : List String) (window : Nat), 1 ≤ window →
    EngineTable df → SensorsOf (fun _ => none) df sensors → df.rows ≠ [] →
    (∀ engine ∈ framesBy df "unit_id", engine.2.Pairwise fun a b => cycleOf a ≤ cycleOf b) →
    WindowsInEngines (fun _ => none) Real.sqrt df sensors window := by
  intro h
  obtain ⟨out, hout, -⟩ := h (cyclesByTurns ℝ) ["vib"] 1 (Nat.le_refl 1) (engineTable_byTurns ℝ) (sensorsOf_byTurns ℝ)
    (List.cons_ne_nil _ _) (sorted_byTurns ℝ)
  exact absurd (of_windowed hout).1 (by decide)

end TwinVoice.Pdm
