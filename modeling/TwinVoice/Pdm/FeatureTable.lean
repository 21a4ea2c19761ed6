import Mathlib.Analysis.Real.Sqrt
import TwinVoice.Lib.Grouping
import TwinVoice.Lib.Traversal
import TwinVoice.Pdm.Scoring
import TwinVoice.Pdm.Statistics

/-! # The feature table

`build_features` over a data frame of any number of groups: each group is cut
into windows on its own, and the statistics of all its windows and sensors are
stacked, flattened and put under the names of the columns. Row by row the
table has what the names say, of the rows of that window alone. -/

namespace TwinVoice.Pdm

open TwinVoice.Lib TwinVoice.Lib.NdArray

inductive Cell (K : Type)
  | number (x : K)
  | text (s : String)
  | flag (b : Bool)
  | null
  deriving DecidableEq

/-- A row of a data frame, with its label in the index. -/
structure DataRow (ι K : Type) where
  label : ι
  cell : String → Cell K

/-- A data frame, and which of its columns have a numeric type. -/
structure DataFrame (ι K : Type) where
  columns : List String
  numeric : String → Bool
  rows : List (DataRow ι K)

/-- The features of each window, under the label of its last row. -/
structure FeatureTable (ι K : Type) where
  columns : List String
  rows : List (ι × List K)
  width : ∀ row ∈ rows, row.2.length = columns.length

inductive BuildError
  | indexError
  | keyError
  | typeError
  | valueError

/-- `NON_SENSOR_COLS`. -/
def nonSensorCols : List String := ["time", "timestamp", "unit_id", "cycle", "asset_code", "asset_id"]

variable {ι K : Type}

/-- `sensor_columns`. -/
def sensorColumns (df : DataFrame ι K) (spec : FeatureSpec) (group : Option String) : List String :=
  if spec.sensorCols ≠ [] then spec.sensorCols
  else df.columns.filter fun c => c ∉ nonSensorCols ∧ group ≠ some c ∧ df.numeric c = true

/-- The column to group by, if the frame has it. -/
def groupOf (df : DataFrame ι K) (groupCol : Option String) : Option String :=
  groupCol.filter fun c => c ≠ "" ∧ c ∈ df.columns

/-- What rows are grouped by; a missing value is in no group. -/
def Cell.key : Cell K → Option (Cell K)
  | null => none
  | c => some c

section
variable [DecidableEq K]

/-- `df.groupby(group, sort=False)`. -/
def framesBy (df : DataFrame ι K) (column : String) : List (Cell K × List (DataRow ι K)) :=
  Grouping.inOrder (fun row => (row.cell column).key) df.rows

def frames (df : DataFrame ι K) : Option String → List (List (DataRow ι K))
  | some column => (framesBy df column).map Prod.snd
  | none => [df.rows]

end

section
variable [Field K] [LinearOrder K] (float : String → Option K) (sqrt : K → K)

/-- What `float64` makes of a cell. A missing value is no number. -/
def Cell.toFloat : Cell K → Option K
  | number x => some x
  | text s => float s
  | flag b => some (if b = true then 1 else 0)
  | null => none

/-- `frame[sensor_cols].to_numpy(dtype=np.float64)`. -/
def toNumpy (columns sensors : List String) (rows : List (DataRow ι K)) :
    Except BuildError (Array2 K rows.length sensors.length) :=
  if ∀ s ∈ sensors, s ∈ columns then
    if h : ∀ row ∈ rows, ∀ s ∈ sensors, ((row.cell s).toFloat float).isSome = true then
      .ok fun i j => (((rows.get i).cell (sensors.get j)).toFloat float).get
        (h _ (List.get_mem rows i) _ (List.get_mem sensors j))
    else .error .valueError
  else .error .keyError

/-- `rolling_windows`, with the number of the windows. -/
def windowsOf {n f : Nat} (arr : Array2 K n f) (size stride : Nat) :
    Except BuildError ((count : Nat) × Array3 K count size f) :=
  if h : n < size then .ok ⟨0, fun b => b.elim0⟩
  else if hstride : stride = 0 then .error .valueError
  else .ok ⟨_, transpose021 (every (slidingWindowView arr size (Nat.not_lt.mp h)) stride (Nat.pos_of_ne_zero hstride))⟩

/-- The values and the labels of one group, or none where it has no window. -/
def featurePart (columns sensors : List String) (spec : FeatureSpec) (rows : List (DataRow ι K)) :
    Except BuildError (Option (List (List K) × List ι)) := do
  let arr ← toNumpy float columns sensors rows
  let windows ← windowsOf arr spec.windowSize spec.stride
  if windows.1 = 0 then return none
  else if h : 0 < spec.windowSize then
    -- Nothing can be stacked of no statistic.
    if spec.stats = [] then throw .valueError
    else
      let block := flattenLast (stack (spec.stats.map (windowStats sqrt windows.2 h)))
      let ends := (List.range windows.1).filterMap fun k => rows[k * spec.stride + spec.windowSize - 1]?
      return some (toRows block, ends.map DataRow.label)
  -- An empty window has no minimum.
  else throw .valueError

/-- `pd.DataFrame(values, columns=columns, index=index)`, which raises where the shapes differ. -/
def FeatureTable.make (columns : List String) (values : List (List K)) (index : List ι) :
    Except BuildError (FeatureTable ι K) :=
  if h : values.length = index.length ∧ ∀ row ∈ values, row.length = columns.length then
    .ok ⟨columns, index.zip values, fun _ hrow => h.2 _ (List.of_mem_zip hrow).2⟩
  else .error .valueError

def buildFeatureTable (df : DataFrame ι K) (spec : FeatureSpec) (groupCol : Option String) :
    Except BuildError (FeatureTable ι K) := do
  let group := groupOf df groupCol
  let sensors := sensorColumns df spec group
  let columns := featureNames { spec with sensorCols := sensors }
  let parts ← (frames df group).mapM (featurePart float sqrt df.columns sensors spec)
  let parts := parts.filterMap id
  if parts = [] then return ⟨[], [], by simp⟩
  else FeatureTable.make columns (parts.flatMap Prod.fst) (parts.flatMap Prod.snd)

/-! ## What the table should say -/

/-- A group and the number of a window of it: one for each `k` with `k * stride + size` rows in the group. -/
def windowSlots (size stride : Nat) (frames : List (List (DataRow ι K))) : List (List (DataRow ι K) × Nat) :=
  frames.flatMap fun rows => ((List.range (rows.length + 1)).filter fun k => k * stride + size ≤ rows.length).map fun k =>
    (rows, k)

/-- The row of the table for a window: the label is that of the last row of the window, and under
the name of each statistic of a sensor is what describes the sensor over the rows of the window. -/
def Aligned (spec : FeatureSpec) (sensors columns : List String) (slot : List (DataRow ι K) × Nat) (out : ι × List K) :
    Prop :=
  slot.1[slot.2 * spec.stride + spec.windowSize - 1]?.map DataRow.label = some out.1 ∧
    ∀ sensor ∈ sensors, ∀ stat ∈ spec.stats, ∃ v xs,
      (columns.zip out.2).lookup (featureName sensor stat) = some v ∧
        ((slot.1.drop (slot.2 * spec.stride)).take spec.windowSize).map (fun row => (row.cell sensor).toFloat float) =
          xs.map some ∧
        Describes sqrt stat xs v

/-- The sensors are columns of numbers. -/
def Measured (sensors : List String) (df : DataFrame ι K) : Prop :=
  ∀ s ∈ sensors, s ∈ df.columns ∧ ∀ row ∈ df.rows, ((row.cell s).toFloat float).isSome = true

/-! ## One group -/

variable {float} {sqrt}

omit [LinearOrder K] in
theorem toNumpy_ok {columns sensors : List String} {rows : List (DataRow ι K)} (hcolumns : ∀ s ∈ sensors, s ∈ columns)
    (h : ∀ row ∈ rows, ∀ s ∈ sensors, ((row.cell s).toFloat float).isSome = true) :
    ∃ arr, toNumpy float columns sensors rows = .ok arr ∧
      ∀ i j, ((rows.get i).cell (sensors.get j)).toFloat float = some (arr i j) := by
  unfold toNumpy
  rw [if_pos hcolumns, dif_pos h]
  exact ⟨_, rfl, fun i j => (Option.some_get _).symm⟩

omit [Field K] [LinearOrder K] in
theorem windowsOf_ok {n f : Nat} (arr : Array2 K n f) (size : Nat) {stride : Nat} (h : 0 < stride) :
    ∃ windows, windowsOf arr size stride = .ok windows ∧ windows.1 = Windows.count size stride n ∧
      ∀ (b : Fin windows.1) (j : Fin f) (t : Fin size), ∃ hrow : b * stride + t < n, windows.2 b t j = arr ⟨b * stride + t, hrow⟩ j := by
  unfold windowsOf
  split
  · rename_i hshort
    exact ⟨_, rfl, (if_pos hshort).symm, fun b => b.elim0⟩
  · rename_i hlong
    rw [dif_neg h.ne']
    refine ⟨_, rfl, every_count h (Nat.not_lt.mp hlong), fun b j t => ?_⟩
    exact ⟨_, rfl⟩

omit [LinearOrder K] in
/-- The readings of a sensor in a window, as the rows have them. -/
theorem fibre_rows {rows : List (DataRow ι K)} {sensors : List String} {arr : Array2 K rows.length sensors.length}
    (harr : ∀ i j, ((rows.get i).cell (sensors.get j)).toFloat float = some (arr i j)) {count size stride : Nat}
    {windows : Array3 K count size sensors.length} {b : Fin count} (hfits : b * stride + size ≤ rows.length)
    (hwindows : ∀ (j : Fin sensors.length) (t : Fin size), ∃ hrow : b * stride + t < rows.length, windows b t j = arr ⟨b * stride + t, hrow⟩ j)
    (j : Fin sensors.length) :
    ((rows.drop (b * stride)).take size).map (fun row => (row.cell (sensors.get j)).toFloat float) =
      (fibre windows b j).map some := by
  have hlength : ((rows.drop (b * stride)).take size).length = size := by
    rw [List.length_take, List.length_drop]
    omega
  refine List.ext_getElem (by rw [List.length_map, hlength, List.length_map, length_fibre]) fun t ht _ => ?_
  have hsize : t < size := by rwa [List.length_map, hlength] at ht
  obtain ⟨hrow, hvalue⟩ := hwindows j ⟨t, hsize⟩
  have hfibre : (fibre windows b j)[t]? = some (windows b ⟨t, hsize⟩ j) := by
    rw [fibre, List.getElem?_ofFn, dif_pos hsize]
  rw [List.getElem_map, List.getElem_map, List.getElem_take, List.getElem_drop, ← List.getElem?_eq_getElem, hfibre, hvalue,
    ← harr]
  rfl

/-- What one row of the table has under each name. -/
def named (sensors : List String) (stats : List Stat) (value : Fin sensors.length → Stat → K) : List (String × K) :=
  (List.ofFn fun j => stats.map fun stat => (featureName (sensors.get j) stat, value j stat)).flatten

omit [Field K] [LinearOrder K] in
theorem map_fst_named (spec : FeatureSpec) (sensors : List String) (value : Fin sensors.length → Stat → K) :
    (named sensors spec.stats value).map Prod.fst = featureNames { spec with sensorCols := sensors } := by
  have hnames : (List.ofFn fun j => spec.stats.map (featureName (sensors.get j))) =
      sensors.map fun sensor => spec.stats.map (featureName sensor) := by
    conv_rhs => rw [← List.ofFn_get sensors]
    rw [List.map_ofFn]
    rfl
  rw [named, List.map_flatten, List.map_ofFn]
  simp only [Function.comp_def, List.map_map]
  exact congrArg List.flatten hnames

omit [LinearOrder K] [Field K] in
theorem map_snd_named {sensors : List String} {stats : List Stat} {count : Nat}
    (arrays : Stat → Array2 K count sensors.length) (b : Fin count) :
    (named sensors stats fun j stat => arrays stat b j).map Prod.snd =
      List.ofFn (flattenLast (stack (stats.map arrays)) b) := by
  rw [flattenLast_stack, named, List.map_flatten, List.map_ofFn]
  simp only [Function.comp_def, List.map_map]

omit [Field K] [LinearOrder K] in
theorem mem_named {sensors : List String} {stats : List Stat} {value : Fin sensors.length → Stat → K} {sensor : String}
    {stat : Stat} {v : K} (h : (featureName sensor stat, v) ∈ named sensors stats value) :
    ∃ j, sensors.get j = sensor ∧ v = value j stat := by
  obtain ⟨row, hrow, hmem⟩ := List.mem_flatten.mp h
  obtain ⟨j, rfl⟩ := List.mem_ofFn.mp hrow
  obtain ⟨stat', -, heq⟩ := List.mem_map.mp hmem
  obtain ⟨hname, hvalue⟩ := Prod.mk.inj heq
  obtain ⟨hsensor, rfl⟩ := featureName_inj hname
  exact ⟨j, hsensor, hvalue.symm⟩

/-- One window of a group is a row of the table. -/
theorem aligned_window [IsStrictOrderedRing K] {spec : FeatureSpec} {sensors : List String} {rows : List (DataRow ι K)}
    {arr : Array2 K rows.length sensors.length}
    (harr : ∀ i j, ((rows.get i).cell (sensors.get j)).toFloat float = some (arr i j)) {count : Nat}
    {windows : Array3 K count spec.windowSize sensors.length} (hsize : 0 < spec.windowSize) {b : Fin count}
    (hfits : b * spec.stride + spec.windowSize ≤ rows.length)
    (hwindows : ∀ (j : Fin sensors.length) (t : Fin spec.windowSize), ∃ hrow : b * spec.stride + t < rows.length,
      windows b t j = arr ⟨b * spec.stride + t, hrow⟩ j) {label : ι}
    (hlabel : rows[b * spec.stride + spec.windowSize - 1]?.map DataRow.label = some label) :
    Aligned float sqrt spec sensors (featureNames { spec with sensorCols := sensors }) (rows, b)
      (label, List.ofFn (flattenLast (stack (spec.stats.map (windowStats sqrt windows hsize))) b)) := by
  refine ⟨hlabel, fun sensor hsensor stat hstat => ?_⟩
  have hzip : (featureNames { spec with sensorCols := sensors }).zip
      (List.ofFn (flattenLast (stack (spec.stats.map (windowStats sqrt windows hsize))) b)) =
      named sensors spec.stats fun j stat => windowStats sqrt windows hsize stat b j := by
    rw [← map_fst_named spec sensors fun j stat => windowStats sqrt windows hsize stat b j,
      ← map_snd_named (windowStats sqrt windows hsize) b]
    exact List.zip_map'.trans (List.map_id _)
  rw [hzip]
  have hnamed : featureName sensor stat ∈ (named sensors spec.stats fun j stat =>
      windowStats sqrt windows hsize stat b j).map Prod.fst := by
    rw [map_fst_named]
    exact List.mem_flatMap.mpr ⟨sensor, hsensor, List.mem_map_of_mem hstat⟩
  obtain ⟨v, hv⟩ := Option.ne_none_iff_exists'.mp (Dict.mem_keys_iff.mp hnamed)
  obtain ⟨j, hj, hvalue⟩ := mem_named (Dict.mem_of_get? hv)
  refine ⟨v, fibre windows b j, hv, ?_, ?_⟩
  · rw [← hj]
    exact fibre_rows harr hfits hwindows j
  · rw [hvalue]
    exact windowStats_describes sqrt windows hsize stat b j

/-- Values and labels that are stacked on each other fit the columns, and are right of some windows. -/
structure Stacks (float : String → Option K) (sqrt : K → K) (spec : FeatureSpec) (sensors : List String)
    (slots : List (List (DataRow ι K) × Nat)) (values : List (List K)) (labels : List ι) : Prop where
  height : values.length = labels.length
  width : ∀ row ∈ values, row.length = (featureNames { spec with sensorCols := sensors }).length
  rows : List.Forall₂ (Aligned float sqrt spec sensors (featureNames { spec with sensorCols := sensors })) slots
    (labels.zip values)

theorem Stacks.append {spec : FeatureSpec} {sensors : List String} {slots slots' : List (List (DataRow ι K) × Nat)}
    {values values' : List (List K)} {labels labels' : List ι} (h : Stacks float sqrt spec sensors slots values labels)
    (h' : Stacks float sqrt spec sensors slots' values' labels') :
    Stacks float sqrt spec sensors (slots ++ slots') (values ++ values') (labels ++ labels') where
  height := by rw [List.length_append, List.length_append, h.height, h'.height]
  width row hrow := (List.mem_append.mp hrow).elim (h.width row) (h'.width row)
  rows := by
    rw [List.zip_append h.height.symm]
    exact List.rel_append h.rows h'.rows

/-- What was made of a group is right: nothing where no window fits, and else the stack of its windows. -/
def PartAligned (float : String → Option K) (sqrt : K → K) (spec : FeatureSpec) (sensors : List String)
    (rows : List (DataRow ι K)) : Option (List (List K) × List ι) → Prop
  | none => rows.length < spec.windowSize
  | some (values, labels) => spec.windowSize ≤ rows.length ∧
      Stacks float sqrt spec sensors (windowSlots spec.windowSize spec.stride [rows]) values labels

omit [Field K] [LinearOrder K] in
/-- Each window ends on a row of its group. -/
theorem exists_ends {rows : List (DataRow ι K)} {size stride : Nat} (hsize : 0 < size) (hstride : 0 < stride)
    (hlong : size ≤ rows.length) :
    ∃ last : Nat → DataRow ι K,
      (List.range (Windows.count size stride rows.length)).filterMap (fun k => rows[k * stride + size - 1]?) =
        (List.range (Windows.count size stride rows.length)).map last ∧
      ∀ k < Windows.count size stride rows.length, rows[k * stride + size - 1]? = some (last k) := by
  obtain ⟨first, _, hrows⟩ := List.exists_cons_of_length_pos (Nat.lt_of_lt_of_le hsize hlong)
  have hends : ∀ k < Windows.count size stride rows.length,
      rows[k * stride + size - 1]? = some (rows[k * stride + size - 1]?.getD first) := by
    intro k hk
    have hfits := (Windows.lt_count_iff hstride).mp hk
    rw [List.getElem?_eq_getElem (by omega), Option.getD_some]
  refine ⟨fun k => rows[k * stride + size - 1]?.getD first, ?_, hends⟩
  exact List.filterMap_eq_map_iff_forall_eq_some.mpr fun k hk => hends k (List.mem_range.mp hk)

omit [Field K] [LinearOrder K] in
theorem windowSlots_singleton {size stride : Nat} (h : 0 < stride) (rows : List (DataRow ι K)) :
    windowSlots size stride [rows] = (List.range (Windows.count size stride rows.length)).map fun k => (rows, k) := by
  rw [windowSlots, List.flatMap_singleton, Windows.filter_range_eq h]

theorem featurePart_ok [IsStrictOrderedRing K] {columns : List String} {spec : FeatureSpec} {sensors : List String}
    {rows : List (DataRow ι K)} (hsize : 0 < spec.windowSize) (hstride : 0 < spec.stride) (hstats : spec.stats ≠ [])
    (hcolumns : ∀ s ∈ sensors, s ∈ columns)
    (hrows : ∀ row ∈ rows, ∀ s ∈ sensors, ((row.cell s).toFloat float).isSome = true) :
    ∃ part, featurePart float sqrt columns sensors spec rows = .ok part ∧
      PartAligned float sqrt spec sensors rows part := by
  obtain ⟨arr, hnumpy, harr⟩ := toNumpy_ok hcolumns hrows
  obtain ⟨⟨count, windows⟩, hcut, hcount, hwindows⟩ := windowsOf_ok arr spec.windowSize hstride
  dsimp only at hcount hwindows
  simp only [featurePart, hnumpy, hcut, bind, Except.bind, pure, Except.pure]
  by_cases hshort : rows.length < spec.windowSize
  · have hnone : count = 0 := by rw [hcount, Windows.count, if_pos hshort]
    rw [if_pos hnone]
    exact ⟨none, rfl, hshort⟩
  · have hsome : 0 < count := by
      rw [hcount]
      exact (Windows.lt_count_iff hstride).mpr (by omega)
    rw [if_neg hsome.ne', dif_pos hsize, if_neg hstats]
    obtain ⟨last, hends, hlast⟩ := exists_ends hsize hstride (Nat.not_lt.mp hshort)
    rw [← hcount] at hends hlast
    rw [hends]
    refine ⟨_, rfl, Nat.not_lt.mp hshort, ?_, ?_, ?_⟩
    · simp [toRows]
    · intro row hrow
      obtain ⟨b, rfl⟩ := List.mem_ofFn.mp hrow
      have hnames := map_fst_named spec sensors fun j stat => windowStats sqrt windows hsize stat b j
      rw [← map_snd_named (windowStats sqrt windows hsize) b, ← hnames, List.length_map, List.length_map]
    · rw [windowSlots_singleton hstride, ← hcount, List.forall₂_iff_get]
      refine ⟨by simp [toRows], fun i hi hi' => ?_⟩
      have hlt : i < count := by simpa using hi
      have hfits := (Windows.lt_count_iff hstride).mp (hcount ▸ hlt)
      have hlabel : rows[i * spec.stride + spec.windowSize - 1]?.map DataRow.label = some (last i).label := by
        rw [hlast i hlt, Option.map_some]
      have haligned : Aligned float sqrt spec sensors (featureNames { spec with sensorCols := sensors }) (rows, i)
          ((last i).label, _) := aligned_window harr hsize hfits (hwindows ⟨i, hlt⟩) hlabel
      simpa [toRows] using haligned

/-! ## All groups -/

omit [Field K] [LinearOrder K] in
theorem windowSlots_cons (size stride : Nat) (rows : List (DataRow ι K)) (rest : List (List (DataRow ι K))) :
    windowSlots size stride (rows :: rest) = windowSlots size stride [rows] ++ windowSlots size stride rest := by
  simp [windowSlots]

omit [Field K] [LinearOrder K] in
theorem windowSlots_of_short {size stride : Nat} (h : 0 < stride) {rows : List (DataRow ι K)} (hshort : rows.length < size) :
    windowSlots size stride [rows] = [] := by
  rw [windowSlots_singleton h, Windows.count, if_pos hshort]
  rfl

theorem parts_stack {spec : FeatureSpec} {sensors : List String} (hstride : 0 < spec.stride)
    {groups : List (List (DataRow ι K))} {part : List (DataRow ι K) → Option (List (List K) × List ι)}
    (h : ∀ rows ∈ groups, PartAligned float sqrt spec sensors rows (part rows)) :
    Stacks float sqrt spec sensors (windowSlots spec.windowSize spec.stride groups)
      (((groups.map part).filterMap id).flatMap Prod.fst) (((groups.map part).filterMap id).flatMap Prod.snd) := by
  induction groups with
  | nil => exact ⟨rfl, fun row hrow => absurd hrow List.not_mem_nil, .nil⟩
  | cons rows groups ih =>
    obtain ⟨hfirst, hrest⟩ := List.forall_mem_cons.mp h
    rw [windowSlots_cons, List.map_cons]
    cases hpart : part rows with
    | none =>
      rw [hpart] at hfirst
      rw [windowSlots_of_short hstride hfirst]
      exact ih hrest
    | some p =>
      rw [hpart] at hfirst
      exact hfirst.2.append (ih hrest)

omit [Field K] in
/-- Groups are made of the rows of the frame. -/
theorem mem_of_mem_frames {df : DataFrame ι K} {group : Option String} {rows : List (DataRow ι K)}
    (h : rows ∈ frames df group) {row : DataRow ι K} (hrow : row ∈ rows) : row ∈ df.rows := by
  cases group with
  | none =>
    rw [frames, List.mem_singleton] at h
    exact h ▸ hrow
  | some column =>
    obtain ⟨g, hg, rfl⟩ := List.mem_map.mp h
    rw [(Grouping.inOrder_ordered _ _).members g hg] at hrow
    exact (List.mem_filter.mp hrow).1

/-- The feature table has a row for each window of each group, in the order in which the groups
appear and the windows begin, and in it what its columns say. -/
theorem features_aligned [IsStrictOrderedRing K] (float : String → Option K) (sqrt : K → K) (df : DataFrame ι K)
    (spec : FeatureSpec) (groupCol : Option String) (hsize : 1 ≤ spec.windowSize) (hstride : 1 ≤ spec.stride)
    (hstats : spec.stats ≠ []) (hmeasured : Measured float (sensorColumns df spec (groupOf df groupCol)) df)
    (hfull : ∃ rows ∈ frames df (groupOf df groupCol), spec.windowSize ≤ rows.length) :
    ∃ table, buildFeatureTable float sqrt df spec groupCol = .ok table ∧
      table.columns = featureNames { spec with sensorCols := sensorColumns df spec (groupOf df groupCol) } ∧
      List.Forall₂ (Aligned float sqrt spec (sensorColumns df spec (groupOf df groupCol)) table.columns)
        (windowSlots spec.windowSize spec.stride (frames df (groupOf df groupCol))) table.rows ∧
      ∀ column, groupOf df groupCol = some column →
        Grouping.Ordered (fun row => (row.cell column).key) df.rows (framesBy df column) := by
  generalize hgroup : groupOf df groupCol = group at hmeasured hfull ⊢
  generalize hsensors : sensorColumns df spec group = sensors at hmeasured ⊢
  have hparts : ∀ rows ∈ frames df group, ∃ part,
      featurePart float sqrt df.columns sensors spec rows = .ok part ∧ PartAligned float sqrt spec sensors rows part := by
    intro rows hrows
    refine featurePart_ok hsize hstride hstats (fun s hs => (hmeasured s hs).1) fun row hrow s hs => ?_
    exact (hmeasured s hs).2 row (mem_of_mem_frames hrows hrow)
  choose! part hpart haligned using hparts
  have hstack := parts_stack hstride haligned
  have hsome : ((frames df group).map part).filterMap id ≠ [] := by
    obtain ⟨rows, hmem, hlong⟩ := hfull
    have hkept := haligned rows hmem
    cases hp : part rows with
    | none =>
      rw [hp] at hkept
      exact absurd hkept (Nat.not_lt.mpr hlong)
    | some p => exact List.ne_nil_of_mem (List.mem_filterMap.mpr ⟨some p, List.mem_map.mpr ⟨rows, hmem, hp⟩, rfl⟩)
  simp only [buildFeatureTable, hgroup, hsensors, mapM_eq_map hpart, bind, Except.bind]
  rw [if_neg hsome, FeatureTable.make, dif_pos ⟨hstack.height, hstack.width⟩]
  exact ⟨_, rfl, rfl, hstack.rows, fun column _ => Grouping.inOrder_ordered _ _⟩

/-- Without a statistic a window cannot be made a row. -/
theorem no_table_of_no_statistics {df : DataFrame ι K} {spec : FeatureSpec} {groupCol : Option String}
    (hsize : 1 ≤ spec.windowSize) (hstride : 1 ≤ spec.stride) (hstats : spec.stats = [])
    (hmeasured : Measured float (sensorColumns df spec (groupOf df groupCol)) df)
    (hfull : ∃ rows ∈ frames df (groupOf df groupCol), spec.windowSize ≤ rows.length) (table : FeatureTable ι K) :
    buildFeatureTable float sqrt df spec groupCol ≠ .ok table := by
  intro h
  obtain ⟨rows, hrows, hlong⟩ := hfull
  obtain ⟨parts, hparts, -⟩ := bind_eq_ok h
  obtain ⟨part, hpart⟩ := exists_of_mapM hparts rows hrows
  obtain ⟨arr, hnumpy, -⟩ := toNumpy_ok (fun s hs => (hmeasured s hs).1) fun row hrow s hs =>
    (hmeasured s hs).2 row (mem_of_mem_frames hrows hrow)
  obtain ⟨⟨count, windows⟩, hcut, hcount, -⟩ := windowsOf_ok arr spec.windowSize hstride
  have hsome : 0 < count := by
    rw [show count = _ from hcount]
    exact (Windows.lt_count_iff hstride).mpr (by omega)
  simp only [featurePart, hnumpy, hcut, bind, Except.bind] at hpart
  rw [if_neg hsome.ne', dif_pos (show 0 < spec.windowSize from hsize), if_pos hstats] at hpart
  cases hpart

end

/-! ## On a table of two engines -/

/-- The rows of two engines, by turns. -/
def byTurns (K : Type) [Field K] : DataFrame Nat K where
  columns := ["unit_id", "vib"]
  numeric c := c = "vib"
  rows := [0, 1, 2].map fun (i : Nat) => ⟨i, fun c =>
    if c = "unit_id" then .text (if i = 1 then "pump" else "press") else .number i⟩

/-- Windows of two rows. -/
def twoByTwo (stats : List String) : FeatureSpec := ⟨2, 1, stats, ["vib"]⟩

theorem measured_byTurns (K : Type) [Field K] (stats : List String) : Measured (fun _ => none)
    (sensorColumns (byTurns K) (twoByTwo stats) (groupOf (byTurns K) (some "unit_id"))) (byTurns K) := by
  intro s hs
  have hvib : s = "vib" := by simpa [sensorColumns, twoByTwo] using hs
  subst hvib
  refine ⟨by simp [byTurns], fun row hrow => ?_⟩
  obtain ⟨i, -, rfl⟩ := List.mem_map.mp hrow
  rfl

theorem full_byTurns (K : Type) [Field K] [LinearOrder K] (stats : List String) :
    ∃ rows ∈ frames (byTurns K) (groupOf (byTurns K) (some "unit_id")), (twoByTwo stats).windowSize ≤ rows.length := by
  have hgroup : groupOf (byTurns K) (some "unit_id") = some "unit_id" := by simp [groupOf, byTurns]
  have hordered := Grouping.inOrder_ordered (fun row : DataRow Nat K => (row.cell "unit_id").key) (byTurns K).rows
  obtain ⟨g, hg, hpress⟩ := List.mem_map.mp ((hordered.keys (.text "press")).mpr ⟨_, List.mem_cons_self, rfl⟩)
  refine ⟨g.2, ?_, ?_⟩
  · rw [hgroup]
    exact List.mem_map_of_mem hg
  · rw [hordered.members g hg, hpress]
    simp [byTurns, twoByTwo, Cell.key]

theorem features_aligned_byTurns : ∃ table,
    buildFeatureTable (fun _ => none) Real.sqrt (byTurns ℝ) (twoByTwo ["slope"]) (some "unit_id") = .ok table ∧
      table.columns = ["vib_slope"] := by
  obtain ⟨table, hbuilt, hcolumns, -⟩ := features_aligned (fun _ => none) Real.sqrt (byTurns ℝ) (twoByTwo ["slope"])
    (some "unit_id") (by decide) (by decide) (by decide +kernel) (measured_byTurns ℝ _) (full_byTurns ℝ _)
  exact ⟨table, hbuilt, hcolumns.trans (by decide +kernel)⟩

/-- A table without statistics is not built. -/
theorem features_fail_without_statistics : ¬ ∀ (df : DataFrame Nat ℝ) (spec : FeatureSpec) (groupCol : Option String),
    1 ≤ spec.windowSize → 1 ≤ spec.stride →
      Measured (fun _ => none) (sensorColumns df spec (groupOf df groupCol)) df →
      (∃ rows ∈ frames df (groupOf df groupCol), spec.windowSize ≤ rows.length) →
      ∃ table, buildFeatureTable (fun _ => none) Real.sqrt df spec groupCol = .ok table := by
  intro h
  obtain ⟨table, hbuilt⟩ := h (byTurns ℝ) (twoByTwo []) (some "unit_id") (by decide) (by decide)
    (measured_byTurns ℝ _) (full_byTurns ℝ _)
  exact no_table_of_no_statistics (by decide) (by decide) rfl (measured_byTurns ℝ _) (full_byTurns ℝ _) table hbuilt

end TwinVoice.Pdm
