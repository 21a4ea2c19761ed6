import Mathlib.Algebra.Order.BigOperators.Group.List
import Mathlib.Data.Rat.Floor
import TwinVoice.Xai.Counterfactual

/-! # What the search returns

The change that is returned is one that works, of the fewest features for
which there is one, and the first of the cheapest among these. A grid may end
beyond the range that is declared, a change of more features may be cheaper,
and the point itself is never tried. -/

namespace TwinVoice.Xai

open TwinVoice.Lib TwinVoice.Lib.Choices TwinVoice.Lib.Rounding

/-! ## Points -/

theorem names_of_lastIndex {names : List String} {name : String} {i : Nat} (h : lastIndex names name = some i) :
    names[i]? = some name := by
  obtain ⟨e, he, rfl⟩ := Option.map_eq_some_iff.mp h
  have hmem := List.mem_reverse.mp (List.mem_of_find?_eq_some he)
  have hname : e.1 = name := by simpa using List.find?_some he
  rw [List.getElem?_eq_some_iff]
  obtain ⟨-, hlt, hget⟩ := List.mem_zipIdx hmem
  exact ⟨by omega, by rw [← hname, hget]; simp⟩

namespace Point
variable {K : Type}

@[simp] theorem index_set (x : Point K) (name name' : String) (value : K) :
    (x.set name value).index name' = x.index name' := rfl

theorem index_inj {x : Point K} {name name' : String} {i : Nat} (h : x.index name = some i)
    (h' : x.index name' = some i) : name = name' :=
  Option.some.inj ((names_of_lastIndex h).symm.trans (names_of_lastIndex h'))

theorem lt_of_index {x : Point K} {name : String} {i : Nat} (h : x.index name = some i) : i < x.values.length := by
  obtain ⟨hlt, -⟩ := List.getElem?_eq_some_iff.mp (names_of_lastIndex h)
  rw [x.lengths]
  exact hlt

theorem values_set {x : Point K} {name : String} {i : Nat} (h : x.index name = some i) (value : K) :
    (x.set name value).values = x.values.set i value := by
  unfold set
  dsimp only
  rw [h]

variable [Zero K]

theorem valueAt_eq {x : Point K} {name : String} {i : Nat} (h : x.index name = some i) :
    x.values[i]? = some (x.valueAt name) := by
  unfold valueAt
  rw [h, Option.bind_some, List.getElem?_eq_getElem (lt_of_index h)]
  rfl

theorem valueAt_set_ne (x : Point K) {name name' : String} (hne : name ≠ name') (value : K) :
    (x.set name value).valueAt name' = x.valueAt name' := by
  cases hname : x.index name with
  | none =>
    unfold set valueAt
    simp only [hname]
  | some i =>
    unfold valueAt
    rw [index_set, values_set hname]
    cases hname' : x.index name' with
    | none => rfl
    | some i' =>
      have hi : i ≠ i' := fun heq => hne (index_inj hname (heq ▸ hname'))
      rw [Option.bind_some, Option.bind_some, List.getElem?_set_ne hi]

/-- A feature that is set to its own value. -/
theorem set_valueAt (x : Point K) (name : String) : x.set name (x.valueAt name) = x := by
  refine Point.ext rfl ?_
  cases hname : x.index name with
  | none =>
    unfold set
    simp only [hname]
  | some i =>
    rw [values_set hname]
    refine List.ext_getElem? fun j => ?_
    rw [List.getElem?_set]
    split
    · rename_i hj
      subst hj
      rw [if_pos (lt_of_index hname), valueAt_eq hname]
    · rfl

end Point

/-! ## Changes -/

section
variable {K : Type} [Field K] [LinearOrder K] {x : Point K} {labels : Table (Setting K)}

/-- The point with the changes of a result. -/
def Point.changedBy (x : Point K) (changes : List (Change K)) : Point K :=
  changes.foldl (fun p ch => p.set ch.feature ch.to_) x

/-- The sum of the relative moves, each measured by the label of its feature. -/
def costOf (labels : Table (Setting K)) (changes : List (Change K)) : K :=
  (changes.map fun ch => ((labels.find ch.feature).map fun s => s.relativeMove ch.from_ ch.to_).getD 0).sum

/-- The features are actionable ones that the point has, each of them once. -/
structure Distinct (labels : Table (Setting K)) (x : Point K) (c : Assignment K) : Prop where
  nodup : (c.map fun m => m.1.name).Nodup
  known : ∀ m ∈ c, m.1 ∈ labels.rows ∧ (x.index m.1.name).isSome

/-- What is set to its own value can be left out. -/
theorem assign_changed {c : Assignment K} (h : (c.map fun m => m.1.name).Nodup) :
    x.assign (changed x c) = x.assign c := by
  have hgeneral : ∀ p : Point K, (∀ m ∈ c, p.valueAt m.1.name = x.valueAt m.1.name) →
      p.assign (changed x c) = p.assign c := by
    induction c with
    | nil => exact fun _ _ => rfl
    | cons m c ih =>
      obtain ⟨hfresh, hnodup⟩ := List.nodup_cons.mp h
      intro p hp
      obtain ⟨hm, hc⟩ := List.forall_mem_cons.mp hp
      have hrest : ∀ n ∈ c, (p.set m.1.name m.2).valueAt n.1.name = x.valueAt n.1.name := by
        intro n hn
        have hne : m.1.name ≠ n.1.name := fun heq => hfresh (List.mem_map.mpr ⟨n, hn, heq.symm⟩)
        rw [p.valueAt_set_ne hne, hc n hn]
      by_cases hsame : m.2 = x.valueAt m.1.name
      · have hdropped : changed x (m :: c) = changed x c := List.filter_cons_of_neg (by simpa using hsame)
        have hset : p.set m.1.name m.2 = p := by rw [hsame, ← hm, p.set_valueAt]
        rw [hdropped, ih hnodup p hc]
        show _ = (p.set m.1.name m.2).assign c
        rw [hset]
      · have hkept : changed x (m :: c) = m :: changed x c := List.filter_cons_of_pos (by simpa using hsame)
        rw [hkept]
        exact ih hnodup (p.set m.1.name m.2) hrest
  exact hgeneral x fun _ _ => rfl

theorem changedBy_map (c : Assignment K) : x.changedBy (c.map (change x)) = x.assign c := by
  unfold Point.changedBy Point.assign
  rw [List.foldl_map]
  rfl

variable [FloorRing K]

theorem distinct_of_gridChanges {size : Nat} {c : Assignment K} (h : c ∈ gridChanges x labels size) :
    Distinct labels x c := by
  obtain ⟨hsub, -, -⟩ := mem_assignments.mp h
  have hnames : ((c.map Prod.fst).map Setting.name).Sublist (labels.rows.map Setting.name) :=
    (hsub.trans List.filter_sublist).map _
  refine ⟨?_, fun m hm => ?_⟩
  · rw [List.map_map] at hnames
    exact hnames.nodup labels.keys
  · obtain ⟨hmem, hindex⟩ := Table.mem_select.mp (hsub.subset (List.mem_map_of_mem hm))
    exact ⟨hmem, hindex⟩

section
variable [IsStrictOrderedRing K]

theorem Setting.span_pos (s : Setting K) (current : K) : 0 < s.span current := by
  have hspan : ∀ span : K, 0 ≤ span → 0 < if span = 0 then 1 else span := by
    intro span hspan
    split
    · exact one_pos
    · exact lt_of_le_of_ne hspan (Ne.symm ‹_›)
  unfold Setting.span
  refine hspan _ ?_
  split
  · exact sub_nonneg.mpr (s.ordered _ ‹_› _ ‹_›)
  · split
    · exact zero_le_one
    · exact abs_nonneg _

theorem Setting.relativeMove_nonneg (s : Setting K) (current value : K) : 0 ≤ s.relativeMove current value :=
  div_nonneg (abs_nonneg _) (s.span_pos current).le

theorem Setting.relativeMove_eq_zero {s : Setting K} {current value : K} :
    s.relativeMove current value = 0 ↔ value = current := by
  unfold Setting.relativeMove
  rw [div_eq_zero_iff, or_iff_left (s.span_pos current).ne', abs_eq_zero, sub_eq_zero]

theorem cost_nonneg (x : Point K) (c : Assignment K) : 0 ≤ cost x c :=
  List.sum_nonneg fun q hq => by
    obtain ⟨m, -, rfl⟩ := List.mem_map.mp hq
    exact m.1.relativeMove_nonneg _ _

/-- A change costs nothing exactly if it changes nothing. -/
theorem cost_eq_zero {c : Assignment K} : cost x c = 0 ↔ changed x c = [] := by
  induction c with
  | nil => exact iff_of_true rfl rfl
  | cons m c ih =>
    have hmove := m.1.relativeMove_nonneg (x.valueAt m.1.name) m.2
    have hsplit : cost x (m :: c) = m.1.relativeMove (x.valueAt m.1.name) m.2 + cost x c := List.sum_cons
    rw [hsplit, add_eq_zero_iff_of_nonneg hmove (cost_nonneg x c), Setting.relativeMove_eq_zero, ih]
    unfold changed
    by_cases hsame : m.2 = x.valueAt m.1.name
    · simp [hsame]
    · simp [hsame]

/-- The changes of a result cost what the values that they come from cost. -/
theorem costOf_changed {c : Assignment K} (h : Distinct labels x c) :
    costOf labels ((changed x c).map (change x)) = cost x c := by
  have hfind : ∀ m ∈ c, labels.find m.1.name = some m.1 := fun m hm => Table.find_iff.mpr ⟨(h.known m hm).1, rfl⟩
  clear h
  induction c with
  | nil => rfl
  | cons m c ih =>
    obtain ⟨hm, hc⟩ := List.forall_mem_cons.mp hfind
    have hsplit : cost x (m :: c) = m.1.relativeMove (x.valueAt m.1.name) m.2 + cost x c := List.sum_cons
    rw [hsplit, ← ih hc]
    by_cases hsame : m.2 = x.valueAt m.1.name
    · have hdropped : changed x (m :: c) = changed x c := List.filter_cons_of_neg (by simpa using hsame)
      rw [hdropped, Setting.relativeMove_eq_zero.mpr hsame, zero_add]
    · have hkept : changed x (m :: c) = m :: changed x c := List.filter_cons_of_pos (by simpa using hsame)
      rw [hkept, List.map_cons]
      unfold costOf
      rw [List.map_cons, List.sum_cons]
      have hfeature : (change x m).feature = m.1.name := rfl
      rw [hfeature, hm]
      rfl

end

end

/-! ## The search -/

section
variable {K : Type} [Field K] [LinearOrder K] [FloorRing K] (predict : List K → K) (satisfied : K → Bool) (x : Point K)
variable (labels : Table (Setting K)) (maxFeaturesChanged : Nat)

/-- A change of the allowed number of features on their grids with which the prediction is as wanted. -/
structure Works (c : Assignment K) : Prop where
  some : 1 ≤ c.length
  allowed : c.length ≤ maxFeaturesChanged
  mem : c ∈ reaching predict satisfied x labels c.length

/-- None with which the prediction is as wanted has fewer features. -/
def Fewest (c : Assignment K) : Prop :=
  ∀ d, Works predict satisfied x labels maxFeaturesChanged d → c.length ≤ d.length

/-- The change has fewer features, or as many and is cheaper, or as cheap and tried before. -/
def Beats (d c : Assignment K) : Prop :=
  d.length < c.length ∨ d.length = c.length ∧ (cost x d < cost x c ∨ cost x d = cost x c ∧
    (reaching predict satisfied x labels c.length).idxOf d < (reaching predict satisfied x labels c.length).idxOf c)

/-- The change that the search settles on. -/
structure Chosen (c : Assignment K) : Prop where
  works : Works predict satisfied x labels maxFeaturesChanged c
  unbeaten : ∀ d, Works predict satisfied x labels maxFeaturesChanged d → ¬ Beats predict satisfied x labels d c

/-- What is promised of a counterfactual. -/
structure Sound (r : CounterfactualResult K) : Prop where
  reaches : r.found = true → satisfied (predict (x.changedBy r.changes).values) = true
  actionable : ∀ ch ∈ r.changes, ∃ s ∈ labels.rows, s.name = ch.feature ∧ s.InRange ch.to_
  cheapest : r.found = true → ∀ d, Works predict satisfied x labels maxFeaturesChanged d →
    costOf labels r.changes ≤ cost x d
  unchanged : satisfied (predict x.values) = true → r.found = true ∧ r.changes = []

/-- When the search keeps what is promised: a change beyond a range is beaten, a change of the fewest
features is as cheap as any, and a point that is as wanted has an actionable feature on its grid. -/
structure Searchable : Prop where
  range : ∀ c, Works predict satisfied x labels maxFeaturesChanged c →
    (∃ m ∈ changed x c, ¬ m.1.InRange m.2) →
      ∃ d, Works predict satisfied x labels maxFeaturesChanged d ∧ Beats predict satisfied x labels d c
  fewest : ∀ d, Works predict satisfied x labels maxFeaturesChanged d →
    ∃ c, Works predict satisfied x labels maxFeaturesChanged c ∧
      Fewest predict satisfied x labels maxFeaturesChanged c ∧ cost x c ≤ cost x d
  met : satisfied (predict x.values) = true →
    1 ≤ maxFeaturesChanged ∧ ∃ s ∈ candidates x labels, x.valueAt s.name ∈ s.grid (x.valueAt s.name)

variable {predict satisfied x labels maxFeaturesChanged}

theorem length_of_reaching {size : Nat} {c : Assignment K} (h : c ∈ reaching predict satisfied x labels size) :
    c.length = size :=
  (mem_assignments.mp (List.mem_filter.mp h).1).2.1

theorem works_of_reaching {size : Nat} {c : Assignment K} (h : c ∈ reaching predict satisfied x labels (size + 1))
    (hsize : size < maxFeaturesChanged) : Works predict satisfied x labels maxFeaturesChanged c := by
  have hlength := length_of_reaching h
  exact ⟨by omega, by omega, hlength ▸ h⟩

theorem Works.distinct {c : Assignment K} (h : Works predict satisfied x labels maxFeaturesChanged c) :
    Distinct labels x c :=
  distinct_of_gridChanges (List.mem_filter.mp h.mem).1

theorem Works.reaches {c : Assignment K} (h : Works predict satisfied x labels maxFeaturesChanged c) :
    satisfied (predict (x.assign c).values) = true :=
  (List.mem_filter.mp h.mem).2

/-- Nothing is returned exactly if nothing works. -/
theorem best_eq_none : best predict satisfied x labels maxFeaturesChanged = none ↔
    ∀ c, ¬ Works predict satisfied x labels maxFeaturesChanged c := by
  unfold best
  rw [List.findSome?_eq_none_iff]
  constructor
  · intro h c hc
    have hlength := hc.some
    have hsize : c.length - 1 ∈ List.range maxFeaturesChanged := List.mem_range.mpr (by have := hc.allowed; omega)
    have hnone := List.argmin_eq_none.mp (h _ hsize)
    rw [Nat.sub_add_cancel hlength] at hnone
    have hmem := hc.mem
    rw [hnone] at hmem
    cases hmem
  · intro h i hi
    rw [List.argmin_eq_none, List.eq_nil_iff_forall_not_mem]
    exact fun c hc => h c (works_of_reaching hc (List.mem_range.mp hi))

theorem chosen_of_best {c : Assignment K} (h : best predict satisfied x labels maxFeaturesChanged = some c) :
    Chosen predict satisfied x labels maxFeaturesChanged c := by
  obtain ⟨i, hi, hsome, hnone⟩ := findSome?_range.mp h
  obtain ⟨hmem, hleast, hfirst⟩ := List.mem_argmin_iff.mp hsome
  have hlength := length_of_reaching hmem
  refine ⟨works_of_reaching hmem hi, fun d hd hbeats => ?_⟩
  rcases hbeats with hshorter | ⟨hsame, hcheaper | ⟨hcost, hbefore⟩⟩
  · have hsize := hd.some
    have hempty := List.argmin_eq_none.mp (hnone (d.length - 1) (by omega))
    rw [Nat.sub_add_cancel hsize] at hempty
    have hmem' := hd.mem
    rw [hempty] at hmem'
    cases hmem'
  · have hd' : d ∈ reaching predict satisfied x labels (i + 1) := hlength ▸ hsame ▸ hd.mem
    exact absurd (hleast d hd') (not_le.mpr hcheaper)
  · have hd' : d ∈ reaching predict satisfied x labels (i + 1) := hlength ▸ hsame ▸ hd.mem
    have hbeq : (List.instBEq : BEq (Assignment K)) = instBEqOfDecidableEq := lawful_beq_subsingleton _ _
    rw [hlength, hbeq] at hbefore
    exact absurd (hfirst d hd' hcost.le) (not_le.mpr hbefore)

section
variable {c d : Assignment K} (hc : Chosen predict satisfied x labels maxFeaturesChanged c)
  (hd : Works predict satisfied x labels maxFeaturesChanged d)
include hc hd

theorem Chosen.length_le : c.length ≤ d.length := not_lt.mp fun h => hc.unbeaten d hd (Or.inl h)

theorem Chosen.cost_le (h : d.length = c.length) : cost x c ≤ cost x d :=
  not_lt.mp fun hlt => hc.unbeaten d hd (Or.inr ⟨h, Or.inl hlt⟩)

/-- Any other change that works is beaten. -/
theorem Chosen.beats : d = c ∨ Beats predict satisfied x labels c d := by
  rcases (hc.length_le hd).lt_or_eq with hshorter | hsame
  · exact Or.inr (Or.inl hshorter)
  · rcases (hc.cost_le hd hsame.symm).lt_or_eq with hcheaper | hcost
    · exact Or.inr (Or.inr ⟨hsame, Or.inl hcheaper⟩)
    · have horder : ¬ (reaching predict satisfied x labels c.length).idxOf d <
          (reaching predict satisfied x labels c.length).idxOf c :=
        fun h => hc.unbeaten d hd (Or.inr ⟨hsame.symm, Or.inr ⟨hcost.symm, h⟩⟩)
      rw [hsame] at horder
      rcases (not_lt.mp horder).lt_or_eq with hbefore | hindex
      · exact Or.inr (Or.inr ⟨hsame, Or.inr ⟨hcost, hbefore⟩⟩)
      · exact Or.inl ((List.idxOf_inj hd.mem).mp hindex.symm)

end

/-- The point itself as a change of one feature. -/
theorem works_of_current {s : Setting K} (hs : s ∈ candidates x labels)
    (hgrid : x.valueAt s.name ∈ s.grid (x.valueAt s.name)) (hallowed : 1 ≤ maxFeaturesChanged)
    (hmet : satisfied (predict x.values) = true) :
    Works predict satisfied x labels maxFeaturesChanged [(s, x.valueAt s.name)] := by
  refine ⟨le_rfl, hallowed, List.mem_filter.mpr ⟨mem_assignments.mpr ⟨?_, rfl, ?_⟩, ?_⟩⟩
  · exact List.singleton_sublist.mpr hs
  · intro m hm
    rw [List.mem_singleton.mp hm]
    exact hgrid
  · show satisfied (predict (x.set s.name (x.valueAt s.name)).values) = true
    rw [x.set_valueAt]
    exact hmet

variable [IsStrictOrderedRing K]

/-- The counterfactual that is found is sound exactly if every change beyond a range is beaten, a change
of the fewest features is as cheap as any, and a point that is as wanted is on the grid of a feature. -/
theorem searchCounterfactual_sound_iff (g : K → String) (target outcomeKey : String) :
    Sound predict satisfied x labels maxFeaturesChanged
        (searchCounterfactual predict satisfied x labels g target maxFeaturesChanged outcomeKey) ↔
      Searchable predict satisfied x labels maxFeaturesChanged := by
  unfold searchCounterfactual
  cases hbest : best predict satisfied x labels maxFeaturesChanged with
  | none =>
    have hnone := best_eq_none.mp hbest
    constructor
    · intro hsound
      refine ⟨fun c hc => absurd hc (hnone c), fun d hd => absurd hd (hnone d), fun hmet => ?_⟩
      cases (hsound.unchanged hmet).1
    · intro hsearchable
      refine ⟨fun h => absurd h (by simp), fun ch hch => absurd hch List.not_mem_nil, fun h => absurd h (by simp),
        fun hmet => ?_⟩
      obtain ⟨hallowed, s, hs, hgrid⟩ := hsearchable.met hmet
      exact absurd (works_of_current hs hgrid hallowed hmet) (hnone _)
  | some c =>
    have hchosen := chosen_of_best hbest
    have hdistinct := hchosen.works.distinct
    dsimp only
    constructor
    · intro hsound
      refine ⟨fun d hd hout => ?_, fun d hd => ⟨c, hchosen.works, fun e he => hchosen.length_le he, ?_⟩, fun hmet => ?_⟩
      · rcases hchosen.beats hd with rfl | hbeats
        · obtain ⟨m, hm, hout⟩ := hout
          obtain ⟨s, hs, hname, hrange⟩ := hsound.actionable _ (List.mem_map_of_mem hm)
          have hsame : s = m.1 :=
            List.inj_on_of_nodup_map labels.keys hs (hdistinct.known m (List.mem_filter.mp hm).1).1 hname
          exact absurd (hsame ▸ hrange) hout
        · exact ⟨c, hchosen.works, hbeats⟩
      · have hcheapest := hsound.cheapest rfl d hd
        rwa [costOf_changed hdistinct] at hcheapest
      · have hnothing := List.map_eq_nil_iff.mp (hsound.unchanged hmet).2
        obtain ⟨m, rest, hm⟩ := List.exists_cons_of_length_pos hchosen.works.some
        have hmem : m ∈ c := hm ▸ List.mem_cons_self
        obtain ⟨hsub, -, hgrid⟩ := mem_assignments.mp (List.mem_filter.mp hchosen.works.mem).1
        have hcurrent : m.2 = x.valueAt m.1.name := by
          by_contra hne
          exact List.filter_eq_nil_iff.mp hnothing m hmem (decide_eq_true hne)
        refine ⟨hchosen.works.some.trans hchosen.works.allowed, m.1, hsub.subset (List.mem_map_of_mem hmem), ?_⟩
        rw [← hcurrent]
        have hvalue := hgrid m hmem
        rwa [← hcurrent] at hvalue
    · intro hsearchable
      refine ⟨fun _ => ?_, fun ch hch => ?_, fun _ d hd => ?_, fun hmet => ⟨rfl, ?_⟩⟩
      · rw [changedBy_map, assign_changed hdistinct.nodup]
        exact hchosen.works.reaches
      · obtain ⟨m, hm, rfl⟩ := List.mem_map.mp hch
        refine ⟨m.1, (hdistinct.known m (List.mem_filter.mp hm).1).1, rfl, by_contra fun hout => ?_⟩
        obtain ⟨d, hd, hbeats⟩ := hsearchable.range c hchosen.works ⟨m, hm, hout⟩
        exact hchosen.unbeaten d hd hbeats
      · obtain ⟨e, he, hfewest, hcost⟩ := hsearchable.fewest d hd
        rw [costOf_changed hdistinct]
        refine (hchosen.cost_le he ?_).trans hcost
        exact le_antisymm (hfewest c hchosen.works) (hchosen.length_le he)
      · obtain ⟨hallowed, s, hs, hgrid⟩ := hsearchable.met hmet
        have hcurrent := works_of_current hs hgrid hallowed hmet
        have hone := hchosen.length_le hcurrent
        have hfree : cost x [(s, x.valueAt s.name)] = 0 := cost_eq_zero.mpr (by simp [changed])
        have hcost := hchosen.cost_le hcurrent (le_antisymm hchosen.works.some hone)
        rw [hfree] at hcost
        rw [cost_eq_zero.mp (le_antisymm hcost (cost_nonneg x c))]
        rfl

end

/-! A machine whose remaining life falls with its load. -/

def loadSetting : Setting Rat := ⟨"load_pct", "Load", "%", some 20, some 100, some 5, by simp; norm_num⟩

/-- A range that is no multiple of its step. -/
def wideSetting : Setting Rat := ⟨"load_pct", "Load", "%", some 0, some 10, some 6, by simp⟩

def loads (s : Setting Rat) : Table (Setting Rat) := ⟨[s], List.nodup_singleton _⟩

theorem one_value (name : String) (load : Rat) : [name].length = [load].length := rfl

def loadAt (load : Rat) : Point Rat := ⟨["load_pct"], [load], one_value "load_pct" load⟩

def lifeAtLoad (row : List Rat) : Rat := 200 - row.headD 0

/-- A load of 50.5 % is as wanted and is changed, and a grid up to 10 has 12 for its end. -/
theorem wanted_load_changed :
    decide (149 ≤ lifeAtLoad (loadAt (101 / 2)).values) = true ∧
      (searchCounterfactual lifeAtLoad (fun y => 149 ≤ y) (loadAt (101 / 2)) (loads loadSetting) toString "rul>=149" 2
        "rul_point").changes.map (fun ch => (ch.feature, ch.to_)) = [("load_pct", 50)] ∧
      (searchCounterfactual lifeAtLoad (fun y => y ≤ 189) (loadAt 0) (loads wideSetting) toString "rul<=189" 2
        "rul_point").changes.map (fun ch => (ch.feature, ch.to_)) = [("load_pct", 12)] := by
  decide +kernel

/-- A load of 50 % is as wanted and is left. -/
theorem wanted_load_kept :
    Sound lifeAtLoad (fun y => 150 ≤ y) (loadAt 50) (loads loadSetting) 1
      (searchCounterfactual lifeAtLoad (fun y => 150 ≤ y) (loadAt 50) (loads loadSetting) toString "rul>=150" 1
        "rul_point") := by
  have hgrid : ∀ value ∈ loadSetting.grid 50, 20 ≤ value ∧ value ≤ 100 := by decide +kernel
  have hcandidates : candidates (loadAt 50) (loads loadSetting) = [loadSetting] := by decide +kernel
  have hcurrent : (loadAt 50).valueAt "load_pct" = 50 := by decide
  refine (searchCounterfactual_sound_iff toString "rul>=150" "rul_point").mpr ⟨fun c hc hout => ?_, fun d hd => ?_, fun _ => ?_⟩
  · obtain ⟨m, hm, hout⟩ := hout
    have hmem := (List.mem_filter.mp hm).1
    obtain ⟨hsub, -, hvalues⟩ := mem_assignments.mp (List.mem_filter.mp hc.mem).1
    have hsetting : m.1 = loadSetting := by
      have hin := hsub.subset (List.mem_map_of_mem hmem)
      rw [hcandidates] at hin
      exact List.mem_singleton.mp hin
    have hvalue := hvalues m hmem
    rw [hsetting] at hvalue hout
    obtain ⟨hlow, hhigh⟩ := hgrid m.2 (hcurrent ▸ hvalue)
    exact absurd ⟨by simp [loadSetting, hlow], by simp [loadSetting, hhigh]⟩ hout
  · exact ⟨d, hd, fun e he => hd.allowed.trans he.some, le_rfl⟩
  · refine ⟨le_rfl, loadSetting, by rw [hcandidates]; exact List.mem_cons_self, ?_⟩
    decide +kernel

end TwinVoice.Xai
