import Mathlib.Algebra.BigOperators.Group.List.Lemmas
import Mathlib.Algebra.Field.Basic
import Mathlib.Algebra.Order.BigOperators.Group.List
import Mathlib.Data.List.Dedup
import Mathlib.Order.Lattice
import Mathlib.Tactic.FieldSimp
import Mathlib.Tactic.Ring
import TwinVoice.Lib.Dict

/-! # Grouped rows

Rows by the value of a key, as `GROUP BY` forms them: every row is in one
group, a group holds all rows of its key, and grouping commutes with a choice
of keys. The mean of the means of some groups is the mean of all their members
exactly if the sizes and the means of the groups are uncorrelated. -/

namespace TwinVoice.Lib.Grouping

variable {α κ : Type*} [DecidableEq κ]

/-- The rows of each key. -/
def groups (key : α → κ) (rows : List α) : List (κ × List α) :=
  (rows.map key).dedup.map fun k => (k, rows.filter fun r => key r = k)

theorem mem_groups {key : α → κ} {rows : List α} {g : κ × List α} :
    g ∈ groups key rows ↔ g.1 ∈ rows.map key ∧ g.2 = rows.filter fun r => key r = g.1 := by
  unfold groups
  rw [List.mem_map]
  constructor
  · intro h
    obtain ⟨k, hk, rfl⟩ := h
    exact ⟨List.mem_dedup.mp hk, rfl⟩
  · intro h
    obtain ⟨hk, hg⟩ := h
    exact ⟨g.1, List.mem_dedup.mpr hk, Prod.ext rfl hg.symm⟩

/-- No group is empty. -/
theorem ne_nil_of_mem_groups {key : α → κ} {rows : List α} {g : κ × List α} (h : g ∈ groups key rows) : g.2 ≠ [] := by
  obtain ⟨hk, hg⟩ := mem_groups.mp h
  obtain ⟨r, hr, hkey⟩ := List.mem_map.mp hk
  rw [hg]
  exact List.ne_nil_of_mem (List.mem_filter.mpr ⟨hr, decide_eq_true hkey⟩)

theorem dedup_filter (p : κ → Bool) (ks : List κ) : (ks.filter p).dedup = ks.dedup.filter p := by
  induction ks with
  | nil => rfl
  | cons k ks ih =>
    by_cases hp : p k = true
    · rw [List.filter_cons_of_pos hp]
      by_cases hk : k ∈ ks
      · rw [List.dedup_cons_of_mem hk, List.dedup_cons_of_mem (List.mem_filter.mpr ⟨hk, hp⟩), ih]
      · rw [List.dedup_cons_of_notMem hk, List.dedup_cons_of_notMem (fun h => hk (List.mem_filter.mp h).1),
          List.filter_cons_of_pos hp, ih]
    · rw [List.filter_cons_of_neg hp, ih]
      by_cases hk : k ∈ ks
      · rw [List.dedup_cons_of_mem hk]
      · rw [List.dedup_cons_of_notMem hk, List.filter_cons_of_neg hp]

/-- Some of the groups are the groups of some of the rows. -/
theorem filter_groups (p : κ → Bool) (key : α → κ) (rows : List α) :
    (groups key rows).filter (fun g => p g.1) = groups key (rows.filter fun r => p (key r)) := by
  have hkeys : (rows.filter fun r => p (key r)).map key = (rows.map key).filter p := by
    rw [List.filter_map]
    rfl
  unfold groups
  rw [hkeys, dedup_filter, List.filter_map]
  refine List.map_congr_left fun k hk => ?_
  have hpk : p k = true := (List.mem_filter.mp hk).2
  refine congrArg (Prod.mk k) ?_
  rw [List.filter_filter]
  refine List.filter_congr fun r _ => ?_
  by_cases hr : key r = k
  · simp [hr, hpk]
  · simp [hr]

/-- The group of one key. -/
theorem filter_groups_key (k : κ) (key : α → κ) (rows : List α) :
    (groups key rows).filter (fun g => g.1 = k) =
      if (rows.filter fun r => key r = k) = [] then [] else [(k, rows.filter fun r => key r = k)] := by
  have hkeys : (rows.map key).dedup.filter (fun k' => k' = k) = if k ∈ rows.map key then [k] else [] := by
    rw [List.filter_eq, List.count_dedup]
    split <;> rfl
  have hmem : k ∈ rows.map key ↔ (rows.filter fun r => key r = k) ≠ [] := by
    simp [List.filter_eq_nil_iff]
  unfold groups
  rw [List.filter_map]
  refine (congrArg (List.map _) hkeys).trans ?_
  by_cases hk : k ∈ rows.map key
  · rw [if_pos hk, if_neg (hmem.mp hk)]
    rfl
  · rw [if_neg hk, if_pos (not_not.mp (mt hmem.mpr hk))]
    rfl

theorem length_filter_groups_key_le (k : κ) (key : α → κ) (rows : List α) :
    ((groups key rows).filter fun g => g.1 = k).length ≤ 1 := by
  rw [filter_groups_key]
  split <;> simp

theorem flatten_filters_perm (key : α → κ) {ks : List κ} (hks : ks.Nodup) {rows : List α} (h : ∀ r ∈ rows, key r ∈ ks) :
    (ks.map fun k => rows.filter fun r => key r = k).flatten.Perm rows := by
  induction ks generalizing rows with
  | nil =>
    cases rows with
    | nil => exact .refl _
    | cons r rows => cases h r List.mem_cons_self
  | cons k ks ih =>
    obtain ⟨hk, hks⟩ := List.nodup_cons.mp hks
    have hrest : ∀ r ∈ rows.filter (fun r => !decide (key r = k)), key r ∈ ks := by
      intro r hr
      obtain ⟨hr, hne⟩ := List.mem_filter.mp hr
      exact (List.mem_cons.mp (h r hr)).resolve_left (by simpa using hne)
    have hsame : (ks.map fun k' => (rows.filter fun r => !decide (key r = k)).filter fun r => key r = k') =
        ks.map fun k' => rows.filter fun r => key r = k' := by
      refine List.map_congr_left fun k' hk' => ?_
      rw [List.filter_filter]
      refine List.filter_congr fun r _ => ?_
      by_cases hr : key r = k'
      · have hne : k' ≠ k := fun heq => hk (heq ▸ hk')
        simp [hr, hne]
      · simp [hr]
    have ih := ih hks hrest
    rw [hsame] at ih
    rw [List.map_cons, List.flatten_cons]
    exact (ih.append_left _).trans (List.filter_append_perm _ rows)

/-- The groups together are the rows. -/
theorem flatten_groups_perm (key : α → κ) (rows : List α) : ((groups key rows).map Prod.snd).flatten.Perm rows := by
  have hmap : (groups key rows).map Prod.snd = (rows.map key).dedup.map fun k => rows.filter fun r => key r = k := by
    rw [groups, List.map_map]
    rfl
  rw [hmap]
  exact flatten_filters_perm key (List.nodup_dedup _) fun r hr => List.mem_dedup.mpr (List.mem_map_of_mem hr)

/-! ## Least and greatest members -/

section
variable {β : Type*} [LinearOrder β]

theorem min?_congr {xs ys : List β} (h : ∀ x, x ∈ xs ↔ x ∈ ys) : xs.min? = ys.min? := by
  refine Option.ext fun a => ?_
  rw [List.min?_eq_some_iff, List.min?_eq_some_iff, h a]
  simp only [h]

/-- The least of the least members of some groups is the least member of them all. -/
theorem min?_min? (gs : List (List β)) : (gs.filterMap List.min?).min? = gs.flatten.min? := by
  refine Option.ext fun a => ?_
  rw [List.min?_eq_some_iff, List.min?_eq_some_iff]
  constructor
  · intro h
    obtain ⟨hmem, hleast⟩ := h
    obtain ⟨g, hg, hmin⟩ := List.mem_filterMap.mp hmem
    refine ⟨List.mem_flatten.mpr ⟨g, hg, (List.min?_eq_some_iff.mp hmin).1⟩, fun b hb => ?_⟩
    obtain ⟨g', hg', hb⟩ := List.mem_flatten.mp hb
    obtain ⟨b', hb'⟩ := Option.isSome_iff_exists.mp (List.isSome_min?_of_mem hb)
    exact (hleast b' (List.mem_filterMap.mpr ⟨g', hg', hb'⟩)).trans ((List.min?_eq_some_iff.mp hb').2 b hb)
  · intro h
    obtain ⟨hmem, hleast⟩ := h
    obtain ⟨g, hg, ha⟩ := List.mem_flatten.mp hmem
    refine ⟨List.mem_filterMap.mpr ⟨g, hg, List.min?_eq_some_iff.mpr ⟨ha, fun b hb => ?_⟩⟩, fun b hb => ?_⟩
    · exact hleast b (List.mem_flatten.mpr ⟨g, hg, hb⟩)
    · obtain ⟨g', hg', hmin⟩ := List.mem_filterMap.mp hb
      exact hleast b (List.mem_flatten.mpr ⟨g', hg', (List.min?_eq_some_iff.mp hmin).1⟩)

theorem max?_congr {xs ys : List β} (h : ∀ x, x ∈ xs ↔ x ∈ ys) : xs.max? = ys.max? := by
  refine Option.ext fun a => ?_
  rw [List.max?_eq_some_iff, List.max?_eq_some_iff, h a]
  simp only [h]

theorem max?_max? (gs : List (List β)) : (gs.filterMap List.max?).max? = gs.flatten.max? :=
  @min?_min? βᵒᵈ _ gs

end

/-! ## Means -/

section
variable {K : Type*} [Field K]

def mean (xs : List K) : K := xs.sum / xs.length

/-- The sum over the groups of the deviation of the size by the deviation of the mean. -/
def covariance (gs : List (List K)) : K :=
  (gs.map fun g => ((g.length : K) - mean (gs.map fun g => (g.length : K))) * (mean g - mean (gs.map mean))).sum

theorem sum_deviations (gs : List (List K)) (c d : K) :
    (gs.map fun g => ((g.length : K) - c) * (mean g - d)).sum =
      (gs.map fun g => (g.length : K) * mean g).sum - d * (gs.map fun g => (g.length : K)).sum -
        c * (gs.map mean).sum + gs.length * c * d := by
  induction gs with
  | nil => simp
  | cons g gs ih =>
    simp only [List.map_cons, List.sum_cons, List.length_cons, ih]
    push_cast
    ring

theorem sum_cast_length (gs : List (List K)) : (gs.map fun g => (g.length : K)).sum = gs.flatten.length := by
  induction gs with
  | nil => simp
  | cons g gs ih =>
    rw [List.map_cons, List.sum_cons, List.flatten_cons, List.length_append, Nat.cast_add, ih]

variable [CharZero K]

theorem length_mul_mean {xs : List K} (h : xs ≠ []) : (xs.length : K) * mean xs = xs.sum := by
  have hne : (xs.length : K) ≠ 0 := Nat.cast_ne_zero.mpr (mt List.length_eq_zero_iff.mp h)
  rw [mean, mul_div_cancel₀ _ hne]

theorem sum_length_mul_mean {gs : List (List K)} (h : ∀ g ∈ gs, g ≠ []) :
    (gs.map fun g => (g.length : K) * mean g).sum = gs.flatten.sum := by
  rw [List.sum_flatten]
  exact congrArg List.sum (List.map_congr_left fun g hg => length_mul_mean (h g hg))

theorem mean_mean_eq_iff {gs : List (List K)} (h : ∀ g ∈ gs, g ≠ []) :
    mean (gs.map mean) = mean gs.flatten ↔ covariance gs = 0 := by
  by_cases hgs : gs = []
  · subst hgs
    simp [mean, covariance]
  · have hcount : (gs.length : K) ≠ 0 := Nat.cast_ne_zero.mpr (mt List.length_eq_zero_iff.mp hgs)
    have hflat : gs.flatten ≠ [] := by
      intro hnil
      obtain ⟨g, hg⟩ := List.exists_mem_of_ne_nil gs hgs
      exact h g hg (List.flatten_eq_nil_iff.mp hnil g hg)
    have hsize : (gs.flatten.length : K) ≠ 0 := Nat.cast_ne_zero.mpr (mt List.length_eq_zero_iff.mp hflat)
    have hmeans : (gs.map mean).sum = gs.length * mean (gs.map mean) := by
      have := @length_mul_mean K _ _ (gs.map mean) (by simpa using hgs)
      rw [List.length_map] at this
      exact this.symm
    have hcov : covariance gs = gs.flatten.length * (mean gs.flatten - mean (gs.map mean)) := by
      rw [covariance, sum_deviations, sum_length_mul_mean h, sum_cast_length, hmeans, mul_sub, length_mul_mean hflat]
      ring
    rw [hcov, mul_eq_zero, sub_eq_zero]
    constructor
    · intro heq
      exact .inr heq.symm
    · intro hzero
      exact (hzero.resolve_left hsize).symm

/-- Groups of one size have no covariance. -/
theorem covariance_of_even {gs : List (List K)} {n : Nat} (h : ∀ g ∈ gs, g.length = n) : covariance gs = 0 := by
  have hsizes : (gs.map fun g => (g.length : K)) = List.replicate gs.length (n : K) := by
    rw [← List.map_const']
    exact List.map_congr_left fun g hg => by rw [h g hg]
  refine List.sum_eq_zero fun x hx => ?_
  obtain ⟨g, hg, rfl⟩ := List.mem_map.mp hx
  have hcount : (gs.length : K) ≠ 0 := Nat.cast_ne_zero.mpr (mt List.length_eq_zero_iff.mp (List.ne_nil_of_mem hg))
  rw [hsizes, h g hg, mean, List.sum_replicate, List.length_replicate, nsmul_eq_mul, mul_div_cancel_left₀ _ hcount,
    sub_self, zero_mul]

end

/-! ## In the order of appearance -/

/-- Each item where it is first. -/
def firsts : List κ → List κ
  | [] => []
  | k :: ks => k :: (firsts ks).filter (· ≠ k)

/-- The rows of each key, the keys in the order in which they appear; rows without one are left out. -/
def inOrder (key : α → Option κ) (rows : List α) : List (κ × List α) :=
  ((firsts (rows.map key)).filterMap id).map fun k => (k, rows.filter fun r => key r = some k)

@[simp] theorem mem_firsts {k : κ} {ks : List κ} : k ∈ firsts ks ↔ k ∈ ks := by
  induction ks with
  | nil => exact Iff.rfl
  | cons c ks ih =>
    rw [firsts, List.mem_cons, List.mem_cons, List.mem_filter, ih]
    by_cases hk : k = c
    · simp [hk]
    · simp [hk]

theorem nodup_firsts (ks : List κ) : (firsts ks).Nodup := by
  induction ks with
  | nil => exact List.nodup_nil
  | cons c ks ih =>
    refine List.nodup_cons.mpr ⟨?_, ih.filter _⟩
    simp [List.mem_filter]

theorem pairwise_firsts [BEq κ] [LawfulBEq κ] (ks : List κ) : (firsts ks).Pairwise fun k k' => ks.idxOf k < ks.idxOf k' := by
  induction ks with
  | nil => exact .nil
  | cons c ks ih =>
    have hne : ∀ k ∈ (firsts ks).filter (· ≠ c), (c :: ks).idxOf k = ks.idxOf k + 1 := by
      intro k hk
      have hkc : k ≠ c := by simpa using (List.mem_filter.mp hk).2
      exact List.idxOf_cons_ne ks hkc.symm
    refine List.pairwise_cons.mpr ⟨?_, ?_⟩
    · intro k hk
      rw [List.idxOf_cons_self, hne k hk]
      exact Nat.succ_pos _
    · refine (ih.filter _).imp_of_mem fun {k k'} hk hk' hlt => ?_
      rw [hne k hk, hne k' hk']
      exact Nat.succ_lt_succ hlt

/-- What is a grouping in the order of appearance. -/
structure Ordered (key : α → Option κ) (rows : List α) (gs : List (κ × List α)) : Prop where
  nodup : (gs.map Prod.fst).Nodup
  keys : ∀ k, k ∈ gs.map Prod.fst ↔ ∃ r ∈ rows, key r = some k
  appearance : gs.Pairwise fun g g' => (rows.map key).idxOf (some g.1) < (rows.map key).idxOf (some g'.1)
  members : ∀ g ∈ gs, g.2 = rows.filter fun r => key r = some g.1

theorem inOrder_ordered (key : α → Option κ) (rows : List α) : Ordered key rows (inOrder key rows) where
  nodup := by
    have hkeys : (inOrder key rows).map Prod.fst = (firsts (rows.map key)).filterMap id := by
      rw [inOrder, List.map_map]
      exact List.map_id _
    rw [hkeys]
    exact (nodup_firsts _).filterMap fun k k' b hb hb' => (show k = some b from hb).trans (show k' = some b from hb').symm
  keys k := by
    simp [inOrder, List.mem_map]
  appearance := by
    refine List.pairwise_map.mpr (List.pairwise_filterMap.mpr ((pairwise_firsts _).imp ?_))
    intro k k' hlt b hb b' hb'
    rwa [← show k = some b from hb, ← show k' = some b' from hb']
  members g hg := by
    obtain ⟨k, -, rfl⟩ := List.mem_map.mp hg
    rfl

theorem firsts_append (ks ks' : List κ) : firsts (ks ++ ks') = firsts ks ++ (firsts ks').filter (· ∉ ks) := by
  induction ks with
  | nil =>
    rw [List.nil_append, firsts, List.nil_append]
    exact (List.filter_eq_self.mpr fun k _ => decide_eq_true List.not_mem_nil).symm
  | cons k ks ih =>
    rw [List.cons_append, firsts, ih, List.filter_append, List.filter_filter, firsts, List.cons_append]
    congr 2
    refine List.filter_congr fun k' _ => ?_
    by_cases hk : k' = k <;> simp [hk]

theorem firsts_of_forall_eq {k : κ} {ks : List κ} (hne : ks ≠ []) (h : ∀ k' ∈ ks, k' = k) : firsts ks = [k] := by
  obtain ⟨k', rest, rfl⟩ := List.exists_cons_of_ne_nil hne
  have hrest : (firsts rest).filter (· ≠ k') = [] := by
    refine List.filter_eq_nil_iff.mpr fun c hc => ?_
    have hc' := h c (List.mem_cons_of_mem _ (mem_firsts.mp hc))
    simp [hc', h k' List.mem_cons_self]
  rw [firsts, hrest, h k' List.mem_cons_self]

section
variable {key : α → Option κ} {gs : List (κ × List α)}

theorem filter_of_key {k k' : κ} {rows : List α} (h : ∀ r ∈ rows, key r = some k) :
    rows.filter (fun r => key r = some k') = if k = k' then rows else [] := by
  split
  · rename_i hk
    exact List.filter_eq_self.mpr fun r hr => decide_eq_true (hk ▸ h r hr)
  · rename_i hk
    refine List.filter_eq_nil_iff.mpr fun r hr => ?_
    simp [h r hr, hk]

/-- Of groups that follow each other the rows of a key are one group. -/
theorem filter_flatMap_key (hnodup : (gs.map Prod.fst).Nodup) (h : ∀ g ∈ gs, ∀ r ∈ g.2, key r = some g.1)
    {g : κ × List α} (hg : g ∈ gs) : (gs.flatMap Prod.snd).filter (fun r => key r = some g.1) = g.2 := by
  induction gs with
  | nil => cases hg
  | cons g' gs ih =>
    obtain ⟨hg', hgs⟩ := List.forall_mem_cons.mp h
    obtain ⟨hfresh, hnodup⟩ := List.nodup_cons.mp hnodup
    rw [List.flatMap_cons, List.filter_append, filter_of_key hg']
    rcases List.mem_cons.mp hg with rfl | hmem
    · have hrest : (gs.flatMap Prod.snd).filter (fun r => key r = some g.1) = [] := by
        refine List.filter_eq_nil_iff.mpr fun r hr hkey => hfresh ?_
        obtain ⟨g'', hg'', hr⟩ := List.mem_flatMap.mp hr
        have heq : g''.1 = g.1 := Option.some.inj ((hgs g'' hg'' r hr).symm.trans (by simpa using hkey))
        exact heq ▸ List.mem_map_of_mem hg''
      rw [if_pos rfl, hrest, List.append_nil]
    · have hne : g'.1 ≠ g.1 := fun heq => hfresh (heq ▸ List.mem_map_of_mem hmem)
      rw [if_neg hne, List.nil_append, ih hnodup hgs hmem]

theorem firsts_flatMap (hnodup : (gs.map Prod.fst).Nodup) (h : ∀ g ∈ gs, g.2 ≠ [] ∧ ∀ r ∈ g.2, key r = some g.1) :
    firsts ((gs.flatMap Prod.snd).map key) = gs.map fun g => some g.1 := by
  induction gs with
  | nil => rfl
  | cons g gs ih =>
    obtain ⟨hg, hgs⟩ := List.forall_mem_cons.mp h
    obtain ⟨hfresh, hnodup⟩ := List.nodup_cons.mp hnodup
    have hone : firsts (g.2.map key) = [some g.1] :=
      firsts_of_forall_eq (by simpa using hg.1) (List.forall_mem_map.mpr hg.2)
    rw [List.flatMap_cons, List.map_append, firsts_append, hone, ih hnodup hgs]
    refine congrArg (some g.1 :: ·) (List.filter_eq_self.mpr fun k hk => ?_)
    have hlater : k ∉ g.2.map key := by
      intro hmem
      obtain ⟨g', hg', rfl⟩ := List.mem_map.mp hk
      obtain ⟨r, hr, hkey⟩ := List.mem_map.mp hmem
      have heq : g.1 = g'.1 := Option.some.inj ((hg.2 r hr).symm.trans hkey)
      exact hfresh (heq ▸ List.mem_map_of_mem hg')
    simpa using hlater

/-- Groups that follow each other are found again. -/
theorem inOrder_flatMap (hnodup : (gs.map Prod.fst).Nodup) (h : ∀ g ∈ gs, g.2 ≠ [] ∧ ∀ r ∈ g.2, key r = some g.1) :
    inOrder key (gs.flatMap Prod.snd) = gs := by
  have hkeys : (gs.map fun g => some g.1).filterMap id = gs.map Prod.fst := by
    rw [List.filterMap_map]
    exact congrFun (List.filterMap_eq_map (f := Prod.fst)) gs
  rw [inOrder, firsts_flatMap hnodup h, hkeys, List.map_map]
  conv_rhs => rw [← List.map_id gs]
  refine List.map_congr_left fun g hg => Prod.ext rfl ?_
  exact filter_flatMap_key hnodup (fun g hg => (h g hg).2) hg

end

end TwinVoice.Lib.Grouping

/-! ## Totals by key

Rows added up in a dictionary by a key, one after the other. What stands under
a key is the sum over the rows of that key, whatever the order, and all totals
together are the sum over all rows. Of totals in descending order the first
few account for what is more than a threshold exactly if there are no more
such than that. -/

namespace TwinVoice.Lib.Dict

variable {α κ ν : Type} [DecidableEq κ] [AddCommMonoid ν] (key : α → κ) (value : α → ν)

/-- `d[k] = d.get(k, 0) + v`. -/
def add (d : Dict κ ν) (k : κ) (v : ν) : Dict κ ν := d.set k ((d.get? k).getD 0 + v)

/-- The rows added up by a key. -/
def totals (rows : List α) : Dict κ ν := rows.foldl (fun d r => d.add (key r) (value r)) []

/-- The sum over the rows of one key. -/
def totalOf (rows : List α) (k : κ) : ν := ((rows.filter fun r => key r = k).map value).sum

theorem totals_append_singleton (rows : List α) (r : α) :
    totals key value (rows ++ [r]) = (totals key value rows).add (key r) (value r) := by
  simp [totals]

theorem totalOf_append_singleton (rows : List α) (r : α) (k : κ) :
    totalOf key value (rows ++ [r]) k = totalOf key value rows k + if key r = k then value r else 0 := by
  unfold totalOf
  rw [List.filter_append, List.map_append, List.sum_append]
  by_cases h : key r = k <;> simp [h]

theorem nodup_totals (rows : List α) : ((totals key value rows).map Prod.fst).Nodup := by
  induction rows using List.reverseRecOn with
  | nil => exact List.nodup_nil
  | append_singleton rows r ih =>
    rw [totals_append_singleton]
    exact nodup_set ih _ _

theorem totalOf_of_notMem {rows : List α} {k : κ} (h : k ∉ rows.map key) : totalOf key value rows k = 0 := by
  have hnone : (rows.filter fun r => key r = k) = [] := by
    refine List.filter_eq_nil_iff.mpr ?_
    intro r hr hkey
    exact h (List.mem_map.mpr ⟨r, hr, of_decide_eq_true hkey⟩)
  rw [totalOf, hnone]
  rfl

/-- Under every key that occurs stands its total. -/
theorem mem_totals {rows : List α} {e : κ × ν} :
    e ∈ totals key value rows ↔ e.1 ∈ rows.map key ∧ e.2 = totalOf key value rows e.1 := by
  induction rows using List.reverseRecOn generalizing e with
  | nil => simp [totals]
  | append_singleton rows r ih =>
    have hget : ((totals key value rows).get? (key r)).getD 0 = totalOf key value rows (key r) := by
      by_cases hr : key r ∈ rows.map key
      · have hentry : (key r, totalOf key value rows (key r)) ∈ totals key value rows := ih.mpr ⟨hr, rfl⟩
        rw [get?_eq_some hentry fun w hw => (ih.mp hw).2, Option.getD_some]
      · have hfresh : key r ∉ (totals key value rows).map Prod.fst := by
          intro hmem
          obtain ⟨e, he, hkey⟩ := List.mem_map.mp hmem
          exact hr (hkey ▸ (ih.mp he).1)
        rw [get?_eq_none hfresh, totalOf_of_notMem key value hr, Option.getD_none]
    rw [totals_append_singleton, add, hget, mem_set, ih, totalOf_append_singleton, List.map_append, List.mem_append]
    obtain ⟨k, v⟩ := e
    by_cases hk : k = key r
    · subst hk
      simp
    · simp [hk, Ne.symm hk]

theorem totals_perm (rows : List α) :
    (totals key value rows).Perm ((rows.map key).dedup.map fun k => (k, totalOf key value rows k)) := by
  have hinj : Function.Injective fun k => (k, totalOf key value rows k) := fun k k' h => congrArg Prod.fst h
  refine (List.perm_ext_iff_of_nodup (nodup_totals key value rows).of_map ((List.nodup_dedup _).map hinj)).mpr ?_
  intro e
  rw [mem_totals]
  constructor
  · rintro ⟨hkey, htotal⟩
    exact List.mem_map.mpr ⟨e.1, List.mem_dedup.mpr hkey, Prod.ext rfl htotal.symm⟩
  · intro h
    obtain ⟨k, hk, rfl⟩ := List.mem_map.mp h
    exact ⟨List.mem_dedup.mp hk, rfl⟩

theorem sum_totals (rows : List α) : ((totals key value rows).map Prod.snd).sum = (rows.map value).sum := by
  have hgroups : ((rows.map key).dedup.map fun k => totalOf key value rows k) =
      (Grouping.groups key rows).map fun g => (g.2.map value).sum := by
    rw [Grouping.groups, List.map_map]
    rfl
  calc ((totals key value rows).map Prod.snd).sum
      = ((rows.map key).dedup.map fun k => totalOf key value rows k).sum := by
        rw [((totals_perm key value rows).map Prod.snd).sum_eq, List.map_map]
        rfl
    _ = (((Grouping.groups key rows).map Prod.snd).flatten.map value).sum := by
        rw [hgroups, List.map_flatten, List.sum_flatten, List.map_map, List.map_map]
        rfl
    _ = (rows.map value).sum := ((Grouping.flatten_groups_perm key rows).map value).sum_eq

end TwinVoice.Lib.Dict

namespace TwinVoice.Lib

variable {α : Type} {r : α → α → Prop} {p : α → Bool}

/-- In descending order, those past the first `n` are below a threshold if there are no more than `n` above it. -/
theorem forall_drop_iff {xs : List α} (hs : xs.Pairwise r) (hup : ∀ x y, r x y → p y = true → p x = true) (n : ℕ) :
    (∀ x ∈ xs.drop n, p x = false) ↔ (xs.filter p).length ≤ n := by
  have hsplit : (xs.filter p).length = ((xs.take n).filter p).length + ((xs.drop n).filter p).length := by
    rw [← List.length_append, ← List.filter_append, List.take_append_drop]
  constructor
  · intro h
    have hnone : (xs.drop n).filter p = [] := List.filter_eq_nil_iff.mpr fun x hx => by simp [h x hx]
    rw [hsplit, hnone]
    exact ((List.length_filter_le _ _).trans (List.length_take_le _ _))
  · intro h x hx
    by_contra hpx
    rw [Bool.not_eq_false] at hpx
    have hbefore : ∀ y ∈ xs.take n, r y x := by
      intro y hy
      rw [← List.take_append_drop n xs] at hs
      exact (List.pairwise_append.mp hs).2.2 y hy x hx
    have hall : (xs.take n).filter p = xs.take n :=
      List.filter_eq_self.mpr fun y hy => hup y x (hbefore y hy) hpx
    have hlong : n < xs.length := by
      have := List.length_pos_of_mem hx
      rw [List.length_drop] at this
      omega
    have hmore := List.length_pos_of_mem (List.mem_filter.mpr ⟨hx, hpx⟩)
    rw [hsplit, hall, List.length_take, min_eq_left hlong.le] at h
    omega

end TwinVoice.Lib
