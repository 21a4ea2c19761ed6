import Mathlib.Algebra.Order.Group.Defs
import Mathlib.Data.List.SplitBy
import Mathlib.Order.Lattice
import Mathlib.Tactic.Abel
import Mathlib.Tactic.Common

/-! # Runs

One pass over a list that keeps the first and the last member of each run of
members close to the next one. It computes the ends of the maximal runs. In a
list in strict order these ends part the members: each one is between the ends
of exactly one run, the one that it is in. -/

namespace TwinVoice.Lib.Runs

variable {α : Type*}

section
variable (close : α → α → Bool)

/-- A further member ends the last run, if it is close to its end, or is a new run. -/
def extend (merged : List (α × α)) (t : α) : List (α × α) :=
  match merged.getLast? with
  | some last => if close last.2 t then merged.dropLast ++ [(last.1, t)] else merged ++ [(t, t)]
  | none => merged ++ [(t, t)]

def merge (ts : List α) : List (α × α) := ts.foldl (extend close) []

variable {close}

theorem extend_concat (merged : List (α × α)) (last : α × α) (t : α) : extend close (merged ++ [last]) t =
    if close last.2 t then merged ++ [(last.1, t)] else merged ++ [last] ++ [(t, t)] := by
  rw [extend, List.getLast?_concat]
  dsimp only
  rw [List.dropLast_concat]

variable [Inhabited α]

/-- The first and the last member of a run. -/
def ends (run : List α) : α × α := (run.head?.getD default, run.getLast?.getD default)

theorem ends_cons (a : α) (run : List α) : ends (a :: run) = (a, (run.getLast?.getD a)) := by
  rw [ends, List.head?_cons, List.getLast?_cons, Option.getD_some, Option.getD_some]

theorem ends_concat_snd (run : List α) (a : α) : (ends (run ++ [a])).2 = a := by
  simp [ends]

theorem ends_concat (run : List α) (a b : α) : ends (run ++ [a] ++ [b]) = ((ends (run ++ [a])).1, b) := by
  refine Prod.ext ?_ (ends_concat_snd _ b)
  cases run <;> rfl

/-- The pass, once it is in a run of which the members before `a` are in `run`, the latest first. -/
theorem foldl_extend (rest : List α) (a : α) (run : List α) (runs : List (List α)) :
    rest.foldl (extend close) (runs.reverse.map ends ++ [ends (run.reverse ++ [a])]) =
      (List.splitBy.loop close rest a run runs).map ends := by
  induction rest generalizing a run runs with
  | nil =>
    rw [List.foldl_nil, List.splitBy.loop, List.reverse_cons, List.map_append, List.reverse_cons]
    rfl
  | cons b rest ih =>
    rw [List.foldl_cons, extend_concat, ends_concat_snd, List.splitBy.loop]
    cases hclose : close a b with
    | true =>
      rw [if_pos rfl, ← ih, List.reverse_cons, ends_concat]
    | false =>
      rw [if_neg (by simp), ← ih, List.reverse_cons, List.map_append, List.reverse_cons]
      rfl

/-- The pass computes the ends of the maximal runs. -/
theorem merge_eq (ts : List α) : merge close ts = (ts.splitBy close).map ends := by
  cases ts with
  | nil => rfl
  | cons a rest => exact foldl_extend rest a [] []

variable {ts run : List α}

theorem ends_fst_mem (h : run ≠ []) : (ends run).1 ∈ run := by
  obtain ⟨a, rest, rfl⟩ := List.exists_cons_of_ne_nil h
  rw [ends_cons]
  exact List.mem_cons_self

theorem ends_snd_mem (h : run ≠ []) : (ends run).2 ∈ run := by
  rw [ends, List.getLast?_eq_some_getLast h]
  exact List.getLast_mem h

theorem mem_of_mem_merge {e : α × α} (he : e ∈ merge close ts) : e.1 ∈ ts ∧ e.2 ∈ ts := by
  rw [merge_eq] at he
  obtain ⟨run, hrun, rfl⟩ := List.mem_map.mp he
  have hne := List.ne_nil_of_mem_splitBy hrun
  constructor
  · rw [← List.flatten_splitBy close ts]
    exact List.mem_flatten.mpr ⟨run, hrun, ends_fst_mem hne⟩
  · rw [← List.flatten_splitBy close ts]
    exact List.mem_flatten.mpr ⟨run, hrun, ends_snd_mem hne⟩

/-- The end of a run is not close to the start of the next one. -/
theorem isChain_merge (ts : List α) : (merge close ts).IsChain fun e f => close e.2 f.1 = false := by
  rw [merge_eq, List.isChain_map]
  refine (List.isChain_getLast_head_splitBy close ts).imp fun run run' h => ?_
  obtain ⟨hrun, hrun', hfar⟩ := h
  rwa [ends, ends, List.getLast?_eq_some_getLast hrun, List.head?_eq_some_head hrun']

end

/-! ## Lists in strict order -/

/-- Two members are the same, or one comes before the other. -/
theorem eq_or_rel_of_pairwise {β : Type*} {R : β → β → Prop} {l : List β} (h : l.Pairwise R) {e f : β} (he : e ∈ l)
    (hf : f ∈ l) : e = f ∨ R e f ∨ R f e := by
  obtain ⟨i, hi, rfl⟩ := List.mem_iff_getElem.mp he
  obtain ⟨j, hj, rfl⟩ := List.mem_iff_getElem.mp hf
  have hpairs := List.pairwise_iff_getElem.mp h
  rcases Nat.lt_trichotomy i j with hlt | heq | hgt
  · exact .inr (.inl (hpairs i j hi hj hlt))
  · subst heq
    exact .inl rfl
  · exact .inr (.inr (hpairs j i hj hi hgt))

section
variable [LinearOrder α]

/-- Neighbours by their order are neighbours in the list. -/
theorem rel_of_isChain {R : α → α → Prop} {l : List α} (hchain : l.IsChain R) (hsorted : l.Pairwise (· < ·)) {a b : α}
    (ha : a ∈ l) (hb : b ∈ l) (hab : a < b) (hnone : ∀ c ∈ l, a < c → ¬ c < b) : R a b := by
  obtain ⟨i, hi, rfl⟩ := List.mem_iff_getElem.mp ha
  obtain ⟨j, hj, rfl⟩ := List.mem_iff_getElem.mp hb
  have hpairs := List.pairwise_iff_getElem.mp hsorted
  have hij : i < j := by
    rcases Nat.lt_trichotomy i j with hlt | heq | hgt
    · exact hlt
    · subst heq
      exact absurd hab (lt_irrefl _)
    · exact absurd (hpairs j i hj hi hgt) (lt_asymm hab)
  rcases Nat.eq_or_lt_of_le (Nat.succ_le_of_lt hij) with hnext | hlater
  · subst hnext
    exact List.isChain_iff_getElem.mp hchain i hj
  · exact absurd (hpairs (i + 1) j (by omega) hj hlater)
      (hnone _ (List.getElem_mem (by omega)) (hpairs i (i + 1) hi (by omega) (Nat.lt_succ_self i)))

theorem pairwise_runs {close : α → α → Bool} {ts : List α} (hsorted : ts.Pairwise (· < ·)) :
    (∀ run ∈ ts.splitBy close, run.Pairwise (· < ·)) ∧
      (ts.splitBy close).Pairwise fun run run' => ∀ x ∈ run, ∀ y ∈ run', x < y := by
  rw [← List.pairwise_flatten, List.flatten_splitBy]
  exact hsorted

variable [Inhabited α] {close : α → α → Bool} {ts run : List α}

theorem ends_fst_le (hsorted : run.Pairwise (· < ·)) {t : α} (ht : t ∈ run) : (ends run).1 ≤ t := by
  obtain ⟨a, rest, rfl⟩ := List.exists_cons_of_ne_nil (List.ne_nil_of_mem ht)
  rw [ends_cons]
  rcases List.mem_cons.mp ht with rfl | hrest
  · exact le_rfl
  · exact (List.rel_of_pairwise_cons hsorted hrest).le

theorem le_ends_snd (hsorted : run.Pairwise (· < ·)) {t : α} (ht : t ∈ run) : t ≤ (ends run).2 := by
  have hne := List.ne_nil_of_mem ht
  obtain ⟨front, a, rfl⟩ : ∃ front a, run = front ++ [a] := ⟨_, _, (List.dropLast_concat_getLast hne).symm⟩
  rw [ends_concat_snd]
  rcases List.mem_append.mp ht with hfront | hlast
  · exact ((List.pairwise_append.mp hsorted).2.2 t hfront a (List.mem_singleton_self a)).le
  · exact (List.mem_singleton.mp hlast).le

section
variable (hsorted : ts.Pairwise (· < ·))
include hsorted

/-- A run ends before the next one starts. -/
theorem pairwise_merge : (merge close ts).Pairwise fun e f => e.2 < f.1 := by
  rw [merge_eq, List.pairwise_map]
  refine (pairwise_runs hsorted).2.imp_of_mem fun hrun hrun' h => ?_
  exact h _ (ends_snd_mem (List.ne_nil_of_mem_splitBy hrun)) _ (ends_fst_mem (List.ne_nil_of_mem_splitBy hrun'))

theorem fst_le_snd_of_mem_merge {e : α × α} (he : e ∈ merge close ts) : e.1 ≤ e.2 := by
  rw [merge_eq] at he
  obtain ⟨run, hrun, rfl⟩ := List.mem_map.mp he
  exact ends_fst_le ((pairwise_runs hsorted).1 run hrun) (ends_snd_mem (List.ne_nil_of_mem_splitBy hrun))

/-- A member between the ends of a run is in it. -/
theorem mem_run {t : α} (hrun : run ∈ ts.splitBy close) (ht : t ∈ ts) (hfirst : (ends run).1 ≤ t)
    (hlast : t ≤ (ends run).2) : t ∈ run := by
  have hne := List.ne_nil_of_mem_splitBy hrun
  rw [← List.flatten_splitBy close ts] at ht
  obtain ⟨own, hown, ht⟩ := List.mem_flatten.mp ht
  rcases eq_or_rel_of_pairwise (pairwise_runs hsorted).2 hown hrun with heq | hbefore | hafter
  · exact heq ▸ ht
  · exact absurd (hbefore t ht _ (ends_fst_mem hne)) (not_lt.mpr hfirst)
  · exact absurd (hafter _ (ends_snd_mem hne) t ht) (not_lt.mpr hlast)

/-- Each member is between the ends of one run. -/
theorem existsUnique_of_mem {t : α} (ht : t ∈ ts) : ∃! e, e ∈ merge close ts ∧ e.1 ≤ t ∧ t ≤ e.2 := by
  have hin := ht
  rw [← List.flatten_splitBy close ts] at hin
  obtain ⟨run, hrun, hin⟩ := List.mem_flatten.mp hin
  have hrunSorted := (pairwise_runs hsorted).1 run hrun
  refine ⟨ends run, ⟨?_, ends_fst_le hrunSorted hin, le_ends_snd hrunSorted hin⟩, ?_⟩
  · rw [merge_eq]
    exact List.mem_map_of_mem hrun
  · intro e he
    obtain ⟨he, hfirst, hlast⟩ := he
    rw [merge_eq] at he
    obtain ⟨other, hother, rfl⟩ := List.mem_map.mp he
    have hinOther := mem_run hsorted hother ht hfirst hlast
    rcases eq_or_rel_of_pairwise (pairwise_runs hsorted).2 hother hrun with heq | hbefore | hafter
    · rw [heq]
    · exact absurd (hbefore t hinOther t hin) (lt_irrefl t)
    · exact absurd (hafter t hin t hinOther) (lt_irrefl t)

/-- Neighbours between the ends of one run are close. -/
theorem close_of_mem_merge {e : α × α} (he : e ∈ merge close ts) {a b : α} (ha : a ∈ ts) (hb : b ∈ ts) (hfirst : e.1 ≤ a)
    (hab : a < b) (hlast : b ≤ e.2) (hnone : ∀ c ∈ ts, a < c → ¬ c < b) : close a b := by
  rw [merge_eq] at he
  obtain ⟨run, hrun, rfl⟩ := List.mem_map.mp he
  have hmem : ∀ c ∈ run, c ∈ ts := fun c hc => by
    rw [← List.flatten_splitBy close ts]
    exact List.mem_flatten.mpr ⟨run, hrun, hc⟩
  exact rel_of_isChain (List.isChain_of_mem_splitBy hrun) ((pairwise_runs hsorted).1 run hrun)
    (mem_run hsorted hrun ha hfirst (hab.le.trans hlast)) (mem_run hsorted hrun hb (hfirst.trans hab.le) hlast) hab
    fun c hc => hnone c (hmem c hc)

end

end

end TwinVoice.Lib.Runs

/-! ## Climbs of a counter

Readings of a counter that grows and at times starts again. The differences to
the reading before, where that is not higher, add up to what the counter gains
over its maximal runs without a fall. -/

namespace TwinVoice.Lib.Climbing

variable {K : Type*} [AddCommGroup K] [LinearOrder K]

/-- What a reading is above the one before it; the first reading and one after a fall count for nothing. -/
def delta (last : Option K) (current : K) : K :=
  match last with
  | none => 0
  | some last => if current < last then 0 else current - last

/-- The differences of some readings after the last one. -/
def deltas : Option K → List K → List K
  | _, [] => []
  | last, x :: xs => delta last x :: deltas (some x) xs

/-- The maximal runs of readings that do not fall. -/
def runs (xs : List K) : List (List K) := xs.splitBy (· ≤ ·)

/-- The last of some readings minus the first. -/
def gain (run : List K) : K := run.getLast?.getD 0 - run.head?.getD 0

/-- What is gained over all of the runs. -/
def climb (xs : List K) : K := ((runs xs).map gain).sum

theorem sum_deltas_run {a : K} {xs : List K} (h : (a :: xs).IsChain (· ≤ ·)) (rest : List K) :
    (deltas (some a) (xs ++ rest)).sum = gain (a :: xs) + (deltas ((a :: xs).getLast?) rest).sum := by
  induction xs generalizing a with
  | nil => simp [gain]
  | cons b xs ih =>
    obtain ⟨hab, hchain⟩ := List.isChain_cons_cons.mp h
    have hgain : gain (a :: b :: xs) = b - a + gain (b :: xs) := by
      simp only [gain, List.getLast?_cons_cons, List.head?_cons, Option.getD_some]
      abel
    rw [List.cons_append, deltas, List.sum_cons, ih hchain, hgain, List.getLast?_cons_cons, delta,
      if_neg (not_lt.mpr hab), add_assoc]

/-- Runs of which each starts below the end of the one before it. -/
theorem sum_deltas_flatten {last : Option K} {groups : List (List K)} (hne : [] ∉ groups)
    (hchain : ∀ g ∈ groups, g.IsChain (· ≤ ·))
    (hfall : groups.IsChain fun g g' => ∃ hg hg', g'.head hg' < g.getLast hg)
    (hfirst : ∀ l ∈ last, ∀ x ∈ groups.flatten.head?, x < l) :
    (deltas last groups.flatten).sum = (groups.map gain).sum := by
  induction groups generalizing last with
  | nil => rfl
  | cons g gs ih =>
    obtain ⟨hg, hgs⟩ := List.forall_mem_cons.mp hchain
    rw [List.mem_cons, not_or] at hne
    obtain ⟨a, xs, rfl⟩ := List.exists_cons_of_ne_nil (Ne.symm hne.1)
    have hzero : delta last a = 0 := by
      cases last with
      | none => rfl
      | some l => exact if_pos (hfirst l rfl a rfl)
    have hrest : ∀ l ∈ (a :: xs).getLast?, ∀ x ∈ gs.flatten.head?, x < l := by
      intro l hl x hx
      cases gs with
      | nil => cases hx
      | cons g' gs =>
        obtain ⟨⟨hlast, hhead, hlt⟩, -⟩ := List.isChain_cons_cons.mp hfall
        obtain ⟨b, ys, rfl⟩ := List.exists_cons_of_ne_nil hhead
        rw [List.getLast?_eq_getLast_of_ne_nil hlast] at hl
        cases hl
        cases hx
        exact hlt
    rw [List.flatten_cons, List.cons_append, deltas, List.sum_cons, hzero, zero_add, sum_deltas_run hg, List.map_cons,
      List.sum_cons, ih hne.2 hgs hfall.tail hrest]

/-- The differences add up to the climb from the last reading on. -/
theorem sum_deltas (last : Option K) (xs : List K) : (deltas last xs).sum = climb (last.toList ++ xs) := by
  have hnone : ∀ ys : List K, (deltas none ys).sum = climb ys := by
    intro ys
    have hfall : (runs ys).IsChain fun g g' => ∃ hg hg', g'.head hg' < g.getLast hg := by
      refine (List.isChain_getLast_head_splitBy _ ys).imp ?_
      rintro g g' ⟨hg, hg', hlt⟩
      exact ⟨hg, hg', not_le.mp (of_decide_eq_false hlt)⟩
    have hchain : ∀ g ∈ runs ys, g.IsChain (· ≤ ·) := by
      intro g hg
      refine (List.isChain_of_mem_splitBy hg).imp ?_
      intro x y
      exact of_decide_eq_true
    have hsum : (deltas none (runs ys).flatten).sum = climb ys :=
      sum_deltas_flatten (List.nil_notMem_splitBy _ ys) hchain hfall (by simp)
    rwa [runs, List.flatten_splitBy] at hsum
  cases last with
  | none => exact hnone xs
  | some l =>
    have hcons := hnone (l :: xs)
    rw [deltas, List.sum_cons, delta, zero_add] at hcons
    exact hcons

theorem delta_nonneg [IsOrderedAddMonoid K] (last : Option K) (x : K) : 0 ≤ delta last x := by
  cases last with
  | none => exact le_refl 0
  | some l =>
    rw [delta]
    split
    · exact le_refl 0
    · exact sub_nonneg.mpr (not_lt.mp ‹_›)

example : climb [3, 5, 5, 9, 2, 4, (1 : ℤ)] = 8 := by decide

end TwinVoice.Lib.Climbing
