import Mathlib.Algebra.Order.Field.Basic
import Mathlib.Algebra.Order.Group.Defs
import Mathlib.Algebra.Order.Ring.Rat
import Mathlib.Data.List.MinMax
import Mathlib.Data.List.Sort
import Mathlib.Tactic.Ring

/-! # Samples

Statistics of a list of numbers that rest on their order alone. The median of
the negated numbers is the negated median, as the order of the one list is the
other's backwards. A binary search for the end of a prefix counts its members.
The share of the numbers up to a threshold is the one up to the last of the
numbers below it, so two lists are furthest apart at one of their members. -/

namespace TwinVoice.Lib.Samples

section
variable {α : Type*} [LinearOrder α]

/-- The numbers in order. -/
def sorted (xs : List α) : List α := xs.insertionSort (· ≤ ·)

theorem sorted_perm (xs : List α) : (sorted xs).Perm xs := List.perm_insertionSort _ xs

theorem pairwise_sorted (xs : List α) : (sorted xs).Pairwise (· ≤ ·) := List.pairwise_insertionSort _ xs

@[simp] theorem length_sorted (xs : List α) : (sorted xs).length = xs.length := (sorted_perm xs).length_eq

/-- There is one way to put numbers in order. -/
theorem eq_sorted {xs ys : List α} (hperm : ys.Perm xs) (hsorted : ys.Pairwise (· ≤ ·)) : ys = sorted xs :=
  (hperm.trans (sorted_perm xs).symm).eq_of_pairwise' hsorted (pairwise_sorted xs)

end

theorem getD_reverse {α : Type*} (l : List α) (d : α) {i : Nat} (h : i < l.length) :
    l.reverse.getD i d = l.getD (l.length - 1 - i) d := by
  rw [List.getD_eq_getElem?_getD, List.getD_eq_getElem?_getD, List.getElem?_reverse h]

theorem getD_map_neg {K : Type*} [Field K] (xs : List K) (i : Nat) : (xs.map (- ·)).getD i 0 = - xs.getD i 0 := by
  rw [List.getD_eq_getElem?_getD, List.getD_eq_getElem?_getD, List.getElem?_map]
  cases xs[i]? <;> simp

section
variable {K : Type*} [Field K] [LinearOrder K]

/-- The number in the middle, or the mean of the two that are. -/
def median (xs : List K) : K :=
  let half := xs.length / 2
  if xs.length % 2 = 1 then (sorted xs).getD half 0 else ((sorted xs).getD (half - 1) 0 + (sorted xs).getD half 0) / (2 : Nat)

variable [IsStrictOrderedRing K]

theorem sorted_neg (xs : List K) : sorted (xs.map (- ·)) = ((sorted xs).map (- ·)).reverse := by
  have hperm : ((sorted xs).map (- ·)).reverse.Perm (xs.map (- ·)) :=
    (List.reverse_perm _).trans ((sorted_perm xs).map _)
  refine (eq_sorted hperm ?_).symm
  rw [List.pairwise_reverse, List.pairwise_map]
  exact (pairwise_sorted xs).imp fun h => neg_le_neg h

/-- The number that many from the end, negated. -/
theorem getD_sorted_neg (xs : List K) {i : Nat} (h : i < xs.length) :
    (sorted (xs.map (- ·))).getD i 0 = - (sorted xs).getD (xs.length - 1 - i) 0 := by
  have hlength : ((sorted xs).map (- ·)).length = xs.length := by simp
  rw [sorted_neg, getD_reverse _ _ (by rw [hlength]; exact h), hlength, getD_map_neg]

theorem median_neg (xs : List K) : median (xs.map (- ·)) = - median xs := by
  rcases Nat.eq_zero_or_pos xs.length with hzero | hpos
  · rw [List.length_eq_zero_iff.mp hzero]
    simp [median, sorted]
  · unfold median
    rw [List.length_map]
    by_cases hodd : xs.length % 2 = 1
    · rw [if_pos hodd, if_pos hodd, getD_sorted_neg xs (by omega)]
      have hmiddle : xs.length - 1 - xs.length / 2 = xs.length / 2 := by omega
      rw [hmiddle]
    · rw [if_neg hodd, if_neg hodd, getD_sorted_neg xs (by omega), getD_sorted_neg xs (by omega)]
      have hbefore : xs.length - 1 - (xs.length / 2 - 1) = xs.length / 2 := by omega
      have hafter : xs.length - 1 - xs.length / 2 = xs.length / 2 - 1 := by omega
      rw [hbefore, hafter]
      ring

end

/-! ## Binary search -/

section
variable {α : Type*}

/-- The end of the prefix of the members with a property, between two places.
Every round halves the range. -/
def bisect (p : α → Bool) (xs : List α) : Nat → Nat → Nat → Nat
  | 0, low, _ => low
  | fuel + 1, low, high =>
    if low < high then
      let middle := low + (high - low) / 2
      if xs[middle]?.all p then bisect p xs fuel (middle + 1) high else bisect p xs fuel low middle
    else low

theorem countP_eq_of_first {p : α → Bool} {xs : List α} {n : Nat} (hn : n ≤ xs.length)
    (hbefore : ∀ i (h : i < xs.length), i < n → p xs[i]) (hafter : ∀ i (h : i < xs.length), n ≤ i → ¬ p xs[i]) :
    xs.countP p = n := by
  have htake : (xs.take n).countP p = n := by
    have hall : ∀ x ∈ xs.take n, p x := by
      intro x hx
      obtain ⟨i, hi, rfl⟩ := List.mem_iff_getElem.mp hx
      rw [List.length_take] at hi
      rw [List.getElem_take]
      exact hbefore i (by omega) (by omega)
    rw [List.countP_eq_length.mpr hall, List.length_take_of_le hn]
  have hdrop : (xs.drop n).countP p = 0 := by
    rw [List.countP_eq_zero]
    intro x hx
    obtain ⟨i, hi, rfl⟩ := List.mem_iff_getElem.mp hx
    rw [List.length_drop] at hi
    rw [List.getElem_drop]
    exact hafter (n + i) (by omega) (by omega)
  calc xs.countP p = (xs.take n ++ xs.drop n).countP p := by rw [List.take_append_drop]
    _ = n := by rw [List.countP_append, htake, hdrop, Nat.add_zero]

/-- The search counts the members with the property if these come first. -/
theorem bisect_eq {p : α → Bool} {xs : List α} (hfirst : xs.Pairwise fun x y => p y → p x) (fuel : Nat) {low high : Nat}
    (hrange : low ≤ high) (hhigh : high ≤ xs.length) (hfuel : high - low ≤ fuel)
    (hbefore : ∀ i (h : i < xs.length), i < low → p xs[i]) (hafter : ∀ i (h : i < xs.length), high ≤ i → ¬ p xs[i]) :
    bisect p xs fuel low high = xs.countP p := by
  induction fuel generalizing low high with
  | zero =>
    have heq : high = low := by omega
    rw [heq] at hafter
    exact (countP_eq_of_first (hrange.trans hhigh) hbefore hafter).symm
  | succ fuel ih =>
    rw [bisect]
    by_cases hlt : low < high
    · rw [if_pos hlt]
      have hmiddle : low + (high - low) / 2 < xs.length := by omega
      dsimp only
      rw [List.getElem?_eq_getElem hmiddle, Option.all_some]
      have hpairs := List.pairwise_iff_getElem.mp hfirst
      by_cases hp : p (xs[low + (high - low) / 2]) = true
      · rw [if_pos hp]
        refine ih (by omega) hhigh (by omega) (fun i hi hlow => ?_) hafter
        rcases Nat.lt_or_ge i (low + (high - low) / 2) with hbelow | habove
        · exact hpairs i _ hi hmiddle hbelow hp
        · have heq : i = low + (high - low) / 2 := by omega
          simpa only [heq] using hp
      · rw [if_neg hp]
        refine ih (by omega) (by omega) (by omega) hbefore fun i hi hhigh => ?_
        rcases Nat.eq_or_lt_of_le hhigh with heq | habove
        · simpa only [← heq] using hp
        · exact fun hpi => hp (hpairs _ i hmiddle hi habove hpi)
    · rw [if_neg hlt]
      have heq : high = low := by omega
      rw [heq] at hafter
      exact (countP_eq_of_first (hrange.trans hhigh) hbefore hafter).symm

theorem bisect_length {p : α → Bool} {xs : List α} (hfirst : xs.Pairwise fun x y => p y → p x) :
    bisect p xs xs.length 0 xs.length = xs.countP p :=
  bisect_eq hfirst _ (Nat.zero_le _) le_rfl (by omega) (fun _ _ h => absurd h (Nat.not_lt_zero _))
    fun _ hi h => absurd hi (Nat.not_lt.mpr h)

end

/-! ## Empirical distributions -/

section
variable {α β : Type*} [LinearOrder α] [LinearOrder β]

/-- The share of the members up to a threshold. -/
def ecdf (xs : List α) (t : α) : ℚ := xs.countP (· ≤ t) / xs.length

def gap (xs ys : List α) (t : α) : ℚ := |ecdf xs t - ecdf ys t|

theorem ecdf_nonneg (xs : List α) (t : α) : 0 ≤ ecdf xs t := div_nonneg (Nat.cast_nonneg _) (Nat.cast_nonneg _)

theorem ecdf_le_one (xs : List α) (t : α) : ecdf xs t ≤ 1 :=
  div_le_one_of_le₀ (Nat.cast_le.mpr List.countP_le_length) (Nat.cast_nonneg _)

theorem ecdf_congr {xs : List α} {s t : α} (h : ∀ x ∈ xs, x ≤ s ↔ x ≤ t) : ecdf xs s = ecdf xs t := by
  have hcount : xs.countP (· ≤ s) = xs.countP (· ≤ t) :=
    List.countP_congr fun x hx => by simpa using h x hx
  rw [ecdf, ecdf, hcount]

theorem ecdf_map {f : α → β} {xs : List α} {t : α} (h : ∀ x ∈ xs, f x ≤ f t ↔ x ≤ t) :
    ecdf (xs.map f) (f t) = ecdf xs t := by
  have hcount : (xs.map f).countP (· ≤ f t) = xs.countP (· ≤ t) := by
    rw [List.countP_map]
    exact List.countP_congr fun x hx => by simpa using h x hx
  rw [ecdf, ecdf, hcount, List.length_map]

theorem gap_nonneg (xs ys : List α) (t : α) : 0 ≤ gap xs ys t := abs_nonneg _

theorem gap_le_one (xs ys : List α) (t : α) : gap xs ys t ≤ 1 :=
  abs_sub_le_of_nonneg_of_le (ecdf_nonneg _ _) (ecdf_le_one _ _) (ecdf_nonneg _ _) (ecdf_le_one _ _)

theorem gap_comm (xs ys : List α) (t : α) : gap xs ys t = gap ys xs t := abs_sub_comm _ _

/-- No threshold is further apart than all members are. -/
theorem exists_gap_le {xs : List α} (hne : xs ≠ []) (ys : List α) (t : α) : ∃ s ∈ xs ++ ys, gap xs ys t ≤ gap xs ys s := by
  cases hlast : ((xs ++ ys).filter (· ≤ t)).max? with
  | none =>
    -- Below the least member both shares are zero.
    have hempty := List.filter_eq_nil_iff.mp (List.max?_eq_none_iff.mp hlast)
    have hzero : ∀ zs : List α, (∀ x ∈ zs, x ∈ xs ++ ys) → ecdf zs t = 0 := by
      intro zs hzs
      have hcount : zs.countP (· ≤ t) = 0 := List.countP_eq_zero.mpr fun x hx => hempty x (hzs x hx)
      rw [ecdf, hcount, Nat.cast_zero, zero_div]
    obtain ⟨x, hx⟩ := List.exists_mem_of_ne_nil xs hne
    refine ⟨x, List.mem_append_left _ hx, ?_⟩
    have hgap : gap xs ys t = 0 := by
      rw [gap, hzero xs fun x hx => List.mem_append_left _ hx, hzero ys fun x hx => List.mem_append_right _ hx, sub_zero,
        abs_zero]
    rw [hgap]
    exact gap_nonneg _ _ _
  | some s =>
    obtain ⟨hs, hlargest⟩ := List.max?_eq_some_iff.mp hlast
    obtain ⟨hs, hst⟩ := List.mem_filter.mp hs
    have hst : s ≤ t := by simpa using hst
    have hsame : ∀ x ∈ xs ++ ys, x ≤ t ↔ x ≤ s := fun x hx =>
      ⟨fun hxt => hlargest x (List.mem_filter.mpr ⟨hx, by simpa using hxt⟩), fun hxs => hxs.trans hst⟩
    refine ⟨s, hs, le_of_eq ?_⟩
    rw [gap, gap, ecdf_congr fun x hx => hsame x (List.mem_append_left _ hx),
      ecdf_congr fun x hx => hsame x (List.mem_append_right _ hx)]

end

end TwinVoice.Lib.Samples
