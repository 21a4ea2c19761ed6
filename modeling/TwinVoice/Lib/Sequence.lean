import Mathlib.Data.List.Basic
import Mathlib.Data.List.Nodup
import Mathlib.Data.List.Range

/-! # Tables that number their rows, and the order of first occurrences

A sequence is a table whose key the database hands out: each insert takes a
greater key than every one before it, also than those deleted since. Selected
by that key, its rows therefore come in the order of their inserts.

A log that repeats some of its entries is in order when the first occurrence
of each comes after the first occurrences of all that rank below it. -/

namespace TwinVoice.Lib

variable {α : Type*}

structure Row (α : Type*) where
  id : Nat
  value : α
  deriving DecidableEq, Repr

/-- Rows in the order of their keys, and the key of the next one. -/
structure Sequence (α : Type*) where
  rows : List (Row α)
  next : Nat
  ascending : rows.Pairwise (·.id < ·.id)
  below : ∀ row ∈ rows, row.id < next

namespace Sequence

def empty : Sequence α := ⟨[], 1, .nil, nofun⟩

def values (t : Sequence α) : List α := t.rows.map Row.value

def insert (t : Sequence α) (value : α) : Sequence α where
  rows := t.rows ++ [⟨t.next, value⟩]
  next := t.next + 1
  ascending := by
    refine List.pairwise_append.mpr ⟨t.ascending, List.pairwise_singleton _ _, ?_⟩
    intro row hrow last hlast
    rw [List.mem_singleton.mp hlast]
    exact t.below row hrow
  below := by
    intro row hrow
    rcases List.mem_append.mp hrow with hold | hnew
    · exact Nat.lt_succ_of_lt (t.below row hold)
    · rw [List.mem_singleton.mp hnew]
      exact Nat.lt_succ_self _

def delete (t : Sequence α) (id : Nat) : Sequence α where
  rows := t.rows.filter (·.id ≠ id)
  next := t.next
  ascending := t.ascending.filter _
  below := fun row hrow => t.below row (List.mem_of_mem_filter hrow)

@[simp] theorem values_insert (t : Sequence α) (v : α) : (t.insert v).values = t.values ++ [v] := by
  simp [values, insert]

@[simp] theorem rows_insert (t : Sequence α) (v : α) :
    (t.insert v).rows = t.rows ++ [⟨t.next, v⟩] := rfl

theorem values_eq_nil {t : Sequence α} : t.values = [] ↔ t.rows = [] := List.map_eq_nil_iff

/-- The oldest row is the only one under its key. -/
theorem rows_delete_oldest {t : Sequence α} {row : Row α} {rest : List (Row α)}
    (h : t.rows = row :: rest) : (t.delete row.id).rows = rest := by
  have hlater := t.ascending
  rw [h] at hlater
  have hother : ∀ r ∈ rest, r.id ≠ row.id := fun r hr =>
    Nat.ne_of_gt (List.rel_of_pairwise_cons hlater hr)
  simpa [delete, h] using hother

end Sequence

/-! ## First occurrences -/

/-- Each entry comes, the first time it does, after nothing but entries of a lower rank. -/
def FirstsAscend (rank : α → Nat) (log : List α) : Prop :=
  ∀ before p after, log = before ++ p :: after → p ∉ before → ∀ q ∈ before, rank q < rank p

namespace FirstsAscend
variable {rank : α → Nat} {log : List α} {p : α}

theorem nil : FirstsAscend rank ([] : List α) := by
  intro before p after h
  simp at h

/-- Splitting a longer log: at its new last entry, or at an earlier one. -/
theorem snoc (h : FirstsAscend rank log) (hp : p ∉ log → ∀ q ∈ log, rank q < rank p) :
    FirstsAscend rank (log ++ [p]) := by
  intro before q after hsplit hfirst
  cases List.eq_nil_or_concat after with
  | inl hnil =>
    subst hnil
    obtain ⟨rfl, hpq⟩ := List.append_inj' hsplit rfl
    cases hpq
    exact hp hfirst
  | inr hconcat =>
    obtain ⟨init, last, rfl⟩ := hconcat
    rw [List.concat_eq_append, ← List.cons_append, ← List.append_assoc] at hsplit
    obtain ⟨hlog, -⟩ := List.append_inj' hsplit rfl
    exact h before q init hlog hfirst

end FirstsAscend

/-- A list that numbers its entries from zero has each number once. -/
theorem eq_of_numbered {number : α → Nat} {l : List α}
    (h : l.map number = List.range l.length) {p q : α} (hp : p ∈ l) (hq : q ∈ l)
    (hpq : number p = number q) : p = q := by
  have hnodup : (l.map number).Nodup := h ▸ List.nodup_range
  exact List.inj_on_of_nodup_map hnodup hp hq hpq

theorem lt_length_of_numbered {number : α → Nat} {l : List α}
    (h : l.map number = List.range l.length) {p : α} (hp : p ∈ l) : number p < l.length := by
  have hmem := List.mem_map_of_mem (f := number) hp
  rw [h] at hmem
  exact List.mem_range.mp hmem

theorem numbered_snoc {number : α → Nat} {l : List α} {p : α}
    (h : l.map number = List.range l.length) (hp : number p = l.length) :
    (l ++ [p]).map number = List.range (l ++ [p]).length := by
  simp [h, hp, List.range_succ]

end TwinVoice.Lib

/-! ## Thinning a list

Elements are numbered from one on, and of a list every n-th element is kept,
the first one among them. As many are kept as it takes for the stretches of
`n` elements to reach the end. -/

namespace TwinVoice.Lib.Thinning

variable {α : Type*}

def everyNth (n : Nat) (l : List α) : List α := ((l.zipIdx 1).filter fun e => (e.2 - 1) % n = 0).map Prod.fst

/-- Numbered from `k + 1` on, the first element that is kept is `r` places away. -/
theorem getElem?_filter_zipIdx {n : Nat} (l : List α) {k r : Nat} (hr : r < n) (hk : (k + r) % n = 0) (i : Nat) :
    (((l.zipIdx (k + 1)).filter fun e => (e.2 - 1) % n = 0).map Prod.fst)[i]? = l[n * i + r]? := by
  induction l generalizing k r i with
  | nil => rfl
  | cons x l ih =>
    rw [List.zipIdx_cons]
    cases r with
    | zero =>
      rw [Nat.add_zero] at hk
      have hnext : (k + 1 + (n - 1)) % n = 0 := by
        have hsum : k + 1 + (n - 1) = k + n := by omega
        rw [hsum, Nat.add_mod_right, hk]
      rw [List.filter_cons_of_pos (by simp [hk]), List.map_cons]
      cases i with
      | zero => rfl
      | succ i =>
        have hplace : n * (i + 1) + 0 = n * i + (n - 1) + 1 := by
          rw [Nat.mul_succ]
          omega
        rw [List.getElem?_cons_succ, ih (by omega) hnext, hplace, List.getElem?_cons_succ]
    | succ r =>
      have hskip : k % n ≠ 0 := by
        intro h
        obtain ⟨a, rfl⟩ := Nat.dvd_of_mod_eq_zero h
        rw [Nat.mul_add_mod, Nat.mod_eq_of_lt hr] at hk
        cases hk
      have hnext : (k + 1 + r) % n = 0 := by rwa [Nat.add_right_comm, Nat.add_assoc]
      rw [List.filter_cons_of_neg (by simp [hskip]), ih (Nat.lt_of_succ_lt hr) hnext i, ← Nat.add_assoc,
        List.getElem?_cons_succ]

theorem getElem?_everyNth {n : Nat} (h : 0 < n) (l : List α) (i : Nat) : (everyNth n l)[i]? = l[n * i]? :=
  getElem?_filter_zipIdx l h (Nat.zero_mod n) i

/-- No more elements are kept than stretches cover the list. -/
theorem length_everyNth_le {n k : Nat} {l : List α} (h : 0 < n) (hk : l.length ≤ n * k) :
    (everyNth n l).length ≤ k := by
  rw [← List.getElem?_eq_none_iff, getElem?_everyNth h, List.getElem?_eq_none_iff]
  exact hk

/-- From the last element that is kept it is less than a stretch to the end. -/
theorem length_le_mul_everyNth {n : Nat} (h : 0 < n) (l : List α) : l.length ≤ n * (everyNth n l).length := by
  have hend : (everyNth n l)[(everyNth n l).length]? = none := List.getElem?_eq_none_iff.mpr (Nat.le_refl _)
  rw [getElem?_everyNth h] at hend
  exact List.getElem?_eq_none_iff.mp hend

theorem everyNth_one (l : List α) : everyNth 1 l = l := by
  refine List.ext_getElem? fun i => ?_
  rw [getElem?_everyNth Nat.one_pos, Nat.one_mul]

theorem everyNth_sublist (n : Nat) (l : List α) : (everyNth n l).Sublist l := by
  have hnames : (l.zipIdx 1).map Prod.fst = l := List.zipIdx_map_fst 1 l
  have hkept :=
    (List.filter_sublist (p := fun e : α × Nat => decide ((e.2 - 1) % n = 0)) (l := l.zipIdx 1)).map Prod.fst
  rwa [hnames] at hkept

end TwinVoice.Lib.Thinning
