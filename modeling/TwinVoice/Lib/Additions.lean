import Mathlib.Data.List.Sort

/-! # Rows that come later

Rows are added whose dates are at or after an instant. A query that asks for
dates before it finds what it found, and a query without such a bound finds
the same only as long as none of the added rows is what it asks for. A sort
that keeps the order of equal rows commutes with a selection. -/

namespace TwinVoice.Lib.Additions

/-! ## Selections of sorted rows -/

section
variable {α : Type} (r : α → α → Prop) [DecidableRel r]

theorem filter_orderedInsert [IsTrans α r] (p : α → Bool) (a : α) {l : List α} (hl : l.Pairwise r) :
    (l.orderedInsert r a).filter p = if p a then (l.filter p).orderedInsert r a else l.filter p := by
  induction l with
  | nil =>
    by_cases ha : p a = true
    · simp [ha]
    · simp [ha]
  | cons b l ih =>
    obtain ⟨hb, hl⟩ := List.pairwise_cons.mp hl
    rw [List.orderedInsert_cons]
    by_cases hab : r a b
    · rw [if_pos hab]
      by_cases ha : p a = true
      · rw [if_pos ha, List.filter_cons_of_pos ha]
        -- all that is left comes after the row that is put in
        have hfirst : ∀ c ∈ (b :: l).filter p, r a c := by
          intro c hc
          rcases List.mem_cons.mp (List.mem_filter.mp hc).1 with rfl | hc
          · exact hab
          · exact IsTrans.trans _ _ _ hab (hb c hc)
        cases hrest : (b :: l).filter p with
        | nil => rfl
        | cons c rest =>
          rw [List.orderedInsert_cons, if_pos (hfirst c (hrest ▸ List.mem_cons_self))]
      · rw [if_neg ha, List.filter_cons_of_neg ha]
    · rw [if_neg hab]
      by_cases hpb : p b = true
      · rw [List.filter_cons_of_pos hpb, List.filter_cons_of_pos hpb, ih hl]
        split
        · rw [List.orderedInsert_cons, if_neg hab]
        · rfl
      · rw [List.filter_cons_of_neg hpb, List.filter_cons_of_neg hpb]
        exact ih hl

/-- The rows of a kind, sorted with the others or on their own. -/
theorem filter_insertionSort [IsTrans α r] [Std.Total r] (p : α → Bool) (l : List α) :
    (l.insertionSort r).filter p = (l.filter p).insertionSort r := by
  induction l with
  | nil => rfl
  | cons a l ih =>
    rw [List.insertionSort_cons, filter_orderedInsert r p a (List.pairwise_insertionSort r l), ih]
    by_cases ha : p a = true
    · rw [if_pos ha, List.filter_cons_of_pos ha, List.insertionSort_cons]
    · rw [if_neg ha, List.filter_cons_of_neg ha]

end

/-- Where the first rows are of a kind they are the first rows of the kind. -/
theorem take_filter {α : Type} {p : α → Bool} {l : List α} {n : Nat} (h : ∀ a ∈ l.take n, p a = true) :
    (l.filter p).take n = l.take n := by
  induction l generalizing n with
  | nil => rfl
  | cons a l ih =>
    cases n with
    | zero => rfl
    | succ n =>
      obtain ⟨ha, hl⟩ := List.forall_mem_cons.mp (List.take_succ_cons ▸ h)
      rw [List.filter_cons_of_pos ha, List.take_succ_cons, List.take_succ_cons, ih hl]

/-! ## Additions -/

section
variable {ρ : Type} (date : ρ → ℤ) (stop : ℤ)

/-- The rows with others after them, which are of later dates. -/
def Later (rows rows' : List ρ) : Prop := ∃ added, rows' = rows ++ added ∧ ∀ r ∈ added, stop ≤ date r

variable {date stop} {rows rows' : List ρ}

theorem Later.refl (rows : List ρ) : Later date stop rows rows := ⟨[], (List.append_nil rows).symm, by simp⟩

theorem Later.subset (h : Later date stop rows rows') : rows ⊆ rows' := by
  obtain ⟨added, rfl, -⟩ := h
  exact List.subset_append_left _ _

/-- What asks for dates before the additions finds the same. -/
theorem Later.filter_eq (h : Later date stop rows rows') {p : ρ → Bool} (hp : ∀ r, p r = true → date r < stop) :
    rows'.filter p = rows.filter p := by
  obtain ⟨added, rfl, hdate⟩ := h
  have hnone : added.filter p = [] :=
    List.filter_eq_nil_iff.mpr fun r hr hpr => absurd (hp r hpr) (not_lt.mpr (hdate r hr))
  rw [List.filter_append, hnone, List.append_nil]

section
variable [DecidableEq ρ] (h : Later date stop rows rows') (hnodup : rows'.Nodup) (p : ρ → Bool)
include h hnodup

/-- What else is found is what is added. -/
theorem Later.filter_append : rows'.filter p = rows.filter p ++ rows'.filter fun r => p r ∧ r ∉ rows := by
  obtain ⟨added, rfl, -⟩ := h
  have hdisjoint := List.nodup_append.mp hnodup
  rw [List.filter_append, List.filter_append]
  have hold : rows.filter (fun r => decide (p r = true ∧ r ∉ rows)) = [] :=
    List.filter_eq_nil_iff.mpr fun r hr hp => (of_decide_eq_true hp).2 hr
  have hnew : added.filter (fun r => decide (p r = true ∧ r ∉ rows)) = added.filter p := by
    refine List.filter_congr fun r hr => ?_
    have hfresh : r ∉ rows := fun hmem => hdisjoint.2.2 r hmem r hr rfl
    simp [hfresh]
  rw [hold, hnew, List.nil_append]

theorem Later.length_filter_eq_iff :
    (rows'.filter p).length = (rows.filter p).length ↔ ∀ r ∈ rows', r ∉ rows → p r = false := by
  rw [h.filter_append hnodup p, List.length_append, Nat.add_eq_left, List.length_eq_zero_iff, List.filter_eq_nil_iff]
  refine forall₂_congr fun r _ => ?_
  simp only [decide_eq_true_eq, not_and, not_not, Bool.eq_false_iff]
  exact ⟨fun himp hnew hp => hnew (himp hp), fun himp hp => by_contra fun hnew => himp hnew hp⟩

theorem Later.filter_eq_of (hnone : ∀ r ∈ rows', r ∉ rows → p r = false) : rows'.filter p = rows.filter p := by
  have hempty : rows'.filter (fun r => p r ∧ r ∉ rows) = [] := by
    refine List.filter_eq_nil_iff.mpr fun r hr hp => ?_
    obtain ⟨hp, hnew⟩ := of_decide_eq_true hp
    rw [hnone r hr hnew] at hp
    cases hp
  rw [h.filter_append hnodup p, hempty, List.append_nil]

theorem Later.filterMap_eq_of {β : Type} {f : ρ → Option β} (hnone : ∀ r ∈ rows', r ∉ rows → f r = none) :
    rows'.filterMap f = rows.filterMap f := by
  have hsome : ∀ rows : List ρ, rows.filterMap f = (rows.filter fun r => (f r).isSome).filterMap f := by
    intro rows
    rw [List.filterMap_filter]
    refine List.filterMap_congr fun r _ => ?_
    cases f r <;> rfl
  rw [hsome rows', hsome rows, h.filter_eq_of hnodup _ fun r hr hnew => by rw [hnone r hr hnew]; rfl]

/-- Without the added rows the answer is the one from before. -/
theorem Later.filter_old : (rows'.filter p).filter (fun r => r ∈ rows) = rows.filter p := by
  have hold : (rows.filter p).filter (fun r => r ∈ rows) = rows.filter p :=
    List.filter_eq_self.mpr fun r hr => decide_eq_true (List.mem_filter.mp hr).1
  have hnew : (rows'.filter fun r => p r ∧ r ∉ rows).filter (fun r => r ∈ rows) = [] :=
    List.filter_eq_nil_iff.mpr fun r hr hmem =>
      (of_decide_eq_true (List.mem_filter.mp hr).2).2 (of_decide_eq_true hmem)
  rw [h.filter_append hnodup p, List.filter_append, hold, hnew, List.append_nil]

end

end

end TwinVoice.Lib.Additions
