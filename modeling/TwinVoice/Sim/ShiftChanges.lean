import Mathlib.Algebra.Order.Ring.Int
import Mathlib.Data.List.Find
import Mathlib.Logic.Function.Iterate
import TwinVoice.Analytics.Shifts

/-! # When the shift changes

`next_change` looks for the next start or end of a shift among the occurrences
of the days to come. Before it no shift comes or goes, so whoever jumps from
one change to the next one sees every shift that there is. -/

namespace TwinVoice.Sim.ShiftChanges

open Analytics

/-- `SEARCH_DAYS`. -/
def searchDays : Nat := 8

section
variable (shifts : List Shift) (workingDays : List Int)

/-- The edges that are after a local time. -/
def boundaries (nowLocal : Int) : List Int :=
  (instances shifts workingDays (dayOf nowLocal - 1) searchDays).flatMap fun o => [o.start, o.stop].filter (nowLocal < ·)

/-- `next_change`; without a boundary it is the same time of the next day. -/
def nextChange (offset t : Int) : Int := (boundaries shifts workingDays (t + offset)).min?.getD (t + offset + day) - offset

/-- The changes that are found one after the other. -/
def changes (offset t : Int) (n : Nat) : Int := (nextChange shifts workingDays offset)^[n] t

end

/-! ## Occurrences -/

/-- An occurrence starts on its day and lasts for a day at most. -/
theorem occurrence_bounds (s : Shift) (d : Int) :
    d * day ≤ (s.occurrence d).start ∧ (s.occurrence d).start < (d + 1) * day ∧
      (s.occurrence d).start < (s.occurrence d).stop ∧ (s.occurrence d).stop ≤ (s.occurrence d).start + day := by
  have h1 := s.starts.nonneg
  have h2 := s.starts.lt_day
  have h3 := s.ends.nonneg
  have h4 := s.ends.lt_day
  have hspan : combine d s.starts < (s.occurrence d).stop ∧ (s.occurrence d).stop ≤ combine d s.starts + day := by
    by_cases hwraps : s.ends ≤ s.starts
    · rw [stop_of_wraps d hwraps]
      simp only [combine, TimeOfDay.le_iff, day] at *
      omega
    · rw [stop_of_not_wraps d hwraps]
      simp only [combine, TimeOfDay.le_iff, day] at *
      omega
  refine ⟨?_, ?_, hspan⟩
  · change d * day ≤ d * day + s.starts.micros
    omega
  · change d * day + s.starts.micros < (d + 1) * day
    rw [add_mul, one_mul]
    omega

section
variable {shifts : List Shift} {workingDays : List Int} {o : Occurrence} {first : Int}

theorem instances_eq (n : Nat) : instances shifts workingDays first n =
    (List.range n).flatMap fun i : Nat =>
      if weekday (first + i) ∈ workingDays then shifts.map (·.occurrence (first + i)) else [] := by
  unfold instances
  rw [List.bind_eq_flatMap, List.flatMap_assoc]
  simp

theorem mem_instances_iff {n : Nat} :
    o ∈ instances shifts workingDays first n ↔
      ∃ d, first ≤ d ∧ d < first + n ∧ weekday d ∈ workingDays ∧ ∃ s ∈ shifts, s.occurrence d = o := by
  rw [instances_eq, List.mem_flatMap]
  constructor
  · intro ⟨i, hi, ho⟩
    split at ho
    · rename_i hworked
      have hlt := List.mem_range.mp hi
      exact ⟨first + i, by omega, by omega, hworked, List.mem_map.mp ho⟩
    · cases ho
  · intro ⟨d, hfirst, hlast, hworked, ho⟩
    refine ⟨(d - first).toNat, List.mem_range.mpr (by omega), ?_⟩
    have hd : first + ((d - first).toNat : Int) = d := by omega
    rw [hd, if_pos hworked]
    exact List.mem_map.mpr ho

theorem instances_add (m n : Nat) :
    instances shifts workingDays first (m + n) =
      instances shifts workingDays first m ++ instances shifts workingDays (first + m) n := by
  simp only [instances_eq, List.range_add, List.flatMap_append, List.flatMap_map, Nat.cast_add, add_assoc]

/-- A time is in an occurrence. -/
def Covers (t : Int) (o : Occurrence) : Prop := o.start ≤ t ∧ t < o.stop

instance decidableCovers (t : Int) (o : Occurrence) : Decidable (Covers t o) := inferInstanceAs (Decidable (_ ∧ _))

theorem active_eq_find (offset t : Int) : active shifts workingDays offset t =
    (instances shifts workingDays (dayOf (t + offset) - 1) 2).find? fun o => Covers (t + offset) o := rfl

theorem dayOf_bounds (t : Int) : dayOf t * day ≤ t ∧ t < (dayOf t + 1) * day := by
  unfold dayOf day
  omega

/-- It is of the day of the time or of the day before. -/
theorem day_of_covers {s : Shift} {d t : Int} (h : Covers t (s.occurrence d)) : dayOf t - 1 ≤ d ∧ d ≤ dayOf t := by
  obtain ⟨hfrom, hbefore, hspan, hlast⟩ := occurrence_bounds s d
  obtain ⟨hstart, hstop⟩ := h
  obtain ⟨hleast, hmost⟩ := dayOf_bounds t
  unfold day at *
  omega

/-- The other days have nothing to find. -/
theorem find_eq_none {t : Int} {n : Nat} (hout : ∀ d, first ≤ d → d < first + n → d < dayOf t - 1 ∨ dayOf t < d) :
    (instances shifts workingDays first n).find? (fun o => Covers t o) = none := by
  rw [List.find?_eq_none]
  intro o ho hcovers
  obtain ⟨d, hleast, hmost, -, s, -, rfl⟩ := mem_instances_iff.mp ho
  obtain ⟨hlow, hhigh⟩ := day_of_covers (of_decide_eq_true hcovers)
  have hday := hout d hleast hmost
  omega

/-- A search over more days finds the same. -/
theorem find_instances (first : Int) (n : Nat) {t : Int} (hfirst : first ≤ dayOf t - 1) (hlast : dayOf t < first + n) :
    (instances shifts workingDays first n).find? (fun o => Covers t o) =
      (instances shifts workingDays (dayOf t - 1) 2).find? fun o => Covers t o := by
  obtain ⟨before, hbefore⟩ := Int.eq_ofNat_of_zero_le (sub_nonneg.mpr hfirst)
  obtain ⟨after, hafter⟩ := Int.eq_ofNat_of_zero_le (sub_nonneg.mpr (Int.add_one_le_of_lt hlast))
  have hn : n = before + (2 + after) := by omega
  have hmiddle : first + (before : Int) = dayOf t - 1 := by omega
  have hbefore' : (instances shifts workingDays first before).find? (fun o => Covers t o) = none :=
    find_eq_none fun d _ hd => Or.inl (by omega)
  have hafter' : (instances shifts workingDays (dayOf t - 1 + (2 : Nat)) after).find? (fun o => Covers t o) = none :=
    find_eq_none fun d hd _ => Or.inr (by omega)
  rw [hn, instances_add, instances_add, List.find?_append, List.find?_append, hmiddle, hbefore', hafter', Option.none_or,
    Option.or_none]

/-! ## Boundaries -/

theorem mem_boundaries_iff {edge t : Int} :
    edge ∈ boundaries shifts workingDays t ↔
      ∃ o ∈ instances shifts workingDays (dayOf t - 1) searchDays, (edge = o.start ∨ edge = o.stop) ∧ t < edge := by
  simp only [boundaries, List.mem_flatMap, List.mem_filter, List.mem_cons, List.not_mem_nil, or_false,
    decide_eq_true_eq]

/-- The local time of the next change. -/
def nextLocal (shifts : List Shift) (workingDays : List Int) (t : Int) : Int :=
  (boundaries shifts workingDays t).min?.getD (t + day)

theorem lt_nextLocal (shifts : List Shift) (workingDays : List Int) (t : Int) : t < nextLocal shifts workingDays t := by
  unfold nextLocal
  cases hmin : (boundaries shifts workingDays t).min? with
  | none => exact lt_add_of_pos_right t (by decide)
  | some edge =>
    obtain ⟨o, -, -, hlt⟩ := mem_boundaries_iff.mp (List.min?_eq_some_iff.mp hmin).1
    exact hlt

theorem nextLocal_le {edge t : Int} (h : edge ∈ boundaries shifts workingDays t) :
    nextLocal shifts workingDays t ≤ edge := by
  unfold nextLocal
  cases hmin : (boundaries shifts workingDays t).min? with
  | none =>
    rw [List.min?_eq_none_iff.mp hmin] at h
    cases h
  | some least => exact (List.min?_eq_some_iff.mp hmin).2 edge h

/-- The change lies in the days that are searched. -/
theorem nextLocal_le_days (shifts : List Shift) (workingDays : List Int) (t : Int) :
    nextLocal shifts workingDays t ≤ (dayOf t + 7) * day := by
  obtain ⟨-, hmost⟩ := dayOf_bounds t
  cases hmin : (boundaries shifts workingDays t).min? with
  | none =>
    rw [nextLocal, hmin]
    unfold day at *
    dsimp only [Option.getD]
    omega
  | some edge =>
    obtain ⟨o, ho, hedge, hlt⟩ := mem_boundaries_iff.mp (List.min?_eq_some_iff.mp hmin).1
    have hle : nextLocal shifts workingDays t ≤ edge := nextLocal_le (List.min?_eq_some_iff.mp hmin).1
    obtain ⟨d, -, hsearched, -, s, -, rfl⟩ := mem_instances_iff.mp ho
    obtain ⟨hfrom, hbefore, hspan, hlast⟩ := occurrence_bounds s d
    have hstart : t < (s.occurrence d).start → nextLocal shifts workingDays t ≤ (s.occurrence d).start :=
      fun hafter => nextLocal_le (mem_boundaries_iff.mpr ⟨_, ho, Or.inl rfl, hafter⟩)
    unfold searchDays day at *
    omega

/-- No occurrence starts or stops before the change. -/
theorem covers_iff {s : Shift} (hs : s ∈ shifts) {d : Int} (hworked : weekday d ∈ workingDays) {t u : Int} (htu : t ≤ u)
    (hu : u < nextLocal shifts workingDays t) : Covers t (s.occurrence d) ↔ Covers u (s.occurrence d) := by
  obtain ⟨hfrom, hbefore, hspan, hlast⟩ := occurrence_bounds s d
  obtain ⟨hleast, hmost⟩ := dayOf_bounds t
  have hdays := nextLocal_le_days shifts workingDays t
  have hfree : dayOf t - 1 ≤ d → d < dayOf t + 7 → ¬(t < (s.occurrence d).start ∧ (s.occurrence d).start ≤ u) ∧
      ¬(t < (s.occurrence d).stop ∧ (s.occurrence d).stop ≤ u) := by
    intro hfirst hsearched
    have ho : s.occurrence d ∈ instances shifts workingDays (dayOf t - 1) searchDays :=
      mem_instances_iff.mpr ⟨d, hfirst, by unfold searchDays; omega, hworked, s, hs, rfl⟩
    refine ⟨fun hedge => ?_, fun hedge => ?_⟩
    · have hle := nextLocal_le (mem_boundaries_iff.mpr ⟨_, ho, Or.inl rfl, hedge.1⟩)
      omega
    · have hle := nextLocal_le (mem_boundaries_iff.mpr ⟨_, ho, Or.inr rfl, hedge.1⟩)
      omega
  unfold Covers
  by_cases hpast : d < dayOf t - 1
  · unfold day at *
    omega
  · by_cases hfuture : dayOf t + 7 ≤ d
    · unfold day at *
      omega
    · obtain ⟨hstart, hstop⟩ := hfree (by omega) (by omega)
      omega

theorem nextChange_eq (shifts : List Shift) (workingDays : List Int) (offset t : Int) :
    nextChange shifts workingDays offset t = nextLocal shifts workingDays (t + offset) - offset := rfl

theorem lt_nextChange (shifts : List Shift) (workingDays : List Int) (offset t : Int) :
    t < nextChange shifts workingDays offset t := by
  have hafter := lt_nextLocal shifts workingDays (t + offset)
  rw [nextChange_eq]
  omega

/-- Until the change the active shift stays what it is. -/
theorem active_eq_of_lt {offset t u : Int} (htu : t ≤ u) (hu : u < nextChange shifts workingDays offset t) :
    active shifts workingDays offset u = active shifts workingDays offset t := by
  rw [nextChange_eq] at hu
  have hlater : u + offset < nextLocal shifts workingDays (t + offset) := by omega
  have hsame : t + offset ≤ u + offset := by omega
  have hdays : dayOf (t + offset) ≤ dayOf (u + offset) := Int.ediv_le_ediv (by decide) hsame
  obtain ⟨n, hn⟩ := Int.eq_ofNat_of_zero_le (sub_nonneg.mpr hdays)
  rw [active_eq_find, active_eq_find, ← find_instances (dayOf (t + offset) - 1) (n + 2) (by omega) (by omega),
    ← find_instances (dayOf (t + offset) - 1) (n + 2) le_rfl (by omega)]
  refine List.find?_congr fun o ho => ?_
  obtain ⟨d, -, -, hworked, s, hs, rfl⟩ := mem_instances_iff.mp ho
  exact decide_eq_decide.mpr (covers_iff hs hworked hsame hlater).symm

/-! ## From change to change -/

theorem changes_succ (shifts : List Shift) (workingDays : List Int) (offset t : Int) (n : Nat) :
    changes shifts workingDays offset t (n + 1) =
      nextChange shifts workingDays offset (changes shifts workingDays offset t n) :=
  Function.iterate_succ_apply' _ n t

theorem add_le_changes (shifts : List Shift) (workingDays : List Int) (offset t : Int) (n : Nat) :
    t + n ≤ changes shifts workingDays offset t n := by
  induction n with
  | zero => exact (add_zero t).le
  | succ n ih =>
    have hlater := lt_nextChange shifts workingDays offset (changes shifts workingDays offset t n)
    rw [changes_succ]
    push_cast
    omega

/-- Every time from the first on lies between two changes. -/
theorem exists_between (shifts : List Shift) (workingDays : List Int) (offset : Int) {t u : Int} (htu : t ≤ u) :
    ∃ n, changes shifts workingDays offset t n ≤ u ∧ u < changes shifts workingDays offset t (n + 1) := by
  have hend : ∃ n, u < changes shifts workingDays offset t n :=
    ⟨(u - t).toNat + 1, lt_of_lt_of_le (by omega) (add_le_changes shifts workingDays offset t _)⟩
  cases hfirst : Nat.find hend with
  | zero =>
    have hbefore := Nat.find_spec hend
    rw [hfirst] at hbefore
    exact absurd htu (not_le.mpr hbefore)
  | succ n =>
    have hspec := Nat.find_spec hend
    rw [hfirst] at hspec
    exact ⟨n, not_lt.mp (Nat.find_min hend (hfirst ▸ Nat.lt_succ_self n)), hspec⟩

/-- The next change is later than now and the active shift stays the same until then, so that the changes which are found
one after the other miss none of its transitions. -/
theorem changes_miss_nothing (shifts : List Shift) (workingDays : List Int) (offset t : Int) :
    t < nextChange shifts workingDays offset t ∧
    (∀ u, t ≤ u → u < nextChange shifts workingDays offset t →
      active shifts workingDays offset u = active shifts workingDays offset t) ∧
    ∀ u, t ≤ u → ∃ n, changes shifts workingDays offset t n ≤ u ∧ u < changes shifts workingDays offset t (n + 1) ∧
      active shifts workingDays offset u = active shifts workingDays offset (changes shifts workingDays offset t n) := by
  refine ⟨lt_nextChange shifts workingDays offset t, fun u => active_eq_of_lt, fun u htu => ?_⟩
  obtain ⟨n, hle, hlt⟩ := exists_between shifts workingDays offset htu
  refine ⟨n, hle, hlt, active_eq_of_lt hle ?_⟩
  rw [← changes_succ]
  exact hlt

end

end TwinVoice.Sim.ShiftChanges
