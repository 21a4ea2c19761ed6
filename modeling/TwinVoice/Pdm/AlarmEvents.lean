import Mathlib.Algebra.BigOperators.Group.List.Basic
import Mathlib.Algebra.Order.Group.Int
import Mathlib.Algebra.Ring.Int.Defs
import Mathlib.Tactic.Common
import TwinVoice.Lib.Runs

/-! # Alarm events

A window is persistent if it and the two before it are flagged. The times of
the persistent windows are merged across short gaps, which parts them into
events. -/

namespace TwinVoice.Pdm

open TwinVoice.Lib.Runs

/-- `ALARM_PERSIST`. -/
def alarmPersist : Nat := 3

/-- `MERGE_GAP`, in nanoseconds. -/
def mergeGap : Int := 2 * 60 * 60 * 1000000000

/-- The scored windows: a flag for each time. -/
structure FlaggedWindows where
  times : List Int
  flags : List Bool
  lengths : flags.length = times.length
  increasing : times.Pairwise (· < ·)

/-- `rolling(size).sum()`: `none` where the window is not full. -/
def rollingSum (size : Nat) (xs : List Int) : List (Option Int) :=
  (List.range xs.length).map fun i => if i + 1 < size then none else some ((xs.drop (i + 1 - size)).take size).sum

def persistent (flags : List Bool) : List Bool :=
  (rollingSum alarmPersist (flags.map fun flag => if flag then 1 else 0)).map fun count =>
    decide ((alarmPersist : Int) ≤ count.getD 0)

/-- `times[persistent]`. -/
def persistentTimes (times : List Int) (flags : List Bool) : List Int :=
  ((times.zip (persistent flags)).filter Prod.snd).map Prod.fst

def events (w : FlaggedWindows) : List (Int × Int) :=
  merge (fun last t => decide (t - last ≤ mergeGap)) (persistentTimes w.times w.flags)

/-- The last three windows at a time were all flagged. -/
def PersistentAt (w : FlaggedWindows) (t : Int) : Prop :=
  ∃ i, w.times[i + 2]? = some t ∧ w.flags[i]? = some true ∧ w.flags[i + 1]? = some true ∧ w.flags[i + 2]? = some true

/-- Three flags sum up to 3 only if they all are set. -/
theorem three_le_sum_iff {flags : List Bool} {i : Nat} (h : i + 2 < flags.length) :
    (3 : Int) ≤ (((flags.map fun flag => if flag then (1 : Int) else 0).drop i).take 3).sum ↔
      flags[i]? = some true ∧ flags[i + 1]? = some true ∧ flags[i + 2]? = some true := by
  have hfirst : i < flags.length := by omega
  have hsecond : i + 1 < flags.length := by omega
  have hdrop : flags.drop i = flags[i] :: flags[i + 1] :: flags[i + 2] :: flags.drop (i + 3) := by
    rw [List.drop_eq_getElem_cons hfirst, List.drop_eq_getElem_cons hsecond, List.drop_eq_getElem_cons h]
  rw [← List.map_drop, hdrop, List.getElem?_eq_getElem hfirst, List.getElem?_eq_getElem hsecond, List.getElem?_eq_getElem h]
  generalize flags[i] = a
  generalize flags[i + 1] = b
  generalize flags[i + 2] = c
  cases a <;> cases b <;> cases c <;> simp

theorem getElem?_persistent (flags : List Bool) (k : Nat) : (persistent flags)[k]? = some true ↔
    ∃ i, k = i + 2 ∧ flags[i]? = some true ∧ flags[i + 1]? = some true ∧ flags[i + 2]? = some true := by
  unfold persistent rollingSum alarmPersist
  rw [List.getElem?_map, List.getElem?_map, List.length_map]
  rcases Nat.lt_or_ge k flags.length with hk | hk
  · rw [List.getElem?_range hk, Option.map_some, Option.map_some]
    by_cases hfull : k + 1 < 3
    · rw [if_pos hfull]
      constructor
      · intro h
        exact absurd h (by simp)
      · intro h
        obtain ⟨i, hi, -⟩ := h
        omega
    · obtain ⟨i, rfl⟩ : ∃ i, k = i + 2 := ⟨k - 2, by omega⟩
      have hstart : i + 2 + 1 - 3 = i := by omega
      rw [if_neg hfull, hstart, Option.some.injEq, Option.getD_some, decide_eq_true_iff]
      refine (three_le_sum_iff hk).trans ⟨fun h => ⟨i, rfl, h⟩, fun h => ?_⟩
      obtain ⟨j, hj, hall⟩ := h
      obtain rfl : i = j := by omega
      exact hall
  · rw [List.getElem?_eq_none (by rw [List.length_range]; exact hk)]
    constructor
    · intro h
      cases h
    · intro h
      obtain ⟨i, rfl, -, -, hlast⟩ := h
      rw [List.getElem?_eq_none hk] at hlast
      cases hlast

variable {w : FlaggedWindows}

theorem mem_persistentTimes {t : Int} : t ∈ persistentTimes w.times w.flags ↔ PersistentAt w t := by
  unfold persistentTimes PersistentAt
  constructor
  · intro h
    obtain ⟨p, hp, rfl⟩ := List.mem_map.mp h
    obtain ⟨hp, hset⟩ := List.mem_filter.mp hp
    obtain ⟨k, hk⟩ := List.mem_iff_getElem?.mp hp
    obtain ⟨htime, hflag⟩ := List.getElem?_zip_eq_some.mp hk
    rw [hset] at hflag
    obtain ⟨i, rfl, hall⟩ := (getElem?_persistent _ _).mp hflag
    exact ⟨i, htime, hall⟩
  · intro h
    obtain ⟨i, htime, hall⟩ := h
    have hflag := (getElem?_persistent w.flags (i + 2)).mpr ⟨i, rfl, hall⟩
    refine List.mem_map.mpr ⟨(t, true), List.mem_filter.mpr ⟨?_, rfl⟩, rfl⟩
    exact List.mem_iff_getElem?.mpr ⟨i + 2, List.getElem?_zip_eq_some.mpr ⟨htime, hflag⟩⟩

theorem pairwise_persistentTimes : (persistentTimes w.times w.flags).Pairwise (· < ·) := by
  have htimes : (w.times.zip (persistent w.flags)).map Prod.fst = w.times := by
    refine List.map_fst_zip ?_
    simp [persistent, rollingSum, w.lengths]
  have hsub := (List.filter_sublist (l := w.times.zip (persistent w.flags)) (p := Prod.snd)).map Prod.fst
  rw [htimes] at hsub
  exact w.increasing.sublist hsub

variable (w)

/-- Events part the persistent times of the windows. -/
structure Parts (es : List (Int × Int)) : Prop where
  ordered : es.Pairwise fun e f => e.2 < f.1
  forward : ∀ e ∈ es, e.1 ≤ e.2
  separated : es.IsChain fun e f => mergeGap < f.1 - e.2
  ends : ∀ e ∈ es, PersistentAt w e.1 ∧ PersistentAt w e.2
  covers : ∀ t, PersistentAt w t → ∃! e, e ∈ es ∧ e.1 ≤ t ∧ t ≤ e.2
  close : ∀ e ∈ es, ∀ a b, PersistentAt w a → PersistentAt w b → e.1 ≤ a → a < b → b ≤ e.2 →
    (∀ c, PersistentAt w c → a < c → ¬ c < b) → b - a ≤ mergeGap

theorem events_parts : Parts w (events w) := by
  have hsorted := pairwise_persistentTimes (w := w)
  constructor
  · exact pairwise_merge hsorted
  · exact fun e he => fst_le_snd_of_mem_merge hsorted he
  · have hfar := @isChain_merge Int (fun last t => decide (t - last ≤ mergeGap)) _ (persistentTimes w.times w.flags)
    exact hfar.imp fun e f h => not_le.mp (of_decide_eq_false h)
  · intro e he
    obtain ⟨hfirst, hlast⟩ := mem_of_mem_merge he
    exact ⟨mem_persistentTimes.mp hfirst, mem_persistentTimes.mp hlast⟩
  · exact fun t ht => existsUnique_of_mem hsorted (mem_persistentTimes.mpr ht)
  · intro e he a b ha hb hfirst hab hlast hnone
    have hclose := close_of_mem_merge hsorted he (mem_persistentTimes.mpr ha) (mem_persistentTimes.mpr hb) hfirst hab hlast
      fun c hc => hnone c (mem_persistentTimes.mp hc)
    exact of_decide_eq_true hclose

/-- Two persistent windows two hours apart are one event, and a nanosecond more makes them two. -/
example : events ⟨[0, 1, 2, mergeGap + 2], [true, true, true, true], rfl, by decide⟩ = [(2, mergeGap + 2)] ∧
    events ⟨[0, 1, 2, mergeGap + 3], [true, true, true, true], rfl, by decide⟩ =
      [(2, 2), (mergeGap + 3, mergeGap + 3)] := by
  decide

end TwinVoice.Pdm
