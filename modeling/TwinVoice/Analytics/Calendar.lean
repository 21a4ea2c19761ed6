import TwinVoice.Basic
import Mathlib.Algebra.Order.Ring.Int
import Mathlib.Algebra.Order.Sub.Basic

/-! # Days and times of day

A plant's local time is a fixed offset ahead of UTC. A local time falls on a
day, counted from the epoch, and shows a time of day. -/

namespace TwinVoice.Analytics

/-- The length of a day in microseconds. -/
def day : Int := 86400000000

/-- A `time`: microseconds since midnight. -/
structure TimeOfDay where
  micros : Int
  nonneg : 0 ≤ micros
  lt_day : micros < day
  deriving DecidableEq

def midnight : TimeOfDay := ⟨0, le_refl 0, by decide⟩

instance TimeOfDay.neZero_hours : NeZero 24 := ⟨by decide⟩

def TimeOfDay.ofHour (hour : Fin 24) : TimeOfDay where
  micros := hour.val * 3600000000
  nonneg := by omega
  lt_day := by simp only [day]; omega

instance : LE TimeOfDay := ⟨fun t u => t.micros ≤ u.micros⟩
instance : LT TimeOfDay := ⟨fun t u => t.micros < u.micros⟩

instance (t u : TimeOfDay) : Decidable (t ≤ u) := inferInstanceAs (Decidable (t.micros ≤ u.micros))
instance (t u : TimeOfDay) : Decidable (t < u) := inferInstanceAs (Decidable (t.micros < u.micros))

/-- `t.date()`. -/
def dayOf (t : Int) : Int := t / day

/-- `t.time()`. -/
def clockOf (t : Int) : TimeOfDay where
  micros := t % day
  nonneg := Int.emod_nonneg t (by decide)
  lt_day := Int.emod_lt_of_pos t (by decide)

/-- `datetime.combine(d, t)`. -/
def combine (d : Int) (t : TimeOfDay) : Int := d * day + t.micros

/-- `d.weekday()`; the epoch was a Thursday. -/
def weekday (d : Int) : Int := (d + 3) % 7

/-- `_within`: inclusive of the start, exclusive of the end; a window that ends before it
starts wraps past midnight. -/
def Within (clock start stop : TimeOfDay) : Prop :=
  if start ≤ stop then start ≤ clock ∧ clock < stop else start ≤ clock ∨ clock < stop

instance (clock start stop : TimeOfDay) : Decidable (Within clock start stop) := by
  unfold Within
  infer_instance

theorem TimeOfDay.le_iff {t u : TimeOfDay} : t ≤ u ↔ t.micros ≤ u.micros := Iff.rfl

theorem TimeOfDay.lt_iff {t u : TimeOfDay} : t < u ↔ t.micros < u.micros := Iff.rfl

theorem TimeOfDay.ext_micros {t u : TimeOfDay} (h : t.micros = u.micros) : t = u := by
  cases t
  cases u
  cases h
  rfl

theorem combine_dayOf_clockOf (t : Int) : combine (dayOf t) (clockOf t) = t := by
  show t / day * day + t % day = t
  rw [Int.mul_comm]
  exact Int.mul_ediv_add_emod t day

/-- A local time tells its day and its time of day. -/
theorem combine_inj {d d' : Int} {t t' : TimeOfDay} : combine d t = combine d' t' ↔ d = d' ∧ t = t' := by
  constructor
  · intro h
    have hnonneg := t.nonneg
    have hlt := t.lt_day
    have hnonneg' := t'.nonneg
    have hlt' := t'.lt_day
    simp only [combine, day] at h hlt hlt'
    have hd : d = d' := by omega
    subst hd
    exact ⟨rfl, TimeOfDay.ext_micros (by omega)⟩
  · intro ⟨hd, ht⟩
    rw [hd, ht]

@[simp] theorem dayOf_combine (d : Int) (t : TimeOfDay) : dayOf (combine d t) = d :=
  (combine_inj.mp (combine_dayOf_clockOf (combine d t))).1

@[simp] theorem clockOf_combine (d : Int) (t : TimeOfDay) : clockOf (combine d t) = t :=
  (combine_inj.mp (combine_dayOf_clockOf (combine d t))).2

theorem combine_add_day (d : Int) (t : TimeOfDay) : combine d t + day = combine (d + 1) t := by
  simp only [combine, day]
  omega

theorem combine_sub_day (d : Int) (t : TimeOfDay) : combine d t - day = combine (d - 1) t := by
  simp only [combine, day]
  omega

end TwinVoice.Analytics
