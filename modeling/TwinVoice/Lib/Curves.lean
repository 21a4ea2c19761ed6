import Mathlib.Algebra.Order.Field.Basic
import Mathlib.Data.List.MinMax
import Mathlib.Tactic.Linarith
import Mathlib.Tactic.Ring

/-! # Curves

Values at equal distances, the area under the line that joins them, and the
values rescaled to their own range. -/

namespace TwinVoice.Lib.Curves

section
variable {K : Type*} [Field K]

/-- The area under the line through values one apart. -/
def trapezoid (values : List K) : K := (List.zipWith (fun a b : K => (a + b) / (2 : Nat)) values values.tail).sum

@[simp] theorem trapezoid_nil : trapezoid ([] : List K) = 0 := rfl

@[simp] theorem trapezoid_singleton (a : K) : trapezoid [a] = 0 := rfl

@[simp] theorem trapezoid_cons_cons (a b : K) (values : List K) :
    trapezoid (a :: b :: values) = (a + b) / 2 + trapezoid (b :: values) := by
  rw [← Nat.cast_ofNat (n := 2)]
  rfl

end

section
variable {K : Type*} [Field K] [LinearOrder K] [IsStrictOrderedRing K]

theorem trapezoid_nonneg : ∀ {values : List K}, (∀ v ∈ values, 0 ≤ v) → 0 ≤ trapezoid values
  | [], _ => le_rfl
  | [_], _ => le_rfl
  | a :: b :: values, h => by
    have ha : 0 ≤ a := h a List.mem_cons_self
    have hb : 0 ≤ b := h b (List.mem_cons_of_mem _ List.mem_cons_self)
    have hrest := trapezoid_nonneg fun v hv => h v (List.mem_cons_of_mem _ hv)
    rw [trapezoid_cons_cons]
    linarith

theorem trapezoid_le : ∀ {a : K} {values : List K}, (∀ v ∈ a :: values, v ≤ 1) → trapezoid (a :: values) ≤ values.length
  | a, [], _ => by simp
  | a, b :: values, h => by
    have ha : a ≤ 1 := h a List.mem_cons_self
    have hb : b ≤ 1 := h b (List.mem_cons_of_mem _ List.mem_cons_self)
    have hrest := trapezoid_le fun v hv => h v (List.mem_cons_of_mem _ hv)
    rw [trapezoid_cons_cons, List.length_cons, Nat.cast_succ]
    linarith

/-- A curve that starts above zero has an area. -/
theorem trapezoid_pos {a b : K} {values : List K} (ha : 0 < a) (h : ∀ v ∈ b :: values, 0 ≤ v) :
    0 < trapezoid (a :: b :: values) := by
  have hb : 0 ≤ b := h b List.mem_cons_self
  have hrest := trapezoid_nonneg h
  rw [trapezoid_cons_cons]
  linarith

end

/-! ## Own ranges -/

section
variable {K : Type*} [Field K] [LinearOrder K]

def low (values : List K) : K := values.min?.getD 0

def high (values : List K) : K := values.max?.getD 0

/-- The values as shares of the way from the lowest to the highest. -/
def rescaled (values : List K) : List K := values.map fun v => (v - low values) / (high values - low values)

theorem low_le {values : List K} {v : K} (h : v ∈ values) : low values ≤ v := by
  unfold low
  cases hleast : values.min? with
  | none =>
    rw [List.min?_eq_none_iff.mp hleast] at h
    cases h
  | some least => exact (List.min?_eq_some_iff.mp hleast).2 v h

theorem le_high {values : List K} {v : K} (h : v ∈ values) : v ≤ high values := by
  unfold high
  cases hmost : values.max? with
  | none =>
    rw [List.max?_eq_none_iff.mp hmost] at h
    cases h
  | some most => exact (List.max?_eq_some_iff.mp hmost).2 v h

theorem low_mem {values : List K} (h : values ≠ []) : low values ∈ values := by
  unfold low
  cases hleast : values.min? with
  | none => exact absurd (List.min?_eq_none_iff.mp hleast) h
  | some least => exact (List.min?_eq_some_iff.mp hleast).1

theorem high_mem {values : List K} (h : values ≠ []) : high values ∈ values := by
  unfold high
  cases hmost : values.max? with
  | none => exact absurd (List.max?_eq_none_iff.mp hmost) h
  | some most => exact (List.max?_eq_some_iff.mp hmost).1

/-- The range is empty exactly if no two values differ. -/
theorem high_eq_low_iff {a : K} {values : List K} : high (a :: values) = low (a :: values) ↔ ∀ v ∈ a :: values, v = a := by
  constructor
  · intro h v hv
    have heq : ∀ v ∈ a :: values, v = low (a :: values) := fun v hv => le_antisymm (h ▸ le_high hv) (low_le hv)
    exact (heq v hv).trans (heq a List.mem_cons_self).symm
  · intro h
    rw [h _ (high_mem (List.cons_ne_nil _ _)), h _ (low_mem (List.cons_ne_nil _ _))]

variable [IsStrictOrderedRing K]

theorem rescaled_mem_unit {values : List K} {v : K} (h : v ∈ rescaled values) : 0 ≤ v ∧ v ≤ 1 := by
  obtain ⟨w, hw, rfl⟩ := List.mem_map.mp h
  have hlow := low_le hw
  have hhigh := le_high hw
  exact ⟨div_nonneg (by linarith) (by linarith), div_le_one_of_le₀ (by linarith) (by linarith)⟩

end

end TwinVoice.Lib.Curves

/-! ## Interpolation between knots

A line through each two of some knots that follow each other, and the value of
the first and of the last beyond them. Where the knots go up, no value of it is
outside the values of the knots. -/

namespace TwinVoice.Lib.Interpolation

variable {K : Type} [Field K] [LinearOrder K]

/-- The line from one knot to another. -/
def line (p q : K × K) (x : K) : K := (q.2 - p.2) / (q.1 - p.1) * (x - p.1) + p.2

/-- The value beyond a knot: on the line to the next one before it, further on behind it. -/
def beyond (p : K × K) : List (K × K) → K → K
  | [], _ => p.2
  | q :: rest, x => if x < q.1 then line p q x else beyond q rest x

/-- The value at a place, given the first knot and those behind it. -/
def interpolate (p : K × K) (rest : List (K × K)) (x : K) : K := if x ≤ p.1 then p.2 else beyond p rest x

section
variable [IsStrictOrderedRing K]

/-- Between two knots the line is between their values. -/
theorem line_mem {p q : K × K} {a b x : K} (hp : a ≤ p.2 ∧ p.2 ≤ b) (hq : a ≤ q.2 ∧ q.2 ≤ b) (hpx : p.1 ≤ x) (hxq : x < q.1) :
    a ≤ line p q x ∧ line p q x ≤ b := by
  have hlength : 0 < q.1 - p.1 := sub_pos.mpr (hpx.trans_lt hxq)
  have hshare : 0 ≤ (x - p.1) / (q.1 - p.1) := div_nonneg (sub_nonneg.mpr hpx) hlength.le
  have hshare' : (x - p.1) / (q.1 - p.1) ≤ 1 := (div_le_one hlength).mpr (sub_le_sub_right hxq.le _)
  have hline : line p q x = (1 - (x - p.1) / (q.1 - p.1)) * p.2 + (x - p.1) / (q.1 - p.1) * q.2 := by
    unfold line
    ring
  rw [hline]
  constructor
  · nlinarith [mul_le_mul_of_nonneg_left hp.1 (sub_nonneg.mpr hshare'), mul_le_mul_of_nonneg_left hq.1 hshare]
  · nlinarith [mul_le_mul_of_nonneg_left hp.2 (sub_nonneg.mpr hshare'), mul_le_mul_of_nonneg_left hq.2 hshare]

theorem beyond_mem {p : K × K} {rest : List (K × K)} {a b x : K} (hvalues : ∀ q ∈ p :: rest, a ≤ q.2 ∧ q.2 ≤ b)
    (hpx : p.1 ≤ x) : a ≤ beyond p rest x ∧ beyond p rest x ≤ b := by
  induction rest generalizing p with
  | nil => exact hvalues p List.mem_cons_self
  | cons q rest ih =>
    obtain ⟨hp, hrest⟩ := List.forall_mem_cons.mp hvalues
    rw [beyond]
    split
    · rename_i hxq
      exact line_mem hp (hrest q List.mem_cons_self) hpx hxq
    · rename_i hqx
      exact ih hrest (not_lt.mp hqx)

theorem interpolate_mem {p : K × K} {rest : List (K × K)} {a b : K} (hvalues : ∀ q ∈ p :: rest, a ≤ q.2 ∧ q.2 ≤ b) (x : K) :
    a ≤ interpolate p rest x ∧ interpolate p rest x ≤ b := by
  unfold interpolate
  split
  · exact hvalues p List.mem_cons_self
  · rename_i hx
    exact beyond_mem hvalues (not_le.mp hx).le

end

end TwinVoice.Lib.Interpolation
