import Mathlib.Algebra.Order.Group.MinMax

/-! # Countdowns

A state that has some time left and is told apart by it, and an advance that
takes the time away until none is left. Where time passes in several parts the
state comes out the same as where it passes at once, also past the end. -/

namespace TwinVoice.Lib

structure Countdown (σ K : Type*) [AddCommGroup K] [LinearOrder K] where
  Valid : σ → Prop
  left : σ → K
  advance : σ → K → σ
  left_nonneg : ∀ s, Valid s → 0 ≤ left s
  valid_advance : ∀ s r, Valid s → 0 < left s → 0 < r → Valid (advance s r)
  left_advance : ∀ s r, Valid s → 0 < left s → 0 < r → left (advance s r) = max (left s - r) 0
  eq_of_left : ∀ s t, Valid s → Valid t → left s = left t → s = t

namespace Countdown
variable {σ K : Type*} [AddCommGroup K] [LinearOrder K] (c : Countdown σ K) {s : σ} {r : K}

/-- The state after some time; nothing happens to it once its own has run out. -/
def pass (s : σ) (r : K) : σ := if r ≤ 0 ∨ c.left s ≤ 0 then s else c.advance s r

theorem valid_pass (h : c.Valid s) (r : K) : c.Valid (c.pass s r) := by
  unfold pass
  split
  · exact h
  · rename_i hrun
    obtain ⟨hr, hleft⟩ := not_or.mp hrun
    exact c.valid_advance s r h (not_le.mp hleft) (not_le.mp hr)

variable [IsOrderedAddMonoid K]

theorem left_pass (h : c.Valid s) (hr : 0 ≤ r) : c.left (c.pass s r) = max (c.left s - r) 0 := by
  have hnonneg := c.left_nonneg s h
  unfold pass
  split
  · rename_i hstill
    rcases hstill with hzero | hspent
    · rw [le_antisymm hzero hr, sub_zero, max_eq_left hnonneg]
    · have hleft : c.left s = 0 := le_antisymm hspent hnonneg
      rw [hleft, zero_sub, max_eq_right (neg_nonpos.mpr hr)]
  · rename_i hrun
    obtain ⟨hpos, hleft⟩ := not_or.mp hrun
    exact c.left_advance s r h (not_le.mp hleft) (not_le.mp hpos)

/-- What is left at the end, if anything is, is less by the time that has passed. -/
theorem left_pass_of_pos (h : c.Valid s) (hr : 0 ≤ r) (hleft : 0 < c.left (c.pass s r)) :
    c.left (c.pass s r) = c.left s - r := by
  rw [c.left_pass h hr] at hleft ⊢
  exact max_eq_left ((lt_max_iff.mp hleft).resolve_right (lt_irrefl 0)).le

theorem left_pass_nonpos_iff (h : c.Valid s) (hr : 0 ≤ r) : c.left (c.pass s r) ≤ 0 ↔ c.left s ≤ r := by
  rw [c.left_pass h hr, max_le_iff, sub_nonpos, and_iff_left (le_refl 0)]

/-- Time that passes in two parts. -/
theorem pass_pass (h : c.Valid s) {r' : K} (hr : 0 ≤ r) (hr' : 0 ≤ r') : c.pass (c.pass s r) r' = c.pass s (r + r') := by
  have hpassed := c.valid_pass h r
  refine c.eq_of_left _ _ (c.valid_pass hpassed r') (c.valid_pass h _) ?_
  rw [c.left_pass hpassed hr', c.left_pass h hr, c.left_pass h (add_nonneg hr hr')]
  rcases le_total (c.left s - r) 0 with hend | hrest
  · have hmore : c.left s - (r + r') ≤ 0 := by
      rw [← sub_sub]
      exact sub_nonpos.mpr (hend.trans hr')
    rw [max_eq_right hend, zero_sub, max_eq_right (neg_nonpos.mpr hr'), max_eq_right hmore]
  · rw [max_eq_left hrest, sub_sub]

end Countdown

end TwinVoice.Lib
