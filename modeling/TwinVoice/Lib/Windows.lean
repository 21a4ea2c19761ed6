import Mathlib.Data.List.Induction
import Mathlib.Data.List.Nodup
import Mathlib.Data.List.OfFn

/-! # Strided windows

The windows of some length that begin at every `stride`-th item of a list, and
a buffer of the last items that is emitted when it is full and a stride has
passed. The buffer emits these windows as long as a stride is no longer than a
window; it waits a whole stride before its first one when it is. -/

namespace TwinVoice.Lib.Windows

variable {α : Type}

/-- How many windows there are in `n` items. -/
def count (size stride n : Nat) : Nat := if n < size then 0 else (n - size) / stride + 1

def strided (size stride : Nat) (xs : List α) : List (List α) :=
  (List.range (count size stride xs.length)).map fun k => (xs.drop (k * stride)).take size

theorem lt_count_iff {size stride n k : Nat} (h : 0 < stride) : k < count size stride n ↔ k * stride + size ≤ n := by
  unfold count
  split
  · omega
  · rw [Nat.lt_succ_iff, Nat.le_div_iff_mul_le h]
    omega

@[simp] theorem length_strided (size stride : Nat) (xs : List α) :
    (strided size stride xs).length = count size stride xs.length := by
  simp [strided]

/-- The windows are those that are over before the items are. -/
theorem filter_range_eq {size stride : Nat} (h : 0 < stride) (n : Nat) :
    (List.range (n + 1)).filter (fun k => k * stride + size ≤ n) = List.range (count size stride n) := by
  have hfits : ∀ k, k * stride + size ≤ n ↔ k < count size stride n := fun k => (lt_count_iff h).symm
  have hle : count size stride n ≤ n + 1 := by
    by_contra hlt
    have hlast := (lt_count_iff (k := n + 1) h).mp (Nat.not_le.mp hlt)
    have := Nat.le_mul_of_pos_right (n + 1) h
    omega
  obtain ⟨m, hm⟩ := Nat.exists_eq_add_of_le hle
  simp only [hfits]
  rw [hm, List.range_add, List.filter_append, List.filter_eq_self.mpr, List.filter_eq_nil_iff.mpr, List.append_nil]
  · intro k hk
    obtain ⟨i, -, rfl⟩ := List.mem_map.mp hk
    simp
  · intro k hk
    exact decide_eq_true (List.mem_range.mp hk)

/-- Where all but one of the items of a window come before them, each of `n` items closes one. -/
theorem count_padded {size : Nat} (h : 0 < size) (n : Nat) : count size 1 (size - 1 + n) = n := by
  unfold count
  split
  · omega
  · rw [Nat.div_one]
    omega

/-- One more item closes a window at every stride. -/
theorem count_succ {size stride : Nat} (n : Nat) : count size stride (n + 1) =
    count size stride n + if size ≤ n + 1 ∧ stride ∣ n + 1 - size then 1 else 0 := by
  unfold count
  by_cases hshort : n + 1 < size
  · rw [if_pos hshort, if_pos (by omega), if_neg (by omega)]
  · rw [if_neg hshort]
    by_cases hfirst : n < size
    · have hzero : n + 1 - size = 0 := by omega
      rw [if_pos hfirst, hzero, Nat.zero_div, if_pos ⟨by omega, Nat.dvd_zero stride⟩]
    · have hsucc : n + 1 - size = n - size + 1 := by omega
      rw [if_neg hfirst, hsucc, Nat.succ_div]
      by_cases hdvd : stride ∣ n - size + 1
      · rw [if_pos hdvd, if_pos ⟨by omega, hdvd⟩]
      · rw [if_neg hdvd, if_neg fun h => hdvd h.2]

/-- The windows of a longer list are the old ones, and the last items when they close one. -/
theorem strided_append {size stride : Nat} (h : 0 < stride) (xs : List α) (x : α) :
    strided size stride (xs ++ [x]) = strided size stride xs ++
      if size ≤ xs.length + 1 ∧ stride ∣ xs.length + 1 - size then [(xs ++ [x]).drop (xs.length + 1 - size)] else [] := by
  have hold : ∀ k < count size stride xs.length,
      ((xs ++ [x]).drop (k * stride)).take size = (xs.drop (k * stride)).take size := by
    intro k hk
    have hfits := (lt_count_iff h).mp hk
    have hlength : (xs.drop (k * stride)).length = xs.length - k * stride := List.length_drop
    rw [List.drop_append_of_le_length (by omega), List.take_append_of_le_length (by omega)]
  have hmap : (List.range (count size stride xs.length)).map (fun k => ((xs ++ [x]).drop (k * stride)).take size) =
      strided size stride xs :=
    List.map_congr_left fun k hk => hold k (List.mem_range.mp hk)
  have hlength : (xs ++ [x]).length = xs.length + 1 := List.length_append
  rw [strided, hlength, count_succ]
  split
  · rename_i hcloses
    have hplace : count size stride xs.length * stride = xs.length + 1 - size := by
      obtain ⟨hfull, c, hc⟩ := hcloses
      unfold count
      split
      · omega
      · rename_i hlong
        have hc' : xs.length + 1 - size = xs.length - size + 1 := by omega
        have hdiv : (xs.length - size) / stride + 1 = c := by
          have hsucc := Nat.succ_div (a := xs.length - size) (b := stride)
          rw [if_pos ⟨c, by omega⟩, ← hc', hc, Nat.mul_div_cancel_left c h] at hsucc
          exact hsucc.symm
        rw [hdiv, hc, Nat.mul_comm]
    rw [List.range_succ, List.map_append, hmap, List.map_singleton, hplace,
      List.take_of_length_le (by rw [List.length_drop, hlength]; omega)]
  · rw [Nat.add_zero, hmap, List.append_nil]

/-- The last `size` items up to the `k`-th, the first of all repeated in front where there are too few. -/
def history (size : Nat) (first : α) (xs : List α) (k : Nat) : List α :=
  List.replicate (size - (k + 1)) first ++ (xs.take (k + 1)).drop (k + 1 - size)

/-- They are a window of the items with the first repeated in front. -/
theorem window_eq_history {size : Nat} (h : 0 < size) (first : α) (xs : List α) (k : Nat) :
    ((List.replicate (size - 1) first ++ xs).drop k).take size = history size first xs k := by
  rw [history, List.drop_append, List.take_append, List.drop_replicate, List.take_replicate, List.length_replicate,
    List.length_replicate, List.drop_take]
  congr 2
  · omega
  · omega
  · congr 1
    omega

/-! ## The buffer -/

/-- The last items, and how many came since it was emitted. -/
structure Buffer (α : Type) where
  items : List α
  since : Nat

namespace Buffer

def push (size stride : Nat) (b : Buffer α) (x : α) : Buffer α × Bool :=
  let items := (b.items ++ [x]).drop ((b.items ++ [x]).length - size)
  if items.length = size ∧ stride ≤ b.since + 1 then (⟨items, 0⟩, true) else (⟨items, b.since + 1⟩, false)

/-- A push, with the windows that were emitted so far. -/
def feed (size stride : Nat) (s : Buffer α × List (List α)) (x : α) : Buffer α × List (List α) :=
  let r := s.1.push size stride x
  (r.1, if r.2 = true then s.2 ++ [r.1.items] else s.2)

def feeds (size stride : Nat) (xs : List α) : Buffer α × List (List α) := xs.foldl (feed size stride) (⟨[], 0⟩, [])

/-- The windows that are emitted over a list. -/
def emitted (size stride : Nat) (xs : List α) : List (List α) := (feeds size stride xs).2

variable {size stride : Nat}

theorem feeds_append (xs : List α) (x : α) :
    feeds size stride (xs ++ [x]) = feed size stride (feeds size stride xs) x := by
  rw [feeds, List.foldl_append]
  rfl

theorem items_push (size stride : Nat) (b : Buffer α) (x : α) :
    (b.push size stride x).1.items = (b.items ++ [x]).drop ((b.items ++ [x]).length - size) := by
  unfold push
  dsimp only
  split <;> rfl

theorem items_feeds (size stride : Nat) (xs : List α) : (feeds size stride xs).1.items = xs.drop (xs.length - size) := by
  induction xs using List.reverseRecOn with
  | nil => exact List.drop_nil.symm
  | append_singleton xs x ih =>
    have hlength : (xs ++ [x]).length = xs.length + 1 := List.length_append
    have hitems : (xs.drop (xs.length - size) ++ [x]) = (xs ++ [x]).drop (xs.length - size) :=
      (List.drop_append_of_le_length (by omega)).symm
    rw [feeds_append, feed, items_push, ih, hitems, List.drop_drop, List.length_drop, hlength]
    congr 1
    omega

/-- What one more item does to the count and to the windows. -/
theorem feed_feeds (size stride : Nat) (xs : List α) (x : α) :
    (size ≤ xs.length + 1 ∧ stride ≤ (feeds size stride xs).1.since + 1 ∧
      (feeds size stride (xs ++ [x])).1.since = 0 ∧
      emitted size stride (xs ++ [x]) = emitted size stride xs ++ [(xs ++ [x]).drop (xs.length + 1 - size)]) ∨
    (¬ (size ≤ xs.length + 1 ∧ stride ≤ (feeds size stride xs).1.since + 1) ∧
      (feeds size stride (xs ++ [x])).1.since = (feeds size stride xs).1.since + 1 ∧
      emitted size stride (xs ++ [x]) = emitted size stride xs) := by
  have hlength : (xs ++ [x]).length = xs.length + 1 := List.length_append
  have hitems : ((feeds size stride xs).1.items ++ [x]).drop (((feeds size stride xs).1.items ++ [x]).length - size) =
      (xs ++ [x]).drop (xs.length + 1 - size) := by
    rw [← items_push size stride, ← hlength, ← items_feeds size stride, feeds_append, feed]
  have hfull : ((xs ++ [x]).drop (xs.length + 1 - size)).length = size ↔ size ≤ xs.length + 1 := by
    rw [List.length_drop, hlength]
    omega
  rw [emitted, emitted, feeds_append, feed, push]
  simp only [hitems, hfull]
  split
  · rename_i hdue
    exact .inl ⟨hdue.1, hdue.2, rfl, rfl⟩
  · rename_i hdue
    exact .inr ⟨hdue, rfl, rfl⟩

/-- How many items came since the last window, where a stride is no longer than one. -/
def sinceLast (size stride n : Nat) : Nat := if n < size then n else (n - size) % stride

theorem stride_le_sinceLast_iff (h : 0 < stride) (hle : stride ≤ size) {n : Nat} (hfull : size ≤ n + 1) :
    stride ≤ sinceLast size stride n + 1 ↔ stride ∣ n + 1 - size := by
  unfold sinceLast
  split
  · have hzero : n + 1 - size = 0 := by omega
    rw [hzero]
    exact iff_of_true (by omega) (Nat.dvd_zero stride)
  · have hsucc : n + 1 - size = stride * ((n - size) / stride) + ((n - size) % stride + 1) := by
      have := Nat.div_add_mod (n - size) stride
      omega
    have hlt := Nat.mod_lt (n - size) h
    rw [hsucc, Nat.dvd_add_right (Nat.dvd_mul_right stride _)]
    constructor
    · intro hstride
      exact ⟨1, by omega⟩
    · exact Nat.le_of_dvd (Nat.succ_pos _)

theorem sinceLast_succ (h : 0 < stride) (n : Nat) : sinceLast size stride (n + 1) =
    if size ≤ n + 1 ∧ stride ∣ n + 1 - size then 0 else sinceLast size stride n + 1 := by
  by_cases hfull : size ≤ n + 1
  · rw [sinceLast, if_neg (by omega)]
    by_cases hdvd : stride ∣ n + 1 - size
    · rw [if_pos ⟨hfull, hdvd⟩, Nat.mod_eq_zero_of_dvd hdvd]
    · rw [if_neg fun hdue => hdvd hdue.2]
      have hlong : ¬ n < size := by
        intro hlt
        have hzero : n + 1 - size = 0 := by omega
        exact hdvd (hzero ▸ Nat.dvd_zero stride)
      have hsplit : n + 1 - size = stride * ((n - size) / stride) + ((n - size) % stride + 1) := by
        have := Nat.div_add_mod (n - size) stride
        omega
      have hlt : (n - size) % stride + 1 < stride := by
        refine Nat.lt_of_le_of_ne (Nat.mod_lt _ h) fun heq => hdvd ?_
        rw [hsplit, heq]
        exact Nat.dvd_add (Nat.dvd_mul_right stride _) (Nat.dvd_refl stride)
      rw [sinceLast, if_neg hlong, hsplit, Nat.mul_add_mod, Nat.mod_eq_of_lt hlt]
  · rw [if_neg fun hdue => hfull hdue.1, sinceLast, sinceLast, if_pos (by omega), if_pos (by omega)]

/-- A stride that is no longer than a window: the buffer emits what the list is cut into. -/
theorem feeds_eq_strided (h : 0 < stride) (hle : stride ≤ size) (xs : List α) :
    (feeds size stride xs).1.since = sinceLast size stride xs.length ∧ emitted size stride xs = strided size stride xs := by
  induction xs using List.reverseRecOn with
  | nil =>
    have hsize : ¬ size = 0 := by omega
    exact ⟨(if_pos (show 0 < size by omega)).symm, by simp [emitted, feeds, strided, count, Nat.pos_of_ne_zero hsize]⟩
  | append_singleton xs x ih =>
    obtain ⟨hsince, hwindows⟩ := ih
    have hlength : (xs ++ [x]).length = xs.length + 1 := List.length_append
    have hiff : (size ≤ xs.length + 1 ∧ stride ≤ (feeds size stride xs).1.since + 1) ↔
        (size ≤ xs.length + 1 ∧ stride ∣ xs.length + 1 - size) := by
      rw [hsince]
      exact and_congr_right fun hfull => stride_le_sinceLast_iff h hle hfull
    rw [hlength, sinceLast_succ h, strided_append h]
    rcases feed_feeds size stride xs x with ⟨hfull, hdue, hzero, hnew⟩ | ⟨hnot, hsucc, hnew⟩
    · have hcloses := hiff.mp ⟨hfull, hdue⟩
      rw [if_pos hcloses, if_pos hcloses, hnew, hwindows]
      exact ⟨hzero, rfl⟩
    · have hopen := fun hcloses => hnot (hiff.mpr hcloses)
      rw [if_neg hopen, if_neg hopen, hnew, hwindows, List.append_nil, hsucc, hsince]
      exact ⟨rfl, rfl⟩

/-- No window is emitted of less items than it has. -/
theorem emitted_of_length_lt {xs : List α} (h : xs.length < size) : emitted size stride xs = [] := by
  induction xs using List.reverseRecOn with
  | nil => rfl
  | append_singleton xs x ih =>
    have hlength : (xs ++ [x]).length = xs.length + 1 := List.length_append
    rcases feed_feeds size stride xs x with ⟨hfull, -⟩ | ⟨-, -, hnew⟩
    · omega
    · rw [hnew, ih (by omega)]

/-- Nor before a stride has passed. -/
theorem feeds_of_length_lt (size : Nat) {xs : List α} (h : xs.length < stride) :
    (feeds size stride xs).1.since = xs.length ∧ emitted size stride xs = [] := by
  induction xs using List.reverseRecOn with
  | nil => exact ⟨rfl, rfl⟩
  | append_singleton xs x ih =>
    have hlength : (xs ++ [x]).length = xs.length + 1 := List.length_append
    obtain ⟨hsince, hnone⟩ := ih (by omega)
    rcases feed_feeds size stride xs x with ⟨-, hdue, -⟩ | ⟨-, hsucc, hnew⟩
    · omega
    · rw [hnew, hnone, hsucc, hsince, hlength]
      exact ⟨rfl, rfl⟩

theorem emitted_prefix (size stride : Nat) (xs ys : List α) : emitted size stride xs <+: emitted size stride (xs ++ ys) := by
  induction ys using List.reverseRecOn with
  | nil => simp
  | append_singleton ys y ih =>
    rw [← List.append_assoc]
    rcases feed_feeds size stride (xs ++ ys) y with ⟨-, -, -, hnew⟩ | ⟨-, -, hnew⟩
    · rw [hnew]
      exact ih.trans (List.prefix_append _ _)
    · rw [hnew]
      exact ih

/-- With a long stride the first window is the last items of the first stride. -/
theorem head?_emitted (h : 0 < stride) (hle : size ≤ stride) {xs : List α} (hlength : stride ≤ xs.length) :
    (emitted size stride xs).head? = some ((xs.take stride).drop (stride - size)) := by
  have htake : (xs.take stride).length = stride := List.length_take_of_le hlength
  obtain ⟨first, x, hfirst⟩ : ∃ first x, xs.take stride = first ++ [x] := by
    refine ⟨(xs.take stride).dropLast, (xs.take stride).getLast ?_, (List.dropLast_append_getLast _).symm⟩
    exact List.ne_nil_of_length_pos (by omega)
  have hcount : first.length + 1 = stride := by
    rw [← htake, hfirst, List.length_append, List.length_singleton]
  obtain ⟨hsince, hnone⟩ := feeds_of_length_lt size (show first.length < stride by omega)
  have hfirstWindow : emitted size stride (xs.take stride) = [(xs.take stride).drop (stride - size)] := by
    rw [hfirst]
    rcases feed_feeds size stride first x with ⟨-, -, -, hnew⟩ | ⟨hnot, -⟩
    · rw [hnew, hnone, hcount, List.nil_append]
    · exact absurd ⟨by omega, by omega⟩ hnot
  obtain ⟨later, hlater⟩ := emitted_prefix size stride (xs.take stride) (xs.drop stride)
  rw [List.take_append_drop, hfirstWindow] at hlater
  rw [← hlater]
  rfl

/-- Each window has taken a stride of the items. -/
theorem mul_length_emitted (size stride : Nat) (xs : List α) :
    (emitted size stride xs).length * stride + (feeds size stride xs).1.since ≤ xs.length := by
  induction xs using List.reverseRecOn with
  | nil => exact Nat.le_of_eq (Nat.zero_mul _)
  | append_singleton xs x ih =>
    have hlength : (xs ++ [x]).length = xs.length + 1 := List.length_append
    rcases feed_feeds size stride xs x with ⟨-, hdue, hzero, hnew⟩ | ⟨-, hsucc, hnew⟩
    · rw [hnew, hzero, List.length_append, List.length_singleton, Nat.add_mul, hlength]
      omega
    · rw [hnew, hsucc, hlength]
      omega

/-- The buffer emits the windows of the list only where a stride is no longer than one. -/
theorem stride_le_of_emitted_eq {xs : List α} (hxs : xs.Nodup) (h : 0 < stride) (hlength : size ≤ xs.length)
    (heq : emitted size stride xs = strided size stride xs) : stride ≤ size := by
  by_contra hlong
  have hpos : 0 < (strided size stride xs).length := by
    rw [length_strided]
    exact (lt_count_iff h).mpr (by omega)
  by_cases hempty : size = 0
  · -- One window of no items more than there are strides.
    have hlast : ¬ (emitted size stride xs).length < count size stride xs.length := by
      rw [heq, length_strided]
      exact Nat.lt_irrefl _
    have hstrides := mul_length_emitted size stride xs
    exact hlast ((lt_count_iff h).mpr (by omega))
  · by_cases hshort : xs.length < stride
    · rw [← heq, (feeds_of_length_lt size hshort).2] at hpos
      exact absurd hpos (Nat.lt_irrefl 0)
    · have hhead := head?_emitted h (Nat.le_of_not_le hlong) (Nat.not_lt.mp hshort)
      rw [heq, strided, List.head?_eq_getElem?, List.getElem?_map, List.getElem?_range (by simpa using hpos)] at hhead
      have hwindow : xs.take size = (xs.take stride).drop (stride - size) := by simpa using hhead
      have hitem : xs[0]? = xs[stride - size]? := by
        have := congrArg (·[0]?) hwindow
        simpa [List.getElem?_take, List.getElem?_drop, Nat.pos_of_ne_zero hempty, show stride - size < stride by omega]
          using this
      have hplace := (List.getElem?_inj (show 0 < xs.length by omega) hxs).mp hitem
      omega

end Buffer

end TwinVoice.Lib.Windows

/-! ## Arrays of a shape

Arrays of two and three axes, with their shape in the type, and what is done to
them when a table is cut into windows: the view of its windows, every `n`-th of
them, two axes swapped, an axis reduced, results stacked as a new axis, and the
last axes flattened. -/

namespace TwinVoice.Lib.NdArray

abbrev Array2 (α : Type) (m n : Nat) := Fin m → Fin n → α

abbrev Array3 (α : Type) (l m n : Nat) := Fin l → Fin m → Fin n → α

variable {α β : Type} {l m n s : Nat}

/-- `sliding_window_view` along the first axis. The places of a window are a last axis. -/
def slidingWindowView (a : Array2 α n m) (size : Nat) (h : size ≤ n) : Array3 α (n - size + 1) m size :=
  fun i j t => a ⟨i + t, by omega⟩ j

theorem mul_lt_of_lt_every {stride k : Nat} (h : 0 < stride) (hk : k < (l + stride - 1) / stride) : k * stride < l := by
  have hle : (k + 1) * stride ≤ l + stride - 1 := (Nat.le_div_iff_mul_le h).mp hk
  rw [Nat.add_mul] at hle
  omega

/-- `a[::stride]`. -/
def every (a : Array3 α l m n) (stride : Nat) (h : 0 < stride) : Array3 α ((l + stride - 1) / stride) m n :=
  fun k j t => a ⟨k * stride, mul_lt_of_lt_every h k.isLt⟩ j t

/-- `a.transpose(0, 2, 1)`. -/
def transpose021 (a : Array3 α l m n) : Array3 α l n m := fun i j k => a i k j

/-- The items along axis 1. -/
def fibre (a : Array3 α l m n) (i : Fin l) (k : Fin n) : List α := List.ofFn fun j => a i j k

/-- A reduction of axis 1. -/
def reduce (f : List α → β) (a : Array3 α l m n) : Array2 β l n := fun i k => f (fibre a i k)

/-- `np.stack(arrays, axis=2)`. -/
def stack (arrays : List (Array2 α l m)) : Array3 α l m arrays.length := fun i j t => arrays.get t i j

/-- `a.reshape(len(a), -1)`. -/
def flattenLast (a : Array3 α l m n) : Array2 α l (m * n) := fun i c => a i c.divNat c.modNat

def toRows (a : Array2 α m n) : List (List α) := List.ofFn fun i => List.ofFn (a i)

@[simp] theorem length_fibre (a : Array3 α l m n) (i : Fin l) (k : Fin n) : (fibre a i k).length = m := List.length_ofFn

/-- Items that are each computed from the item there and from where they are. -/
theorem fibre_map (a : Array3 α l m n) (g : Fin l → Fin n → α → β) (i : Fin l) (k : Fin n) :
    fibre (fun i j k => g i k (a i j k)) i k = (fibre a i k).map (g i k) := by
  rw [fibre, fibre, List.map_ofFn]
  rfl

/-- The number of the windows of some rows that are left by a stride. -/
theorem every_count {size stride : Nat} (h : 0 < stride) (hle : size ≤ n) :
    (n - size + 1 + stride - 1) / stride = Windows.count size stride n := by
  have hshift : n - size + 1 + stride - 1 = n - size + stride := by omega
  rw [Windows.count, if_neg (Nat.not_lt.mpr hle), hshift, Nat.add_div_right _ h]

/-- Flattened stacks have the arrays at each place beside each other. -/
theorem flattenLast_stack (arrays : List (Array2 α l m)) (i : Fin l) :
    List.ofFn (flattenLast (stack arrays) i) =
      (List.ofFn fun j : Fin m => arrays.map fun a => a i j).flatten := by
  rw [List.ofFn_mul]
  refine congrArg List.flatten (congrArg List.ofFn (funext fun j => ?_))
  refine List.ext_getElem (by simp) fun t ht ht' => ?_
  have hlt : t < arrays.length := by simpa using ht
  have hbound : j * arrays.length + t < m * arrays.length := by
    have hle := Nat.mul_le_mul_right arrays.length j.isLt
    rw [Nat.succ_mul] at hle
    omega
  have hdiv : (⟨j * arrays.length + t, hbound⟩ : Fin (m * arrays.length)).divNat = j := by
    refine Fin.ext ?_
    show (j * arrays.length + t) / arrays.length = j
    rw [Nat.mul_comm, Nat.mul_add_div (Nat.zero_lt_of_lt hlt), Nat.div_eq_of_lt hlt, Nat.add_zero]
  have hmod : (⟨j * arrays.length + t, hbound⟩ : Fin (m * arrays.length)).modNat = ⟨t, hlt⟩ := by
    refine Fin.ext ?_
    show (j * arrays.length + t) % arrays.length = t
    rw [Nat.mul_comm, Nat.mul_add_mod, Nat.mod_eq_of_lt hlt]
  rw [List.getElem_ofFn, List.getElem_map]
  show arrays.get (Fin.modNat ⟨j * arrays.length + t, hbound⟩) i (Fin.divNat ⟨j * arrays.length + t, hbound⟩) = _
  rw [hdiv, hmod]
  rfl

end TwinVoice.Lib.NdArray
