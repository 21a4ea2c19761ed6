import Mathlib.Data.List.Basic

/-! # Images of registers

A list of words into which ranges are written. A range that is written inside
of the image comes back when it is read, and a write changes nothing of the
ranges that it does not touch; so of writes to ranges that are apart from each
other every one can be read at the end. -/

namespace TwinVoice.Lib.Registers

variable {α : Type}

/-- `image[address : address + len(words)] = words`. -/
def write (image : List α) (address : Nat) (words : List α) : List α :=
  image.take address ++ words ++ image.drop (address + words.length)

/-- `image[address : address + count]`. -/
def read (image : List α) (address count : Nat) : List α := (image.drop address).take count

/-- Two ranges have no address in common. -/
def Apart (a m b n : Nat) : Prop := a + m ≤ b ∨ b + n ≤ a

section
variable {image words : List α} {a b n : Nat}

@[simp] theorem length_write (h : a + words.length ≤ image.length) : (write image a words).length = image.length := by
  simp only [write, List.length_append, List.length_take, List.length_drop]
  omega

theorem getElem?_write (h : a + words.length ≤ image.length) (i : Nat) :
    (write image a words)[i]? = if i < a then image[i]? else if i < a + words.length then words[i - a]? else image[i]? := by
  have htake : (image.take a).length = a := List.length_take_of_le (by omega)
  rw [write, List.append_assoc]
  split
  · rename_i hi
    rw [List.getElem?_append_left (by omega), List.getElem?_take_of_lt hi]
  · rename_i hi
    rw [List.getElem?_append_right (by omega), htake]
    split
    · rw [List.getElem?_append_left (by omega)]
    · rw [List.getElem?_append_right (by omega), List.getElem?_drop]
      congr 1
      omega

theorem read_write_self (h : a + words.length ≤ image.length) : read (write image a words) a words.length = words := by
  refine List.ext_getElem? fun i => ?_
  rw [read]
  by_cases hi : i < words.length
  · rw [List.getElem?_take_of_lt hi, List.getElem?_drop, getElem?_write h, if_neg (by omega), if_pos (by omega),
      Nat.add_sub_cancel_left]
  · rw [List.getElem?_eq_none (by simp; omega), List.getElem?_eq_none (Nat.not_lt.mp hi)]

theorem read_write_of_apart (h : a + words.length ≤ image.length) (hapart : Apart a words.length b n) :
    read (write image a words) b n = read image b n := by
  refine List.ext_getElem? fun i => ?_
  rw [read, read]
  by_cases hi : i < n
  · rw [List.getElem?_take_of_lt hi, List.getElem?_take_of_lt hi, List.getElem?_drop, List.getElem?_drop,
      getElem?_write h]
    unfold Apart at hapart
    split
    · rfl
    · split
      · omega
      · rfl
  · rw [List.getElem?_take_eq_none (Nat.not_lt.mp hi), List.getElem?_take_eq_none (Nat.not_lt.mp hi)]

end

/-! ## Many writes -/

/-- Some ranges that are written one after the other. -/
def writes (image : List α) (ranges : List (Nat × List α)) : List α :=
  ranges.foldl (fun image r => write image r.1 r.2) image

variable {image : List α} {ranges : List (Nat × List α)}

theorem length_writes (h : ∀ r ∈ ranges, r.1 + r.2.length ≤ image.length) :
    (writes image ranges).length = image.length := by
  induction ranges generalizing image with
  | nil => rfl
  | cons r ranges ih =>
    obtain ⟨hr, hrest⟩ := List.forall_mem_cons.mp h
    have hlength := length_write hr
    exact (ih (hlength.symm ▸ hrest)).trans hlength

theorem read_writes_of_apart (h : ∀ r ∈ ranges, r.1 + r.2.length ≤ image.length) {b n : Nat}
    (hapart : ∀ r ∈ ranges, Apart r.1 r.2.length b n) : read (writes image ranges) b n = read image b n := by
  induction ranges generalizing image with
  | nil => rfl
  | cons r ranges ih =>
    obtain ⟨hr, hrest⟩ := List.forall_mem_cons.mp h
    obtain ⟨hfirst, hlater⟩ := List.forall_mem_cons.mp hapart
    exact (ih ((length_write hr).symm ▸ hrest) hlater).trans (read_write_of_apart hr hfirst)

/-- Each of the ranges can be read in the end. -/
theorem read_writes (image : List α) (h : ∀ r ∈ ranges, r.1 + r.2.length ≤ image.length)
    (hapart : ranges.Pairwise fun r s => Apart s.1 s.2.length r.1 r.2.length) {r : Nat × List α} (hr : r ∈ ranges) :
    read (writes image ranges) r.1 r.2.length = r.2 := by
  induction ranges generalizing image with
  | nil => cases hr
  | cons s ranges ih =>
    obtain ⟨hs, hrest⟩ := List.forall_mem_cons.mp h
    obtain ⟨hfirst, hlater⟩ := List.pairwise_cons.mp hapart
    have hrest' : ∀ r ∈ ranges, r.1 + r.2.length ≤ (write image s.1 s.2).length := (length_write hs).symm ▸ hrest
    rcases List.mem_cons.mp hr with rfl | hmem
    · exact (read_writes_of_apart hrest' hfirst).trans (read_write_self hs)
    · exact ih (write image s.1 s.2) hrest' hlater hmem

end TwinVoice.Lib.Registers
