import Mathlib.Data.List.Basic

/-! # Texts in segments

`str.split` and `str.join` with a separator of one character. They are
inverse to each other on the lists of segments that hold no separator. -/

namespace TwinVoice.Lib.Segments

/-- `s.split(c)`. -/
def split (c : Char) (s : String) : List String := (s.toList.splitOn c).map String.ofList

/-- `c.join(parts)`. -/
def join (c : Char) (parts : List String) : String :=
  String.ofList ([c].intercalate (parts.map String.toList))

/-- No segment holds the separator. -/
def Free (c : Char) (parts : List String) : Prop := ∀ p ∈ parts, c ∉ p.toList

theorem split_ne_nil (c : Char) (s : String) : split c s ≠ [] := by
  intro h
  exact List.splitOn_ne_nil c s.toList (List.map_eq_nil_iff.mp h)

@[simp] theorem join_split (c : Char) (s : String) : join c (split c s) = s := by
  have hmap : (split c s).map String.toList = s.toList.splitOn c := by
    simp [split, List.map_map, Function.comp_def]
  rw [join, hmap, List.intercalate_splitOn, String.ofList_toList]

theorem split_join {c : Char} {parts : List String} (h : Free c parts) (hne : parts ≠ []) :
    split c (join c parts) = parts := by
  have hparts : ∀ l ∈ parts.map String.toList, c ∉ l := by
    intro l hl
    obtain ⟨p, hp, rfl⟩ := List.mem_map.mp hl
    exact h p hp
  rw [split, join, String.toList_ofList, List.splitOn_intercalate c hparts (by simpa using hne)]
  simp [List.map_map, Function.comp_def]

private theorem not_mem_of_mem_splitOn {c : Char} (xs : List Char) :
    ∀ l ∈ xs.splitOn c, c ∉ l := by
  induction xs with
  | nil => simp
  | cons x xs ih =>
    intro l hl
    rw [List.splitOn_cons_eq_if_modifyHead] at hl
    split at hl
    · rcases List.mem_cons.mp hl with rfl | hl
      · exact List.not_mem_nil
      · exact ih l hl
    · rename_i hx
      cases hs : xs.splitOn c with
      | nil => exact absurd hs (List.splitOn_ne_nil c xs)
      | cons first rest =>
        rw [hs] at hl ih
        rcases List.mem_cons.mp hl with rfl | hl
        · intro hc
          rcases List.mem_cons.mp hc with rfl | hc
          · exact hx (beq_self_eq_true c)
          · exact ih first List.mem_cons_self hc
        · exact ih l (List.mem_cons_of_mem _ hl)

theorem split_free (c : Char) (s : String) : Free c (split c s) := by
  intro p hp
  obtain ⟨l, hl, rfl⟩ := List.mem_map.mp hp
  simpa using not_mem_of_mem_splitOn s.toList l hl

/-- The segments of a text are known by what they make when they are joined. -/
theorem split_eq_iff {c : Char} {s : String} {parts : List String} :
    split c s = parts ↔ parts ≠ [] ∧ Free c parts ∧ join c parts = s := by
  constructor
  · intro h
    subst h
    exact ⟨split_ne_nil c s, split_free c s, join_split c s⟩
  · intro ⟨hne, hfree, hjoin⟩
    rw [← hjoin, split_join hfree hne]

/-- What comes before a separator is split on its own. -/
theorem split_append (c : Char) (s t : String) : split c (s ++ String.singleton c ++ t) = split c s ++ split c t := by
  have htext : (s ++ String.singleton c ++ t).toList = s.toList ++ c :: t.toList := by simp
  rw [split, htext, List.splitOn_append_cons_self, List.map_append]
  rfl

theorem split_eq_singleton {c : Char} {s t : String} (h : split c s = [t]) : t = s := by
  rw [← join_split c s, h]
  simp [join]

end TwinVoice.Lib.Segments
