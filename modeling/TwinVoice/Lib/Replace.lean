import Mathlib.Data.List.Infix

/-! # Replacing in a text

What `replace` makes of a string, on its list of characters: the occurrences
of the pattern from the left, none of them overlapping another. Where the
pattern occurs nowhere, nothing changes. -/

namespace TwinVoice.Lib

section
variable {α : Type} [DecidableEq α] {pat rep : List α}

def replaceAll (pat rep : List α) : List α → List α
  | [] => []
  | c :: cs =>
    if pat <+: c :: cs then rep ++ replaceAll pat rep (cs.drop (pat.length - 1)) else c :: replaceAll pat rep cs
termination_by text => text.length
decreasing_by
  · simp only [List.length_drop, List.length_cons]
    omega
  · simp

@[simp] theorem replaceAll_nil (pat rep : List α) : replaceAll pat rep [] = [] := by rw [replaceAll]

theorem replaceAll_match (hpat : pat ≠ []) (rep rest : List α) :
    replaceAll pat rep (pat ++ rest) = rep ++ replaceAll pat rep rest := by
  cases pat with
  | nil => exact absurd rfl hpat
  | cons c cs =>
    have hdrop : (cs ++ rest).drop ((c :: cs).length - 1) = rest := by simp
    have hhere : c :: cs <+: c :: (cs ++ rest) := List.prefix_append (c :: cs) rest
    rw [List.cons_append, replaceAll, if_pos hhere, hdrop]

/-- Characters with which no occurrence begins stay. -/
theorem replaceAll_skip {front rest : List α} (h : ∀ a b, front = a ++ b → b ≠ [] → ¬ pat <+: b ++ rest) :
    replaceAll pat rep (front ++ rest) = front ++ replaceAll pat rep rest := by
  induction front with
  | nil => rfl
  | cons c front ih =>
    have hhere : ¬ pat <+: c :: (front ++ rest) := h [] (c :: front) rfl (List.cons_ne_nil _ _)
    rw [List.cons_append, replaceAll, if_neg hhere, ih, List.cons_append]
    intro a b hsplit hb
    exact h (c :: a) b (by rw [hsplit, List.cons_append]) hb

theorem replaceAll_of_not_infix {text : List α} (h : ¬ pat <:+: text) : replaceAll pat rep text = text := by
  have hskip := @replaceAll_skip _ _ pat rep text [] fun a b hsplit _ hprefix => h ?_
  · simpa using hskip
  · rw [List.append_nil] at hprefix
    rw [hsplit]
    exact hprefix.isInfix.trans (List.suffix_append a b).isInfix

end

/-! ## Strings -/

open String.Slice.Pattern String.Slice.Pattern.Model

/-- A step of `replace`: an occurrence gives way, what was passed over stays. -/
def replaceStep {s : String.Slice} (rep : String) (sofar : String) : SearchStep s → String
  | .matched .. => sofar ++ String.ToSlice.toSlice rep
  | .rejected start stop => sofar ++ s.slice! start stop

theorem toList_replaceStep_matched {s : String.Slice} (rep sofar : String) (start stop : s.Pos) :
    (replaceStep rep sofar (.matched start stop)).toList = sofar.toList ++ rep.toList := by
  simp [replaceStep, String.ToSlice.toSlice]

theorem toList_replaceStep_rejected {s : String.Slice} {start stop : s.Pos} (rep sofar : String) {a b c : String}
    (hstart : start.Splits a (b ++ c)) (hstop : stop.Splits (a ++ b) c) :
    (replaceStep rep sofar (.rejected start stop)).toList = sofar.toList ++ b.toList := by
  obtain ⟨hle, hcopy⟩ := String.Slice.copy_slice_eq_iff_splits.mpr ⟨a, c, hstart, hstop⟩
  have hslice : (s.slice! start stop).copy = b := by rw [← String.Slice.slice_eq_slice! (h := hle), hcopy]
  simp [replaceStep, ← hslice]

theorem toList_foldl_replaceStep {s : String.Slice} {pat rep : String} (hpat : pat ≠ "") {pos : s.Pos}
    {steps : List (SearchStep s)} (h : IsValidSearchFrom pat pos steps) {done rest : String}
    (hsplit : pos.Splits done rest) (sofar : String) :
    (steps.foldl (replaceStep rep) sofar).toList = sofar.toList ++ replaceAll pat.toList rep.toList rest.toList := by
  induction h generalizing done rest sofar with
  | endPos =>
    have hrest : rest = "" := hsplit.eq_endPos_iff.mp rfl
    simp [hrest]
  | matched hmatch _ ih =>
    obtain ⟨before, after, hstart, hstop⟩ := ForwardStringSearcher.isLongestMatchAt_iff_splits.mp hmatch
    obtain ⟨rfl, rfl⟩ := hsplit.eq hstart
    have hne : pat.toList ≠ [] := by simpa using hpat
    rw [List.foldl_cons, ih hstop, toList_replaceStep_matched, String.toList_append, replaceAll_match hne,
      List.append_assoc]
  | @mismatched _ start stop hlt hno _ ih =>
    have hstop := stop.splits
    obtain ⟨passed, -, hbefore, rfl⟩ := (hsplit.lt_iff_exists_eq_append hstop).mp hlt
    rw [hbefore] at hstop
    generalize (s.sliceFrom stop).copy = after at hsplit hstop
    have hskip : replaceAll pat.toList rep.toList (passed.toList ++ after.toList) =
        passed.toList ++ replaceAll pat.toList rep.toList after.toList := by
      refine replaceAll_skip fun a b hab hb hprefix => ?_
      -- an occurrence that begins in between would be a match of the search
      obtain ⟨tail, htail⟩ := hprefix
      have hpassed : passed = String.ofList a ++ String.ofList b := String.toList_inj.mp (by simp [hab])
      have hmatch : String.ofList b ++ after = pat ++ String.ofList tail := String.toList_inj.mp (by simp [htail])
      have htext : s.copy = (done ++ String.ofList a) ++ (String.ofList b ++ after) := by
        rw [hsplit.eq_append, hpassed]
        simp only [String.append_assoc]
      have hmid := String.Slice.Pos.splits_ofEqAppend htext
      have hmatches : MatchesAt pat (String.Slice.Pos.ofEqAppend htext) := by
        refine ForwardStringSearcher.matchesAt_iff_splits.mpr ⟨done ++ String.ofList a, String.ofList tail, ?_⟩
        rw [← hmatch]
        exact hmid
      refine hno _ ((hsplit.le_iff_exists_eq_append hmid).mpr ⟨String.ofList a, rfl, ?_⟩)
        ((hmid.lt_iff_exists_eq_append hstop).mpr ⟨String.ofList b, ?_, ?_, rfl⟩) hmatches
      · rw [hpassed, String.append_assoc]
      · simpa using hb
      · rw [hpassed, String.append_assoc]
    rw [List.foldl_cons, ih hstop, toList_replaceStep_rejected rep sofar hsplit hstop, String.toList_append, hskip,
      List.append_assoc]

theorem toList_replace (s : String) {pat : String} (rep : String) (hpat : pat ≠ "") :
    (s.replace pat rep).toList = replaceAll pat.toList rep.toList s.toList := by
  have hlawful := ForwardStringSearcher.lawfulToForwardSearcherModel hpat
  have hfold : s.replace pat rep = (ToForwardSearcher.toSearcher pat s.toSlice).toList.foldl (replaceStep rep) "" := by
    rw [Std.Iter.foldl_toList]
    unfold String.replace String.Slice.replace
    congr 1
    funext sofar step
    cases step <;> rfl
  rw [hfold]
  have hsearch := hlawful.isValidSearchFrom_toList s.toSlice
  refine (toList_foldl_replaceStep hpat hsearch (String.Slice.splits_startPos _) "").trans ?_
  simp

end TwinVoice.Lib

/-! ## Words in a composed text

A text is put together from fixed parts and parts that can be anything. A word
that has nothing in common with a fixed part, neither inside it nor over its
edges, lies in the text exactly if it lies in one of the other parts. -/

namespace TwinVoice.Lib

variable {α : Type}

/-- No occurrence of `w` begins in `fixed`. -/
def NoneBegins (w fixed : List α) : Prop :=
  ¬ w <:+: fixed ∧ ∀ s ∈ w.dropLast.inits, s ≠ [] → ¬ s <:+ fixed

/-- Nor does one end in it or lie over it. -/
def Apart (w fixed : List α) : Prop :=
  NoneBegins w fixed ∧ ∀ t ∈ w.tail.tails, t ≠ [] → ¬ t <+: fixed ∧ ¬ fixed <+: t

instance decidableNoneBegins [DecidableEq α] (w fixed : List α) : Decidable (NoneBegins w fixed) := by
  unfold NoneBegins
  infer_instance

instance decidableApart [DecidableEq α] (w fixed : List α) : Decidable (Apart w fixed) := by
  unfold Apart
  infer_instance

theorem NoneBegins.ne_nil {w fixed : List α} (h : NoneBegins w fixed) : w ≠ [] := fun hnil =>
  h.1 (by rw [hnil]; exact List.nil_infix)

theorem NoneBegins.infix_append_iff {w fixed : List α} (h : NoneBegins w fixed) (b : List α) :
    w <:+: fixed ++ b ↔ w <:+: b := by
  constructor
  · intro hin
    rcases List.infix_append_iff_ne_nil.mp hin with hin | hin | ⟨s, t, hs, ht, hw, hsuffix, -⟩
    · exact absurd hin h.1
    · exact hin
    · have hmem : s ∈ w.dropLast.inits := by
        rw [hw, List.mem_inits, List.dropLast_append_of_ne_nil ht]
        exact List.prefix_append s _
      exact absurd hsuffix (h.2 s hmem hs)
  · exact fun hin => hin.trans (List.suffix_append fixed b).isInfix

/-- What goes over the left edge ends in a tail that the fixed part begins with, or that begins with it. -/
theorem Apart.not_prefix {w fixed s t : List α} (h : Apart w fixed) (hw : w = s ++ t) (hs : s ≠ []) (ht : t ≠ [])
    (b : List α) : ¬ t <+: fixed ++ b := by
  intro hprefix
  obtain ⟨c, s, rfl⟩ := List.exists_cons_of_ne_nil hs
  have hmem : t ∈ w.tail.tails := by
    rw [hw, List.mem_tails]
    exact List.suffix_append s t
  obtain ⟨hshort, hlong⟩ := h.2 t hmem ht
  rcases List.prefix_or_prefix_of_prefix hprefix (List.prefix_append fixed b) with hle | hle
  · exact hshort hle
  · exact hlong hle

theorem Apart.infix_iff {w fixed : List α} (h : Apart w fixed) (a b : List α) :
    w <:+: a ++ (fixed ++ b) ↔ w <:+: a ∨ w <:+: b := by
  rw [← h.1.infix_append_iff b, List.infix_append_iff_ne_nil]
  constructor
  · rintro (hin | hin | ⟨s, t, hs, ht, hw, -, hprefix⟩)
    · exact .inl hin
    · exact .inr hin
    · exact absurd hprefix (h.not_prefix hw hs ht b)
  · intro hin
    rcases hin with hin | hin
    · exact .inl hin
    · exact .inr (.inl hin)

/-- At the end of a text. -/
theorem Apart.append_infix_iff {w fixed : List α} (h : Apart w fixed) (a : List α) :
    w <:+: a ++ fixed ↔ w <:+: a := by
  rw [← List.append_nil fixed, h.infix_iff, List.infix_nil, or_iff_left h.1.ne_nil]

theorem Apart.infix_intercalate_iff {w fixed : List α} (h : Apart w fixed) (parts : List (List α)) :
    w <:+: List.intercalate fixed parts ↔ ∃ p ∈ parts, w <:+: p := by
  induction parts with
  | nil => simpa using h.1.ne_nil
  | cons p parts ih =>
    cases parts with
    | nil => simp
    | cons q parts =>
      rw [List.intercalate_cons_cons, List.append_assoc, h.infix_iff, ih]
      exact (List.exists_mem_cons_iff _ p (q :: parts)).symm

/-- A word with a character that a part lacks is not in it. -/
theorem not_infix_of_forall {p : α → Bool} {w part : List α} (hw : ∃ c ∈ w, p c = false)
    (hpart : ∀ c ∈ part, p c = true) : ¬ w <:+: part := by
  intro hin
  obtain ⟨c, hc, hp⟩ := hw
  rw [hpart c (hin.subset hc)] at hp
  cases hp

end TwinVoice.Lib
