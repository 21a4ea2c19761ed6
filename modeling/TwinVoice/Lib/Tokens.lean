import Mathlib.Data.List.TakeWhile
import TwinVoice.Lib.Replace

/-! # Tokens

What `split()` makes of a text: the maximal runs of characters that are no
separators. Only where the separators are counts, so a text may be squeezed and
trimmed at will, and what is replaced inside a token stays inside it. -/

namespace TwinVoice.Lib

variable {α : Type} {p : α → Bool}

def tokens (p : α → Bool) (cs : List α) : List (List α) := (cs.splitOnP p).filter (· ≠ [])

@[simp] theorem tokens_nil (p : α → Bool) : tokens p [] = [] := rfl

theorem tokens_append_sep {s : α} (hs : p s = true) (a b : List α) :
    tokens p (a ++ s :: b) = tokens p a ++ tokens p b := by
  unfold tokens
  rw [List.splitOnP_append_cons a b hs, List.filter_append]

theorem tokens_sep {s : α} (hs : p s = true) (b : List α) : tokens p (s :: b) = tokens p b :=
  tokens_append_sep hs [] b

theorem tokens_of_none {a : List α} (hne : a ≠ []) (h : ∀ c ∈ a, p c = false) : tokens p a = [a] := by
  unfold tokens
  rw [List.splitOnP_eq_singleton h]
  simp [hne]

/-- A run ends where the text does or where a separator stands. -/
theorem tokens_run {a rest : List α} (hne : a ≠ []) (h : ∀ c ∈ a, p c = false) (hrest : ∀ s ∈ rest.head?, p s = true) :
    tokens p (a ++ rest) = a :: tokens p rest := by
  cases rest with
  | nil => rw [List.append_nil, tokens_of_none hne h, tokens_nil]
  | cons s rest =>
    have hs : p s = true := hrest s rfl
    rw [tokens_append_sep hs, tokens_of_none hne h, tokens_sep hs, List.singleton_append]

theorem tokens_of_all {a : List α} (h : ∀ c ∈ a, p c = true) : tokens p a = [] := by
  induction a with
  | nil => rfl
  | cons s a ih =>
    obtain ⟨hs, ha⟩ := List.forall_mem_cons.mp h
    rw [tokens_sep hs, ih ha]

theorem tokens_append_of_all {s : List α} (h : ∀ c ∈ s, p c = true) (a : List α) : tokens p (a ++ s) = tokens p a := by
  cases s with
  | nil => rw [List.append_nil]
  | cons c s =>
    obtain ⟨hc, hs⟩ := List.forall_mem_cons.mp h
    rw [tokens_append_sep hc, tokens_of_all hs, List.append_nil]

theorem tokens_dropWhile (p : α → Bool) (a : List α) : tokens p (a.dropWhile p) = tokens p a := by
  induction a with
  | nil => rfl
  | cons s a ih =>
    cases hs : p s with
    | true => rw [List.dropWhile_cons_of_pos hs, ih, tokens_sep hs]
    | false => rw [List.dropWhile_cons_of_neg (by simp [hs])]

theorem tokens_dropWhile_reverse (p : α → Bool) (a : List α) :
    tokens p (a.reverse.dropWhile p).reverse = tokens p a := by
  have hsplit : a = (a.reverse.dropWhile p).reverse ++ (a.reverse.takeWhile p).reverse := by
    rw [← List.reverse_append, List.takeWhile_append_dropWhile, List.reverse_reverse]
  have hall : ∀ c ∈ (a.reverse.takeWhile p).reverse, p c = true := fun c hc =>
    List.mem_takeWhile_imp (List.mem_reverse.mp hc)
  conv_rhs => rw [hsplit, tokens_append_of_all hall]

/-- A text is its first run and a rest that the run does not extend into, or begins with a separator. -/
theorem exists_run {c : α} (hc : p c = false) (cs : List α) : ∃ a rest, c :: cs = (c :: a) ++ rest ∧
    (∀ d ∈ c :: a, p d = false) ∧ ∀ s ∈ rest.head?, p s = true := by
  refine ⟨cs.takeWhile fun d => !p d, cs.dropWhile fun d => !p d, ?_, ?_, ?_⟩
  · rw [List.cons_append, List.takeWhile_append_dropWhile]
  · refine List.forall_mem_cons.mpr ⟨hc, fun d hd => ?_⟩
    simpa using List.mem_takeWhile_imp hd
  · intro s hs
    have hhead := List.head?_dropWhile_not (fun d => !p d) cs
    rw [hs] at hhead
    simpa using hhead

/-- A text is empty, begins with a separator, or begins with a whole token. -/
theorem run_induction {motive : List α → Prop} (p : α → Bool) (nil : motive [])
    (sep : ∀ s cs, p s = true → motive cs → motive (s :: cs))
    (run : ∀ a rest, a ≠ [] → (∀ c ∈ a, p c = false) → (∀ s ∈ rest.head?, p s = true) → motive rest →
      motive (a ++ rest)) (cs : List α) : motive cs := by
  induction hlen : cs.length using Nat.strong_induction_on generalizing cs with
  | _ n ih =>
    cases cs with
    | nil => exact nil
    | cons c cs =>
      cases hc : p c with
      | true => exact sep c cs hc (ih _ (by simp [← hlen]) cs rfl)
      | false =>
        obtain ⟨a, rest, hsplit, hrun, hrest⟩ := exists_run hc cs
        have hshorter : rest.length < n := by
          rw [← hlen, hsplit]
          simp only [List.length_append, List.length_cons]
          omega
        rw [hsplit]
        exact run _ rest (List.cons_ne_nil c a) hrun hrest (ih _ hshorter rest rfl)

theorem ne_nil_of_mem_tokens {cs w : List α} (h : w ∈ tokens p cs) : w ≠ [] := by
  simpa using List.of_mem_filter h

theorem mem_of_mem_tokens {cs w : List α} {c : α} (hw : w ∈ tokens p cs) (hc : c ∈ w) : c ∈ cs ∧ p c = false := by
  induction cs using run_induction p with
  | nil => cases hw
  | sep s cs hs ih =>
    rw [tokens_sep hs] at hw
    exact (ih hw).imp_left (List.mem_cons_of_mem s)
  | run a rest hne hrun hrest ih =>
    rw [tokens_run hne hrun hrest] at hw
    rcases List.mem_cons.mp hw with rfl | hw
    · exact ⟨List.mem_append_left _ hc, hrun c hc⟩
    · exact (ih hw).imp_left (List.mem_append_right a)

/-- What is no separator is in some token. -/
theorem exists_token_of_mem {cs : List α} {c : α} (hc : c ∈ cs) (hp : p c = false) : ∃ w ∈ tokens p cs, c ∈ w := by
  induction cs using run_induction p with
  | nil => cases hc
  | sep s cs hs ih =>
    rcases List.mem_cons.mp hc with rfl | hc
    · rw [hs] at hp
      cases hp
    · rw [tokens_sep hs]
      exact ih hc
  | run a rest hne hrun hrest ih =>
    rw [tokens_run hne hrun hrest]
    rcases List.mem_append.mp hc with hc | hc
    · exact ⟨a, List.mem_cons_self, hc⟩
    · obtain ⟨w, hw, hcw⟩ := ih hc
      exact ⟨w, List.mem_cons_of_mem a hw, hcw⟩

theorem tokens_congr {q : α → Bool} {cs : List α} (h : ∀ c ∈ cs, p c = q c) : tokens p cs = tokens q cs := by
  induction cs using run_induction p with
  | nil => rfl
  | sep s cs hs ih =>
    obtain ⟨hsame, h⟩ := List.forall_mem_cons.mp h
    rw [tokens_sep hs, tokens_sep (hsame ▸ hs), ih h]
  | run a rest hne hrun hrest ih =>
    obtain ⟨ha, h⟩ := List.forall_mem_append.mp h
    rw [tokens_run hne hrun hrest, ih h, tokens_run hne fun c hc => (ha c hc).symm.trans (hrun c hc)]
    exact fun s hs => (h s (List.mem_of_mem_head? hs)).symm.trans (hrest s hs)

/-- Joined with a separator, words are the tokens again. -/
theorem tokens_intercalate {s : α} (hs : p s = true) {ws : List (List α)}
    (h : ∀ w ∈ ws, w ≠ [] ∧ ∀ c ∈ w, p c = false) : tokens p (List.intercalate [s] ws) = ws := by
  induction ws with
  | nil => rfl
  | cons w ws ih =>
    obtain ⟨⟨hne, hfree⟩, hws⟩ := List.forall_mem_cons.mp h
    cases ws with
    | nil => rw [List.intercalate_singleton, tokens_of_none hne hfree]
    | cons v ws =>
      rw [List.intercalate_cons_cons, List.append_assoc, List.singleton_append, tokens_append_sep hs,
        tokens_of_none hne hfree, ih hws, List.singleton_append]

/-! ## Replacing inside the tokens -/

section
variable {pat rep : List α}

theorem prefix_append_sep {s : α} (hs : s ∉ pat) (a b : List α) : pat <+: a ++ s :: b ↔ pat <+: a := by
  refine ⟨fun h => ?_, fun h => h.trans (List.prefix_append a _)⟩
  rcases Nat.lt_or_ge a.length pat.length with hlt | hle
  · have hlonger : a ++ [s] <+: pat := by
      refine List.prefix_of_prefix_length_le ⟨b, ?_⟩ h (by simpa [Nat.succ_le_iff] using hlt)
      rw [List.append_assoc, List.singleton_append]
    exact absurd (hlonger.subset (by simp)) hs
  · exact List.prefix_of_prefix_length_le h (List.prefix_append a _) hle

variable [DecidableEq α]

/-- Nothing is replaced across a character that the pattern lacks. -/
theorem replaceAll_append_sep {s : α} (hs : s ∉ pat) (hpat : pat ≠ []) (a b : List α) :
    replaceAll pat rep (a ++ s :: b) = replaceAll pat rep a ++ s :: replaceAll pat rep b := by
  induction hlen : a.length using Nat.strong_induction_on generalizing a with
  | _ n ih =>
    cases a with
    | nil =>
      have hno : ¬ pat <+: s :: b := by
        rw [← List.nil_append (s :: b), prefix_append_sep hs, List.prefix_nil]
        exact hpat
      rw [replaceAll_nil, List.nil_append, List.nil_append, replaceAll, if_neg hno]
    | cons c cs =>
      rw [List.cons_append, replaceAll, replaceAll]
      by_cases hmatch : pat <+: c :: cs
      · have hlonger : pat <+: c :: (cs ++ s :: b) := (prefix_append_sep hs (c :: cs) b).mpr hmatch
        have hle : pat.length - 1 ≤ cs.length := by
          have := hmatch.length_le
          simp only [List.length_cons] at this
          omega
        rw [if_pos hlonger, if_pos hmatch, List.drop_append_of_le_length hle, ih _ ?_ _ rfl, List.append_assoc]
        simp only [List.length_drop, List.length_cons] at hlen ⊢
        omega
      · have hnot : ¬ pat <+: c :: (cs ++ s :: b) := fun h => hmatch ((prefix_append_sep hs (c :: cs) b).mp h)
        rw [if_neg hnot, if_neg hmatch, ih _ (by simp [← hlen]) _ rfl, List.cons_append]

theorem erase_sublist (pat cs : List α) : (replaceAll pat [] cs).Sublist cs := by
  fun_induction replaceAll pat [] cs with
  | case1 => exact List.Sublist.refl _
  | case2 c cs hmatch ih => exact (ih.trans (List.drop_sublist _ _)).cons c
  | case3 c cs hno ih => exact ih.cons_cons c

theorem tokens_erase_run {run : List α} (h : ∀ c ∈ run, p c = false) :
    tokens p (replaceAll pat [] run) = [replaceAll pat [] run].filter (· ≠ []) := by
  have hkept : ∀ c ∈ replaceAll pat [] run, p c = false := fun c hc => h c ((erase_sublist pat run).subset hc)
  generalize replaceAll pat [] run = kept at hkept
  cases kept with
  | nil => rfl
  | cons c cs =>
    rw [tokens_of_none (List.cons_ne_nil c cs) hkept]
    rfl

/-- What is erased inside a token leaves the other tokens as they are. -/
theorem tokens_erase (hpat : pat ≠ []) (hsep : ∀ c ∈ pat, p c = false) (cs : List α) :
    tokens p (replaceAll pat [] cs) = ((tokens p cs).map (replaceAll pat [])).filter (· ≠ []) := by
  induction cs using run_induction p with
  | nil => simp
  | sep c cs hc ih =>
    have hout : c ∉ pat := fun hin => by simp [hsep c hin] at hc
    have herase := @replaceAll_append_sep _ pat [] _ c hout hpat [] cs
    rw [List.nil_append, replaceAll_nil, List.nil_append] at herase
    rw [herase, tokens_sep hc, tokens_sep hc, ih]
  | run a rest hne hrun hrest ih =>
    cases rest with
    | nil =>
      rw [List.append_nil, tokens_of_none hne hrun, List.map_singleton]
      exact tokens_erase_run hrun
    | cons s rest =>
      have hs : p s = true := hrest s rfl
      have hout : s ∉ pat := fun hin => by simp [hsep s hin] at hs
      have herase := @replaceAll_append_sep _ pat [] _ s hout hpat [] rest
      rw [List.nil_append, replaceAll_nil, List.nil_append] at herase
      rw [herase, tokens_sep hs, tokens_sep hs] at ih
      rw [replaceAll_append_sep hout hpat, tokens_append_sep hs, tokens_append_sep hs, tokens_erase_run hrun, ih,
        tokens_of_none hne hrun, List.map_append, List.filter_append, List.map_singleton]

end

end TwinVoice.Lib
