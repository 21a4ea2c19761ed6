import Mathlib.Data.List.Basic
import Mathlib.Data.List.Forall2

/-! # Combinations and products

The sublists of a length in the order of the positions of their items, and
the choices of an item from each of some lists, the last one varying first. -/

namespace TwinVoice.Lib.Choices

variable {α β : Type*}

/-- `itertools.combinations(l, n)`. -/
def combinations : Nat → List α → List (List α)
  | 0, _ => [[]]
  | _ + 1, [] => []
  | n + 1, a :: l => (combinations n l).map (a :: ·) ++ combinations (n + 1) l

/-- `itertools.product(*lists)`. -/
def product : List (List β) → List (List β)
  | [] => [[]]
  | l :: lists => l.flatMap fun b => (product lists).map (b :: ·)

theorem mem_combinations {n : Nat} {l c : List α} : c ∈ combinations n l ↔ c.Sublist l ∧ c.length = n := by
  induction l generalizing n c with
  | nil =>
    cases n with
    | zero => simp [combinations]
    | succ n =>
      refine iff_of_false List.not_mem_nil fun h => ?_
      rw [List.sublist_nil.mp h.1] at h
      exact absurd h.2 (by simp)
  | cons a l ih =>
    cases n with
    | zero =>
      rw [combinations, List.mem_singleton, List.length_eq_zero_iff]
      exact ⟨fun h => ⟨h ▸ List.nil_sublist _, h⟩, And.right⟩
    | succ n =>
      rw [combinations, List.mem_append, List.mem_map, ih, List.sublist_cons_iff]
      constructor
      · intro h
        rcases h with ⟨rest, hrest, rfl⟩ | ⟨hsub, hlength⟩
        · obtain ⟨hsub, hlength⟩ := ih.mp hrest
          exact ⟨Or.inr ⟨rest, rfl, hsub⟩, by rw [List.length_cons, hlength]⟩
        · exact ⟨Or.inl hsub, hlength⟩
      · intro h
        obtain ⟨hsub | ⟨rest, rfl, hsub⟩, hlength⟩ := h
        · exact Or.inr ⟨hsub, hlength⟩
        · exact Or.inl ⟨rest, ih.mpr ⟨hsub, Nat.succ.inj hlength⟩, rfl⟩

theorem mem_product {lists : List (List β)} {c : List β} : c ∈ product lists ↔ List.Forall₂ (· ∈ ·) c lists := by
  induction lists generalizing c with
  | nil => simp [product]
  | cons l lists ih =>
    rw [product, List.mem_flatMap]
    constructor
    · intro h
      obtain ⟨b, hb, hc⟩ := h
      obtain ⟨rest, hrest, rfl⟩ := List.mem_map.mp hc
      exact .cons hb (ih.mp hrest)
    · intro h
      cases h with
      | cons hb hrest => exact ⟨_, hb, List.mem_map_of_mem (ih.mpr hrest)⟩

/-- The choices of a combination and of a value for each of its items. -/
def assignments (n : Nat) (items : List α) (values : α → List β) : List (List (α × β)) :=
  (combinations n items).flatMap fun combo => (product (combo.map values)).map combo.zip

theorem mem_assignments {n : Nat} {items : List α} {values : α → List β} {c : List (α × β)} :
    c ∈ assignments n items values ↔
      (c.map Prod.fst).Sublist items ∧ c.length = n ∧ ∀ m ∈ c, m.2 ∈ values m.1 := by
  have hzip : ∀ (c : List (α × β)), List.Forall₂ (· ∈ ·) (c.map Prod.snd) ((c.map Prod.fst).map values) ↔
      ∀ m ∈ c, m.2 ∈ values m.1 := by
    intro c
    induction c with
    | nil => simp
    | cons m c ih => simp
  unfold assignments
  rw [List.mem_flatMap]
  constructor
  · intro h
    obtain ⟨combo, hcombo, hc⟩ := h
    obtain ⟨hsub, hlength⟩ := mem_combinations.mp hcombo
    obtain ⟨point, hpoint, rfl⟩ := List.mem_map.mp hc
    have hchosen := mem_product.mp hpoint
    have heq : combo.length = point.length := by rw [hchosen.length_eq, List.length_map]
    have hfst : (combo.zip point).map Prod.fst = combo := List.map_fst_zip (Nat.le_of_eq heq)
    have hsnd : (combo.zip point).map Prod.snd = point := List.map_snd_zip (Nat.le_of_eq heq.symm)
    refine ⟨?_, ?_, (hzip _).mp ?_⟩
    · rw [hfst]
      exact hsub
    · rw [List.length_zip, ← heq, Nat.min_self, hlength]
    · rw [hfst, hsnd]
      exact hchosen
  · intro h
    obtain ⟨hsub, hlength, hvalues⟩ := h
    refine ⟨c.map Prod.fst, mem_combinations.mpr ⟨hsub, by rw [List.length_map, hlength]⟩, ?_⟩
    refine List.mem_map.mpr ⟨c.map Prod.snd, mem_product.mpr ((hzip c).mpr hvalues), ?_⟩
    rw [List.zip_map', List.map_id']

/-- A loop over the numbers up to a bound that ends with the first success. -/
theorem findSome?_range {n : Nat} {f : Nat → Option α} {a : α} :
    (List.range n).findSome? f = some a ↔ ∃ i < n, f i = some a ∧ ∀ j < i, f j = none := by
  induction n with
  | zero => simp
  | succ n ih =>
    rw [List.range_succ, List.findSome?_append, Option.or_eq_some_iff, ih, List.findSome?_singleton]
    constructor
    · intro h
      rcases h with ⟨i, hi, hsome⟩ | ⟨hnone, hsome⟩
      · exact ⟨i, by omega, hsome⟩
      · have hbefore := List.findSome?_eq_none_iff.mp hnone
        exact ⟨n, n.lt_succ_self, hsome, fun j hj => hbefore j (List.mem_range.mpr hj)⟩
    · intro h
      obtain ⟨i, hi, hsome, hbefore⟩ := h
      by_cases hlast : i = n
      · subst hlast
        exact Or.inr ⟨List.findSome?_eq_none_iff.mpr fun j hj => hbefore j (List.mem_range.mp hj), hsome⟩
      · exact Or.inl ⟨i, by omega, hsome, hbefore⟩

end TwinVoice.Lib.Choices

/-! ## A sweep over pairs that breaks off early

For every element the later ones are gone through until one ends the inner
loop. In a list in which whatever comes after that one would end it as well,
the sweep finds what a look at all pairs finds. -/

namespace TwinVoice.Lib

variable {α β : Type*}

/-- The pairs of an element and a later one. -/
def pairs : List α → List (α × α)
  | [] => []
  | a :: as => as.map (fun b => (a, b)) ++ pairs as

theorem mem_of_mem_pairs {l : List α} {p : α × α} (h : p ∈ pairs l) : p.1 ∈ l ∧ p.2 ∈ l := by
  induction l with
  | nil => cases h
  | cons a as ih =>
    rcases List.mem_append.mp h with h | h
    · obtain ⟨b, hb, rfl⟩ := List.mem_map.mp h
      exact ⟨List.mem_cons_self, List.mem_cons_of_mem _ hb⟩
    · exact ⟨List.mem_cons_of_mem _ (ih h).1, List.mem_cons_of_mem _ (ih h).2⟩

theorem forall_mem_pairs {R : α → α → Prop} {l : List α} :
    (∀ p ∈ pairs l, R p.1 p.2) ↔ l.Pairwise R := by
  induction l with
  | nil => exact iff_of_true (fun _ h => absurd h List.not_mem_nil) .nil
  | cons a as ih =>
    rw [List.pairwise_cons, ← ih, pairs]
    simp only [List.mem_append, List.mem_map, or_imp, forall_and, forall_exists_index, and_imp,
      forall_apply_eq_imp_iff₂]

theorem pairs_map (f : α → β) (l : List α) : pairs (l.map f) = (pairs l).map (Prod.map f f) := by
  induction l with
  | nil => rfl
  | cons a as ih =>
    rw [List.map_cons, pairs, ih, pairs, List.map_append, List.map_map, List.map_map]
    rfl

section
variable (ends : α → α → Bool) (hit : α → α → Option β)

/-- The inner loop, for one first element. -/
def sweepFrom (first : α) : List α → List β
  | [] => []
  | second :: rest =>
    if ends first second then [] else (hit first second).toList ++ sweepFrom first rest

def sweep : List α → List β
  | [] => []
  | first :: rest => sweepFrom ends hit first rest ++ sweep rest

variable {ends hit}

theorem sweepFrom_eq {first : α} {l : List α} (h : l.Pairwise fun b c => ends first b = true → ends first c = true) :
    sweepFrom ends hit first l = l.filterMap fun b => if ends first b then none else hit first b := by
  induction l with
  | nil => rfl
  | cons b bs ih =>
    rw [List.pairwise_cons] at h
    rw [sweepFrom, ih h.2]
    by_cases hb : ends first b = true
    · -- the loop has ended, and none of the others would have counted
      have hrest : ∀ c ∈ bs, ends first c = true := fun c hc => h.1 c hc hb
      rw [if_pos hb, eq_comm, List.filterMap_eq_nil_iff]
      intro c hc
      rcases List.mem_cons.mp hc with rfl | hc
      · exact if_pos hb
      · exact if_pos (hrest c hc)
    · rw [if_neg hb, List.filterMap_cons, if_neg hb]
      cases hit first b with
      | none => rfl
      | some c => rfl

theorem sweep_eq {l : List α}
    (h : ∀ a ∈ l, l.Pairwise fun b c => ends a b = true → ends a c = true) :
    sweep ends hit l = (pairs l).filterMap fun p => if ends p.1 p.2 then none else hit p.1 p.2 := by
  induction l with
  | nil => rfl
  | cons a as ih =>
    rw [sweep, sweepFrom_eq (List.pairwise_cons.mp (h a List.mem_cons_self)).2, ih, pairs, List.filterMap_append,
      List.filterMap_map]
    · rfl
    · exact fun b hb => (List.pairwise_cons.mp (h b (List.mem_cons_of_mem _ hb))).2

end

theorem length_filterMap_le {f g : α → Option β} {l : List α} (h : ∀ a ∈ l, f a = none ∨ f a = g a) :
    (l.filterMap f).length ≤ (l.filterMap g).length := by
  induction l with
  | nil => exact Nat.le_refl _
  | cons a as ih =>
    have hrest := ih fun b hb => h b (List.mem_cons_of_mem _ hb)
    rcases h a List.mem_cons_self with hnone | hsame
    · rw [List.filterMap_cons_none hnone]
      refine Nat.le_trans hrest ?_
      cases hg : g a with
      | none => exact Nat.le_of_eq (by rw [List.filterMap_cons_none hg])
      | some b =>
        rw [List.filterMap_cons_some hg]
        exact Nat.le_succ _
    · cases hg : g a with
      | none => rwa [List.filterMap_cons_none (hsame.trans hg), List.filterMap_cons_none hg]
      | some b =>
        rw [List.filterMap_cons_some (hsame.trans hg), List.filterMap_cons_some hg]
        exact Nat.succ_le_succ hrest

/-- Two searches of which one finds only what the other does find the same
exactly if they agree everywhere. -/
theorem filterMap_eq_iff {f g : α → Option β} {l : List α} (h : ∀ a ∈ l, f a = none ∨ f a = g a) :
    l.filterMap f = l.filterMap g ↔ ∀ a ∈ l, f a = g a := by
  refine ⟨fun heq => ?_, List.filterMap_congr⟩
  induction l with
  | nil => exact fun a ha => absurd ha List.not_mem_nil
  | cons a as ih =>
    have hlater : ∀ b ∈ as, f b = none ∨ f b = g b := fun b hb => h b (List.mem_cons_of_mem _ hb)
    have hsame : f a = g a := by
      rcases h a List.mem_cons_self with hnone | hsame
      · cases hg : g a with
        | none => exact hnone
        | some b =>
          rw [List.filterMap_cons_none hnone, List.filterMap_cons_some hg] at heq
          have hlength := length_filterMap_le hlater
          rw [heq, List.length_cons] at hlength
          exact absurd hlength (Nat.not_succ_le_self _)
      · exact hsame
    rw [List.forall_mem_cons]
    refine ⟨hsame, ih hlater ?_⟩
    cases hg : g a with
    | none => rwa [List.filterMap_cons_none (hsame.trans hg), List.filterMap_cons_none hg] at heq
    | some b =>
      rw [List.filterMap_cons_some (hsame.trans hg), List.filterMap_cons_some hg] at heq
      exact (List.cons.inj heq).2

end TwinVoice.Lib
