import Mathlib.Data.List.ReduceOption

/-! # Series with gaps

A series has a value or a gap at each place. A gap takes the value before it
or the value after it; the two ways to fill differ at most in the gap at the
beginning. -/

namespace TwinVoice.Lib.Filling

variable {α : Type*}

/-- Each gap takes the value before it, the first ones `last` if that is a value. -/
def ffill (last : Option α) : List (Option α) → List (Option α)
  | [] => []
  | x :: l => x.or last :: ffill (x.or last) l

/-- Each gap takes the value after it. -/
def bfill (l : List (Option α)) : List (Option α) := (ffill none l.reverse).reverse

/-- The last value of the series, `last` if it has none. -/
def carried (last : Option α) (l : List (Option α)) : Option α := l.foldl (fun last x => x.or last) last

@[simp] theorem carried_cons (last : Option α) (x : Option α) (l : List (Option α)) :
    carried last (x :: l) = carried (x.or last) l := rfl

theorem carried_append (last : Option α) (l l' : List (Option α)) :
    carried last (l ++ l') = carried (carried last l) l' := List.foldl_append

@[simp] theorem length_ffill (last : Option α) (l : List (Option α)) : (ffill last l).length = l.length := by
  induction l generalizing last with
  | nil => rfl
  | cons x l ih => simp [ffill, ih]

theorem ffill_append (last : Option α) (l l' : List (Option α)) :
    ffill last (l ++ l') = ffill last l ++ ffill (carried last l) l' := by
  induction l generalizing last with
  | nil => rfl
  | cons x l ih => simp [ffill, ih]

theorem ffill_replicate_none (last : Option α) (k : Nat) : ffill last (List.replicate k none) = List.replicate k last := by
  induction k with
  | zero => rfl
  | succ k ih => rw [List.replicate_succ, ffill, Option.none_or, ih, List.replicate_succ]

/-- A gap at the beginning is filled with what comes before the series. -/
theorem ffill_gap (last : Option α) (k : Nat) (v : α) (rest : List (Option α)) :
    ffill last (List.replicate k none ++ some v :: rest) = List.replicate k last ++ some v :: ffill (some v) rest := by
  rw [ffill_append, ffill_replicate_none]
  rfl

theorem isSome_of_mem_ffill {v : α} {l : List (Option α)} : ∀ x ∈ ffill (some v) l, x.isSome = true := by
  induction l generalizing v with
  | nil => simp [ffill]
  | cons y l ih =>
    intro x hx
    cases y with
    | none =>
      rcases List.mem_cons.mp hx with rfl | hx
      · rfl
      · exact ih x hx
    | some w =>
      rcases List.mem_cons.mp hx with rfl | hx
      · rfl
      · exact ih x hx

theorem ffill_of_full {last : Option α} {l : List (Option α)} (h : ∀ x ∈ l, x.isSome = true) : ffill last l = l := by
  induction l generalizing last with
  | nil => rfl
  | cons x l ih =>
    obtain ⟨v, rfl⟩ := Option.isSome_iff_exists.mp (h x List.mem_cons_self)
    rw [ffill, Option.some_or, ih fun y hy => h y (List.mem_cons_of_mem _ hy)]

theorem carried_of_last (last : Option α) (l : List (Option α)) (v : α) : carried last (l ++ [some v]) = some v := by
  rw [carried_append]
  rfl

/-- A gap at the beginning is filled with the first value after it. -/
theorem bfill_gap {k : Nat} {v : α} {rest : List (Option α)} (h : ∀ x ∈ rest, x.isSome = true) :
    bfill (List.replicate k none ++ some v :: rest) = List.replicate k (some v) ++ some v :: rest := by
  have hfull : ∀ x ∈ rest.reverse ++ [some v], x.isSome = true := by
    intro x hx
    rcases List.mem_append.mp hx with hx | hx
    · exact h x (List.mem_reverse.mp hx)
    · rw [List.mem_singleton.mp hx]
      rfl
  rw [bfill, List.reverse_append, List.reverse_cons, List.reverse_replicate, ffill_append, ffill_of_full hfull,
    carried_of_last, ffill_replicate_none]
  simp

theorem mem_ffill {last : Option α} {l : List (Option α)} {v : α} (h : some v ∈ l) : some v ∈ ffill last l := by
  induction l generalizing last with
  | nil => cases h
  | cons x l ih =>
    rcases List.mem_cons.mp h with hx | hx
    · rw [ffill, ← hx]
      exact List.mem_cons_self
    · exact List.mem_cons_of_mem _ (ih hx)

/-- What holds of the values holds of what the gaps are filled with. -/
theorem forall_mem_ffill {P : α → Prop} {last : Option α} {l : List (Option α)} (hlast : ∀ v, last = some v → P v)
    (hl : ∀ v, some v ∈ l → P v) : ∀ v, some v ∈ ffill last l → P v := by
  induction l generalizing last with
  | nil => exact fun _ hv => by cases hv
  | cons x l ih =>
    have hx : ∀ v, x.or last = some v → P v := by
      intro v hv
      cases x with
      | none => exact hlast v hv
      | some w =>
        cases hv
        exact hl v List.mem_cons_self
    intro v hv
    rcases List.mem_cons.mp hv with hv | hv
    · exact hx v hv.symm
    · exact ih hx (fun w hw => hl w (List.mem_cons_of_mem _ hw)) v hv

/-- The first value of the series. -/
def first? (l : List (Option α)) : Option α := l.reduceOption.head?

theorem first?_gap (k : Nat) (v : α) (rest : List (Option α)) :
    first? (List.replicate k none ++ some v :: rest) = some v := by
  unfold first?
  rw [List.reduceOption_append, List.reduceOption_replicate_none]
  rfl

theorem first?_replicate_none (k : Nat) : first? (List.replicate k (none : Option α)) = none := by
  unfold first?
  rw [List.reduceOption_replicate_none]
  rfl

theorem mem_of_first? {l : List (Option α)} {v : α} (h : first? l = some v) : some v ∈ l :=
  List.reduceOption_mem_iff.mp (List.mem_of_head? h)

/-- A series has no value, or a gap and then its first one. -/
theorem eq_gap (l : List (Option α)) :
    l = List.replicate l.length none ∨ ∃ k v rest, l = List.replicate k none ++ some v :: rest := by
  induction l with
  | nil => exact .inl rfl
  | cons x l ih =>
    cases x with
    | some v => exact .inr ⟨0, v, l, rfl⟩
    | none =>
      rcases ih with hnone | ⟨k, v, rest, hsome⟩
      · refine .inl ?_
        rw [List.length_cons, List.replicate_succ, ← hnone]
      · refine .inr ⟨k + 1, v, rest, ?_⟩
        rw [hsome, List.replicate_succ, List.cons_append]

end TwinVoice.Lib.Filling
