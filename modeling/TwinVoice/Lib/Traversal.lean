import Mathlib.Data.List.Forall2

/-! # Traversals that may fail

A computation in `Except` succeeds when each of its steps does, and a
traversal of a list when it succeeds at every element. -/

namespace TwinVoice.Lib
variable {α β γ ε : Type}

theorem bind_eq_ok {x : Except ε α} {f : α → Except ε β} {b : β} (h : x >>= f = .ok b) :
    ∃ a, x = .ok a ∧ f a = .ok b := by
  cases x with
  | error e => cases h
  | ok a => exact ⟨a, rfl, h⟩

theorem toOption_eq_some {x : Except ε α} {a : α} : x.toOption = some a ↔ x = .ok a := by
  cases x <;> simp [Except.toOption]

theorem map_eq_ok_iff {x : Except ε α} {f : α → β} {b : β} :
    x.map f = .ok b ↔ ∃ a, x = .ok a ∧ f a = b := by
  cases x <;> simp [Except.map]

/-! Lists of which the elements are related one by one. -/

theorem exists_of_forall₂ {R : α → β → Prop} {l : List α} {l' : List β} (h : List.Forall₂ R l l') {a : α} (ha : a ∈ l) :
    ∃ b ∈ l', R a b := by
  induction h with
  | nil => cases ha
  | @cons a' b l l' hab _ ih =>
    rcases List.mem_cons.mp ha with rfl | hmem
    · exact ⟨b, List.mem_cons_self, hab⟩
    · obtain ⟨b', hb', hR⟩ := ih hmem
      exact ⟨b', List.mem_cons_of_mem _ hb', hR⟩

theorem forall₂_comp {R : α → β → Prop} {S : β → γ → Prop} {T : α → γ → Prop} (hT : ∀ a b c, R a b → S b c → T a c)
    {l : List α} {l' : List β} {l'' : List γ} (h : List.Forall₂ R l l') (h' : List.Forall₂ S l' l'') : List.Forall₂ T l l'' := by
  induction h generalizing l'' with
  | nil =>
    cases h'
    exact .nil
  | cons hab _ ih =>
    cases h' with
    | cons hbc hrest => exact .cons (hT _ _ _ hab hbc) (ih hrest)

theorem forall₂_zip {R : α → β → Prop} {S : β → γ → Prop} {l : List α} {l' : List β} {l'' : List γ} (h : List.Forall₂ R l l')
    (h' : List.Forall₂ S l' l'') : List.Forall₂ (fun a e => R a e.1 ∧ S e.1 e.2) l (l'.zip l'') := by
  induction h generalizing l'' with
  | nil => exact .nil
  | cons hab _ ih =>
    cases h' with
    | cons hbc hrest => exact .cons ⟨hab, hbc⟩ (ih hrest)

/-! Traversals. -/

theorem mapM_eq_ok_iff {f : α → Except ε β} {l : List α} {bs : List β} :
    l.mapM f = .ok bs ↔ List.Forall₂ (fun a b => f a = .ok b) l bs := by
  constructor
  · intro h
    induction l generalizing bs with
    | nil =>
      cases h
      exact .nil
    | cons a l ih =>
      rw [List.mapM_cons] at h
      obtain ⟨b, ha, hrest⟩ := bind_eq_ok h
      obtain ⟨bs', hl, hbs⟩ := bind_eq_ok hrest
      cases hbs
      exact .cons ha (ih hl)
  · intro h
    induction h with
    | nil => rfl
    | cons ha _ ih => simp only [List.mapM_cons, ha, ih, bind, Except.bind, pure, Except.pure]

theorem mapM_eq_map {f : α → Except ε β} {g : α → β} {l : List α} (h : ∀ a ∈ l, f a = .ok (g a)) : l.mapM f = .ok (l.map g) := by
  rw [mapM_eq_ok_iff, List.forall₂_map_right_iff, List.forall₂_same]
  exact h

theorem mapM_map_eq_map {f : α → β} {g : β → Except ε γ} {h : α → γ} {l : List α} (hl : ∀ a ∈ l, g (f a) = .ok (h a)) :
    (l.map f).mapM g = .ok (l.map h) := by
  rw [mapM_eq_ok_iff, List.forall₂_map_left_iff, List.forall₂_map_right_iff, List.forall₂_same]
  exact hl

theorem exists_mapM {f : α → Except ε β} {l : List α} (h : ∀ a ∈ l, ∃ b, f a = .ok b) : ∃ bs, l.mapM f = .ok bs := by
  simp only [mapM_eq_ok_iff]
  induction l with
  | nil => exact ⟨[], .nil⟩
  | cons a l ih =>
    obtain ⟨⟨b, hb⟩, hrest⟩ := List.forall_mem_cons.mp h
    obtain ⟨bs, hbs⟩ := ih hrest
    exact ⟨b :: bs, .cons hb hbs⟩

theorem exists_of_mapM {f : α → Except ε β} {l : List α} {bs : List β} (h : l.mapM f = .ok bs) :
    ∀ a ∈ l, ∃ b, f a = .ok b := by
  rw [mapM_eq_ok_iff] at h
  induction h with
  | nil => simp
  | cons hb _ ih => exact List.forall_mem_cons.mpr ⟨⟨_, hb⟩, ih⟩

/-- What one traversal makes of a list another takes on, element by element. -/
theorem mapM_mapM {f : α → Except ε β} {g : β → Except ε γ} {h : α → γ} {l : List α}
    (hl : ∀ a ∈ l, ∃ b, f a = .ok b ∧ g b = .ok (h a)) :
    ∃ bs, l.mapM f = .ok bs ∧ bs.mapM g = .ok (l.map h) := by
  simp only [mapM_eq_ok_iff]
  induction l with
  | nil => exact ⟨[], .nil, .nil⟩
  | cons a l ih =>
    obtain ⟨b, hf, hg⟩ := hl a List.mem_cons_self
    obtain ⟨bs, hfs, hgs⟩ := ih fun a ha => hl a (List.mem_cons_of_mem _ ha)
    exact ⟨b :: bs, .cons hf hfs, .cons hg hgs⟩

/-- There and back to the list it was is there and back at every element. -/
theorem mapM_mapM_eq_iff {f : α → Except ε β} {g : β → Except ε α} {l : List α} :
    (∃ bs, l.mapM f = .ok bs ∧ bs.mapM g = .ok l) ↔ ∀ a ∈ l, ∃ b, f a = .ok b ∧ g b = .ok a := by
  constructor
  · rintro ⟨bs, hf, hg⟩
    rw [mapM_eq_ok_iff] at hf hg
    induction hf with
    | nil => simp
    | cons hb _ ih =>
      cases hg with
      | cons ha hg => exact List.forall_mem_cons.mpr ⟨⟨_, hb, ha⟩, ih hg⟩
  · intro h
    obtain ⟨bs, hf, hg⟩ := mapM_mapM (h := id) h
    exact ⟨bs, hf, by rw [hg, List.map_id]⟩

/-- A property of the results is one of the elements if it is at each of them. -/
theorem forall_mem_of_mapM {f : α → Except ε β} {P : α → Prop} {Q : β → Prop}
    (hf : ∀ a b, f a = .ok b → (Q b ↔ P a)) {l : List α} {bs : List β} (h : l.mapM f = .ok bs) :
    (∀ b ∈ bs, Q b) ↔ ∀ a ∈ l, P a := by
  rw [mapM_eq_ok_iff] at h
  induction h with
  | nil => simp
  | cons hb _ ih => rw [List.forall_mem_cons, List.forall_mem_cons, hf _ _ hb, ih]

/-- The first element that fails decides, whatever comes after it. -/
theorem mapM_error {f : α → Except ε β} {pre post : List α} {a : α} {e : ε}
    (hpre : ∀ x ∈ pre, ∃ b, f x = .ok b) (ha : f a = .error e) : (pre ++ a :: post).mapM f = .error e := by
  induction pre with
  | nil => simp only [List.nil_append, List.mapM_cons, ha, bind, Except.bind]
  | cons x pre ih =>
    obtain ⟨b, hb⟩ := hpre x List.mem_cons_self
    have hrest := ih fun y hy => hpre y (List.mem_cons_of_mem _ hy)
    simp only [List.cons_append, List.mapM_cons, hb, hrest, bind, Except.bind]

theorem mapM_eq_some_iff {f : α → Option β} {l : List α} {bs : List β} :
    l.mapM f = some bs ↔ List.Forall₂ (fun a b => f a = some b) l bs := by
  induction l generalizing bs with
  | nil => simp [eq_comm]
  | cons a l ih =>
    rw [List.mapM_cons, List.forall₂_cons_left_iff]
    simp only [Option.bind_eq_bind, Option.bind_eq_some_iff, Option.pure_def, Option.some.injEq, ih]
    constructor
    · rintro ⟨b, hb, bs, hbs, rfl⟩
      exact ⟨b, bs, hb, hbs, rfl⟩
    · rintro ⟨b, bs, hb, hbs, rfl⟩
      exact ⟨b, hb, bs, hbs, rfl⟩

/-- In `Option`, a traversal succeeds where each of its steps does. -/
theorem exists_mapM_map {f : α → Option β} {g : γ → α} {P : β → γ → Prop} {l : List γ}
    (h : ∀ c ∈ l, ∃ b, f (g c) = some b ∧ P b c) : ∃ bs, (l.map g).mapM f = some bs ∧ List.Forall₂ P bs l := by
  induction l with
  | nil => exact ⟨[], rfl, .nil⟩
  | cons c l ih =>
    obtain ⟨⟨b, hb, hP⟩, hl⟩ := List.forall_mem_cons.mp h
    obtain ⟨bs, hbs, hPs⟩ := ih hl
    refine ⟨b :: bs, ?_, .cons hP hPs⟩
    rw [List.map_cons, List.mapM_cons, hb, hbs]
    rfl

/-! A machine that takes a list element by element, and may refuse one. -/

theorem foldlM_cons_some {step : β → α → Option β} {b b' : β} {a : α} (h : step b a = some b') (l : List α) :
    (a :: l).foldlM step b = l.foldlM step b' := by
  rw [List.foldlM_cons, h]
  rfl

theorem foldlM_append_some {step : β → α → Option β} {b b' : β} {l : List α} (h : l.foldlM step b = some b')
    (l' : List α) : (l ++ l').foldlM step b = l'.foldlM step b' := by
  rw [List.foldlM_append, h]
  rfl

end TwinVoice.Lib
