import Mathlib.Computability.Language

/-! # Pieces with gaps between them

A text is made of pieces with a gap between each two. Gaps may be taken with
the piece before or with the piece after: once there is a piece, those to its
left may carry their gap behind them and those to its right before them. -/

namespace TwinVoice.Lib

variable {α : Type}

/-- The pieces, each led by a gap. -/
def led (gap : Language α) : List (List α) → Language α
  | [] => 1
  | p :: ps => gap * {p} * led gap ps

/-- The pieces, each followed by a gap. -/
def trailed (gap : Language α) : List (List α) → Language α
  | [] => 1
  | p :: ps => {p} * gap * trailed gap ps

/-- The pieces with a gap between each two. -/
def spaced (gap : Language α) : List (List α) → Language α
  | [] => 1
  | p :: ps => {p} * led gap ps

section
variable (gap : Language α)

theorem led_append (ps qs : List (List α)) : led gap (ps ++ qs) = led gap ps * led gap qs := by
  induction ps with
  | nil => exact (one_mul _).symm
  | cons p ps ih => rw [List.cons_append, led, led, ih, mul_assoc _ (led gap ps)]

theorem gap_mul_spaced {ps : List (List α)} (h : ps ≠ []) : gap * spaced gap ps = led gap ps := by
  cases ps with
  | nil => exact absurd rfl h
  | cons p ps => rw [spaced, led, mul_assoc]

theorem spaced_mul_gap {ps : List (List α)} (h : ps ≠ []) : spaced gap ps * gap = trailed gap ps := by
  induction ps with
  | nil => exact absurd rfl h
  | cons p ps ih =>
    cases ps with
    | nil => rw [spaced, led, mul_one, trailed, trailed, mul_one]
    | cons q ps => rw [spaced, ← gap_mul_spaced gap (List.cons_ne_nil q ps), trailed, ← ih (List.cons_ne_nil q ps),
        mul_assoc, mul_assoc, mul_assoc]

theorem spaced_append_led {ps : List (List α)} (h : ps ≠ []) (qs : List (List α)) :
    spaced gap (ps ++ qs) = spaced gap ps * led gap qs := by
  cases ps with
  | nil => exact absurd rfl h
  | cons p ps => rw [List.cons_append, spaced, spaced, led_append, mul_assoc]

theorem spaced_append_trailed (ps : List (List α)) {qs : List (List α)} (h : qs ≠ []) :
    spaced gap (ps ++ qs) = trailed gap ps * spaced gap qs := by
  cases ps with
  | nil => exact (one_mul _).symm
  | cons p ps =>
    rw [spaced_append_led gap (List.cons_ne_nil p ps), ← gap_mul_spaced gap h, ← mul_assoc,
      spaced_mul_gap gap (List.cons_ne_nil p ps)]

end

/-! ## Choices of pieces -/

/-- The texts of the choices. -/
def choosing (f : List (List α) → Language α) (choices : Language (List α)) : Language α :=
  {w | ∃ ps ∈ choices, w ∈ f ps}

/-- The choice of one piece. -/
def singles (l : Language α) : Language (List α) := {ps | ∃ p ∈ l, ps = [p]}

/-- Every choice has a piece. -/
def Filled (choices : Language (List α)) : Prop := ∀ ps ∈ choices, ps ≠ []

section
variable {f g h : List (List α) → Language α} {R S : Language (List α)}

theorem mem_choosing {w : List α} : w ∈ choosing f R ↔ ∃ ps ∈ R, w ∈ f ps := Iff.rfl

theorem choosing_one (hf : f [] = 1) : choosing f 1 = 1 := by
  ext w
  rw [mem_choosing]
  constructor
  · rintro ⟨ps, rfl, hw⟩
    exact hf ▸ hw
  · intro hw
    exact ⟨[], rfl, hf ▸ hw⟩

theorem choosing_add (R S : Language (List α)) : choosing f (R + S) = choosing f R + choosing f S := by
  ext w
  rw [Language.mem_add, mem_choosing, mem_choosing, mem_choosing]
  constructor
  · rintro ⟨ps, hR | hS, hw⟩
    · exact .inl ⟨ps, hR, hw⟩
    · exact .inr ⟨ps, hS, hw⟩
  · rintro (⟨ps, hR, hw⟩ | ⟨ps, hS, hw⟩)
    · exact ⟨ps, .inl hR, hw⟩
    · exact ⟨ps, .inr hS, hw⟩

/-- A choice in two parts is read part by part. -/
theorem choosing_mul (hsplit : ∀ ps ∈ R, ∀ qs ∈ S, f (ps ++ qs) = g ps * h qs) :
    choosing f (R * S) = choosing g R * choosing h S := by
  ext w
  rw [mem_choosing, Language.mem_mul]
  constructor
  · rintro ⟨_, ⟨ps, hps, qs, hqs, rfl⟩, hw⟩
    dsimp only at hw
    rw [hsplit ps hps qs hqs, Language.mem_mul] at hw
    obtain ⟨a, ha, b, hb, hab⟩ := hw
    exact ⟨a, ⟨ps, hps, ha⟩, b, ⟨qs, hqs, hb⟩, hab⟩
  · rintro ⟨a, ⟨ps, hps, ha⟩, b, ⟨qs, hqs, hb⟩, rfl⟩
    refine ⟨ps ++ qs, Language.append_mem_mul hps hqs, ?_⟩
    rw [hsplit ps hps qs hqs]
    exact Language.append_mem_mul ha hb

theorem mul_choosing {l : Language α} (hsame : ∀ ps ∈ R, l * g ps = f ps) : l * choosing g R = choosing f R := by
  ext w
  rw [mem_choosing, Language.mem_mul]
  constructor
  · rintro ⟨a, ha, b, ⟨ps, hps, hb⟩, rfl⟩
    exact ⟨ps, hps, hsame ps hps ▸ Language.append_mem_mul ha hb⟩
  · rintro ⟨ps, hps, hw⟩
    rw [← hsame ps hps, Language.mem_mul] at hw
    obtain ⟨a, ha, b, hb, hab⟩ := hw
    exact ⟨a, ha, b, ⟨ps, hps, hb⟩, hab⟩

theorem choosing_mul_lang {l : Language α} (hsame : ∀ ps ∈ R, g ps * l = f ps) : choosing g R * l = choosing f R := by
  ext w
  rw [mem_choosing, Language.mem_mul]
  constructor
  · rintro ⟨a, ⟨ps, hps, ha⟩, b, hb, rfl⟩
    exact ⟨ps, hps, hsame ps hps ▸ Language.append_mem_mul ha hb⟩
  · rintro ⟨ps, hps, hw⟩
    rw [← hsame ps hps, Language.mem_mul] at hw
    obtain ⟨a, ha, b, hb, hab⟩ := hw
    exact ⟨a, ⟨ps, hps, ha⟩, b, hb, hab⟩

theorem filled_singles (l : Language α) : Filled (singles l) := by
  rintro _ ⟨w, -, rfl⟩
  exact List.cons_ne_nil w []

theorem Filled.mul_left (hR : Filled R) : Filled (R * S) := by
  rintro _ ⟨ps, hps, qs, -, rfl⟩ hnil
  exact hR ps hps (List.append_eq_nil_iff.mp hnil).1

theorem Filled.mul_right (hS : Filled S) : Filled (R * S) := by
  rintro _ ⟨ps, -, qs, hqs, rfl⟩ hnil
  exact hS qs hqs (List.append_eq_nil_iff.mp hnil).2

end

section
variable (gap : Language α) {R S : Language (List α)}

theorem gap_mul_choosing (h : Filled R) : gap * choosing (spaced gap) R = choosing (led gap) R :=
  mul_choosing fun ps hps => gap_mul_spaced gap (h ps hps)

theorem choosing_mul_gap (h : Filled R) : choosing (spaced gap) R * gap = choosing (trailed gap) R :=
  choosing_mul_lang fun ps hps => spaced_mul_gap gap (h ps hps)

theorem choosing_led_mul (R S : Language (List α)) :
    choosing (led gap) (R * S) = choosing (led gap) R * choosing (led gap) S :=
  choosing_mul fun ps _ qs _ => led_append gap ps qs

theorem choosing_spaced_mul_led (h : Filled R) (S : Language (List α)) :
    choosing (spaced gap) (R * S) = choosing (spaced gap) R * choosing (led gap) S :=
  choosing_mul fun ps hps qs _ => spaced_append_led gap (h ps hps) qs

theorem choosing_spaced_mul_trailed (R : Language (List α)) (h : Filled S) :
    choosing (spaced gap) (R * S) = choosing (trailed gap) R * choosing (spaced gap) S :=
  choosing_mul fun ps _ qs hqs => spaced_append_trailed gap ps (h qs hqs)

/-- A choice of a single piece is the piece. -/
theorem choosing_spaced_singles (S : Language α) : choosing (spaced gap) (singles S) = S := by
  ext w
  constructor
  · rintro ⟨_, ⟨p, hp, rfl⟩, hw⟩
    rw [spaced, led, mul_one] at hw
    exact (Set.mem_singleton_iff.mp hw) ▸ hp
  · intro hw
    refine ⟨[w], ⟨w, hw, rfl⟩, ?_⟩
    rw [spaced, led, mul_one]
    exact Set.mem_singleton w

end

end TwinVoice.Lib
