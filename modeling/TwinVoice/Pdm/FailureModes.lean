import Mathlib.Algebra.Order.Field.Rat
import Mathlib.Data.List.MinMax
import TwinVoice.Lib.Dict

/-! # The predicted failure mode

A failure classifier gives each class a probability, the healthy one among
them. The maintenance task and the explanation each take a mode from the map:
the maintenance task leaves out what is called "normal", the explanation
leaves out nothing, and the healthy class is called "none". -/

namespace TwinVoice.Pdm

open TwinVoice.Lib

/-- The healthy class of a `FailureClassifier`. -/
def healthyClass : String := "none"

section
variable {K : Type} [LinearOrder K]

/-- The two maps of a prediction. -/
structure ModePrediction (K : Type) where
  failureProbability : Option (Dict String K)
  failureProbabilityCalibrated : Option (Dict String K)

/-- `x or y`, where no entries are nothing. -/
def orEntries (x : Option (Dict String K)) (y : Dict String K) : Dict String K :=
  match x with
  | some d => if d = [] then y else d
  | none => y

/-- `_worst_mode`. -/
def worstMode [Zero K] (probabilities : Dict String K) : Option String × K :=
  match (probabilities.filter fun e => e.1 ≠ "normal").argmax Prod.snd with
  | some e => (some e.1, e.2)
  | none => (none, 0)

/-- The mode of `_raise_for_asset`. -/
def maintenanceMode [Zero K] (prediction : ModePrediction K) : Option String :=
  (worstMode (orEntries prediction.failureProbabilityCalibrated [])).1

/-- `_predicted_mode`; `signature` is the mode that the evidence supports. -/
def predictedMode (signature : String) (prediction : ModePrediction K) : String :=
  let probabilities := orEntries prediction.failureProbabilityCalibrated (orEntries prediction.failureProbability [])
  match probabilities.argmax Prod.snd with
  | some e => e.1
  | none => signature

/-- What a classifier says: a probability for each class, one of them the healthy one. -/
structure ClassProbabilities (K : Type) where
  entries : Dict String K
  nodup : (entries.map Prod.fst).Nodup
  healthy_mem : healthyClass ∈ entries.map Prod.fst

/-- As the inference and the edge store it. -/
def ClassProbabilities.stored (p : ClassProbabilities K) : ModePrediction K := ⟨none, some p.entries⟩

/-- A failure mode of which no other is more probable. -/
def ClassProbabilities.MostProbable (p : ClassProbabilities K) (mode : String) : Prop :=
  mode ≠ healthyClass ∧ ∃ x, (mode, x) ∈ p.entries ∧ ∀ e ∈ p.entries, e.1 ≠ healthyClass → e.2 ≤ x

/-- One of the most probable failure modes is not called "normal", and it is more probable than the healthy class
or else before it. -/
def ClassProbabilities.Unhealthy (p : ClassProbabilities K) : Prop :=
  ∃ mode x, (mode, x) ∈ p.entries ∧ mode ≠ healthyClass ∧ mode ≠ "normal" ∧
    (∀ e ∈ p.entries, e.1 ≠ healthyClass → e.2 ≤ x) ∧
    ∀ y, (healthyClass, y) ∈ p.entries → y < x ∨
      y = x ∧ (p.entries.map Prod.fst).idxOf mode < (p.entries.map Prod.fst).idxOf healthyClass

end

/-- What is left keeps its order. -/
theorem before_filter_iff {α : Type} [DecidableEq α] {p : α → Bool} {l : List α} {a b : α} (ha : p a = true)
    (hb : p b = true) : (l.filter p).idxOf a < (l.filter p).idxOf b ↔ l.idxOf a < l.idxOf b := by
  induction l with
  | nil => rfl
  | cons x l ih =>
    by_cases hx : p x = true
    · rw [List.filter_cons_of_pos hx]
      by_cases hxa : x = a
      · subst hxa
        by_cases hxb : x = b
        · subst hxb
          simp
        · rw [List.idxOf_cons_self, List.idxOf_cons_self, List.idxOf_cons_ne _ hxb, List.idxOf_cons_ne _ hxb]
          exact iff_of_true (Nat.succ_pos _) (Nat.succ_pos _)
      · rw [List.idxOf_cons_ne _ hxa, List.idxOf_cons_ne _ hxa]
        by_cases hxb : x = b
        · subst hxb
          simp
        · rw [List.idxOf_cons_ne _ hxb, List.idxOf_cons_ne _ hxb, Nat.succ_lt_succ_iff, Nat.succ_lt_succ_iff, ih]
    · have hxa : x ≠ a := fun h => hx (h ▸ ha)
      have hxb : x ≠ b := fun h => hx (h ▸ hb)
      rw [List.filter_cons_of_neg hx, ih, List.idxOf_cons_ne _ hxa, List.idxOf_cons_ne _ hxb, Nat.succ_lt_succ_iff]

/-- Elements of different keys stand where their keys do. -/
theorem idxOf_key {α κ : Type} [DecidableEq α] [DecidableEq κ] {key : α → κ} {l : List α} (hnodup : (l.map key).Nodup)
    {a : α} (ha : a ∈ l) : (l.map key).idxOf (key a) = l.idxOf a := by
  induction l with
  | nil => cases ha
  | cons x l ih =>
    obtain ⟨hnew, hrest⟩ := List.nodup_cons.mp hnodup
    rw [List.map_cons]
    by_cases hx : x = a
    · subst hx
      rw [List.idxOf_cons_self, List.idxOf_cons_self]
    · have hin : a ∈ l := (List.mem_cons.mp ha).resolve_left (Ne.symm hx)
      have hkey : key x ≠ key a := fun h => hnew (h ▸ List.mem_map_of_mem hin)
      rw [List.idxOf_cons_ne _ hkey, List.idxOf_cons_ne _ hx, ih hrest hin]

section
variable {K : Type} [LinearOrder K] {p : ClassProbabilities K}

omit [LinearOrder K] in
theorem ClassProbabilities.entries_ne_nil (p : ClassProbabilities K) : p.entries ≠ [] := by
  intro h
  have hmem := p.healthy_mem
  rw [h] at hmem
  cases hmem

/-- Among the classes of which a failure mode is ahead, the first of the largest is no healthier than it. -/
theorem mostProbable_of_argmax (keep : String × K → Bool) {mode : String} {x : K} (hmem : (mode, x) ∈ p.entries)
    (hkeep : keep (mode, x) = true)
    (hmost : ∀ e ∈ p.entries, e.1 ≠ healthyClass → e.2 ≤ x)
    (hahead : ∀ y, (healthyClass, y) ∈ p.entries → y < x ∨
      y = x ∧ (p.entries.map Prod.fst).idxOf mode < (p.entries.map Prod.fst).idxOf healthyClass)
    {e : String × K} (he : e ∈ (p.entries.filter keep).argmax Prod.snd) : p.MostProbable e.1 := by
  obtain ⟨hin, hall, hfirst⟩ := List.mem_argmax_iff.mp he
  have hfiltered : (mode, x) ∈ p.entries.filter keep := List.mem_filter.mpr ⟨hmem, hkeep⟩
  have hle : x ≤ e.2 := hall _ hfiltered
  have hentry : e ∈ p.entries := List.mem_of_mem_filter hin
  refine ⟨fun hhealthy => ?_, e.2, hentry, fun other hother hne => (hmost other hother hne).trans hle⟩
  obtain ⟨name, y⟩ := e
  obtain rfl : name = healthyClass := hhealthy
  rcases hahead y hentry with hlt | ⟨hsame, hbefore⟩
  · exact absurd hle hlt.not_ge
  · have hlater := hfirst _ hfiltered (le_of_eq hsame)
    have hplaces := (idxOf_key p.nodup hmem).symm.trans_lt (hbefore.trans_eq (idxOf_key p.nodup hentry))
    exact absurd hlater ((before_filter_iff hkeep (List.mem_filter.mp hin).2).mpr hplaces).not_ge

theorem predictedMode_stored (p : ClassProbabilities K) (signature : String) :
    ∃ e ∈ p.entries.argmax Prod.snd, predictedMode signature p.stored = e.1 := by
  have hne := p.entries_ne_nil
  cases h : p.entries.argmax Prod.snd with
  | none => exact absurd (List.argmax_eq_none.mp h) hne
  | some e =>
    refine ⟨e, rfl, ?_⟩
    simp only [predictedMode, ClassProbabilities.stored, orEntries, if_neg hne, h]

variable [Zero K]

theorem maintenanceMode_stored (p : ClassProbabilities K) {mode : String} :
    maintenanceMode p.stored = some mode ↔
      ∃ e ∈ (p.entries.filter fun e => e.1 ≠ "normal").argmax Prod.snd, e.1 = mode := by
  simp only [maintenanceMode, ClassProbabilities.stored, orEntries, if_neg p.entries_ne_nil, worstMode]
  cases h : (p.entries.filter fun e => e.1 ≠ "normal").argmax Prod.snd with
  | none => simp
  | some e => simp

/-- Both tasks act on a most probable failure mode just if one is ahead of the healthy class. -/
theorem predicted_mode_iff (p : ClassProbabilities K) (signature : String) :
    ((∃ mode, maintenanceMode p.stored = some mode ∧ p.MostProbable mode) ∧
      p.MostProbable (predictedMode signature p.stored)) ↔ p.Unhealthy := by
  constructor
  · rintro ⟨⟨mode, hmode, hne, x, hmem, hmost⟩, -⟩
    obtain ⟨⟨name, y⟩, he, rfl⟩ := (maintenanceMode_stored p).mp hmode
    obtain ⟨hin, hall, hfirst⟩ := List.mem_argmax_iff.mp he
    obtain ⟨hentry, hkeep⟩ := List.mem_filter.mp hin
    refine ⟨name, y, hentry, hne, of_decide_eq_true hkeep, fun e hmem' hfailure => ?_, fun z hz => ?_⟩
    · exact (hmost e hmem' hfailure).trans (hall (name, x) (List.mem_filter.mpr ⟨hmem, hkeep⟩))
    · have hkept : decide ((healthyClass, z).1 ≠ "normal") = true :=
        decide_eq_true (by decide : healthyClass ≠ "normal")
      have hhealthy : (healthyClass, z) ∈ p.entries.filter fun e => e.1 ≠ "normal" := List.mem_filter.mpr ⟨hz, hkept⟩
      rcases lt_or_eq_of_le (hall _ hhealthy) with hlt | heq
      · exact .inl hlt
      · refine .inr ⟨heq, ?_⟩
        by_contra hnot
        have hlater : (p.entries.map Prod.fst).idxOf healthyClass < (p.entries.map Prod.fst).idxOf name :=
          lt_of_le_of_ne (not_lt.mp hnot) fun hsame => hne ((List.idxOf_inj p.healthy_mem).mp hsame).symm
        have hplaces := (idxOf_key p.nodup hz).symm.trans_lt (hlater.trans_eq (idxOf_key p.nodup hentry))
        have hsooner := (before_filter_iff (p := fun e => decide (e.1 ≠ "normal")) hkept hkeep).mpr hplaces
        exact absurd (hfirst _ hhealthy heq.ge) hsooner.not_ge
  · rintro ⟨mode, x, hmem, hne, hnormal, hmost, hahead⟩
    have hkeep : decide ((mode, x).1 ≠ "normal") = true := decide_eq_true hnormal
    constructor
    · cases h : (p.entries.filter fun e => e.1 ≠ "normal").argmax Prod.snd with
      | none =>
        have hnone := List.argmax_eq_none.mp h
        exact absurd (hnone ▸ List.mem_filter.mpr ⟨hmem, hkeep⟩) List.not_mem_nil
      | some e =>
        exact ⟨e.1, (maintenanceMode_stored p).mpr ⟨e, h, rfl⟩, mostProbable_of_argmax _ hmem hkeep hmost hahead h⟩
    · obtain ⟨e, he, hpredicted⟩ := predictedMode_stored p signature
      rw [hpredicted]
      refine mostProbable_of_argmax (fun _ => true) hmem rfl hmost hahead ?_
      rwa [List.filter_true]

end

/-- A machine that is fine with probability nine tenths. -/
def fineMachine : ClassProbabilities Rat where
  entries := [("failure", 1 / 10), ("none", 9 / 10)]
  nodup := by decide
  healthy_mem := by decide

/-- On a machine that is most likely fine both tasks act on the healthy class. -/
theorem healthy_mode_of_fine : ¬∀ (p : ClassProbabilities Rat) (signature : String),
    (∃ mode, maintenanceMode p.stored = some mode ∧ p.MostProbable mode) ∧
      p.MostProbable (predictedMode signature p.stored) := by
  intro h
  obtain ⟨⟨mode, hmode, hne, -⟩, -⟩ := h fineMachine "failure"
  have hnone : maintenanceMode fineMachine.stored = some healthyClass := by decide +kernel
  exact hne (Option.some_inj.mp (hmode.symm.trans hnone))

end TwinVoice.Pdm
