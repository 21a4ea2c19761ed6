import Mathlib.Data.Rat.Defs

/-! # Constraint models over integers and booleans

A model is a list of constraints and an objective. A constraint bounds an
integer variable, compares it with a constant while a literal is true, asks for
exactly one of some booleans, or keeps intervals apart; an interval may be
optional, and then counts while its boolean is true. What a solver answers is
its own affair: that it answers with values that satisfy the model, and that it
finds some if there are any, are conditions on it. -/

namespace TwinVoice.Lib.CpModel

variable {ι β : Type}

structure Literal (β : Type) where
  var : β
  negated : Bool

def Literal.pos (b : β) : Literal β := ⟨b, false⟩

def Literal.neg (b : β) : Literal β := ⟨b, true⟩

/-- `size` units from the start on, always present if no boolean says when. -/
structure Interval (ι β : Type) where
  start : ι
  size : Nat
  presence : Option β

inductive Constraint (ι β : Type)
  | bounds (x : ι) (lo hi : Int)
  | eqIf (l : Literal β) (x : ι) (c : Int)
  | neIf (l : Literal β) (x : ι) (c : Int)
  | exactlyOne (bs : List β)
  | noOverlap (is : List (Interval ι β))

/-- Terms with their coefficients, the sum of which is to be as small as possible. -/
abbrev Objective (ι β : Type) := List (Int × (ι ⊕ β))

structure Model (ι β : Type) where
  constraints : List (Constraint ι β)
  objective : Objective ι β

structure Valuation (ι β : Type) where
  int : ι → Int
  bool : β → Bool

instance : Nonempty (Valuation ι β) := ⟨fun _ => 0, fun _ => false⟩

/-! ## Satisfaction -/

section
variable (v : Valuation ι β)

def Literal.True (l : Literal β) : Prop := v.bool l.var = !l.negated

def Interval.Present (i : Interval ι β) : Prop := ∀ b ∈ i.presence, v.bool b = true

def Interval.Before (i j : Interval ι β) : Prop := v.int i.start + i.size ≤ v.int j.start

def Interval.Apart (i j : Interval ι β) : Prop :=
  i.Present v → j.Present v → i.Before v j ∨ j.Before v i

def Constraint.Holds : Constraint ι β → Prop
  | bounds x lo hi => lo ≤ v.int x ∧ v.int x ≤ hi
  | eqIf l x c => l.True v → v.int x = c
  | neIf l x c => l.True v → v.int x ≠ c
  | exactlyOne bs => bs.countP v.bool = 1
  | noOverlap is => is.Pairwise (Interval.Apart v)

/-- Every one of the constraints holds. -/
def Satisfies (cs : List (Constraint ι β)) : Prop := ∀ c ∈ cs, c.Holds v

instance (l : Literal β) : Decidable (l.True v) := inferInstanceAs (Decidable (_ = _))

instance (i : Interval ι β) : Decidable (i.Present v) := inferInstanceAs (Decidable (∀ b ∈ _, _))

instance (i j : Interval ι β) : Decidable (i.Before v j) := inferInstanceAs (Decidable (_ ≤ _))

instance (i j : Interval ι β) : Decidable (i.Apart v j) := inferInstanceAs (Decidable (_ → _ → _))

instance : ∀ c : Constraint ι β, Decidable (c.Holds v)
  | .bounds _ _ _ => inferInstanceAs (Decidable (_ ∧ _))
  | .eqIf _ _ _ => inferInstanceAs (Decidable (_ → _))
  | .neIf _ _ _ => inferInstanceAs (Decidable (_ → _))
  | .exactlyOne _ => inferInstanceAs (Decidable (_ = _))
  | .noOverlap _ => inferInstanceAs (Decidable (List.Pairwise _ _))

instance (cs : List (Constraint ι β)) : Decidable (Satisfies v cs) :=
  inferInstanceAs (Decidable (∀ c ∈ cs, c.Holds v))

@[simp] theorem satisfies_append (cs ds : List (Constraint ι β)) :
    Satisfies v (cs ++ ds) ↔ Satisfies v cs ∧ Satisfies v ds := List.forall_mem_append

@[simp] theorem satisfies_cons (c : Constraint ι β) (cs : List (Constraint ι β)) :
    Satisfies v (c :: cs) ↔ c.Holds v ∧ Satisfies v cs := List.forall_mem_cons

theorem satisfies_flatMap {α : Type} (l : List α) (f : α → List (Constraint ι β)) :
    Satisfies v (l.flatMap f) ↔ ∀ a ∈ l, Satisfies v (f a) := by
  simp only [Satisfies, List.mem_flatMap]
  exact ⟨fun h a ha c hc => h c ⟨a, ha, hc⟩, fun h c ⟨a, ha, hc⟩ => h a ha c hc⟩

end

/-! ## Solvers -/

inductive Status
  | optimal | feasible | infeasible | modelInvalid | unknown
  deriving DecidableEq

/-- `CpSolver.status_name`. -/
def Status.name : Status → String
  | .optimal => "OPTIMAL"
  | .feasible => "FEASIBLE"
  | .infeasible => "INFEASIBLE"
  | .modelInvalid => "MODEL_INVALID"
  | .unknown => "UNKNOWN"

/-- There are values to read. -/
def Status.solved (s : Status) : Bool := s = .optimal ∨ s = .feasible

structure Answer (ι β : Type) where
  status : Status
  values : Valuation ι β
  objectiveValue : Rat

abbrev Solver (ι β : Type) := Model ι β → Answer ι β

def Solver.Sound (solver : Solver ι β) : Prop :=
  ∀ m, (solver m).status.solved = true → Satisfies (solver m).values m.constraints

/-- It finds values whenever there are any. -/
def Solver.Complete (solver : Solver ι β) : Prop :=
  ∀ m, (∃ v, Satisfies v m.constraints) → (solver m).status.solved = true

/-- A sound and complete solver answers with values exactly if there are any. -/
theorem Solver.solved_iff {solver : Solver ι β} (hsound : solver.Sound) (hcomplete : solver.Complete)
    (m : Model ι β) : (solver m).status.solved = true ↔ ∃ v, Satisfies v m.constraints :=
  ⟨fun h => ⟨_, hsound m h⟩, hcomplete m⟩

open Classical in
/-- A solver without limits. -/
noncomputable def ideal : Solver ι β := fun m =>
  if h : ∃ v, Satisfies v m.constraints then ⟨.optimal, h.choose, 0⟩
  else ⟨.infeasible, Classical.arbitrary _, 0⟩

theorem ideal_sound : (ideal : Solver ι β).Sound := by
  intro m hsolved
  by_cases h : ∃ v, Satisfies v m.constraints
  · simpa [ideal, h] using h.choose_spec
  · simp [ideal, h, Status.solved] at hsolved

theorem ideal_complete : (ideal : Solver ι β).Complete := by
  intro m h
  simp [ideal, h, Status.solved]

/-- The solver that knows of one valuation only. -/
def guess (v : Valuation ι β) : Solver ι β := fun m =>
  ⟨if Satisfies v m.constraints then .feasible else .unknown, v, 0⟩

theorem guess_sound (v : Valuation ι β) : (guess v).Sound := by
  intro m h
  by_cases hv : Satisfies v m.constraints
  · exact hv
  · simp [guess, hv, Status.solved] at h

end TwinVoice.Lib.CpModel
