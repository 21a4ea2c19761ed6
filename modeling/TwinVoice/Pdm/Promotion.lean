import TwinVoice.Basic
import TwinVoice.Lib.Table

/-! # Promotion of models

The registry holds the versions of the models, each for one asset, for the
assets of a type, or for neither. Training adds a candidate; a promotion puts
a model into production and archives what was there under its name. -/

namespace TwinVoice.Pdm

open TwinVoice.Lib

/-- `MODEL_TASKS`. -/
inductive Task
  | anomaly | failure | rul | survival
  deriving DecidableEq

/-- `MODEL_STAGES`. -/
inductive Stage
  | candidate | production | archived
  deriving DecidableEq

/-- `LIVE_TASKS`. -/
def liveTasks : List Task := [.rul, .failure]

/-- A row of `models`. -/
structure Model where
  id : Uuid
  name : String
  version : String
  task : Task
  assetType : Option String
  assetId : Option Uuid
  stage : Stage
  trainedAt : Instant
  deriving DecidableEq

instance : Keyed Model Uuid := ⟨Model.id⟩

/-- A row of `assets`. -/
structure Asset where
  id : Uuid
  assetType : String

/-- The model is bound to the asset or meant for all assets of its type, and scores live. -/
def Model.Serves (m : Model) (a : Asset) : Prop :=
  m.task ∈ liveTasks ∧ (m.assetId = some a.id ∨ m.assetId = none ∧ m.assetType = some a.assetType)

instance (m : Model) (a : Asset) : Decidable (m.Serves a) := inferInstanceAs (Decidable (_ ∧ _))

abbrev Registry := Table Model

namespace Registry

def candidates (t : Registry) (a : Asset) : List Model :=
  t.select fun m => decide (m.stage = .production ∧ m.Serves a)

/-- The candidates that are bound to the asset, all of them if none is. -/
def pool (t : Registry) (a : Asset) : List Model :=
  let bound := (t.candidates a).filter fun m => m.assetId = some a.id
  if bound = [] then t.candidates a else bound

/-- The models that `select_model` may return, one unless two were trained at once; none if it
returns none. -/
def selectModel (t : Registry) (a : Asset) : List Model := newestOnes Model.trainedAt (t.pool a)

/-- What training passes to `register_model`. -/
structure NewModel where
  id : Uuid
  name : String
  version : String
  task : Task
  assetType : Option String
  assetId : Option Uuid

/-- `register_model`; refused where the version exists. -/
def registerModel (t : Registry) (m : NewModel) (now : Instant) : Registry :=
  if (t.select fun n => n.name = m.name ∧ n.version = m.version) ≠ [] then t
  else (t.insert ⟨m.id, m.name, m.version, m.task, m.assetType, m.assetId, .candidate, now⟩).getD t

/-- The model that a promotion of `id` puts into production; none is not found or there already. -/
def promotable (t : Registry) (id : Uuid) : Option Model := (t.find id).filter fun m => m.stage ≠ .production

/-- `ModelRepository.promote`. -/
def putInProduction (t : Registry) (m : Model) : Registry :=
  (t.update (fun n => n.name = m.name ∧ n.stage = .production ∧ n.id ≠ m.id) (fun n => { n with stage := .archived })
    fun _ => rfl).modify m.id (fun n => { n with stage := .production }) fun _ => rfl

/-- `ModelService.promote`. -/
def promote (t : Registry) (id : Uuid) : Registry :=
  match t.promotable id with
  | some m => t.putInProduction m
  | none => t

inductive Call
  | register (m : NewModel) (now : Instant)
  | promote (id : Uuid)

def apply (t : Registry) : Call → Registry
  | .register m now => t.registerModel m now
  | .promote id => t.promote id

/-- What holds of every model that is promoted in the course of the calls, and of the registry before. -/
def Throughout (P : Registry → Model → Prop) : Registry → List Call → Prop
  | _, [] => True
  | t, c :: cs => (∀ id m, c = .promote id → t.promotable id = some m → P t m) ∧ Throughout P (t.apply c) cs

/-- The assets that the model does not serve keep the model they have, and none is left without. -/
def Keeps (fleet : List Asset) (t : Registry) (m : Model) : Prop :=
  (∀ a ∈ fleet, ¬ m.Serves a → ∀ n, n ∈ (t.putInProduction m).selectModel a ↔ n ∈ t.selectModel a) ∧
    ∀ a ∈ fleet, t.selectModel a ≠ [] → (t.putInProduction m).selectModel a ≠ []

/-- No asset that the model does not serve has a model of its name. -/
def Scoped (fleet : List Asset) (t : Registry) (m : Model) : Prop :=
  ∀ a ∈ fleet, ¬ m.Serves a → ∀ n ∈ t.selectModel a, n.name ≠ m.name

section
variable {t : Registry} {m : Model} {id : Uuid} {a : Asset}

theorem mem_candidates {n : Model} : n ∈ t.candidates a ↔ n ∈ t.rows ∧ n.stage = .production ∧ n.Serves a := by
  rw [candidates, Table.mem_select, decide_eq_true_iff]

theorem mem_bound {n : Model} : n ∈ (t.candidates a).filter (fun m => m.assetId = some a.id) ↔
    n ∈ t.candidates a ∧ n.assetId = some a.id := by
  rw [List.mem_filter, decide_eq_true_iff]

/-- Where the pool comes from. -/
theorem pool_cases (t : Registry) (a : Asset) :
    ((∀ n ∈ t.candidates a, n.assetId ≠ some a.id) ∧ t.pool a = t.candidates a) ∨
      (∃ n ∈ t.candidates a, n.assetId = some a.id) ∧ ∀ n, n ∈ t.pool a ↔ n ∈ t.candidates a ∧ n.assetId = some a.id := by
  unfold pool
  dsimp only
  split
  · rename_i hnone
    refine .inl ⟨?_, rfl⟩
    intro n hn hbound
    exact List.ne_nil_of_mem (mem_bound.mpr ⟨hn, hbound⟩) hnone
  · rename_i hsome
    obtain ⟨n, hn⟩ := List.exists_mem_of_ne_nil _ hsome
    exact .inr ⟨⟨n, mem_bound.mp hn⟩, fun n => mem_bound⟩

theorem candidate_of_mem_selectModel {n : Model} (h : n ∈ t.selectModel a) : n ∈ t.candidates a := by
  rcases pool_cases t a with ⟨-, hall⟩ | ⟨-, hmem⟩
  · exact hall ▸ (mem_newestOnes.mp h).1
  · exact ((hmem n).mp (mem_newestOnes.mp h).1).1

theorem selectModel_eq_nil_iff : t.selectModel a = [] ↔ t.candidates a = [] := by
  constructor
  · intro h
    have hpool : t.pool a = [] := by
      by_contra hne
      exact newestOnes_ne_nil hne h
    rcases pool_cases t a with ⟨-, hall⟩ | ⟨⟨n, hn, hbound⟩, hmem⟩
    · rw [← hall, hpool]
    · have hn : n ∈ t.pool a := (hmem n).mpr ⟨hn, hbound⟩
      rw [hpool] at hn
      cases hn
  · intro h
    unfold selectModel pool
    rw [h]
    rfl

theorem mem_of_promotable (h : t.promotable id = some m) : m ∈ t.rows :=
  Table.mem_of_find (Option.filter_eq_some_iff.mp h).1

/-- The models in production afterwards: the promoted one, and those before that have another name. -/
theorem mem_putInProduction (hm : m ∈ t.rows) {n : Model} (hn : n.stage = .production) :
    n ∈ (t.putInProduction m).rows ↔ n = { m with stage := .production } ∨ n ∈ t.rows ∧ n.name ≠ m.name := by
  have hsame : ∀ x ∈ t.rows, x.id = m.id → x = m := by
    intro x hx hid
    have hfind : t.find m.id = some x := Table.find_iff.mpr ⟨hx, hid⟩
    have hfind' : t.find m.id = some m := Table.find_iff.mpr ⟨hm, rfl⟩
    exact Option.some.inj (hfind.symm.trans hfind')
  unfold putInProduction Table.modify
  rw [Table.rows_update, Table.rows_update, List.map_map, List.mem_map]
  constructor
  · intro hmem
    obtain ⟨x, hx, rfl⟩ := hmem
    by_cases hid : x.id = m.id
    · rw [hsame x hx hid]
      simp [Keyed.key]
    · by_cases harchived : x.name = m.name ∧ x.stage = .production ∧ x.id ≠ m.id
      · simp [Keyed.key, harchived] at hn
      · simp only [Function.comp_apply, harchived, decide_false, Bool.false_eq_true, if_false, Keyed.key, beq_iff_eq, hid]
          at hn ⊢
        refine .inr ⟨hx, ?_⟩
        intro hname
        exact harchived ⟨hname, hn, hid⟩
  · intro hcases
    rcases hcases with rfl | ⟨hrow, hname⟩
    · exact ⟨m, hm, by simp [Keyed.key]⟩
    · have hid : n.id ≠ m.id := fun hid => hname (hsame n hrow hid ▸ rfl)
      exact ⟨n, hrow, by simp [Keyed.key, hname, hid]⟩

theorem mem_candidates_of_unserved (hm : m ∈ t.rows) (hserves : ¬ m.Serves a) {n : Model} :
    n ∈ (t.putInProduction m).candidates a ↔ n ∈ t.candidates a ∧ n.name ≠ m.name := by
  rw [mem_candidates, mem_candidates]
  constructor
  · intro h
    obtain ⟨hrow, hstage, hn⟩ := h
    rcases (mem_putInProduction hm hstage).mp hrow with rfl | ⟨hrow, hname⟩
    · exact absurd hn hserves
    · exact ⟨⟨hrow, hstage, hn⟩, hname⟩
  · intro h
    obtain ⟨⟨hrow, hstage, hn⟩, hname⟩ := h
    exact ⟨(mem_putInProduction hm hstage).mpr (.inr ⟨hrow, hname⟩), hstage, hn⟩

/-- A served asset can be scored by the promoted model. -/
theorem selectModel_of_served (hm : m ∈ t.rows) (hserves : m.Serves a) : (t.putInProduction m).selectModel a ≠ [] := by
  rw [Ne, selectModel_eq_nil_iff]
  have hmem : { m with stage := .production } ∈ (t.putInProduction m).candidates a :=
    mem_candidates.mpr ⟨(mem_putInProduction hm rfl).mpr (.inl rfl), rfl, hserves⟩
  exact List.ne_nil_of_mem hmem

/-- An asset keeps its model if what may be returned for it has another name. -/
theorem mem_selectModel_of_unserved (hm : m ∈ t.rows) (hserves : ¬ m.Serves a)
    (hname : ∀ n ∈ t.selectModel a, n.name ≠ m.name) (n : Model) :
    n ∈ (t.putInProduction m).selectModel a ↔ n ∈ t.selectModel a := by
  have hcandidates := fun n => mem_candidates_of_unserved hm hserves (n := n)
  have hpool : ∀ n, n ∈ (t.putInProduction m).pool a ↔ n ∈ (t.pool a).filter fun n => n.name ≠ m.name := by
    intro n
    rw [List.mem_filter, decide_eq_true_iff]
    rcases pool_cases t a with ⟨hnone, hall⟩ | ⟨⟨b, hb, hbound⟩, hmem⟩
    · rcases pool_cases (t.putInProduction m) a with ⟨-, hall'⟩ | ⟨⟨b, hb, hbound⟩, -⟩
      · rw [hall, hall', hcandidates]
      · exact absurd hbound (hnone b ((hcandidates b).mp hb).1)
    · have hkept : ∃ b ∈ (t.putInProduction m).candidates a, b.assetId = some a.id := by
        have hne : t.selectModel a ≠ [] := newestOnes_ne_nil (List.ne_nil_of_mem ((hmem b).mpr ⟨hb, hbound⟩))
        obtain ⟨c, hc⟩ := List.exists_mem_of_ne_nil _ hne
        obtain ⟨hcandidate, hbound⟩ := (hmem c).mp (mem_newestOnes.mp hc).1
        exact ⟨c, (hcandidates c).mpr ⟨hcandidate, hname c hc⟩, hbound⟩
      rcases pool_cases (t.putInProduction m) a with ⟨hnone, -⟩ | ⟨-, hmem'⟩
      · obtain ⟨c, hc, hbound⟩ := hkept
        exact absurd hbound (hnone c hc)
      · rw [hmem', hmem, hcandidates, and_right_comm]
  unfold selectModel
  rw [mem_newestOnes_congr hpool]
  exact mem_newestOnes_filter (fun n hn => decide_eq_true (hname n hn)) n

/-- A promotion keeps every asset served exactly if no other asset has a model of its name. -/
theorem keeps_iff (fleet : List Asset) (h : t.promotable id = some m) : t.Keeps fleet m ↔ t.Scoped fleet m := by
  have hm := mem_of_promotable h
  constructor
  · intro hkeeps a ha hserves n hn hname
    have hkept := candidate_of_mem_selectModel ((hkeeps.1 a ha hserves n).mpr hn)
    exact ((mem_candidates_of_unserved hm hserves).mp hkept).2 hname
  · intro hscoped
    have hsame := fun a ha hserves => mem_selectModel_of_unserved hm hserves (hscoped a ha hserves)
    refine ⟨hsame, ?_⟩
    intro a ha hsome
    by_cases hserves : m.Serves a
    · exact selectModel_of_served hm hserves
    · obtain ⟨n, hn⟩ := List.exists_mem_of_ne_nil _ hsome
      exact List.ne_nil_of_mem ((hsame a ha hserves n).mpr hn)

end

/-- In the course of any calls every promotion keeps the assets served exactly if every promotion is scoped. -/
theorem promotions_keep_iff (fleet : List Asset) (t : Registry) (calls : List Call) :
    Throughout (Keeps fleet) t calls ↔ Throughout (Scoped fleet) t calls := by
  induction calls generalizing t with
  | nil => exact Iff.rfl
  | cons c cs ih =>
    refine and_congr ?_ (ih _)
    refine forall_congr' fun id => forall_congr' fun m => ?_
    refine imp_congr_right fun _ => ?_
    constructor
    · intro h hm
      exact (keeps_iff fleet hm).mp (h hm)
    · intro h hm
      exact (keeps_iff fleet hm).mpr (h hm)

/-- Two mills, and a model trained for each. -/
def mills : List Asset := [⟨1, "cnc_mill"⟩, ⟨2, "cnc_mill"⟩]

def twoBindings : List Call :=
  [.register ⟨11, "rul-synthetic-cnc_mill", "2026.01.01", .rul, some "cnc_mill", some 1⟩ 0, .promote 11,
    .register ⟨12, "rul-synthetic-cnc_mill", "2026.01.02", .rul, some "cnc_mill", some 2⟩ 1, .promote 12]

/-- The second promotion takes the first mill's model away. -/
theorem second_binding_unserves_the_first :
    ((twoBindings.take 3).foldl apply Table.empty).selectModel ⟨1, "cnc_mill"⟩ ≠ [] ∧
      (twoBindings.foldl apply Table.empty).selectModel ⟨1, "cnc_mill"⟩ = [] ∧
      ¬ Throughout (Keeps mills) Table.empty twoBindings := by
  have hbefore : ((twoBindings.take 3).foldl apply Table.empty).selectModel ⟨1, "cnc_mill"⟩ ≠ [] := by decide +kernel
  have hafter : (twoBindings.foldl apply Table.empty).selectModel ⟨1, "cnc_mill"⟩ = [] := by decide +kernel
  refine ⟨hbefore, hafter, ?_⟩
  intro h
  obtain ⟨-, -, -, hkeeps, -⟩ := h
  refine absurd hafter ((hkeeps 12 ⟨12, "rul-synthetic-cnc_mill", "2026.01.02", .rul, some "cnc_mill", some 2, .candidate, 1⟩
    rfl (by decide +kernel)).2 ⟨1, "cnc_mill"⟩ List.mem_cons_self hbefore)

end Registry

end TwinVoice.Pdm
