import Mathlib.Data.List.Infix
import TwinVoice.Maintenance.Lifecycle

/-! # Verdicts on predictions

A nightly task says of every predictive order that was closed lately whether
its prediction was right, by what the technician has written. Next to the
requests it is the only writer of a closed order. -/

namespace TwinVoice.Maintenance

open TwinVoice.Lib TwinVoice.Lib.Transition TwinVoice.Twin

def negative : List String := ["no fault", "no issue", "nothing found", "false alarm", "healthy", "no problem"]

/-- `_outcome_confirms`, where `lower` is that of `str`. -/
def outcomeConfirms (lower : String → String) (outcome : String) : Bool :=
  !negative.any fun phrase => phrase.toList <:+: (lower outcome).toList

def WorkOrder.scorable (o : WorkOrder) (since : Instant) : Bool :=
  o.status = .closed && o.type = .predictive && o.predictionWasCorrect = none && o.actualEnd.any fun t => since ≤ t

def WorkOrder.scored (o : WorkOrder) (lower : String → String) : WorkOrder :=
  { o with predictionWasCorrect := some (outcomeConfirms lower (o.outcome.getD "")) }

def scoreAll (env : Env) (lower : String → String) : List WorkOrder → OrderTx Unit
  | [] => pure ()
  | o :: rest => do
    saveOrder env (o.scored lower)
    scoreAll env lower rest

def scoreClosedOrders (env : Env) (lower : String → String) (lookbackHours : Nat) : OrderTx Nat := Tx.transaction do
  let db ← Tx.read
  let orders := db.orders.select fun o => o.scorable (env.now - minutes (60 * lookbackHours))
  scoreAll env lower orders
  return orders.length

/-! ## One run of the task -/

/-- What the task can do to a row. -/
inductive Scoring (lower : String → String) (t t' : Table WorkOrder) (id : Uuid) : Prop
  | kept (same : t'.find id = t.find id)
  | scored (o : WorkOrder) (stamp : Instant) (before : t.find id = some o) (since : Instant)
    (scorable : o.scorable since = true)
    (after : t'.find id = some { o.scored lower with updatedAt := stamp })

section
variable {env : Env} {lower : String → String}

theorem scoreAll_ok {since : Instant} {orders : List WorkOrder} {s t : Session Store Command} {u : Unit}
    (hfind : ∀ o ∈ orders, s.work.orders.find o.id = some o) (hnodup : (orders.map WorkOrder.id).Nodup)
    (hscorable : ∀ o ∈ orders, o.scorable since = true) (h : (scoreAll env lower orders).run s = (.ok u, t)) (id : Uuid) :
    Scoring lower s.work.orders t.work.orders id := by
  induction orders generalizing s with
  | nil =>
    rw [← (Tx.pure_ok h).2]
    exact .kept rfl
  | cons o rest ih =>
    obtain ⟨_, s', hsave, hrest⟩ := Tx.bind_ok h
    obtain ⟨rfl, -⟩ := saveOrder_ok hsave
    obtain ⟨hfresh, hnodup'⟩ := List.nodup_cons.mp hnodup
    have hput := find_putOrder (o.scored lower) (hfind o List.mem_cons_self) env.txStart
    have hfind' : ∀ x ∈ rest, (s.work.putOrder env.txStart (o.scored lower)).orders.find x.id = some x := by
      intro x hx
      rw [hput, if_neg fun hid => hfresh (List.mem_map.mpr ⟨x, hx, hid.symm⟩)]
      exact hfind x (List.mem_cons_of_mem o hx)
    have hlater := ih hfind' hnodup' (fun x hx => hscorable x (List.mem_cons_of_mem o hx)) hrest
    by_cases hid : o.id = id
    · have hscored : (s.work.putOrder env.txStart (o.scored lower)).orders.find id =
          some ((o.scored lower).stamped (some o) env.txStart) := (hput id).trans (if_pos hid)
      cases hlater with
      | kept same =>
        refine .scored o ((o.scored lower).stamped (some o) env.txStart).updatedAt
          (hid ▸ hfind o List.mem_cons_self) since (hscorable o List.mem_cons_self) ?_
        exact (same.trans hscored).trans (by rw [WorkOrder.stamped_eq])
      | scored x stamp before since' scorable after =>
        -- its verdict is given, so it is not scored again
        cases hscored.symm.trans before
        rw [WorkOrder.stamped_eq] at scorable
        simp [WorkOrder.scorable, WorkOrder.scored] at scorable
    · have hsame : (s.work.putOrder env.txStart (o.scored lower)).orders.find id = s.work.orders.find id :=
        (hput id).trans (if_neg hid)
      cases hlater with
      | kept same => exact .kept (same.trans hsame)
      | scored x stamp before since' scorable after => exact .scored x stamp (hsame ▸ before) since' scorable after

theorem drafts_scoreAll (orders : List WorkOrder) : Tx.Drafts (scoreAll env lower orders) := by
  induction orders with
  | nil => exact .pure _
  | cons o rest ih => exact .bind (drafts_saveOrder env _) fun _ => ih

theorem scoreClosedOrders_scoring (env : Env) (lower : String → String) (lookbackHours : Nat) (db : Store) (id : Uuid) :
    Scoring lower db.orders (Tx.serve (scoreClosedOrders env lower lookbackHours) db).2.1.orders id := by
  have hdrafts : Tx.Drafts (do
      let db ← Tx.read
      let orders := db.orders.select fun o => o.scorable (env.now - minutes (60 * lookbackHours))
      scoreAll env lower orders
      return orders.length : OrderTx Nat) :=
    .bind .read fun _ => .bind (drafts_scoreAll _) fun _ => .pure _
  rcases Tx.serve_transaction hdrafts db with hsame | ⟨n, s, hrun, hafter⟩
  · rw [scoreClosedOrders, hsame]
    exact .kept rfl
  · rw [scoreClosedOrders, hafter]
    obtain ⟨_, s₁, hread, h₁⟩ := Tx.bind_ok hrun
    obtain ⟨rfl, rfl⟩ := Tx.read_ok hread
    obtain ⟨_, s₂, hscore, h₂⟩ := Tx.bind_ok h₁
    obtain ⟨-, rfl⟩ := Tx.pure_ok h₂
    refine scoreAll_ok (fun o ho => ?_) ?_ (fun o ho => (Table.mem_select.mp ho).2) hscore id
    · exact Table.find_iff.mpr ⟨(Table.mem_select.mp ho).1, rfl⟩
    · exact (List.filter_sublist.map WorkOrder.id).nodup db.orders.keys

end

/-! ## Whole runs -/

inductive Writing
  | request (r : Request)
  | score (env : Env) (lookbackHours : Nat)

/-- The requests and the task, one after the other. -/
def Writes (lower : String → String) (db : Store) (e : Writing) (db' : Store) : Prop :=
  match e with
  | .request r => Step db r db'
  | .score env lookbackHours => (Tx.serve (scoreClosedOrders env lower lookbackHours) db).2.1 = db'

def Writing.Lawful (db : Store) : Writing → Prop
  | .request r => Maintenance.Lawful db r
  | .score _ _ => True

/-- The order as it was, or with the verdict that it did not have. -/
def Judged (lower : String → String) (o o' : WorkOrder) : Prop :=
  o' = o ∨ o.status = .closed ∧ o.type = .predictive ∧ o.predictionWasCorrect = none ∧ o.actualEnd.isSome ∧
    ∃ stamp, o' = { o.scored lower with updatedAt := stamp }

theorem Judged.status {lower : String → String} {o o' : WorkOrder} (h : Judged lower o o') : o'.status = o.status := by
  rcases h with rfl | ⟨-, -, -, -, stamp, rfl⟩ <;> rfl

theorem Judged.scoring {lower : String → String} {o o' : WorkOrder} (h : Judged lower o o') {t t' : Table WorkOrder}
    {id : Uuid} (hfind : t.find id = some o') (hscoring : Scoring lower t t' id) :
    ∃ o'', t'.find id = some o'' ∧ Judged lower o o'' := by
  cases hscoring with
  | kept same => exact ⟨o', same.trans hfind, h⟩
  | scored x stamp before since scorable after =>
    cases hfind.symm.trans before
    simp only [WorkOrder.scorable, Bool.and_eq_true, decide_eq_true_eq] at scorable
    obtain ⟨⟨⟨hclosed, hpredictive⟩, hnone⟩, hend⟩ := scorable
    rcases h with rfl | ⟨-, -, -, -, stamp', rfl⟩
    · refine ⟨_, after, .inr ⟨hclosed, hpredictive, hnone, ?_, stamp, rfl⟩⟩
      cases hactual : o'.actualEnd with
      | none =>
        rw [hactual] at hend
        cases hend
      | some t => rfl
    · cases hnone

/-- As long as every request is lawful, an order that is closed or cancelled stays as it is, but that the task may once
say of a closed predictive one, which has ended and of which nobody has said it, whether its prediction was right. -/
theorem verdict_once (lower : String → String) {db db' : Store} {es : List Writing}
    (h : Run (Guarded (Writes lower) Writing.Lawful) db es db') {id : Uuid} {o : WorkOrder}
    (hfind : db.orders.find id = some o) (hdone : o.status ∈ terminalStatuses) :
    ∃ o', db'.orders.find id = some o' ∧ Judged lower o o' := by
  refine Run.invariant (fun _ (db : Store) => ∃ o', db.orders.find id = some o' ∧ Judged lower o o')
    ⟨o, hfind, .inl rfl⟩ ?_ h
  rintro _ db₁ e db₂ ⟨o', hfind', hjudged⟩ ⟨hlawful, hstep⟩
  cases e with
  | request r =>
    have hafter : r.after db₁ = db₂ := hstep
    subst hafter
    exact ⟨o', (r.change db₁ id).terminal hlawful hfind' (hjudged.status ▸ hdone), hjudged⟩
  | score env lookbackHours =>
    have hafter : (Tx.serve (scoreClosedOrders env lower lookbackHours) db₁).2.1 = db₂ := hstep
    subst hafter
    exact hjudged.scoring hfind' (scoreClosedOrders_scoring env lower lookbackHours db₁ id)

/-- A predictive order is closed without a verdict, and the task gives it one. -/
theorem verdict_once_of_closed :
    let db := close7.after (Request.after ⟨office 7 0, .create none { newOrder with type := .predictive }⟩ emptyStore)
    let db' := (Tx.serve (scoreClosedOrders (office 0 6) id 24) db).2.1
    ∃ o o', db.orders.find 7 = some o ∧ db'.orders.find 7 = some o' ∧ o.predictionWasCorrect = none ∧
      o'.predictionWasCorrect = some true ∧ Judged id o o' := by
  intro db db'
  have hclosed : (db.orders.find 7).any (fun o => o.status = .closed && o.predictionWasCorrect = none) = true := by
    decide +kernel
  have hjudged : (db'.orders.find 7).any (fun o => o.predictionWasCorrect = some true) = true := by decide +kernel
  obtain ⟨o, hfind, ho⟩ := (Option.any_eq_true ..).mp hclosed
  obtain ⟨o', hfind', ho'⟩ := (Option.any_eq_true ..).mp hjudged
  simp only [Bool.and_eq_true, decide_eq_true_eq] at ho ho'
  have hdone : o.status ∈ terminalStatuses := by simp [ho.1, terminalStatuses]
  have hrun : Run (Guarded (Writes id) Writing.Lawful) db [.score (office 0 6) 24] db' := .snoc .nil ⟨trivial, rfl⟩
  obtain ⟨last, hlast, hcase⟩ := verdict_once id hrun hfind hdone
  cases hfind'.symm.trans hlast
  exact ⟨o, o', hfind, hfind', ho.2, ho', hcase⟩

end TwinVoice.Maintenance
