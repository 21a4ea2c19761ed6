import Mathlib.Order.Defs.Unbundled

/-! # A database session as a state monad

One request runs in one session: it works on its own view of the store,
commits that view at points of its own choosing, and may end in an exception.
Whatever it did not commit by then is rolled back. Effects on anything but
the store go into a log at the moment they happen, and no rollback removes
them. Between two requests only the committed store is left. -/

namespace TwinVoice.Lib

/-- The state of a session: what is committed, what the open transaction
sees, and what has happened outside the store. -/
structure Session (σ ε : Type) where
  stored : σ
  work : σ
  log : List ε

/-- A piece of a request over store `σ`, effects `ε` and exceptions `φ`. -/
def Tx (σ ε φ α : Type) := Session σ ε → Except φ α × Session σ ε

namespace Tx
variable {σ ε φ α β : Type}

def run (m : Tx σ ε φ α) (s : Session σ ε) : Except φ α × Session σ ε := m s

/-- What follows a piece that ended this way. -/
def andThen (f : α → Tx σ ε φ β) : Except φ α × Session σ ε → Except φ β × Session σ ε
  | (.ok a, s) => (f a).run s
  | (.error e, s) => (.error e, s)

instance : Monad (Tx σ ε φ) where
  pure a := fun s => (.ok a, s)
  bind m f := fun s => andThen f (m.run s)

/-- The open transaction's view. -/
def read : Tx σ ε φ σ := fun s => (.ok s.work, s)

def write (f : σ → σ) : Tx σ ε φ Unit := fun s => (.ok (), { s with work := f s.work })

def commit : Tx σ ε φ Unit := fun s => (.ok (), { s with stored := s.work })

def emit (e : ε) : Tx σ ε φ Unit := fun s => (.ok (), { s with log := s.log ++ [e] })

def raise (e : φ) : Tx σ ε φ α := fun s => (.error e, s)

/-- The handler of an exception starts in the session the exception left. -/
def handled (handler : φ → Tx σ ε φ α) : Except φ α × Session σ ε → Except φ α × Session σ ε
  | (.ok a, s) => (.ok a, s)
  | (.error e, s) => (handler e).run s

/-- `try … except`. -/
def except (m : Tx σ ε φ α) (handler : φ → Tx σ ε φ α) : Tx σ ε φ α :=
  fun s => handled handler (m.run s)

/-- A value that may be missing, or else an exception. -/
def orRaise (o : Option α) (e : φ) : Tx σ ε φ α :=
  match o with
  | some a => pure a
  | none => raise e

/-- `if c: raise e`. -/
def raiseIf (c : Prop) [Decidable c] (e : φ) : Tx σ ε φ Unit := if c then raise e else pure ()

/-- Whatever `m` has done is committed once it ends. -/
def transaction (m : Tx σ ε φ α) : Tx σ ε φ α := do
  let a ← m
  commit
  return a

/-- One request on the store `db`: its answer, the store it leaves committed,
and its effects. -/
def serve (m : Tx σ ε φ α) (db : σ) : Except φ α × σ × List ε :=
  let r := m.run ⟨db, db, []⟩
  (r.1, r.2.stored, r.2.log)

@[simp] theorem run_pure (a : α) (s : Session σ ε) : (pure a : Tx σ ε φ α).run s = (.ok a, s) := rfl

@[simp] theorem run_bind (m : Tx σ ε φ α) (f : α → Tx σ ε φ β) (s : Session σ ε) :
    (m >>= f).run s = andThen f (m.run s) := rfl

@[simp] theorem andThen_ok (f : α → Tx σ ε φ β) (a : α) (s : Session σ ε) :
    andThen f (.ok a, s) = (f a).run s := rfl

@[simp] theorem andThen_error (f : α → Tx σ ε φ β) (e : φ) (s : Session σ ε) :
    andThen f (.error e, s) = (.error e, s) := rfl

@[simp] theorem run_read (s : Session σ ε) : (read : Tx σ ε φ σ).run s = (.ok s.work, s) := rfl

@[simp] theorem run_write (f : σ → σ) (s : Session σ ε) :
    (write f : Tx σ ε φ Unit).run s = (.ok (), { s with work := f s.work }) := rfl

@[simp] theorem run_commit (s : Session σ ε) :
    (commit : Tx σ ε φ Unit).run s = (.ok (), { s with stored := s.work }) := rfl

@[simp] theorem run_emit (e : ε) (s : Session σ ε) :
    (emit e : Tx σ ε φ Unit).run s = (.ok (), { s with log := s.log ++ [e] }) := rfl

@[simp] theorem run_raise (e : φ) (s : Session σ ε) :
    (raise e : Tx σ ε φ α).run s = (.error e, s) := rfl

theorem run_ite (c : Prop) [Decidable c] (m n : Tx σ ε φ α) (s : Session σ ε) :
    (if c then m else n).run s = if c then m.run s else n.run s := by
  split <;> rfl

@[simp] theorem run_orRaise_some (a : α) (e : φ) (s : Session σ ε) :
    (orRaise (some a) e : Tx σ ε φ α).run s = (.ok a, s) := rfl

@[simp] theorem run_orRaise_none (e : φ) (s : Session σ ε) :
    (orRaise none e : Tx σ ε φ α).run s = (.error e, s) := rfl

theorem run_raiseIf_pos {c : Prop} [Decidable c] (h : c) (e : φ) (s : Session σ ε) :
    (raiseIf c e : Tx σ ε φ Unit).run s = (.error e, s) := by
  rw [raiseIf, if_pos h, run_raise]

theorem run_raiseIf_neg {c : Prop} [Decidable c] (h : ¬ c) (e : φ) (s : Session σ ε) :
    (raiseIf c e : Tx σ ε φ Unit).run s = (.ok (), s) := by
  rw [raiseIf, if_neg h, run_pure]

/-! ## Runs that end well, taken apart -/

theorem bind_ok {m : Tx σ ε φ α} {f : α → Tx σ ε φ β} {s t : Session σ ε} {b : β}
    (h : (m >>= f).run s = (.ok b, t)) : ∃ a u, m.run s = (.ok a, u) ∧ (f a).run u = (.ok b, t) := by
  rw [run_bind] at h
  cases hm : m.run s with
  | mk r u =>
    rw [hm] at h
    cases r with
    | ok a => exact ⟨a, u, rfl, h⟩
    | error e => cases h

theorem pure_ok {a b : α} {s t : Session σ ε} (h : (pure a : Tx σ ε φ α).run s = (.ok b, t)) :
    a = b ∧ s = t := by
  cases h
  exact ⟨rfl, rfl⟩

theorem read_ok {s t : Session σ ε} {db : σ} (h : (read : Tx σ ε φ σ).run s = (.ok db, t)) :
    s.work = db ∧ s = t := by
  cases h
  exact ⟨rfl, rfl⟩

theorem write_ok {f : σ → σ} {s t : Session σ ε} {u : Unit}
    (h : (write f : Tx σ ε φ Unit).run s = (.ok u, t)) : t = { s with work := f s.work } := by
  cases h
  rfl

theorem raiseIf_ok {c : Prop} [Decidable c] {e : φ} {s t : Session σ ε} {u : Unit}
    (h : (raiseIf c e : Tx σ ε φ Unit).run s = (.ok u, t)) : ¬ c ∧ s = t := by
  by_cases hc : c
  · rw [run_raiseIf_pos hc] at h
    cases h
  · rw [run_raiseIf_neg hc] at h
    cases h
    exact ⟨hc, rfl⟩

theorem orRaise_ok {o : Option α} {e : φ} {s t : Session σ ε} {a : α}
    (h : (orRaise o e : Tx σ ε φ α).run s = (.ok a, t)) : o = some a ∧ s = t := by
  cases o with
  | none => cases h
  | some b =>
    cases h
    exact ⟨rfl, rfl⟩

/-! ## Pieces that commit nothing -/

def Drafts (m : Tx σ ε φ α) : Prop := ∀ s, (m.run s).2.stored = s.stored

theorem Drafts.bind {m : Tx σ ε φ α} {f : α → Tx σ ε φ β} (hm : Drafts m) (hf : ∀ a, Drafts (f a)) :
    Drafts (m >>= f) := by
  intro s
  have hs := hm s
  rw [run_bind]
  cases hr : m.run s with
  | mk r u =>
    rw [hr] at hs
    cases r with
    | ok a => exact (hf a u).trans hs
    | error e => exact hs

theorem Drafts.pure (a : α) : Drafts (Pure.pure a : Tx σ ε φ α) := fun _ => rfl

theorem Drafts.read : Drafts (read : Tx σ ε φ σ) := fun _ => rfl

theorem Drafts.write (f : σ → σ) : Drafts (write f : Tx σ ε φ Unit) := fun _ => rfl

theorem Drafts.raise (e : φ) : Drafts (raise e : Tx σ ε φ α) := fun _ => rfl

theorem Drafts.raiseIf (c : Prop) [Decidable c] (e : φ) : Drafts (raiseIf c e : Tx σ ε φ Unit) := by
  intro s
  by_cases hc : c
  · rw [run_raiseIf_pos hc]
  · rw [run_raiseIf_neg hc]

theorem Drafts.orRaise (o : Option α) (e : φ) : Drafts (orRaise o e : Tx σ ε φ α) := by
  intro s
  cases o <;> rfl

/-! ## Pieces that keep to a relation

What every statement of a request does to the session, the whole request does
to it, if it is a preorder. -/

section
variable (R : Session σ ε → Session σ ε → Prop)

/-- The piece leads from every session to a related one. -/
def Along (m : Tx σ ε φ α) : Prop := ∀ s, R s (m.run s).2

variable {R}

theorem Along.mono {R' : Session σ ε → Session σ ε → Prop} {m : Tx σ ε φ α} (h : Along R m)
    (wider : ∀ s t, R s t → R' s t) : Along R' m :=
  fun s => wider _ _ (h s)

variable [IsPreorder (Session σ ε) R]

theorem Along.pure (a : α) : Along R (Pure.pure a : Tx σ ε φ α) := fun s => refl_of R s

theorem Along.read : Along R (read : Tx σ ε φ σ) := fun s => refl_of R s

theorem Along.raise (e : φ) : Along R (raise e : Tx σ ε φ α) := fun s => refl_of R s

theorem Along.orRaise (o : Option α) (e : φ) : Along R (orRaise o e : Tx σ ε φ α) := by
  cases o with
  | none => exact .raise e
  | some a => exact .pure a

theorem Along.andThen {f : α → Tx σ ε φ β} (hf : ∀ a, Along R (f a)) {s : Session σ ε}
    {r : Except φ α × Session σ ε} (h : R s r.2) : R s (Tx.andThen f r).2 := by
  obtain ⟨answer, u⟩ := r
  cases answer with
  | ok a => exact trans_of R h (hf a u)
  | error e => exact h

theorem Along.bind {m : Tx σ ε φ α} {f : α → Tx σ ε φ β} (hm : Along R m)
    (hf : ∀ a, Along R (f a)) : Along R (m >>= f) :=
  fun s => Along.andThen hf (hm s)

end

/-! ## Pieces with a pre- and a postcondition

What an answer and the view it is given in have to do with the view that the
piece finds. A piece that raises promises nothing. -/

def Ensures (P : σ → Prop) (m : Tx σ ε φ α) (Q : α → σ → Prop) : Prop :=
  ∀ ⦃s t : Session σ ε⦄ ⦃a : α⦄, P s.work → m.run s = (.ok a, t) → Q a t.work

section
variable {P R : σ → Prop} {Q S : α → σ → Prop} {m : Tx σ ε φ α}

theorem Ensures.mono (h : Ensures R m S) (pre : ∀ w, P w → R w) (post : ∀ a w, S a w → Q a w) :
    Ensures P m Q :=
  fun _ t a hs hrun => post a t.work (h (pre _ hs) hrun)

theorem Ensures.bind {f : α → Tx σ ε φ β} {T : β → σ → Prop} (hm : Ensures P m Q)
    (hf : ∀ a, Ensures (Q a) (f a) T) : Ensures P (m >>= f) T := by
  intro s t b hs hrun
  obtain ⟨a, u, hfirst, hrest⟩ := bind_ok hrun
  exact hf a (hm hs hfirst) hrest

/-- A fact that does not depend on the store is a hypothesis. -/
theorem Ensures.given {c : Prop} (h : c → Ensures P m Q) : Ensures (fun w => c ∧ P w) m Q :=
  fun _ _ _ hs hrun => h hs.1 hs.2 hrun

/-- What the precondition says of anything but the store is a hypothesis. -/
theorem Ensures.knowing {c : Prop} (known : ∀ w, P w → c) (h : c → Ensures P m Q) : Ensures P m Q :=
  fun _ _ _ hs hrun => h (known _ hs) hs hrun

theorem Ensures.pure (a : α) (h : ∀ w, P w → Q a w) : Ensures P (Pure.pure a : Tx σ ε φ α) Q := by
  intro s t b hs hrun
  obtain ⟨rfl, rfl⟩ := pure_ok hrun
  exact h s.work hs

theorem Ensures.read : Ensures P (read : Tx σ ε φ σ) fun db w => db = w ∧ P w := by
  intro s t db hs hrun
  obtain ⟨rfl, rfl⟩ := read_ok hrun
  exact ⟨rfl, hs⟩

theorem Ensures.write (f : σ → σ) (h : ∀ w, P w → R (f w)) :
    Ensures P (write f : Tx σ ε φ Unit) fun _ => R := by
  intro s t u hs hrun
  obtain rfl := write_ok hrun
  exact h s.work hs

theorem Ensures.raise (e : φ) : Ensures P (raise e : Tx σ ε φ α) Q := by
  intro s t a _ hrun
  cases hrun

theorem Ensures.raiseIf (c : Prop) [Decidable c] (e : φ) :
    Ensures P (raiseIf c e : Tx σ ε φ Unit) fun _ w => ¬ c ∧ P w := by
  intro s t u hs hrun
  obtain ⟨hc, rfl⟩ := raiseIf_ok hrun
  exact ⟨hc, hs⟩

theorem Ensures.orRaise (o : Option α) (e : φ) :
    Ensures P (orRaise o e : Tx σ ε φ α) fun a w => o = some a ∧ P w := by
  intro s t a hs hrun
  obtain ⟨ho, rfl⟩ := orRaise_ok hrun
  exact ⟨ho, hs⟩

end

/-! ## Pieces that keep what is committed

Next to the pre- and the postcondition on the view there is a condition on the
store: nothing that is committed on the way breaks it, not even where the piece
raises afterwards. -/

def Upholds (I P : σ → Prop) (m : Tx σ ε φ α) (Q : α → σ → Prop) : Prop :=
  ∀ ⦃s t : Session σ ε⦄ ⦃r : Except φ α⦄, I s.stored → P s.work → m.run s = (r, t) →
    I t.stored ∧ ∀ a, r = .ok a → Q a t.work

section
variable {I P R : σ → Prop} {Q S : α → σ → Prop} {m : Tx σ ε φ α}

theorem Upholds.mono (h : Upholds I R m S) (pre : ∀ w, P w → R w) (post : ∀ a w, S a w → Q a w) :
    Upholds I P m Q :=
  fun _ _ _ hI hP hrun => (h hI (pre _ hP) hrun).imp_right fun hS a ha => post a _ (hS a ha)

theorem Upholds.bind {f : α → Tx σ ε φ β} {T : β → σ → Prop} (hm : Upholds I P m Q)
    (hf : ∀ a, Upholds I (Q a) (f a) T) : Upholds I P (m >>= f) T := by
  intro s t r hI hP hrun
  rw [run_bind] at hrun
  cases hfirst : m.run s with
  | mk answer u =>
    obtain ⟨hstored, hview⟩ := hm hI hP hfirst
    rw [hfirst] at hrun
    cases answer with
    | ok a => exact hf a hstored (hview a rfl) hrun
    | error e =>
      cases hrun
      refine ⟨hstored, fun b hb => ?_⟩
      cases hb

/-- What the precondition says of anything but the store is a hypothesis. -/
theorem Upholds.knowing {c : Prop} (known : ∀ w, P w → c) (h : c → Upholds I P m Q) : Upholds I P m Q :=
  fun _ _ _ hI hP hrun => h (known _ hP) hI hP hrun

theorem Upholds.pure (a : α) (h : ∀ w, P w → Q a w) : Upholds I P (Pure.pure a : Tx σ ε φ α) Q := by
  intro s t r hI hP hrun
  cases hrun
  refine ⟨hI, fun b hb => ?_⟩
  cases hb
  exact h s.work hP

theorem Upholds.raise (e : φ) : Upholds I P (raise e : Tx σ ε φ α) Q := by
  intro s t r hI hP hrun
  cases hrun
  refine ⟨hI, fun b hb => ?_⟩
  cases hb

theorem Upholds.orRaise (o : Option α) (e : φ) :
    Upholds I P (orRaise o e : Tx σ ε φ α) fun a w => o = some a ∧ P w := by
  cases o with
  | none => exact .raise e
  | some a => exact .pure a fun _ hP => ⟨rfl, hP⟩

theorem Upholds.read : Upholds I P (read : Tx σ ε φ σ) fun db w => db = w ∧ P w := by
  intro s t r hI hP hrun
  cases hrun
  refine ⟨hI, fun db hdb => ?_⟩
  cases hdb
  exact ⟨rfl, hP⟩

theorem Upholds.write (f : σ → σ) (h : ∀ w, P w → R (f w)) :
    Upholds I P (write f : Tx σ ε φ Unit) fun _ => R := by
  intro s t r hI hP hrun
  cases hrun
  exact ⟨hI, fun _ _ => h s.work hP⟩

/-- What is committed is what the view is. -/
theorem Upholds.commit (h : ∀ w, P w → I w) : Upholds I P (commit : Tx σ ε φ Unit) fun _ => P := by
  intro s t r _ hP hrun
  cases hrun
  exact ⟨h s.work hP, fun _ _ => hP⟩

theorem Upholds.emit (e : ε) : Upholds I P (emit e : Tx σ ε φ Unit) fun _ => P := by
  intro s t r hI hP hrun
  cases hrun
  exact ⟨hI, fun _ _ => hP⟩

end

theorem serve_transaction_ok {m : Tx σ ε φ α} {db : σ} {a : α} {s : Session σ ε}
    (h : m.run ⟨db, db, []⟩ = (.ok a, s)) : serve (transaction m) db = (.ok a, s.work, s.log) := by
  unfold serve transaction
  rw [run_bind, h]
  rfl

/-- What a failed transaction has written is rolled back. -/
theorem serve_transaction_error {m : Tx σ ε φ α} (hm : Drafts m) {db : σ} {e : φ} {s : Session σ ε}
    (h : m.run ⟨db, db, []⟩ = (.error e, s)) : serve (transaction m) db = (.error e, db, s.log) := by
  have hstored : s.stored = db := by
    have := hm ⟨db, db, []⟩
    rwa [h] at this
  have hrun : (transaction m).run ⟨db, db, []⟩ = (.error e, s) := by
    unfold transaction
    rw [run_bind, h, andThen_error]
  subst hstored
  unfold serve
  rw [hrun]

/-- A transaction leaves the store as it was, or as its body has left it. -/
theorem serve_transaction {m : Tx σ ε φ α} (hm : Drafts m) (db : σ) :
    (serve (transaction m) db).2.1 = db ∨
      ∃ a s, m.run ⟨db, db, []⟩ = (.ok a, s) ∧ (serve (transaction m) db).2.1 = s.work := by
  cases hr : m.run ⟨db, db, []⟩ with
  | mk r s =>
    cases r with
    | ok a => exact .inr ⟨a, s, rfl, by rw [serve_transaction_ok hr]⟩
    | error e => exact .inl (by rw [serve_transaction_error hm hr])

/-- A transaction that answers has committed what its body has left. -/
theorem serve_answered {m : Tx σ ε φ α} {db : σ} {a : α} (h : (serve (transaction m) db).1 = .ok a) :
    ∃ s, m.run ⟨db, db, []⟩ = (.ok a, s) ∧ (serve (transaction m) db).2.1 = s.work := by
  cases hr : m.run ⟨db, db, []⟩ with
  | mk r s =>
    cases r with
    | ok b =>
      rw [serve_transaction_ok hr] at h ⊢
      cases h
      exact ⟨s, rfl, rfl⟩
    | error e =>
      unfold serve transaction at h
      rw [run_bind, hr] at h
      cases h

/-- A request that leaves the store as it was, or as its own view was at the end. -/
def Atomic (m : Tx σ ε φ α) : Prop :=
  ∀ db, (serve m db).2.1 = db ∨ ∃ a s, m.run ⟨db, db, []⟩ = (.ok a, s) ∧ (serve m db).2.1 = s.work

theorem transaction_ok {m : Tx σ ε φ α} {s t : Session σ ε} {a : α}
    (h : (transaction m).run s = (.ok a, t)) : ∃ u, m.run s = (.ok a, u) ∧ t.work = u.work := by
  obtain ⟨a', u, hm, hrest⟩ := bind_ok h
  cases hrest
  exact ⟨u, hm, rfl⟩

theorem Atomic.transaction {m : Tx σ ε φ α} (hm : Drafts m) : Atomic (transaction m) := by
  intro db
  rcases serve_transaction hm db with hsame | ⟨a, s, hrun, hafter⟩
  · exact .inl hsame
  · refine .inr ⟨a, { s with stored := s.work }, ?_, hafter⟩
    unfold Tx.transaction
    rw [run_bind, hrun]
    rfl

theorem Ensures.transaction {m : Tx σ ε φ α} {P : σ → Prop} {Q : α → σ → Prop} (h : Ensures P m Q) :
    Ensures P (transaction m) Q := by
  intro s t a hs hrun
  obtain ⟨u, hm, hwork⟩ := transaction_ok hrun
  rw [hwork]
  exact h hs hm

/-- What holds of the store before and is ensured of the view at the end holds of
the store that is left, whether the request ends well or not. -/
theorem Ensures.serve {m : Tx σ ε φ α} (hm : Atomic m) {P Q : σ → Prop} (h : Ensures P m fun _ => Q) {db : σ}
    (hpre : P db) (hsame : Q db) : Q (serve m db).2.1 := by
  rcases hm db with hafter | ⟨a, s, hrun, hafter⟩
  · rw [hafter]
    exact hsame
  · rw [hafter]
    exact h hpre hrun

end Tx
end TwinVoice.Lib
