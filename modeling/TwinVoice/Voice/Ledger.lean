import TwinVoice.Voice.Handle

/-! # How the stored actions change

No request rewrites what a stored action is: its tool, its parameters and its
tier are those of the read-back that created it, and a row that has left the
pending state never returns to it. `Evolves` says this of two states of the
table, given what a request has said and done in between. -/

namespace TwinVoice.Voice

open TwinVoice.Lib TwinVoice.Nlu

variable {W : Type}

/-- Two states of one row: what was read back is the same. -/
structure SameAction (a b : VoiceAction) : Prop where
  id : b.id = a.id
  tool : b.tool = a.tool
  params : b.params = a.params
  tier : b.tier = a.tier

theorem SameAction.refl (a : VoiceAction) : SameAction a a := ⟨rfl, rfl, rfl, rfl⟩

theorem SameAction.trans {a b c : VoiceAction} (h : SameAction a b) (h' : SameAction b c) :
    SameAction a c :=
  ⟨h'.id.trans h.id, h'.tool.trans h.tool, h'.params.trans h.params, h'.tier.trans h.tier⟩

/-- Where a row of the later table comes from. -/
inductive Origin (log : List Event) (t : Table VoiceAction) (b : VoiceAction) : Prop
  | kept (h : t.find b.id = some b)
  | settled (a : VoiceAction) (h : t.find b.id = some a) (same : SameAction a b)
      (done : b.status ≠ .pending)
  | new (fresh : t.find b.id = none) (a : VoiceAction) (p : Params) (said : Event.readBack a p ∈ log)
      (same : SameAction a b)

structure Evolves (log : List Event) (t t' : Table VoiceAction) : Prop where
  stays : ∀ id, (t.find id).isSome → (t'.find id).isSome
  origin : ∀ b ∈ t'.rows, Origin log t b

theorem Origin.mono {log log' : List Event} {t : Table VoiceAction} {b : VoiceAction}
    (hlog : ∀ e ∈ log, e ∈ log') (h : Origin log t b) : Origin log' t b := by
  cases h with
  | kept h => exact .kept h
  | settled a h same done => exact .settled a h same done
  | new fresh a p said same => exact .new fresh a p (hlog _ said) same

theorem Evolves.mono {log log' : List Event} {t t' : Table VoiceAction}
    (hlog : ∀ e ∈ log, e ∈ log') (h : Evolves log t t') : Evolves log' t t' :=
  ⟨h.stays, fun b hb => (h.origin b hb).mono hlog⟩

theorem Evolves.anyLog {log : List Event} {t t' : Table VoiceAction} (h : Evolves [] t t') :
    Evolves log t t' :=
  h.mono fun _ hmem => absurd hmem List.not_mem_nil

theorem Evolves.refl (log : List Event) (t : Table VoiceAction) : Evolves log t t :=
  ⟨fun _ h => h, fun _ hb => .kept (Table.find_iff.mpr ⟨hb, rfl⟩)⟩

theorem Evolves.trans {log : List Event} {t t' t'' : Table VoiceAction}
    (h : Evolves log t t') (h' : Evolves log t' t'') : Evolves log t t'' := by
  refine ⟨fun id hid => h'.stays id (h.stays id hid), fun b hb => ?_⟩
  cases h'.origin b hb with
  | kept hkept => exact h.origin b (Table.mem_of_find hkept)
  | new fresh a p said same =>
    refine .new ?_ a p said same
    by_contra hsome
    have hthere := h.stays b.id (Option.isSome_iff_ne_none.mpr hsome)
    rw [fresh] at hthere
    cases hthere
  | settled a hfind same done =>
    have hid : a.id = b.id := same.id.symm
    cases h.origin a (Table.mem_of_find hfind) with
    | kept hkept => exact .settled a (hid ▸ hkept) same done
    | settled a₀ hfind₀ same₀ _ => exact .settled a₀ (hid ▸ hfind₀) (same₀.trans same) done
    | new fresh a₀ p said same₀ => exact .new (hid ▸ fresh) a₀ p said (same₀.trans same)

/-- Rows may be settled by an update that keeps what was read back. -/
theorem Evolves.update {log : List Event} (t : Table VoiceAction) (p : VoiceAction → Bool)
    (f : VoiceAction → VoiceAction) (hf)
    (settles : ∀ a ∈ t.rows, p a = true → SameAction a (f a) ∧ (f a).status ≠ .pending) :
    Evolves log t (t.update p f hf) := by
  refine ⟨fun id hid => ?_, fun b hb => ?_⟩
  · rw [Table.find_update, Option.isSome_map]
    exact hid
  · rw [Table.rows_update] at hb
    obtain ⟨a, ha, hab⟩ := List.mem_map.mp hb
    have hfind : t.find a.id = some a := Table.find_iff.mpr ⟨ha, rfl⟩
    by_cases hp : p a = true
    · rw [if_pos hp] at hab
      subst hab
      obtain ⟨same, done⟩ := settles a ha hp
      exact .settled a (same.id ▸ hfind) same done
    · rw [if_neg hp] at hab
      subst hab
      exact .kept hfind

theorem VoiceAction.key_withId (a r : VoiceAction) :
    Keyed.key { a with id := r.id } = Keyed.key r := rfl

/-- What `saveAction` does to the table. -/
def putAction (t : Table VoiceAction) (a : VoiceAction) : Table VoiceAction :=
  t.modify a.id (fun r => { a with id := r.id }) a.key_withId

theorem find_putAction {t : Table VoiceAction} {a b : VoiceAction} (h : t.find b.id = some a) :
    (putAction t b).find b.id = some b := by
  have hid : a.id = b.id := Table.key_of_find h
  unfold putAction
  rw [Table.find_modify, if_pos rfl, h, Option.map_some, hid]

/-- Saving a settled version of the row that is there. -/
theorem Evolves.put {log : List Event} {t : Table VoiceAction} {a b : VoiceAction}
    (hfind : t.find a.id = some a) (same : SameAction a b) (done : b.status ≠ .pending) :
    Evolves log t (putAction t b) := by
  refine Evolves.update t _ (fun r => { b with id := r.id }) (fun _ => rfl) fun r hr hkey => ?_
  have hrid : r.id = b.id := beq_iff_eq.mp hkey
  have hra : r = a := by
    have hr' : t.find r.id = some r := Table.find_iff.mpr ⟨hr, rfl⟩
    rw [hrid, same.id, hfind] at hr'
    exact (Option.some.inj hr').symm
  subst hra
  exact ⟨⟨rfl, same.tool, same.params, same.tier⟩, done⟩

theorem Evolves.insert {log : List Event} {t t' : Table VoiceAction} {a : VoiceAction} {p : Params}
    (h : t.insert a = some t') (said : Event.readBack a p ∈ log) : Evolves log t t' := by
  refine ⟨fun id hid => ?_, fun b hb => ?_⟩
  · rw [Table.find_insert h]
    split
    · rfl
    · exact hid
  · rw [Table.rows_insert h, List.mem_append, List.mem_singleton] at hb
    cases hb with
    | inl hb => exact .kept (Table.find_iff.mpr ⟨hb, rfl⟩)
    | inr hb =>
      subst hb
      exact .new (Table.fresh_of_insert h) b p said (.refl b)

theorem Evolves.expireStale {log : List Event} (db : Database W) (now : Instant) :
    Evolves log db.actions (expireStale db now).actions :=
  Evolves.update _ _ (fun a => { a with status := .expired }) (fun _ => rfl)
    fun _ _ _ => ⟨⟨rfl, rfl, rfl, rfl⟩, nofun⟩

/-- The row of `id` is there and has left the pending state. -/
def Settled (t : Table VoiceAction) (id : Uuid) : Prop :=
  ∃ a, t.find id = some a ∧ a.status ≠ .pending

theorem Settled.evolves {log : List Event} {t t' : Table VoiceAction} {id : Uuid}
    (h : Settled t id) (he : Evolves log t t') : Settled t' id := by
  obtain ⟨a, hfind, hdone⟩ := h
  obtain ⟨b, hb⟩ := Option.isSome_iff_exists.mp (he.stays id (by rw [hfind]; rfl))
  have hid : b.id = id := Table.key_of_find hb
  refine ⟨b, hb, ?_⟩
  cases he.origin b (Table.mem_of_find hb) with
  | kept hkept =>
    rw [hid, hfind] at hkept
    cases hkept
    exact hdone
  | settled _ _ _ done => exact done
  | new fresh _ _ _ _ => rw [hid, hfind] at fresh; cases fresh

/-- A row that is pending after a request without a read-back was the same before it. -/
theorem Evolves.pending_before {t t' : Table VoiceAction} {a : VoiceAction}
    (he : Evolves [] t t') (hfind : t'.find a.id = some a) (hp : a.status = .pending) :
    t.find a.id = some a := by
  cases he.origin a (Table.mem_of_find hfind) with
  | kept h => exact h
  | settled _ _ _ done => exact absurd hp done
  | new _ _ _ said _ => cases said

end TwinVoice.Voice
