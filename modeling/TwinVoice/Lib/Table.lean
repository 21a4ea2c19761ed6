import Mathlib.Data.List.Nodup

/-! # Tables of rows with a primary key

A table holds its rows in insertion order and carries the proof that no two
of them share a key, so a lookup by key is the row, not one of several. The
four statements a store needs are here: insert (refused on a key in use),
lookup, select by a predicate and update of the rows that satisfy one. -/

namespace TwinVoice.Lib

/-- Of rows of which no two share a key each is found under its own. -/
theorem find_of_nodup {α κ : Type} [DecidableEq κ] {key : α → κ} {rows : List α} (h : (rows.map key).Nodup) {x : α}
    (hx : x ∈ rows) : rows.find? (fun y => key y = key x) = some x := by
  have hfound : (rows.find? fun y => decide (key y = key x)).isSome := by
    rw [List.find?_isSome]
    exact ⟨x, hx, decide_eq_true rfl⟩
  obtain ⟨y, hy⟩ := Option.isSome_iff_exists.mp hfound
  have hkey : key y = key x := by simpa using List.find?_some hy
  rw [hy, List.inj_on_of_nodup_map h (List.mem_of_find?_eq_some hy) hx hkey]

/-- The primary key of a kind of row. -/
class Keyed (ρ : Type) (κ : outParam Type) where
  key : ρ → κ

/-- Rows of which no two share a primary key. -/
structure Table (ρ : Type) {κ : Type} [Keyed ρ κ] where
  rows : List ρ
  keys : (rows.map Keyed.key).Nodup

namespace Table
variable {ρ κ : Type} [Keyed ρ κ]

def empty : Table ρ := ⟨[], List.nodup_nil⟩

def select (t : Table ρ) (p : ρ → Bool) : List ρ := t.rows.filter p

/-- `UPDATE … SET f WHERE p`. The key is not among the columns that `f` sets. -/
def update (t : Table ρ) (p : ρ → Bool) (f : ρ → ρ)
    (keepsKey : ∀ r : ρ, Keyed.key (f r) = Keyed.key r) : Table ρ :=
  ⟨t.rows.map fun r => if p r then f r else r, by
    have he : (Keyed.key ∘ fun r => if p r then f r else r) = (Keyed.key : ρ → κ) := by
      funext r
      simp only [Function.comp_apply]
      split
      · exact keepsKey r
      · rfl
    rw [List.map_map, he]
    exact t.keys⟩

/-- The same rows seen otherwise, under the same keys. -/
def map {ρ' : Type} [Keyed ρ' κ] (t : Table ρ) (f : ρ → ρ') (keepsKey : ∀ r : ρ, Keyed.key (f r) = Keyed.key r) :
    Table ρ' :=
  ⟨t.rows.map f, by
    have he : (Keyed.key ∘ f : ρ → κ) = Keyed.key := funext keepsKey
    rw [List.map_map, he]
    exact t.keys⟩

@[simp] theorem rows_map {ρ' : Type} [Keyed ρ' κ] (t : Table ρ) (f : ρ → ρ') (hf) :
    (t.map f hf).rows = t.rows.map f := rfl

@[simp] theorem rows_update (t : Table ρ) (p : ρ → Bool) (f : ρ → ρ) (hf) :
    (t.update p f hf).rows = t.rows.map fun r => if p r then f r else r := rfl

theorem ext_rows {t u : Table ρ} (h : t.rows = u.rows) : t = u := by
  cases t
  cases u
  cases h
  rfl

theorem mem_select {t : Table ρ} {p : ρ → Bool} {r : ρ} :
    r ∈ t.select p ↔ r ∈ t.rows ∧ p r = true :=
  List.mem_filter

variable [DecidableEq κ]

def find (t : Table ρ) (k : κ) : Option ρ := t.rows.find? fun r => Keyed.key r == k

/-- `INSERT`: refused when the key is in use. -/
def insert (t : Table ρ) (r : ρ) : Option (Table ρ) :=
  if h : Keyed.key r ∈ t.rows.map Keyed.key then none
  else some ⟨t.rows ++ [r], by
    rw [List.map_append, List.map_singleton]
    exact List.nodup_append.mpr ⟨t.keys, List.nodup_singleton _, by
      intro a ha b hb
      rw [List.mem_singleton] at hb
      subst hb
      exact fun he => h (he ▸ ha)⟩⟩

/-- `UPDATE … SET f WHERE key = k`. -/
def modify (t : Table ρ) (k : κ) (f : ρ → ρ)
    (keepsKey : ∀ r : ρ, Keyed.key (f r) = Keyed.key r) : Table ρ :=
  t.update (fun r => Keyed.key r == k) f keepsKey

/-- `UPDATE` of all the columns of the row under the key of `r`. -/
def put (t : Table ρ) (r : ρ) : Table ρ :=
  t.update (fun x => Keyed.key x == Keyed.key r)
    (fun x => if Keyed.key x = Keyed.key r then r else x) fun x => by
      split
      · rename_i h
        exact h.symm
      · rfl

theorem key_of_find {t : Table ρ} {k : κ} {r : ρ} (h : t.find k = some r) : Keyed.key r = k := by
  simpa using List.find?_some h

theorem mem_of_find {t : Table ρ} {k : κ} {r : ρ} (h : t.find k = some r) : r ∈ t.rows :=
  List.mem_of_find?_eq_some h

/-- The rows are the ones found under their own keys. -/
theorem find_iff {t : Table ρ} {k : κ} {r : ρ} : t.find k = some r ↔ r ∈ t.rows ∧ Keyed.key r = k := by
  refine ⟨fun h => ⟨mem_of_find h, key_of_find h⟩, ?_⟩
  rintro ⟨hmem, rfl⟩
  exact find_of_nodup t.keys hmem

theorem find_eq_none {t : Table ρ} {k : κ} : t.find k = none ↔ k ∉ t.rows.map Keyed.key := by
  simp [find, List.find?_eq_none]

theorem flatMap_of_not_mem {β : Type} {rows : List ρ} {k : κ} (h : k ∉ rows.map Keyed.key) (ys : List β) :
    (rows.flatMap fun r => if Keyed.key r = k then ys else []) = [] := by
  rw [List.flatMap_eq_nil_iff]
  intro r hr
  refine if_neg ?_
  intro hk
  exact h (hk ▸ List.mem_map_of_mem hr)

/-- Where only the row under one key counts, a selection counts if it holds this row. -/
theorem flatMap_select {β : Type} (t : Table ρ) {x : ρ} (hx : x ∈ t.rows) (p : ρ → Bool) (ys : List β) :
    ((t.select p).flatMap fun r => if Keyed.key r = Keyed.key x then ys else []) = if p x then ys else [] := by
  obtain ⟨rows, keys⟩ := t
  show ((rows.filter p).flatMap _) = _
  induction rows with
  | nil => cases hx
  | cons r rows ih =>
    rw [List.map_cons, List.nodup_cons] at keys
    have hsub : ∀ k, k ∉ rows.map Keyed.key → k ∉ (rows.filter p).map Keyed.key := by
      intro k hk hmem
      obtain ⟨y, hy, rfl⟩ := List.mem_map.mp hmem
      exact hk (List.mem_map_of_mem (List.mem_filter.mp hy).1)
    rw [List.filter_cons]
    rcases List.mem_cons.mp hx with rfl | hx
    · have hrest := flatMap_of_not_mem (hsub _ keys.1) ys
      split <;> simp [hrest]
    · have hne : Keyed.key r ≠ Keyed.key x := fun hk => keys.1 (hk ▸ List.mem_map_of_mem hx)
      split
      · simp [hne, ih keys.2 hx]
      · exact ih keys.2 hx

theorem insert_isSome {t : Table ρ} {r : ρ} : (t.insert r).isSome ↔ t.find (Keyed.key r) = none := by
  rw [find_eq_none]
  unfold insert
  split <;> simp_all

theorem rows_insert {t t' : Table ρ} {r : ρ} (h : t.insert r = some t') : t'.rows = t.rows ++ [r] := by
  unfold insert at h
  split at h
  · cases h
  · cases h; rfl

theorem fresh_of_insert {t t' : Table ρ} {r : ρ} (h : t.insert r = some t') :
    t.find (Keyed.key r) = none :=
  insert_isSome.mp (by rw [h]; rfl)

theorem find_insert {t t' : Table ρ} {r : ρ} (h : t.insert r = some t') (k : κ) :
    t'.find k = if Keyed.key r = k then some r else t.find k := by
  have hfresh := fresh_of_insert h
  unfold find at hfresh ⊢
  rw [rows_insert h, List.find?_append]
  by_cases hk : Keyed.key r = k
  · subst hk
    simp [hfresh]
  · simp [hk]

theorem find_update (t : Table ρ) (p : ρ → Bool) (f : ρ → ρ) (hf) (k : κ) :
    (t.update p f hf).find k = (t.find k).map fun r => if p r then f r else r := by
  unfold find
  rw [rows_update, List.find?_map]
  congr 2
  funext r
  simp only [Function.comp_apply]
  split
  · rw [hf r]
  · rfl

theorem find_modify (t : Table ρ) (k : κ) (f : ρ → ρ) (hf) (k' : κ) :
    (t.modify k f hf).find k' = if k' = k then (t.find k').map f else t.find k' := by
  rw [modify, find_update]
  cases h : t.find k' with
  | none => simp
  | some r =>
    have hk := key_of_find h
    subst hk
    by_cases hkk : Keyed.key r = k <;> simp [hkk]

theorem find_put (t : Table ρ) (r : ρ) (k : κ) :
    (t.put r).find k = if Keyed.key r = k then (t.find k).map fun _ => r else t.find k := by
  rw [put, find_update]
  cases h : t.find k with
  | none => simp
  | some x =>
    have hx := key_of_find h
    subst hx
    by_cases hk : Keyed.key x = Keyed.key r
    · simp [hk]
    · simp [hk, Ne.symm hk]

theorem find_map {ρ' : Type} [Keyed ρ' κ] (t : Table ρ) (f : ρ → ρ') (hf) (k : κ) :
    (t.map f hf).find k = (t.find k).map f := by
  unfold find
  rw [rows_map, List.find?_map]
  congr 2
  funext r
  rw [Function.comp_apply, hf]

theorem map_put {ρ' : Type} [Keyed ρ' κ] (t : Table ρ) (f : ρ → ρ') (hf) (r : ρ) :
    (t.put r).map f hf = (t.map f hf).put (f r) := by
  refine ext_rows ?_
  unfold put
  rw [rows_map, rows_update, rows_update, rows_map, List.map_map, List.map_map]
  refine List.map_congr_left fun x _ => ?_
  by_cases hk : Keyed.key x = Keyed.key r
  · simp [hf, hk]
  · simp [hf, hk]

/-- A row of the table after `put` is the row put there or one under another key. -/
theorem mem_put {t : Table ρ} {r x : ρ} (h : x ∈ (t.put r).rows) :
    x = r ∨ (x ∈ t.rows ∧ Keyed.key x ≠ Keyed.key r) := by
  obtain ⟨y, hy, rfl⟩ := List.mem_map.mp h
  by_cases hk : Keyed.key y = Keyed.key r
  · simp [hk]
  · simp [hk, hy]

theorem mem_put_of_ne {t : Table ρ} {r x : ρ} (h : x ∈ t.rows) (hk : Keyed.key x ≠ Keyed.key r) :
    x ∈ (t.put r).rows :=
  List.mem_map.mpr ⟨x, h, by simp [hk]⟩

theorem mem_put_self {t : Table ρ} {r x : ρ} (h : x ∈ t.rows) (hk : Keyed.key x = Keyed.key r) :
    r ∈ (t.put r).rows :=
  List.mem_map.mpr ⟨x, h, by simp [hk]⟩

end Table

/-- `ORDER BY key DESC LIMIT 1`; of rows with one key the first in table order. -/
def newest {ρ : Type} (key : ρ → Int) : List ρ → Option ρ
  | [] => none
  | r :: rs =>
    match newest key rs with
    | none => some r
    | some b => if key r < key b then some b else some r

theorem newest_eq_none {ρ : Type} {key : ρ → Int} {rows : List ρ} :
    newest key rows = none ↔ rows = [] := by
  cases rows with
  | nil => simp [newest]
  | cons r rs =>
    simp only [newest, reduceCtorEq, iff_false]
    split
    · nofun
    · split <;> nofun

/-- The newest row is one of the rows, and none is newer. -/
theorem newest_spec {ρ : Type} {key : ρ → Int} {rows : List ρ} {r : ρ} (h : newest key rows = some r) :
    r ∈ rows ∧ ∀ x ∈ rows, key x ≤ key r := by
  induction rows generalizing r with
  | nil => cases h
  | cons y ys ih =>
    unfold newest at h
    cases hys : newest key ys with
    | none =>
      rw [hys] at h
      cases h
      rw [newest_eq_none.mp hys]
      simp
    | some b =>
      rw [hys] at h
      obtain ⟨hb, hmax⟩ := ih hys
      by_cases hlt : key y < key b
      · simp only [hlt, if_true] at h
        cases h
        refine ⟨List.mem_cons_of_mem y hb, fun x hx => ?_⟩
        rcases List.mem_cons.mp hx with rfl | hx
        · exact Int.le_of_lt hlt
        · exact hmax x hx
      · simp only [hlt, if_false] at h
        cases h
        refine ⟨List.mem_cons_self, fun x hx => ?_⟩
        rcases List.mem_cons.mp hx with rfl | hx
        · exact Int.le_refl _
        · exact Int.le_trans (hmax x hx) (Int.not_lt.mp hlt)

theorem newest_mem {ρ : Type} {key : ρ → Int} {rows : List ρ} {r : ρ}
    (h : newest key rows = some r) : r ∈ rows :=
  (newest_spec h).1

/-- A row newer than all the others is the newest. -/
theorem newest_append {ρ : Type} {key : ρ → Int} {rows : List ρ} {r : ρ}
    (h : ∀ x ∈ rows, key x < key r) : newest key (rows ++ [r]) = some r := by
  induction rows with
  | nil => rfl
  | cons x xs ih =>
    rw [List.cons_append, newest, ih fun y hy => h y (List.mem_cons_of_mem x hy)]
    simp [h x List.mem_cons_self]

/-- The rows that a query for the newest one may return: none is newer than any of them. -/
def newestOnes {ρ : Type} (key : ρ → Int) (rows : List ρ) : List ρ :=
  rows.filter fun r => rows.all fun x => key x ≤ key r

section
variable {ρ : Type} {key : ρ → Int} {rows rows' : List ρ}

theorem mem_newestOnes {r : ρ} : r ∈ newestOnes key rows ↔ r ∈ rows ∧ ∀ x ∈ rows, key x ≤ key r := by
  simp [newestOnes]

theorem newestOnes_ne_nil (h : rows ≠ []) : newestOnes key rows ≠ [] := by
  cases hnewest : newest key rows with
  | none => exact absurd (newest_eq_none.mp hnewest) h
  | some r => exact List.ne_nil_of_mem (mem_newestOnes.mpr (newest_spec hnewest))

theorem mem_newestOnes_congr (h : ∀ r, r ∈ rows ↔ r ∈ rows') (r : ρ) :
    r ∈ newestOnes key rows ↔ r ∈ newestOnes key rows' := by
  simp [mem_newestOnes, h]

/-- Rows that may not be returned can go. -/
theorem mem_newestOnes_filter {p : ρ → Bool} (h : ∀ r ∈ newestOnes key rows, p r = true) (r : ρ) :
    r ∈ newestOnes key (rows.filter p) ↔ r ∈ newestOnes key rows := by
  constructor
  · intro hr
    obtain ⟨hmem, hmax⟩ := mem_newestOnes.mp hr
    have hrows : r ∈ rows := (List.mem_filter.mp hmem).1
    obtain ⟨b, hb⟩ := List.exists_mem_of_ne_nil _ (newestOnes_ne_nil (List.ne_nil_of_mem hrows))
    obtain ⟨hbrows, hbmax⟩ := mem_newestOnes.mp hb
    refine mem_newestOnes.mpr ⟨hrows, ?_⟩
    intro x hx
    exact Int.le_trans (hbmax x hx) (hmax b (List.mem_filter.mpr ⟨hbrows, h b hb⟩))
  · intro hr
    obtain ⟨hmem, hmax⟩ := mem_newestOnes.mp hr
    refine mem_newestOnes.mpr ⟨List.mem_filter.mpr ⟨hmem, h r hr⟩, ?_⟩
    intro x hx
    exact hmax x (List.mem_filter.mp hx).1

end

end TwinVoice.Lib
