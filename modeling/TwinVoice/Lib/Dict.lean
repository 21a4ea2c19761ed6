import Mathlib.Data.List.Dedup

/-! # Dictionaries

What a Python `dict` is: entries in insertion order, and an assignment to a
key in use overwrites the entry in place. -/

namespace TwinVoice.Lib

abbrev Dict (κ ν : Type) := List (κ × ν)

namespace Dict
variable {κ ν : Type} [DecidableEq κ]

def get? (d : Dict κ ν) (k : κ) : Option ν := d.lookup k

/-- `d[k] = v`. -/
def set (d : Dict κ ν) (k : κ) (v : ν) : Dict κ ν :=
  if k ∈ d.map Prod.fst then d.map fun e => if e.1 = k then (k, v) else e else d ++ [(k, v)]

/-- `d.pop(k, None)`. -/
def pop (d : Dict κ ν) (k : κ) : Dict κ ν := d.filter fun e => e.1 ≠ k

/-- `{k: f(v) for k, v in d.items()}`. -/
def mapValues (f : ν → ν) (d : Dict κ ν) : Dict κ ν := d.map fun e => (e.1, f e.2)

/-- The dict that a query with one row for each key is read into. -/
def ofKeys (keys : List κ) (f : κ → Option ν) : Dict κ ν :=
  keys.dedup.filterMap fun k => (f k).map (k, ·)

@[simp] theorem get?_nil (k : κ) : get? ([] : Dict κ ν) k = none := rfl

theorem get?_cons (e : κ × ν) (d : Dict κ ν) (k : κ) :
    get? (e :: d) k = if e.1 = k then some e.2 else get? d k := by
  rw [get?, List.lookup_cons]
  by_cases h : e.1 = k
  · simp [h]
  · have hne : (k == e.1) = false := beq_eq_false_iff_ne.mpr (Ne.symm h)
    simp [h, hne, get?]

theorem get?_append_singleton (d : Dict κ ν) (k : κ) (v : ν) (k' : κ) :
    get? (d ++ [(k, v)]) k' = (get? d k').or (if k = k' then some v else none) := by
  induction d with
  | nil => simp [get?_cons]
  | cons e d ih =>
    rw [List.cons_append, get?_cons, get?_cons, ih]
    split <;> rfl

theorem get?_eq_none {d : Dict κ ν} {k : κ} (h : k ∉ d.map Prod.fst) : get? d k = none := by
  induction d with
  | nil => rfl
  | cons e d ih =>
    simp only [List.map_cons, List.mem_cons, not_or] at h
    rw [get?_cons, if_neg (Ne.symm h.1), ih h.2]

theorem mem_keys_iff {d : Dict κ ν} {k : κ} : k ∈ d.map Prod.fst ↔ d.get? k ≠ none := by
  refine ⟨fun hmem hnone => ?_, fun h => ?_⟩
  · induction d with
    | nil => cases hmem
    | cons e d ih =>
      rw [get?_cons] at hnone
      by_cases he : e.1 = k
      · rw [if_pos he] at hnone
        cases hnone
      · rw [if_neg he] at hnone
        exact ih ((List.mem_cons.mp hmem).resolve_left fun hk => he hk.symm) hnone
  · by_contra hmem
    exact h (get?_eq_none hmem)

/-- A key under which only one value stands. -/
theorem mem_of_get? {d : Dict κ ν} {k : κ} {v : ν} (h : d.get? k = some v) : (k, v) ∈ d := by
  obtain ⟨front, back, hd, -⟩ := List.lookup_eq_some_iff.mp h
  rw [hd]
  exact List.mem_append_right front List.mem_cons_self

theorem get?_eq_some {d : Dict κ ν} {k : κ} {v : ν} (h : (k, v) ∈ d) (honly : ∀ w, (k, w) ∈ d → w = v) :
    get? d k = some v := by
  induction d with
  | nil => cases h
  | cons e d ih =>
    rw [get?_cons]
    by_cases he : e.1 = k
    · subst he
      rw [if_pos rfl, honly e.2 List.mem_cons_self]
    · rw [if_neg he]
      rcases List.mem_cons.mp h with heq | hmem
      · exact absurd (congrArg Prod.fst heq).symm he
      · exact ih hmem fun w hw => honly w (List.mem_cons_of_mem _ hw)

theorem get?_overwrite_self (d : Dict κ ν) {k : κ} (v : ν) (h : k ∈ d.map Prod.fst) :
    get? (d.map fun e => if e.1 = k then (k, v) else e) k = some v := by
  induction d with
  | nil => cases h
  | cons e d ih =>
    rw [List.map_cons, get?_cons]
    by_cases he : e.1 = k
    · simp [he]
    · rw [List.map_cons, List.mem_cons] at h
      have hrest : k ∈ d.map Prod.fst := h.resolve_left fun hk => he hk.symm
      simp [he, ih hrest]

theorem get?_overwrite_of_ne (d : Dict κ ν) {k k' : κ} (v : ν) (hk : k ≠ k') :
    get? (d.map fun e => if e.1 = k then (k, v) else e) k' = get? d k' := by
  induction d with
  | nil => rfl
  | cons e d ih =>
    rw [List.map_cons, get?_cons, get?_cons, ih]
    by_cases he : e.1 = k
    · simp [he, hk]
    · simp [he]

/-- After `d[k] = v` the key holds `v` and every other key what it held. -/
theorem get?_set (d : Dict κ ν) (k : κ) (v : ν) (k' : κ) :
    (d.set k v).get? k' = if k = k' then some v else d.get? k' := by
  by_cases hk : k = k'
  · subst hk
    rw [if_pos rfl]
    unfold set
    split
    · exact get?_overwrite_self d v ‹_›
    · rw [get?_append_singleton, get?_eq_none ‹_›]
      simp
  · rw [if_neg hk]
    unfold set
    split
    · exact get?_overwrite_of_ne d v hk
    · rw [get?_append_singleton]
      simp [hk]

theorem mem_keys_set {d : Dict κ ν} {k k' : κ} {v : ν} :
    k' ∈ (d.set k v).map Prod.fst ↔ k' = k ∨ k' ∈ d.map Prod.fst := by
  rw [mem_keys_iff, mem_keys_iff, get?_set]
  by_cases hk : k = k'
  · simp [hk]
  · simp [hk, Ne.symm hk]

/-- Keys that are new to a dict stand behind its own. -/
theorem foldl_set_eq_append (d e : Dict κ ν) (h : ((d ++ e).map Prod.fst).Nodup) :
    e.foldl (fun d x => d.set x.1 x.2) d = d ++ e := by
  induction e generalizing d with
  | nil => rw [List.foldl_nil, List.append_nil]
  | cons x xs ih =>
    have hx : x.1 ∉ d.map Prod.fst := by
      rw [List.map_append, List.map_cons] at h
      exact fun hmem => (List.nodup_append.mp h).2.2 x.1 hmem x.1 List.mem_cons_self rfl
    have hset : d.set x.1 x.2 = d ++ [x] := if_neg hx
    rw [List.foldl_cons, hset, ih (d ++ [x]) (by rw [List.append_assoc]; exact h), List.append_assoc]
    rfl

/-- Assigning several values, each under its own key, leaves every key with its value. -/
theorem get?_foldl_set {key : ν → κ} {values : List ν} (h : (values.map key).Nodup) (d : Dict κ ν) (k : κ) :
    (values.foldl (fun d v => d.set (key v) v) d).get? k = (values.find? (key · = k)).or (d.get? k) := by
  induction values generalizing d with
  | nil => rfl
  | cons v vs ih =>
    obtain ⟨hv, hvs⟩ := List.nodup_cons.mp h
    rw [List.foldl_cons, ih hvs, get?_set, List.find?_cons]
    by_cases hk : key v = k
    · have hrest : vs.find? (key · = k) = none := by
        refine List.find?_eq_none.mpr fun x hx hkey => hv ?_
        rw [hk, ← of_decide_eq_true hkey]
        exact List.mem_map_of_mem hx
      simp [hk, hrest]
    · simp [hk]

/-- A dictionary of rows by their keys finds a row of the key. -/
theorem mem_of_get?_foldl_set {key : ν → κ} {rows : List ν} {d : Dict κ ν} {k : κ} {v : ν}
    (h : (rows.foldl (fun d r => d.set (key r) r) d).get? k = some v) : (v ∈ rows ∧ key v = k) ∨ d.get? k = some v := by
  induction rows generalizing d with
  | nil => exact .inr h
  | cons r rows ih =>
    rcases ih h with ⟨hmem, hkey⟩ | hset
    · exact .inl ⟨List.mem_cons_of_mem _ hmem, hkey⟩
    · rw [get?_set] at hset
      split at hset
      · rename_i hk
        obtain rfl := Option.some.inj hset
        exact .inl ⟨List.mem_cons_self, hk⟩
      · exact .inr hset

theorem mem_keys_foldl_set {key : ν → κ} {rows : List ν} {d : Dict κ ν} {k : κ} :
    k ∈ (rows.foldl (fun d r => d.set (key r) r) d).map Prod.fst ↔ k ∈ rows.map key ∨ k ∈ d.map Prod.fst := by
  induction rows generalizing d with
  | nil => simp
  | cons r rows ih =>
    rw [List.foldl_cons, ih, mem_keys_set, List.map_cons, List.mem_cons]
    exact or_left_comm.trans or_assoc.symm

/-- `d.update(e)`: what `e` holds replaces what `d` held. -/
theorem get?_update {e : Dict κ ν} (h : (e.map Prod.fst).Nodup) (d : Dict κ ν) (k : κ) :
    (e.foldl (fun d x => d.set x.1 x.2) d).get? k = (e.get? k).or (d.get? k) := by
  induction e generalizing d with
  | nil => rfl
  | cons x xs ih =>
    obtain ⟨hx, hxs⟩ := List.nodup_cons.mp h
    rw [List.foldl_cons, ih hxs, get?_set, get?_cons]
    by_cases hk : x.1 = k
    · rw [if_pos hk, if_pos hk, get?_eq_none (hk ▸ hx), Option.none_or, Option.some_or]
    · rw [if_neg hk, if_neg hk]

theorem get?_pop (d : Dict κ ν) (k k' : κ) : (d.pop k).get? k' = if k = k' then none else d.get? k' := by
  induction d with
  | nil => split <;> rfl
  | cons e d ih =>
    unfold pop at *
    rw [List.filter_cons]
    by_cases he : e.1 = k
    · rw [if_neg (by simp [he]), ih, get?_cons, he]
      split
      · rfl
      · rfl
    · rw [if_pos (by simp [he]), get?_cons, get?_cons, ih]
      by_cases hk : e.1 = k'
      · have hne : k ≠ k' := fun h => he (hk.trans h.symm)
        simp [hk, hne]
      · simp [hk]

theorem get?_mapValues (f : ν → ν) (d : Dict κ ν) (k : κ) : (mapValues f d).get? k = (d.get? k).map f := by
  induction d with
  | nil => rfl
  | cons e d ih =>
    show get? ((e.1, f e.2) :: mapValues f d) k = _
    rw [get?_cons, get?_cons, ih]
    split <;> rfl

theorem mapValues_set (f : ν → ν) (d : Dict κ ν) (k : κ) (v : ν) :
    mapValues f (d.set k v) = (mapValues f d).set k (f v) := by
  have hkeys : (mapValues f d).map Prod.fst = d.map Prod.fst := by simp [mapValues]
  unfold set
  rw [hkeys]
  split
  · simp only [mapValues, List.map_map]
    refine List.map_congr_left fun e _ => ?_
    simp only [Function.comp_apply]
    split <;> rfl
  · simp [mapValues]

theorem mapValues_pop (f : ν → ν) (d : Dict κ ν) (k : κ) : mapValues f (d.pop k) = (mapValues f d).pop k := by
  simp only [mapValues, pop, List.filter_map]
  rfl

theorem mem_set {d : Dict κ ν} {k : κ} {v : ν} {e : κ × ν} :
    e ∈ d.set k v ↔ (e ∈ d ∧ e.1 ≠ k) ∨ e = (k, v) := by
  unfold set
  split
  · rename_i h
    obtain ⟨e', he', hk⟩ := List.mem_map.mp h
    rw [List.mem_map]
    constructor
    · rintro ⟨x, hx, rfl⟩
      by_cases hxk : x.1 = k
      · simp [hxk]
      · simp [hxk, hx]
    · rintro (⟨hmem, hne⟩ | rfl)
      · exact ⟨e, hmem, if_neg hne⟩
      · exact ⟨e', he', if_pos hk⟩
  · rename_i h
    have hne : ∀ x ∈ d, x.1 ≠ k := fun x hx he => h (he ▸ List.mem_map_of_mem hx)
    rw [List.mem_append, List.mem_singleton]
    exact or_congr (by grind) Iff.rfl

theorem nodup_set {d : Dict κ ν} (h : (d.map Prod.fst).Nodup) (k : κ) (v : ν) :
    ((d.set k v).map Prod.fst).Nodup := by
  unfold set
  split
  · have hkeys : (d.map fun e => if e.1 = k then (k, v) else e).map Prod.fst = d.map Prod.fst := by
      rw [List.map_map]
      refine List.map_congr_left fun e _ => ?_
      by_cases he : e.1 = k <;> simp [he]
    rwa [hkeys]
  · rename_i hfresh
    rw [List.map_append, List.map_singleton]
    exact List.nodup_append.mpr ⟨h, List.nodup_singleton k, by
      intro a ha b hb hab
      rw [List.mem_singleton] at hb
      rw [hab, hb] at ha
      exact hfresh ha⟩

theorem get?_filterMap (keys : List κ) (f : κ → Option ν) (k : κ) :
    get? (keys.filterMap fun k => (f k).map (k, ·)) k = if k ∈ keys then f k else none := by
  induction keys with
  | nil => rfl
  | cons k' keys ih =>
    rw [List.filterMap_cons]
    cases hf : f k' with
    | none =>
      simp only [Option.map_none, ih]
      grind
    | some v =>
      simp only [Option.map_some, get?_cons, ih]
      grind

/-- A query that returns its rows by key answers for each of the keys. -/
theorem get?_ofKeys (keys : List κ) (f : κ → Option ν) (k : κ) :
    get? (ofKeys keys f) k = if k ∈ keys then f k else none := by
  rw [ofKeys, get?_filterMap]
  simp only [List.mem_dedup]

end Dict

end TwinVoice.Lib
