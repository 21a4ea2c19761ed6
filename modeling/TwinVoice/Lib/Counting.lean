import TwinVoice.Lib.Dict

/-! # Counted keys

Keys are held several times over, and a dictionary counts how often. Holding
some keys more reports those that nobody held before, and giving them up
reports those that nobody holds any more. -/

namespace TwinVoice.Lib.Dict

variable {κ : Type} [DecidableEq κ]

/-- The entries are the keys that are held, with their numbers. -/
def Counts (d : Dict κ Nat) (held : κ → Nat) : Prop :=
  ∀ k, d.get? k = if held k = 0 then none else some (held k)

/-- Each of the keys is held once more. -/
def acquire : Dict κ Nat → List κ → Dict κ Nat × List κ
  | d, [] => (d, [])
  | d, k :: ks =>
    let count := (d.get? k).getD 0
    let after := acquire (d.set k (count + 1)) ks
    (after.1, if count = 0 then k :: after.2 else after.2)

/-- Each of the keys is held once less. -/
def release : Dict κ Nat → List κ → Dict κ Nat × List κ
  | d, [] => (d, [])
  | d, k :: ks =>
    let count := (d.get? k).getD 1 - 1
    let after := release (if count = 0 then d.pop k else d.set k count) ks
    (after.1, if count = 0 then k :: after.2 else after.2)

theorem Counts.congr {d : Dict κ Nat} {held held' : κ → Nat} (h : Counts d held) (same : ∀ k, held k = held' k) :
    Counts d held' := (funext same : held = held') ▸ h

theorem Counts.mem_keys {d : Dict κ Nat} {held : κ → Nat} (h : Counts d held) (k : κ) :
    k ∈ d.map Prod.fst ↔ held k ≠ 0 := by
  have hmem : k ∈ d.map Prod.fst ↔ d.get? k ≠ none := by
    refine ⟨fun hk hnone => ?_, fun hsome => by_contra fun hk => hsome (get?_eq_none hk)⟩
    obtain ⟨e, he, rfl⟩ := List.mem_map.mp hk
    have hall : ∀ p ∈ d, (e.1 != p.1) = true := List.lookup_eq_none_iff.mp hnone
    simpa using hall e he
  rw [hmem, h k]
  split <;> simp_all

theorem Counts.getD {d : Dict κ Nat} {held : κ → Nat} (h : Counts d held) (k : κ) : (d.get? k).getD 0 = held k := by
  rw [h k]
  split <;> simp_all

/-- One key is held once more. -/
theorem Counts.set {d : Dict κ Nat} {held : κ → Nat} (h : Counts d held) (k : κ) :
    Counts (d.set k (held k + 1)) fun x => held x + if k = x then 1 else 0 := by
  intro x
  rw [get?_set]
  by_cases hx : k = x
  · subst hx
    simp
  · simp [hx, h x]

theorem Counts.acquire {d : Dict κ Nat} {held : κ → Nat} (h : Counts d held) (ks : List κ) :
    Counts (d.acquire ks).1 (fun k => held k + ks.count k) ∧ ∀ k, k ∈ (d.acquire ks).2 ↔ k ∈ ks ∧ held k = 0 := by
  induction ks generalizing d held with
  | nil =>
    refine ⟨h, fun k => ?_⟩
    simp [Dict.acquire]
  | cons k ks ih =>
    obtain ⟨hcounts, hadded⟩ := ih (h.set k)
    unfold Dict.acquire
    dsimp only
    rw [h.getD]
    refine ⟨hcounts.congr fun x => ?_, fun x => ?_⟩
    · rw [List.count_cons]
      simp only [beq_iff_eq]
      omega
    · have hrest := hadded x
      by_cases hx : k = x
      · subst hx
        simp only [if_true, Nat.add_one_ne_zero, and_false, iff_false] at hrest
        split <;> simp_all
      · simp only [hx, if_false, Nat.add_zero] at hrest
        split <;> simp [hrest, Ne.symm hx]

/-- One key is held once less. -/
theorem Counts.drop {d : Dict κ Nat} {held : κ → Nat} {k : κ} (h : Counts d fun x => held x + if k = x then 1 else 0) :
    Counts (if held k = 0 then d.pop k else d.set k (held k)) held := by
  intro x
  split
  · rename_i hzero
    rw [get?_pop]
    by_cases hx : k = x
    · subst hx
      simp [hzero]
    · simpa [hx] using h x
  · rename_i hpos
    rw [get?_set]
    by_cases hx : k = x
    · subst hx
      simp [hpos]
    · simpa [hx] using h x

theorem Counts.release {d : Dict κ Nat} {held : κ → Nat} {ks : List κ} (h : Counts d fun k => held k + ks.count k) :
    Counts (d.release ks).1 held ∧ ∀ k, k ∈ (d.release ks).2 ↔ k ∈ ks ∧ held k = 0 := by
  induction ks generalizing d with
  | nil =>
    refine ⟨h, fun k => ?_⟩
    simp [Dict.release]
  | cons k ks ih =>
    have hfirst : Counts d fun x => (held x + ks.count x) + if k = x then 1 else 0 := by
      refine h.congr fun x => ?_
      rw [List.count_cons]
      simp only [beq_iff_eq]
      omega
    have hcount : (d.get? k).getD 1 - 1 = held k + ks.count k := by
      rw [hfirst k]
      simp
    obtain ⟨hcounts, hremoved⟩ := ih hfirst.drop
    unfold Dict.release
    dsimp only
    rw [hcount]
    refine ⟨hcounts, fun x => ?_⟩
    by_cases hzero : held k + ks.count k = 0
    · have hgone : held k = 0 ∧ k ∉ ks := by
        refine ⟨by omega, fun hk => ?_⟩
        have := List.count_pos_iff.mpr hk
        omega
      rw [if_pos hzero, List.mem_cons, hremoved x, List.mem_cons]
      by_cases hx : x = k
      · subst hx
        simp [hgone]
      · simp [hx]
    · rw [if_neg hzero, hremoved x, List.mem_cons]
      by_cases hx : x = k
      · subst hx
        refine ⟨fun hk => ⟨.inl rfl, hk.2⟩, fun hk => ⟨?_, hk.2⟩⟩
        refine List.count_pos_iff.mp ?_
        omega
      · simp [hx]

end TwinVoice.Lib.Dict
